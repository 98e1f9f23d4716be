/-
Module: ComponentAtlas.Service.Respond
Purpose: The answers of the service.
Main exports:
  Response, Host, State, respond
-/
import ComponentAtlas.Catalog.Query
import ComponentAtlas.Service.Request

namespace ComponentAtlas.Service

/-!
The service opens the catalog when a request first needs it and keeps it from then
on.  As long as it cannot be opened, every such request is refused and the next one
tries again.
-/

/-- The answer to a request. -/
inductive Response where
  | document (status : Nat) (body : Data)
  /-- The body of the request does not follow its form. -/
  | invalidRequest
deriving Repr

/-- A way to open the catalog. -/
abbrev Host := Moment → List Journal.Record × Except Fault Catalog

/-- What the service keeps between requests. -/
structure State where
  catalog : Option Catalog := none
  /-- The log of attempts to open the catalog that failed. -/
  attempts : List Journal.Record := []

def State.journal (state : State) : List Journal.Record :=
  state.attempts ++ (state.catalog.map (·.journal)).getD []

def detail (fault : Fault) : List (String × Data) := [("detail", .text fault.text)]

/-- The answer that tells of a failure; failures that nothing foresees are passed
on. -/
def refusal (fault : Fault) : Except Fault Response :=
  if fault.kind = .missingComponent then .ok (.document 404 (.record (detail fault)))
  else if fault.kind = .configuration then
    .ok (.document 500 (.record (detail fault ++ [("errors", .texts fault.details)])))
  else if fault.kind.isBadValue then .ok (.document 400 (.record (detail fault)))
  else .error fault

/-- A document that tells why there is no other one. -/
def refused (status : Nat) (words : String) : Response :=
  .document status (.record [("detail", .text words)])

/-- The service after a request, and its answer. -/
abbrev Reply := State × Except Fault Response

/-- Answer with a document about the catalog. -/
def reply {α : Type} (state : State) (answer : Answer α) (write : α → Data) : Reply :=
  ({ state with catalog := some answer.1 },
    match answer.2 with
    | .ok value => .ok (.document 200 (write value))
    | .error fault => refusal fault)

def listed {α : Type} (write : α → Data) (items : List α) : Data := .list (items.map write)

def filled? (text : Option String) : Option String := text.filter fun value => !value.isEmpty

/-- Answer a question for similar components, by name or by description. -/
def answerSimilar (state : State) (catalog : Catalog) (moment : Moment)
    (query : SimilarQuery) : Reply :=
  match filled? query.name, filled? query.description with
  | some name, _ =>
    reply state (catalog.similar moment name query.threshold query.limit) (listed Match.data)
  | none, some description =>
    reply state (catalog.describe moment description (query.props.getD [])) (listed Match.data)
  | none, none => (state, .ok (refused 422 "Either name or description is required"))

def answer (state : State) (catalog : Catalog) (moment : Moment) (request : Request) :
    Route → Reply
  | .health => (state, .ok (.document 200 (.record [("status", .text "ok")])))
  | .components =>
    reply state
      (catalog.summaries moment (request.parameter? "category") (request.parameter? "framework"))
      (listed Summary.data)
  | .details name => reply state (catalog.details moment name) Component.data
  | .similar =>
    match SimilarQuery.ofData? request.body with
    | some query => answerSimilar state catalog moment query
    | none => (state, .ok .invalidRequest)
  | .design =>
    reply state (catalog.design moment (request.parameter? "category")) Design.Snapshot.data
  | .categories => reply state (catalog.categories moment) (listed CategoryInfo.data)
  | .cacheStats => reply state (catalog, .ok catalog.cacheStats) id

/-- Answer a request about a known route, opening the catalog if need be. -/
def respondAt (host : Host) (state : State) (moment : Moment) (request : Request)
    (route : Route) : Reply :=
  match state.catalog with
  | some catalog => answer state catalog moment request route
  | none =>
    match host moment with
    | (_, .ok catalog) => answer { state with catalog := some catalog } catalog moment request route
    | (log, .error fault) => ({ state with attempts := state.attempts ++ log }, refusal fault)

def respond (host : Host) (state : State) (moment : Moment) (request : Request) : Reply :=
  match Route.ofPath? request.path with
  | none => (state, .ok (refused 404 "Not Found"))
  | some route =>
    if request.method ≠ route.method then (state, .ok (refused 405 "Method Not Allowed"))
    else if route = .health then
      (state, .ok (.document 200 (.record [("status", .text "ok")])))
    else respondAt host state moment request route

end ComponentAtlas.Service
