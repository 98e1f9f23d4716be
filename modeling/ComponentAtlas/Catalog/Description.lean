/-
Module: ComponentAtlas.Catalog.Description
Purpose: Components whose name or description mentions a text.
Main exports:
  Request, textScore, score, matchOf?, matchingWith, matching
-/
import ComponentAtlas.Decimal.Shortest
import ComponentAtlas.Similarity.Ranking
import ComponentAtlas.Text.LowerCase
import ComponentAtlas.Text.Search

namespace ComponentAtlas.Description

open ComponentAtlas.Text
open ComponentAtlas.Similarity

/-- What a query by description asks for. -/
structure Request where
  /-- The description in lower case. -/
  phrase : List Char
  /-- Props that the component should have. -/
  props : List String
deriving Repr, DecidableEq

/-- The request for a description and props; empty names of props do not count. -/
def Request.of (description : String) (props : List String) : Request :=
  { phrase := lower description.toList, props := props.filter fun prop => !prop.isEmpty }

def nameText (component : Component) : List Char := lower component.name.toList

/-- The description of a component in lower case; empty when there is none. -/
def descriptionText (component : Component) : List Char :=
  lower (component.description.getD "").toList

/-- The whole phrase occurs in the name or in the description. -/
def mentions (request : Request) (component : Component) : Bool :=
  occursIn request.phrase (nameText component) ||
    occursIn request.phrase (descriptionText component)

/-- The number of words of the phrase that occur in the name or the description. -/
def wordHits (request : Request) (component : Component) : Nat :=
  (words request.phrase).countP fun word =>
    occursIn word (nameText component ++ [' '] ++ descriptionText component)

/-- The wanted props that the component has, or has not. -/
def propsThat (has : Bool) (request : Request) (component : Component) : List String :=
  request.props.filter fun prop => decide (prop ∈ component.props.map (·.name)) = has

section Scores

variable {α : Type} [OfScientific α] [Div α]

/-- The share of the words that occur, and one when the whole phrase does. -/
def textScore (ofNat : Nat → α) (request : Request) (component : Component) : α :=
  let count := (words request.phrase).length
  if mentions request component then 1.0
  else if count = 0 then 0.0
  else share ofNat (wordHits request component) count

/-- The score of a component: that of its text, and, where props are wanted, for three
tenths the share of those it has. -/
def score [Add α] [Mul α] (ofNat : Nat → α) (request : Request) (component : Component) : α :=
  let byText := textScore ofNat request component
  if request.props.isEmpty then byText
  else
    byText * 0.7 +
      share ofNat (propsThat true request component).length request.props.length * 0.3

/-- What speaks for a component.  When only a part of the words occurs, the share is
told; `percent` writes it. -/
def reasonsFor [LT α] [DecidableLT α] (ofNat : Nat → α) (percent : α → String)
    (request : Request) (component : Component) : List String :=
  let byText := textScore ofNat request component
  lineIf (occursIn request.phrase (nameText component)) "Name match" ++
    lineIf (occursIn request.phrase (descriptionText component)) "Description match" ++
    listing "Matching props: " (propsThat true request component) ++
    lineIf (byText < 1.0) ("Partial text match (" ++ percent byText ++ ")")

/-- The match of a component; there is none when no word occurs. -/
def matchOf? [Add α] [Mul α] [LT α] [DecidableLT α] [LE α] [DecidableLE α] (ofNat : Nat → α)
    (percent : α → String) (request : Request) (component : Component) : Option (Match α) :=
  if textScore ofNat request component ≤ 0.0 then none
  else
    some
      { component
        similarity := score ofNat request component
        reasons := reasonsFor ofNat percent request component
        differences := listing "Missing props: " (propsThat false request component) }

/-- The components that a request finds, the best first and equal ones in the given
order. -/
def matchingWith [Add α] [Mul α] [LT α] [DecidableLT α] [LE α] [DecidableLE α]
    (ofNat : Nat → α) (percent : α → String) (request : Request)
    (components : List Component) : List (Match α) :=
  (components.filterMap (matchOf? ofNat percent request)).mergeSort
    fun a b => b.similarity ≤ a.similarity

end Scores

/-- The components that a request finds, by scores in floats. -/
def matching (request : Request) (components : List Component) : List (Match Float) :=
  matchingWith Float.ofNat Decimal.percentText request components

end ComponentAtlas.Description
