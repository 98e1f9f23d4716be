/-
Module: ComponentAtlas.Category.Detector
Purpose: Scores of components by rules, and the categories they lead to.
Main exports:
  Detector, Detector.ofRules, Detector.add, Detector.remove, score,
  Detector.detect, Detector.suggest, stats
-/
import ComponentAtlas.Category.Rule

namespace ComponentAtlas.Category

open ComponentAtlas.Text

/-- Rules in the order of their priorities, the highest first; equal ones stay in
the order in which they were added. -/
structure Detector (α : Type) where
  rules : List (Rule α)
deriving Repr

/-- The order of rules. -/
def byPriority {α : Type} [LE α] [DecidableLE α] (rules : List (Rule α)) : List (Rule α) :=
  rules.mergeSort fun a b => b.priority ≤ a.priority

def Detector.ofRules {α : Type} [LE α] [DecidableLE α] (rules : List (Rule α)) : Detector α :=
  { rules := byPriority rules }

/-- A detector with the rules of the program. -/
def Detector.default : Detector Float := .ofRules defaultRules

/-- Add a rule behind the rules of equal priority. -/
def Detector.add {α : Type} [LE α] [DecidableLE α] (detector : Detector α) (rule : Rule α) :
    Detector α :=
  { rules := byPriority (detector.rules ++ [rule]) }

/-- Remove the first rule with a name; the answer tells whether there was one. -/
def Detector.remove {α : Type} (detector : Detector α) (name : String) : Detector α × Bool :=
  ({ rules := detector.rules.eraseP fun rule => rule.name = name },
    detector.rules.any fun rule => rule.name = name)

/-- The pattern, in lower case, occurs in the text. -/
def hitsIn (pattern : String) (text : List Char) : Bool := occursIn (lowered pattern) text

section Score

variable {α : Type} [Add α] [Mul α]

/-- Add the weight of every hit of the patterns to a score. -/
def addHits (priority weight : α) (isHit : String → Bool) (patterns : List String) (sum : α) :
    α :=
  patterns.foldl (fun sum pattern => if isHit pattern then sum + priority * weight else sum) sum

/-- The score of the places that a rule names: path, file or component name, and
source. -/
def placeScore (w : Weights α) (zero : α) (rule : Rule α) (signals : Signals) : α :=
  let byPath := addHits rule.priority w.path (hitsIn · signals.path) rule.pathPatterns zero
  let byName :=
    addHits rule.priority w.fileName
      (fun pattern => hitsIn pattern signals.fileName || hitsIn pattern signals.componentName)
      rule.fileNamePatterns byPath
  match signals.content with
  | some content =>
    addHits rule.priority w.content (hitsIn · content) rule.contentPatterns byName
  | none => byName

/-- The score of a rule: that of the places, and for every prop that of the content
patterns in its name or type. -/
def score (w : Weights α) (zero : α) (rule : Rule α) (signals : Signals) : α :=
  signals.props.foldl
    (fun sum prop =>
      addHits rule.priority w.prop (fun pattern => hitsIn pattern prop.1 || hitsIn pattern prop.2)
        rule.contentPatterns sum)
    (placeScore w zero rule signals)

/-- The rule with the best score above a given one; of equal scores the first
counts. -/
def best [LT α] [DecidableLT α] (rate : Rule α → α) (name : String) (highest : α) :
    List (Rule α) → String
  | [] => name
  | rule :: rest =>
    let rating := rate rule
    if highest < rating then best rate rule.name rating rest else best rate name highest rest

/-- The category of a component: that of the best rule with a positive score. -/
def Detector.detectWith [LT α] [DecidableLT α] (detector : Detector α) (w : Weights α) (zero : α)
    (signals : Signals) : String :=
  best (fun rule => score w zero rule signals) generalCategory zero detector.rules

/-- A category that a component may belong to, and how much of its rule was
found. -/
structure Suggestion (α : Type) where
  category : String
  confidence : α
deriving Repr, DecidableEq

/-- The numbers that suggestions compare with. -/
structure Bounds (α : Type) where
  zero : α
  one : α
  /-- Confidence up to this is left out. -/
  least : α
  /-- A number of patterns as a number. -/
  ofNat : Nat → α

/-- The score of a rule all of whose patterns are found. -/
def fullScore (w : Weights α) (b : Bounds α) (rule : Rule α) : α :=
  (b.ofNat rule.pathPatterns.length * w.path + b.ofNat rule.fileNamePatterns.length * w.fileName +
    b.ofNat rule.contentPatterns.length * w.content) * rule.priority

/-- A number, or one when it is greater than one. -/
def clamp [LT α] [DecidableLT α] (b : Bounds α) (x : α) : α := if b.one < x then b.one else x

/-- The suggestion of a rule, when its score is positive and its confidence high
enough. -/
def suggestion? [Div α] [LT α] [DecidableLT α] [LE α] [DecidableLE α] (w : Weights α)
    (b : Bounds α) (signals : Signals) (rule : Rule α) : Option (Suggestion α) :=
  let full := fullScore w b rule
  let found := placeScore w b.zero rule signals
  if found ≤ b.zero || full ≤ b.zero then none
  else
    let confidence := clamp b (found / full)
    if b.least < confidence then some { category := rule.name, confidence } else none

/-- The three suggestions of highest confidence, the highest first. -/
def Detector.suggestWith [Div α] [LT α] [DecidableLT α] [LE α] [DecidableLE α]
    (detector : Detector α) (w : Weights α) (b : Bounds α) (signals : Signals) :
    List (Suggestion α) :=
  ((detector.rules.filterMap (suggestion? w b signals)).mergeSort fun x y =>
    y.confidence ≤ x.confidence).take 3

end Score

def bounds : Bounds Float := { zero := 0, one := 1, least := 0.1, ofNat := Float.ofNat }

/-- The category of a component with its source. -/
def Detector.detect (detector : Detector Float) (component : Component)
    (content : Option String) : String :=
  detector.detectWith weights 0 (Signals.of component content)

/-- The categories that suggest themselves for a component with its source. -/
def Detector.suggest (detector : Detector Float) (component : Component)
    (content : Option String) : List (Suggestion Float) :=
  detector.suggestWith weights bounds (Signals.of component content)

def Suggestion.data (found : Suggestion Float) : Data :=
  .record [("category", .text found.category), ("confidence", .float found.confidence)]

def countOne (counts : List (String × Nat)) (name : String) : List (String × Nat) :=
  match counts with
  | [] => [(name, 1)]
  | (other, n) :: rest =>
    if other = name then (other, n + 1) :: rest else (other, n) :: countOne rest name

/-- The number of components in each category, in the order of first occurrence;
components without a category count as general. -/
def stats (components : List Component) : List (String × Nat) :=
  (components.map fun component =>
    if component.category.isEmpty then generalCategory else component.category).foldl countOne []

end ComponentAtlas.Category
