/-
Module: ComponentAtlas.Similarity.Score
Purpose: How alike two components are, as a number.
Main exports:
  share, nameScore, propsScore, stylesScore, Weights, similarityWith,
  similarity
-/
import ComponentAtlas.Component.Basic
import ComponentAtlas.Component.Imports
import ComponentAtlas.Similarity.EditDistance

namespace ComponentAtlas.Similarity

/-!
The score is a weighted mean of five scores between zero and one.  It works over
any type of numbers; the program uses floats, and exact statements use rational
numbers.
-/

section Scores

variable {α : Type} [OfScientific α] [Div α]

/-- One of the two numbers is a share of the other. -/
def share (ofNat : Nat → α) (part whole : Nat) : α := ofNat part / ofNat whole

/-- Names are alike by the share of characters that an edit leaves. -/
def nameScore (ofNat : Nat → α) (left right : String) : α :=
  let longest := max left.length right.length
  if longest = 0 then 1.0
  else share ofNat (longest - editDistance left.toList right.toList) longest

/-- A score that needs something on both sides: one for nothing on either side,
and zero for nothing on one of them. -/
def compared {β : Type} (left right : List β) (score : α) : α :=
  if left.isEmpty && right.isEmpty then 1.0
  else if left.isEmpty || right.isEmpty then 0.0
  else score

def propKey (prop : PropDecl) : String × String := (prop.name, prop.type)

/-- The number of props on the left that the right has too. -/
def commonProps (left right : List PropDecl) : Nat :=
  let others := right.map propKey
  left.countP fun prop => propKey prop ∈ others

/-- The number of names of props on either side. -/
def propNames (left right : List PropDecl) : Nat :=
  (distinct ((left ++ right).map (·.name))).length

/-- One, or less when the number is less than one. -/
def atMostOne [LT α] [DecidableLT α] (x : α) : α := if x < 1.0 then x else 1.0

/-- Props are alike by the share of common props in all names, which counts as one
when names repeat so often that it would exceed one. -/
def propsScore [LT α] [DecidableLT α] (ofNat : Nat → α) (left right : List PropDecl) : α :=
  compared left right (atMostOne (share ofNat (commonProps left right) (propNames left right)))

def styleKey (style : StyleDecl) : String × String := (style.property, style.value)

/-- Styles are alike by the share of common declarations in all declarations, each
counted once. -/
def stylesScore (ofNat : Nat → α) (left right : List StyleDecl) : α :=
  let ours := distinct (left.map styleKey)
  let theirs := distinct (right.map styleKey)
  compared left right
    (share ofNat (ours.countP (· ∈ theirs)) (distinct (ours ++ theirs)).length)

/-- What each of the five scores counts. -/
structure Weights (α : Type) where
  name : α
  category : α
  framework : α
  props : α
  styles : α

def weights : Weights α :=
  { name := 0.3, category := 0.2, framework := 0.1, props := 0.25, styles := 0.15 }

variable [Add α] [Mul α] [LT α] [DecidableLT α]

def Weights.total (w : Weights α) : α := w.name + w.category + w.framework + w.props + w.styles

def addIf (condition : Bool) (weight sum : α) : α := if condition then sum + weight else sum

def weightedSum (w : Weights α) (ofNat : Nat → α) (left right : Component) : α :=
  let byName := 0.0 + nameScore ofNat left.name right.name * w.name
  let byCategory := addIf (left.category = right.category) w.category byName
  let byFramework := addIf (left.framework = right.framework) w.framework byCategory
  byFramework + propsScore ofNat left.props right.props * w.props +
    stylesScore ofNat left.styles right.styles * w.styles

/-- How alike two components are: one for the same component, else the weighted
mean. -/
def similarityWith (w : Weights α) (ofNat : Nat → α) (left right : Component) : α :=
  if left.name = right.name && left.filePath = right.filePath then 1.0
  else weightedSum w ofNat left right / w.total

end Scores

/-- How alike two components are, as a float. -/
def similarity (left right : Component) : Float := similarityWith weights Float.ofNat left right

end ComponentAtlas.Similarity
