/-
Module: ComponentAtlas.Similarity.Ranking
Purpose: The components most like a given one, with reasons and differences.
Main exports:
  limited, ranked, reasons, differences, similarWith, similarTo
-/
import ComponentAtlas.Similarity.Score

namespace ComponentAtlas.Similarity

/-- The first entries up to a limit.  No limit and zero both mean all entries, and
a negative limit counts from the end. -/
def limited {β : Type} (limit : Option Int) (entries : List β) : List β :=
  match limit with
  | none => entries
  | some n =>
    if n = 0 then entries
    else if 0 < n then entries.take n.toNat
    else entries.take (entries.length - n.natAbs)

/-- The entries whose score is not below a threshold, the highest first and equal
ones in the given order. -/
def ranked {α β : Type} [LE α] [DecidableLE α] [LT α] [DecidableLT α] (score : β → α)
    (threshold : α) (entries : List β) : List (β × α) :=
  ((entries.map fun entry => (entry, score entry)).filter
    fun entry => !decide (entry.2 < threshold)).mergeSort fun a b => b.2 ≤ a.2

/-- The candidates that may be compared with a target: all, or those of other
files. -/
def rivals (includeSelf : Bool) (target : Component) (candidates : List Component) :
    List Component :=
  candidates.filter fun candidate => includeSelf || candidate.filePath ≠ target.filePath

def listed (names : List String) : String := ", ".intercalate names

def listing (label : String) (names : List String) : List String :=
  if names.isEmpty then [] else [label ++ listed names]

def lineIf (condition : Bool) (line : String) : List String := if condition then [line] else []

/-- Names of the first props that the second have too, or have not. -/
def sharedNames (isShared : Bool) (left right : List PropDecl) : List String :=
  let others := right.map (·.name)
  (left.map (·.name)).filter fun name => decide (name ∈ others) = isShared

def differences (left right : Component) : List String :=
  lineIf (left.category ≠ right.category)
      ("Different categories: " ++ left.category ++ " vs " ++ right.category) ++
    lineIf (left.framework ≠ right.framework)
      ("Different frameworks: " ++ left.framework ++ " vs " ++ right.framework) ++
    listing ("Unique props in " ++ left.name ++ ": ")
      (sharedNames false left.props right.props) ++
    listing ("Unique props in " ++ right.name ++ ": ")
      (sharedNames false right.props left.props)

section Matches

variable {α : Type} [OfScientific α] [Div α] [LT α] [DecidableLT α]

/-- What two components have in common.  Names are told to be similar when their score
is above one half. -/
def reasons (ofNat : Nat → α) (left right : Component) : List String :=
  lineIf (left.category = right.category) ("Same category: " ++ left.category) ++
    lineIf (left.framework = right.framework) ("Same framework: " ++ left.framework) ++
    listing "Common props: " (sharedNames true left.props right.props) ++
    lineIf ((0.5 : α) < nameScore ofNat left.name right.name)
      ("Similar names: " ++ left.name ++ " / " ++ right.name)

def matchOf (ofNat : Nat → α) (target candidate : Component) (score : α) : Match α :=
  { component := candidate
    similarity := score
    reasons := reasons ofNat target candidate
    differences := differences target candidate }

/-- The candidates most like a target, by scores with some weights. -/
def similarWith [Add α] [Mul α] [LE α] [DecidableLE α] (w : Weights α) (ofNat : Nat → α)
    (target : Component) (candidates : List Component) (threshold : α) (limit : Option Int)
    (includeSelf : Bool) : List (Match α) :=
  limited limit
    ((ranked (similarityWith w ofNat target) threshold
      (rivals includeSelf target candidates)).map
        fun entry => matchOf ofNat target entry.1 entry.2)

end Matches

/-- The candidates most like a target, by scores in floats. -/
def similarTo (target : Component) (candidates : List Component) (threshold : Float)
    (limit : Option Int) (includeSelf : Bool) : List (Match Float) :=
  similarWith weights Float.ofNat target candidates threshold limit includeSelf

end ComponentAtlas.Similarity
