/-
Module: ComponentAtlas.Proofs.Path.Names
Purpose: Names as a machine allows them, and paths as their text spells them.
Main exports:
  IsName, HasNames, below, eq_of_text_eq, absolute_of_hasNames, above_notMem_normal
-/
import ComponentAtlas.Proofs.Text.Words
import ComponentAtlas.Settings.Workspace

namespace ComponentAtlas.Path

open ComponentAtlas.Text

/-- A name that can stand in a directory. -/
structure IsName (name : List Char) : Prop where
  ne_nil : name ≠ []
  ne_dot : name ≠ ['.']
  ne_above : name ≠ above
  no_slash : '/' ∉ name
  no_null : Char.ofNat 0 ∉ name

instance : DecidablePred IsName := fun name =>
  decidable_of_iff
    (name ≠ [] ∧ name ≠ ['.'] ∧ name ≠ above ∧ '/' ∉ name ∧ Char.ofNat 0 ∉ name)
    ⟨fun ⟨a, b, c, d, e⟩ => ⟨a, b, c, d, e⟩, fun ⟨a, b, c, d, e⟩ => ⟨a, b, c, d, e⟩⟩

/-- A path all of whose parts are names, so that it has no two dots. -/
def HasNames (path : Path) : Prop := ∀ name ∈ path.parts, IsName name

/-- The path of a way of names below a directory. -/
def below (path : Path) (way : List (List Char)) : Path :=
  { path with parts := path.parts ++ way }

@[simp] theorem below_nil (path : Path) : path.below [] = path := by
  simp [below]

@[simp] theorem below_child (path : Path) (name : List Char) (way : List (List Char)) :
    (path.child name).below way = path.below (name :: way) := by
  simp [below, child]

theorem child_eq_below (path : Path) (name : List Char) :
    path.child name = path.below [name] := rfl

@[simp] theorem parts_below (path : Path) (way : List (List Char)) :
    (path.below way).parts = path.parts ++ way := rfl

@[simp] theorem slashes_below (path : Path) (way : List (List Char)) :
    (path.below way).slashes = path.slashes := rfl

theorem join_of_isAbsolute (base : Path) {path : Path} (absolute : path.isAbsolute) :
    base.join path = path :=
  if_pos absolute

theorem below_inj {path : Path} {way other : List (List Char)} :
    path.below way = path.below other ↔ way = other := by
  simp [below]

theorem HasNames.below {path : Path} (named : path.HasNames) {way : List (List Char)}
    (wayNamed : ∀ name ∈ way, IsName name) : (path.below way).HasNames := by
  intro name member
  rcases List.mem_append.mp member with old | new
  · exact named name old
  · exact wayNamed name new

theorem HasNames.not_hasNull {path : Path} (named : path.HasNames) :
    Disk.hasNull path = false := by
  simp only [Disk.hasNull, List.any_eq_false, List.contains_iff_mem]
  intro name member
  exact (named name member).no_null

/-!
Text spells out the slashes in front and the names.  Both can be read back, so two
paths made of names that are written alike are the same path.
-/

theorem names_append_slash (before after : List Char) :
    names (before ++ '/' :: after) = names before ++ names after := by
  simp [names, splitWhere_append_cons (p := fun c => decide (c = '/'))]

theorem IsName.names_eq {name : List Char} (isName : IsName name) : names name = [name] := by
  have pieces : splitWhere (· = '/') name = [name] :=
    splitWhere_of_none fun c member slash => by
      simp only [decide_eq_true_eq] at slash
      exact isName.no_slash (slash ▸ member)
  simp [names, pieces, isName.ne_nil, isName.ne_dot]

theorem names_joinWith {parts : List (List Char)} (named : ∀ name ∈ parts, IsName name) :
    names (joinWith ['/'] parts) = parts := by
  induction parts with
  | nil => rfl
  | cons name rest ih =>
      cases rest with
      | nil => exact (named name (by simp)).names_eq
      | cons next others =>
          rw [joinWith.eq_3 _ _ _ (by simp), List.append_assoc, List.singleton_append,
            names_append_slash, (named name (by simp)).names_eq,
            ih fun other member => named other (List.mem_cons_of_mem _ member)]
          rfl

theorem names_replicate_slash (count : Nat) (text : List Char) :
    names (List.replicate count '/' ++ text) = names text := by
  induction count with
  | zero => rfl
  | succ count ih =>
      rw [List.replicate_succ, List.cons_append, ← List.nil_append ('/' :: _),
        names_append_slash, ih]
      rfl

/-- The names of a path are read back from its characters. -/
theorem names_chars {path : Path} (named : path.HasNames) : names path.chars = path.parts := by
  rw [chars]
  split
  · rename_i isEmpty
    simp only [Bool.and_eq_true, List.isEmpty_iff, decide_eq_true_eq] at isEmpty
    rw [isEmpty.2]
    rfl
  · rw [names_replicate_slash, names_joinWith named]

theorem head?_joinWith_ne_slash {parts : List (List Char)}
    (named : ∀ name ∈ parts, IsName name) : (joinWith ['/'] parts).head? ≠ some '/' := by
  cases parts with
  | nil => simp [joinWith]
  | cons name rest =>
      have isName := named name (by simp)
      obtain ⟨c, others, rfl⟩ := List.exists_cons_of_ne_nil isName.ne_nil
      have notSlash : c ≠ '/' := fun slash => isName.no_slash (by simp [slash])
      cases rest <;> simp [joinWith, notSlash]

/-- The slashes in front are read back from the characters of a path. -/
theorem takeWhile_slash_chars {path : Path} (named : path.HasNames) :
    path.chars.takeWhile (· = '/') = List.replicate path.slashes '/' := by
  rw [chars]
  split
  · rename_i isEmpty
    simp only [Bool.and_eq_true, List.isEmpty_iff, decide_eq_true_eq] at isEmpty
    rw [isEmpty.1]
    rfl
  · have noSlash := head?_joinWith_ne_slash named
    rw [List.takeWhile_append_of_pos (by simp [List.mem_replicate])]
    cases joined : joinWith ['/'] path.parts with
    | nil => simp
    | cons c rest =>
        have : c ≠ '/' := by simpa [joined] using noSlash
        simp [this]

/-- Paths made of names that are written alike are the same. -/
theorem eq_of_text_eq {left right : Path} (leftNamed : left.HasNames)
    (rightNamed : right.HasNames) (same : left.text = right.text) : left = right := by
  have sameChars : left.chars = right.chars := by
    simpa [text] using congrArg String.toList same
  have sameParts : left.parts = right.parts := by
    rw [← names_chars leftNamed, sameChars, names_chars rightNamed]
  have sameSlashes : left.slashes = right.slashes := by
    have front := takeWhile_slash_chars leftNamed
    rw [sameChars, takeWhile_slash_chars rightNamed] at front
    simpa using (congrArg List.length front).symm
  cases left
  cases right
  simp_all

/-!
Two dots go from an absolute path when it is brought into its normal form, and a
path made of names is in that form already.
-/

theorem climb_of_name (slashes : Nat) (reversed : List (List Char)) {name : List Char}
    (ne_above : name ≠ above) : climb slashes reversed name = name :: reversed := by
  simp [climb, ne_above]

theorem above_notMem_climb {slashes : Nat} (absolute : slashes ≠ 0)
    {reversed : List (List Char)} (free : above ∉ reversed) (name : List Char) :
    above ∉ climb slashes reversed name := by
  unfold climb
  split
  · cases reversed with
    | nil => simp
    | cons last rest =>
        simp only [List.mem_cons, not_or] at free
        simp [Ne.symm free.1, free.2]
  · rename_i ne_above
    simp [Ne.symm ne_above, free]

/-- The normal form of an absolute path has no two dots. -/
theorem above_notMem_normal {path : Path} (absolute : path.isAbsolute) :
    above ∉ path.normal.parts := by
  have slashes : path.slashes ≠ 0 := by simpa [isAbsolute] using absolute
  suffices free : ∀ (parts reversed : List (List Char)), above ∉ reversed →
      above ∉ parts.foldl (climb path.slashes) reversed by
    simpa [normal] using free path.parts [] (by simp)
  intro parts
  induction parts with
  | nil => exact fun reversed free => free
  | cons name rest ih =>
      exact fun reversed free => ih _ (above_notMem_climb slashes free name)

theorem normal_of_hasNames {path : Path} (named : path.HasNames) : path.normal = path := by
  suffices kept : ∀ (parts reversed : List (List Char)), (∀ name ∈ parts, IsName name) →
      parts.foldl (climb path.slashes) reversed = parts.reverse ++ reversed by
    simp [normal, kept path.parts [] named]
  intro parts
  induction parts with
  | nil => simp
  | cons name rest ih =>
      intro reversed partsNamed
      rw [List.foldl_cons, climb_of_name _ _ (partsNamed name (by simp)).ne_above,
        ih _ fun other member => partsNamed other (List.mem_cons_of_mem _ member)]
      simp

theorem expandUser_of_isAbsolute (users : Users) {path : Path} (absolute : path.isAbsolute) :
    path.expandUser users = .ok path := by
  have slashes : path.slashes ≠ 0 := by simpa [isAbsolute] using absolute
  rw [expandUser]
  split
  · rename_i isRelative _
    exact absurd isRelative slashes
  · rfl

end ComponentAtlas.Path

namespace ComponentAtlas.Workspace

/-- An absolute path made of names is seen from everywhere as it stands. -/
theorem absolute_of_hasNames (workspace : Workspace) {path : Path} (absolute : path.isAbsolute)
    (named : path.HasNames) : workspace.absolute path = .ok path := by
  have joined : workspace.root.join path = path := by simp [Path.join, absolute]
  simp [Workspace.absolute, Path.expandUser_of_isAbsolute _ absolute, joined,
    Path.normal_of_hasNames named, bind, Except.bind, pure, Except.pure]

end ComponentAtlas.Workspace
