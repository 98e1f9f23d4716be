/-
Module: ComponentAtlas.Proofs.Props.Attachment
Purpose: The prop that a comment describes, as the members of a body are read one after the
  other.
Main exports:
  Describes, IsEndless, not_describes, FollowsAt, FollowsAt.describes_iff, Reading.awaits,
  Reading.described?, Reading.followsAt_described?
-/
import Mathlib.Data.Set.Finite.Basic
import Mathlib.Data.Set.Finite.Lattice
import ComponentAtlas.Proofs.Props.Members

namespace ComponentAtlas.Props

/-!
A comment describes a prop when the description follows the words of the comment, whatever
they are.
-/

/-- The prop with these words for its description. -/
def saying (words : List Char) (prop : PropDecl) : PropDecl :=
  { prop with description := some (String.ofList words) }

section

variable {α : Type} {Tells : α → List Char → Prop} {read : α → List PropDecl} {place : Nat}
  {older newer : List PropDecl} {prop : PropDecl}

/-- Whatever words are told, they are the description of the prop at the place. -/
def Describes (Tells : α → List Char → Prop) (read : α → List PropDecl) (place : Nat) : Prop :=
  ∀ source words, Tells source words →
    (read source)[place]?.bind PropDecl.description = some (String.ofList words)

/-- There is no end to what may be told. -/
def IsEndless (Tells : α → List Char → Prop) : Prop :=
  {words | ∃ source, Tells source words}.Infinite

/-- A description that takes few values does not follow the words. -/
theorem not_describes (endless : IsEndless Tells) {values : Set (Option PropDecl)}
    (few : values.Finite)
    (among : ∀ source words, Tells source words → (read source)[place]? ∈ values) :
    ¬ Describes Tells read place := by
  intro describes
  have fewWords := few.image fun found => ((found.bind PropDecl.description).getD "").toList
  refine endless (fewWords.subset ?_)
  rintro words ⟨source, tells⟩
  refine ⟨_, among source words tells, ?_⟩
  simp only [describes source words tells, Option.getD_some, String.toList_ofList]

theorem getElem?_saying (elsewhere : place ≠ older.length) (words : List Char) :
    (older ++ saying words prop :: newer)[place]? = (older ++ prop :: newer)[place]? := by
  rcases Nat.lt_or_gt_of_ne elsewhere with before | behind
  · rw [List.getElem?_append_left before, List.getElem?_append_left before]
  · have notFirst : place - older.length ≠ 0 := by omega
    obtain ⟨more, isMore⟩ := Nat.exists_eq_succ_of_ne_zero notFirst
    rw [List.getElem?_append_right behind.le, List.getElem?_append_right behind.le, isMore]
    rfl

/-- The words stand in the prop at the place, if there is one, and nothing else depends on
them. -/
def FollowsAt (said : List Char → List PropDecl) : Option Nat → Prop
  | some place => ∃ older prop newer, older.length = place ∧
      ∀ words, said words = older ++ saying words prop :: newer
  | none => ∃ props, ∀ words, said words = props

/-- Words that stand in one prop describe that prop and no other. -/
theorem FollowsAt.describes_iff {said : List Char → List PropDecl} {place? : Option Nat}
    (follows : FollowsAt said place?) (endless : IsEndless Tells)
    (reads : ∀ source words, Tells source words → read source = said words) :
    Describes Tells read place ↔ place? = some place := by
  cases place? with
  | none =>
      obtain ⟨props, same⟩ := follows
      refine iff_of_false (not_describes endless (Set.finite_singleton props[place]?) ?_) (by simp)
      intro source words tells
      rw [reads source words tells, same]
      rfl
  | some found =>
      obtain ⟨older, prop, newer, rfl, stands⟩ := follows
      rw [Option.some_inj]
      refine ⟨fun describes => ?_, ?_⟩
      · by_contra elsewhere
        refine not_describes endless
          (Set.finite_singleton (older ++ prop :: newer)[place]?) ?_ describes
        intro source words tells
        rw [reads source words tells, stands, getElem?_saying (Ne.symm elsewhere)]
        rfl
      · rintro rfl source words tells
        rw [reads source words tells, stands, List.getElem?_append_right le_rfl, Nat.sub_self]
        rfl

end

/-!
The reading of a body.  The words of a comment are carried along: in a member, or waiting for
one.
-/

/-- The member with these words for its description. -/
def Draft.saying (words : List Char) (draft : Draft) : Draft :=
  { draft with description := some words }

/-- The member that a piece starts, before it is described. -/
def Member.draft (member : Member) (piece : Piece) : Draft :=
  { name := member.name
    optional := member.optional
    type := member.type
    separator := piece.separator
    description := none
    openLine := staysOnLine piece.separator }

/-- The props of the members that were read. -/
def Reading.props (reading : Reading) : List PropDecl := reading.drafts.reverse.map Draft.prop

/-- The piece is the first of a member. -/
def Piece.startsMember (piece : Piece) : Bool := (member? piece.code).isSome

/-- A comment would describe the latest member: it has no description, and its line goes on. -/
def Reading.takesLine (reading : Reading) : Bool :=
  reading.drafts.head?.any fun draft => draft.openLine && draft.description.isNone

/-- A comment that waits describes the next member: no other comment comes to wait in its
place, and the member has no comment of its own. -/
def Reading.awaits (reading : Reading) : List Piece → Bool
  | [] => false
  | piece :: later =>
    if piece.startsMember then piece.comment.isNone
    else if piece.code = [] ∧ piece.comment.isSome ∧ ¬ reading.takesLine then false
    else (reading.take piece).awaits later

/-- The words stand in a member behind the older ones, and nothing else depends on them. -/
def Carries (older : List Draft) (readings : List Char → Reading) : Prop :=
  ∃ (newer : List Draft) (draft : Draft) (waiting : Option (List Char)), ∀ words,
    readings words = { drafts := newer ++ draft.saying words :: older, waiting := waiting }

section

variable {older : List Draft} {readings : List Char → Reading} {reading : Reading}
  {piece : Piece} {pieces : List Piece}

theorem member?_nil : member? [] = none := rfl

theorem member?_bracket (rest : List Char) : member? ('[' :: rest) = none := rfl

theorem Reading.take_of_member {member : Member} (isMember : member? piece.code = some member)
    (reading : Reading) : reading.take piece = reading.add member piece := by
  unfold take
  split
  case h_1 none => rw [none, member?_nil] at isMember; cases isMember
  case h_2 isIndex => rw [isIndex, member?_bracket] at isMember; cases isMember
  case h_3 => simp only [isMember]

theorem Carries.takeComment (carries : Carries older readings) (comment : Option (List Char)) :
    Carries older fun words => (readings words).takeComment comment := by
  obtain ⟨newer, draft, waiting, isReading⟩ := carries
  simp only [isReading]
  cases comment with
  | none => exact ⟨newer, draft, waiting, fun _ => rfl⟩
  | some other =>
      cases newer with
      | nil =>
          refine ⟨[], draft, some other, fun words => ?_⟩
          simp [Reading.takeComment, Draft.saying]
      | cons latest newer =>
          simp only [Reading.takeComment, List.cons_append]
          split
          · exact ⟨{ latest with description := some other } :: newer, draft, waiting, fun _ => rfl⟩
          · exact ⟨latest :: newer, draft, some other, fun _ => rfl⟩

theorem Carries.endLine (carries : Carries older readings) (separator : Option Char) :
    Carries older fun words => (readings words).endLine separator := by
  obtain ⟨newer, draft, waiting, isReading⟩ := carries
  simp only [isReading, Reading.endLine]
  by_cases stays : staysOnLine separator
  · refine ⟨newer, draft, waiting, fun words => ?_⟩
    cases newer <;> simp [stays]
  · cases newer with
    | nil =>
        refine ⟨[], { draft with openLine := false }, waiting, fun words => ?_⟩
        simp [stays, Draft.saying]
    | cons latest newer =>
        refine ⟨{ latest with openLine := false } :: newer, draft, waiting, fun words => ?_⟩
        simp [stays]

theorem Carries.continueType (carries : Carries older readings) (piece : Piece) :
    Carries older fun words => (readings words).continueType piece := by
  obtain ⟨newer, draft, waiting, isReading⟩ := carries
  simp only [isReading]
  let longer (draft : Draft) : Draft :=
    { draft with
      type := draft.type ++ draft.separator.toList ++ piece.code
      separator := piece.separator
      openLine := staysOnLine piece.separator }
  cases newer with
  | nil => exact ⟨[], longer draft, waiting, fun _ => rfl⟩
  | cons latest newer => exact ⟨longer latest :: newer, draft, waiting, fun _ => rfl⟩

theorem Carries.add (carries : Carries older readings) (member : Member) (piece : Piece) :
    Carries older fun words => (readings words).add member piece := by
  obtain ⟨newer, draft, waiting, isReading⟩ := carries
  simp only [isReading]
  exact ⟨(({ waiting := waiting } : Reading).add member piece).drafts ++ newer, draft, none,
    fun _ => rfl⟩

theorem Carries.take (carries : Carries older readings) (piece : Piece) :
    Carries older fun words => (readings words).take piece := by
  unfold Reading.take
  split
  · exact (carries.takeComment piece.comment).endLine piece.separator
  · exact carries
  · split
    · exact carries.add _ piece
    · exact carries.continueType piece

/-- A description that a member has stays with it. -/
theorem Carries.foldl (carries : Carries older readings) (pieces : List Piece) :
    Carries older fun words => pieces.foldl Reading.take (readings words) := by
  induction pieces generalizing readings with
  | nil => exact carries
  | cons piece pieces ih => exact ih (carries.take piece)

theorem Carries.followsAt (carries : Carries older readings) :
    FollowsAt (fun words => (readings words).props) (some older.length) := by
  obtain ⟨newer, draft, waiting, isReading⟩ := carries
  refine ⟨older.reverse.map Draft.prop, draft.prop, newer.reverse.map Draft.prop, by simp, ?_⟩
  intro words
  simp [isReading, Reading.props, Draft.saying, Draft.prop, Props.saying]

end

/-!
A comment that no member takes waits.
-/

section

variable {reading : Reading} {piece : Piece}

theorem Reading.takeComment_of_not_takesLine (notTaken : reading.takesLine = false)
    (words : List Char) :
    reading.takeComment (some words) = { reading with waiting := some words } := by
  obtain ⟨_ | ⟨draft, rest⟩, waits⟩ := reading
  · rfl
  · simp only [takesLine, List.head?_cons, Option.any_some] at notTaken
    simp only [takeComment, notTaken, Bool.false_eq_true, if_false]

theorem Reading.takeComment_of_takesLine {draft : Draft} {rest : List Draft}
    {waiting : Option (List Char)}
    (taken : ({ drafts := draft :: rest, waiting := waiting } : Reading).takesLine)
    (words : List Char) :
    ({ drafts := draft :: rest, waiting := waiting } : Reading).takeComment (some words) =
      { drafts := draft.saying words :: rest, waiting := waiting } := by
  simp only [takesLine, List.head?_cons, Option.any_some] at taken
  simp only [takeComment, taken, if_true, Draft.saying]

theorem Reading.exists_of_takesLine (taken : reading.takesLine) :
    ∃ draft rest, reading.drafts = draft :: rest ∧ draft.openLine ∧ draft.description = none := by
  obtain ⟨_ | ⟨draft, rest⟩, waits⟩ := reading
  · cases taken
  · exact ⟨draft, rest, rfl, by simpa [takesLine] using taken⟩

theorem Reading.endLine_waiting (waiting : Option (List Char)) (separator : Option Char) :
    ({ reading with waiting := waiting } : Reading).endLine separator =
      { reading.endLine separator with waiting := waiting } := by
  obtain ⟨_ | ⟨draft, rest⟩, waits⟩ := reading
  · rfl
  · simp only [endLine]
    split <;> rfl

theorem Reading.length_endLine (separator : Option Char) :
    (reading.endLine separator).drafts.length = reading.drafts.length := by
  obtain ⟨_ | ⟨draft, rest⟩, waits⟩ := reading
  · rfl
  · simp only [endLine]
    split <;> rfl

theorem Reading.length_takeComment (comment : Option (List Char)) :
    (reading.takeComment comment).drafts.length = reading.drafts.length := by
  obtain ⟨_ | ⟨draft, rest⟩, waits⟩ := reading
  · cases comment <;> rfl
  · cases comment with
    | none => rfl
    | some words =>
        simp only [takeComment]
        split <;> rfl

theorem Reading.take_of_noCode (noCode : piece.code = []) :
    reading.take piece = (reading.takeComment piece.comment).endLine piece.separator := by
  simp only [take, noCode]

/-- A piece of code that starts no member is an index signature or goes on with a type. -/
theorem Reading.take_of_code (noStart : piece.startsMember = false) (code : piece.code ≠ []) :
    (∀ reading : Reading, reading.take piece = reading) ∨
      ∀ reading : Reading, reading.take piece = reading.continueType piece := by
  have noMember : member? piece.code = none := by simpa [Piece.startsMember] using noStart
  unfold take
  split
  case h_1 noCode => exact absurd noCode code
  case h_2 => exact .inl fun _ => rfl
  case h_3 => exact .inr fun _ => by simp only [noMember]

/-- Only a piece that starts a member, or has no code, is asked for its comment. -/
theorem Reading.take_of_other_comment (noStart : piece.startsMember = false)
    (code : piece.code ≠ []) (comment : Option (List Char)) :
    reading.take { piece with comment := comment } = reading.take piece := by
  obtain ⟨text, own, separator⟩ := piece
  have noMember : member? text = none := by simpa [Piece.startsMember] using noStart
  unfold take
  dsimp only
  split
  · exact absurd rfl code
  · rfl
  · simp only [noMember]
    rfl

/-- What waits is in no one's way, as long as no member starts and no other comment comes to
wait. -/
theorem Reading.take_waiting (noStart : piece.startsMember = false)
    (noOther : piece.code = [] → piece.comment.isSome → reading.takesLine)
    (waiting : Option (List Char)) :
    ({ reading with waiting := waiting } : Reading).take piece =
      { reading.take piece with waiting := waiting } := by
  by_cases code : piece.code = []
  · rw [take_of_noCode code, take_of_noCode code]
    cases isComment : piece.comment with
    | none => exact endLine_waiting waiting piece.separator
    | some words =>
        obtain ⟨drafts, waits⟩ := reading
        have taken := noOther code (by rw [isComment]; rfl)
        obtain ⟨draft, rest, rfl, -⟩ := exists_of_takesLine taken
        have takenEither : ({ drafts := draft :: rest, waiting := waiting } : Reading).takesLine :=
          taken
        simp only [takeComment_of_takesLine taken, takeComment_of_takesLine takenEither]
        exact @endLine_waiting { drafts := draft.saying words :: rest, waiting := waits } waiting
          piece.separator
  · rcases take_of_code noStart code with same | continues
    · rw [same, same]
    · rw [continues, continues]
      obtain ⟨_ | ⟨draft, rest⟩, waits⟩ := reading <;> rfl

/-- Only the first piece of a member adds one. -/
theorem Reading.length_take (noStart : piece.startsMember = false) :
    (reading.take piece).drafts.length = reading.drafts.length := by
  by_cases code : piece.code = []
  · rw [take_of_noCode code, length_endLine, length_takeComment]
  · rcases take_of_code noStart code with same | continues
    · rw [same]
    · rw [continues]
      obtain ⟨_ | ⟨draft, rest⟩, waits⟩ := reading <;> rfl

/-- A comment that is awaited comes to stand in the next member, and any other is lost. -/
theorem Reading.followsAt_waiting (reading : Reading) (pieces : List Piece) :
    FollowsAt (fun words => (pieces.foldl take { reading with waiting := some words }).props)
      (if reading.awaits pieces then some reading.drafts.length else none) := by
  induction pieces generalizing reading with
  | nil => exact ⟨reading.props, fun _ => rfl⟩
  | cons piece later ih =>
      rw [Reading.awaits]
      split
      case isTrue starts =>
        obtain ⟨member, isMember⟩ := Option.isSome_iff_exists.mp starts
        cases isComment : piece.comment with
        | none =>
            have carries : Carries reading.drafts fun words =>
                ({ reading with waiting := some words } : Reading).take piece := by
              refine ⟨[], member.draft piece, none, fun words => ?_⟩
              simp only [take_of_member isMember, add, isComment]
              rfl
            exact (carries.foldl later).followsAt
        | some own =>
            -- The comment of the member itself comes first.
            refine ⟨(later.foldl take (reading.add member piece)).props, fun words => ?_⟩
            simp only [List.foldl_cons, take_of_member isMember, add, isComment, Option.some_or]
      case isFalse noStart =>
        have noStart : piece.startsMember = false := Bool.eq_false_of_not_eq_true noStart
        split
        case isTrue replaced =>
          obtain ⟨noCode, isComment, notTaken⟩ := replaced
          have notTaken : reading.takesLine = false := Bool.eq_false_of_not_eq_true notTaken
          obtain ⟨other, isOther⟩ := Option.isSome_iff_exists.mp isComment
          refine ⟨(later.foldl take (reading.take piece)).props, fun words => ?_⟩
          have takesNeither :
              ({ reading with waiting := some words } : Reading).takesLine = false := notTaken
          simp only [List.foldl_cons, take_of_noCode noCode, isOther,
            takeComment_of_not_takesLine notTaken, takeComment_of_not_takesLine takesNeither]
        case isFalse passes =>
          have noOther : piece.code = [] → piece.comment.isSome → reading.takesLine :=
            fun noCode isComment =>
              by_contra fun notTaken => passes ⟨noCode, isComment, notTaken⟩
          have passed : (fun words => ((piece :: later).foldl take
                { reading with waiting := some words }).props) =
              fun words => (later.foldl take
                { reading.take piece with waiting := some words }).props :=
            funext fun words => congrArg (fun between => (later.foldl take between).props)
              (take_waiting noStart noOther (some words))
          rw [passed, ← length_take noStart]
          exact ih (reading.take piece)

end

/-- The place of the prop that the comment of a piece describes, if there is one: the member
that the piece starts, or, when there is only the comment, the latest member or the next. -/
def Reading.described? (reading : Reading) (piece : Piece) (later : List Piece) : Option Nat :=
  if piece.startsMember then some reading.drafts.length
  else if piece.code ≠ [] then none
  else if reading.takesLine then some (reading.drafts.length - 1)
  else if (reading.endLine piece.separator).awaits later then some reading.drafts.length
  else none

/-- What the comment of a piece says follows it to the prop that it describes. -/
theorem Reading.followsAt_described? (reading : Reading) (piece : Piece) (later : List Piece) :
    FollowsAt
      (fun words => (later.foldl take (reading.take { piece with comment := some words })).props)
      (reading.described? piece later) := by
  unfold described?
  split
  case isTrue starts =>
    obtain ⟨member, isMember⟩ := Option.isSome_iff_exists.mp starts
    have carries : Carries reading.drafts fun words =>
        reading.take { piece with comment := some words } :=
      ⟨[], member.draft piece, none, fun words =>
        @take_of_member { piece with comment := some words } member isMember reading⟩
    exact (carries.foldl later).followsAt
  case isFalse noStart =>
    have noStart : piece.startsMember = false := by simpa using noStart
    split
    case isTrue code =>
      refine ⟨(later.foldl take (reading.take piece)).props, fun words => ?_⟩
      exact congrArg (fun first => (later.foldl take first).props)
        (take_of_other_comment noStart code (some words))
    case isFalse noCode =>
      have noCode : piece.code = [] := by simpa using noCode
      have isTaken (words : List Char) : reading.take { piece with comment := some words } =
          (reading.takeComment (some words)).endLine piece.separator := take_of_noCode noCode
      simp only [isTaken]
      split
      case isTrue taken =>
        obtain ⟨drafts, waits⟩ := reading
        obtain ⟨draft, rest, rfl, -⟩ := exists_of_takesLine taken
        have carries : Carries rest fun words =>
            ({ drafts := draft :: rest, waiting := waits } : Reading).takeComment (some words) :=
          ⟨[], draft, waits, fun words => takeComment_of_takesLine taken words⟩
        exact ((carries.endLine piece.separator).foldl later).followsAt
      case isFalse notTaken =>
        have notTaken : reading.takesLine = false := by simpa using notTaken
        simp only [takeComment_of_not_takesLine notTaken, endLine_waiting]
        rw [← length_endLine piece.separator]
        exact followsAt_waiting (reading.endLine piece.separator) later

end ComponentAtlas.Props
