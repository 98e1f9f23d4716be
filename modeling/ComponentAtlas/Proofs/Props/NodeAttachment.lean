/-
Module: ComponentAtlas.Proofs.Props.NodeAttachment
Purpose: The prop that a comment node describes, as the nodes of a member list are read one
  after the other.
Main exports:
  Node.isProp, Listing.awaits, Listing.described?, Listing.followsAt_described?, NodeDescribes,
  exists_nodeDescribes_iff, exists_nodeDescribes_other_iff
-/
import ComponentAtlas.Proofs.Props.Attachment
import ComponentAtlas.Props.SyntaxTree

namespace ComponentAtlas.Props

open ComponentAtlas.Text

/-!
The listing of the nodes of a member list.
-/

/-- The node shows a prop. -/
def Node.isProp (node : Node) : Bool :=
  (node.kind = "property_signature" || node.kind = "method_signature") && (node.part? "name").isSome

/-- A comment that starts on the line would describe the latest prop: the prop ends there and
has no description. -/
def Listing.takesRow (listing : Listing) (row : Nat) : Bool :=
  listing.lastRow = some row && listing.props.head?.any fun prop => prop.description.isNone

/-- A comment that waits describes the next prop: no other comment comes to wait in its place,
and no node that shows no prop drops it. -/
def Listing.awaits (script : List UInt8) (listing : Listing) : List Node → Bool
  | [] => false
  | node :: later =>
    if node.kind = "comment" then
      listing.takesRow node.extent.firstRow && (listing.take script node).awaits script later
    else node.isProp

/-- The words stand in a prop behind the older ones, and nothing else depends on them. -/
def CarriesProp (older : List PropDecl) (listings : List Char → Listing) : Prop :=
  ∃ (newer : List PropDecl) (prop : PropDecl) (waiting : Option (List Char)) (lastRow : Option Nat),
    ∀ words, listings words =
      { props := newer ++ saying words prop :: older, waiting := waiting, lastRow := lastRow }

section

variable {script : List UInt8} {older : List PropDecl} {listings : List Char → Listing}
  {listing : Listing} {node : Node} {nodes : List Node} {row : Nat}

theorem Listing.take_of_comment (isComment : node.kind = "comment") (listing : Listing) :
    listing.take script node =
      listing.takeComment node.extent.firstRow (commentText (node.text script)) := by
  rw [take, if_pos isComment]

theorem Node.kind_of_isProp (isProp : node.isProp) : node.kind ≠ "comment" := by
  intro isComment
  simp [Node.isProp, isComment] at isProp

theorem Listing.take_of_isProp (script : List UInt8) (isProp : node.isProp) :
    ∃ nameNode, ∀ listing : Listing, listing.take script node =
      { props := node.prop script nameNode listing.waiting :: listing.props
        waiting := none
        lastRow := some node.extent.endRow } := by
  have noComment := Node.kind_of_isProp isProp
  obtain ⟨isMember, named⟩ := Bool.and_eq_true_iff.mp isProp
  obtain ⟨nameNode, isName⟩ := Option.isSome_iff_exists.mp named
  refine ⟨nameNode, fun listing => ?_⟩
  rw [take, if_neg noComment, if_pos isMember, isName]

theorem Listing.take_of_other (noComment : node.kind ≠ "comment") (noProp : node.isProp = false)
    (listing : Listing) : listing.take script node = { listing with waiting := none } := by
  rw [take, if_neg noComment]
  split
  case isTrue isMember =>
    have noName : node.part? "name" = none := by simpa [Node.isProp, isMember] using noProp
    rw [noName]
  case isFalse => rfl

theorem Listing.takeComment_of_not_takesRow (notTaken : listing.takesRow row = false)
    (comment : Option (List Char)) :
    listing.takeComment row comment = { listing with waiting := comment } := by
  obtain ⟨_ | ⟨prop, rest⟩, waits, lastRow⟩ := listing
  · rfl
  · simp only [takesRow, List.head?_cons, Option.any_some] at notTaken
    simp only [takeComment, notTaken, Bool.false_eq_true, if_false]

theorem Listing.exists_of_takesRow (taken : listing.takesRow row) :
    ∃ prop rest, listing.props = prop :: rest ∧ listing.lastRow = some row ∧
      prop.description = none := by
  obtain ⟨_ | ⟨prop, rest⟩, waits, lastRow⟩ := listing
  · simp [takesRow] at taken
  · exact ⟨prop, rest, rfl, by simpa [takesRow] using taken⟩

theorem Listing.takeComment_of_takesRow {prop : PropDecl} {rest : List PropDecl}
    {waiting : Option (List Char)} {lastRow : Option Nat}
    (taken :
      ({ props := prop :: rest, waiting := waiting, lastRow := lastRow } : Listing).takesRow row)
    (comment : Option (List Char)) :
    ({ props := prop :: rest, waiting := waiting, lastRow := lastRow } : Listing).takeComment row
        comment =
      { props := { prop with description := comment.map String.ofList } :: rest
        waiting := waiting
        lastRow := lastRow } := by
  simp only [takesRow, List.head?_cons, Option.any_some] at taken
  simp only [takeComment, taken, if_true]

theorem CarriesProp.takeComment (carries : CarriesProp older listings) (row : Nat)
    (comment : Option (List Char)) :
    CarriesProp older fun words => (listings words).takeComment row comment := by
  obtain ⟨newer, prop, waiting, lastRow, isListing⟩ := carries
  simp only [isListing]
  cases newer with
  | nil =>
      refine ⟨[], prop, comment, lastRow, fun words => ?_⟩
      simp [Listing.takeComment, saying]
  | cons latest newer =>
      by_cases taken : (lastRow = some row && latest.description.isNone)
      · refine ⟨{ latest with description := comment.map String.ofList } :: newer, prop, waiting,
          lastRow, fun words => ?_⟩
        simp only [Listing.takeComment, List.cons_append, taken, if_true]
      · refine ⟨latest :: newer, prop, comment, lastRow, fun words => ?_⟩
        simp only [Listing.takeComment, List.cons_append, taken]
        rfl

theorem CarriesProp.take (carries : CarriesProp older listings) (node : Node) :
    CarriesProp older fun words => (listings words).take script node := by
  by_cases isComment : node.kind = "comment"
  · simp only [Listing.take_of_comment isComment]
    exact carries.takeComment _ _
  · obtain ⟨newer, prop, waiting, lastRow, isListing⟩ := carries
    simp only [isListing]
    cases isProp : node.isProp with
    | true =>
        obtain ⟨nameNode, isTake⟩ := Listing.take_of_isProp script isProp
        simp only [isTake]
        exact ⟨node.prop script nameNode waiting :: newer, prop, none, _, fun _ => rfl⟩
    | false =>
        simp only [Listing.take_of_other isComment isProp]
        exact ⟨newer, prop, none, lastRow, fun _ => rfl⟩

theorem CarriesProp.foldl (carries : CarriesProp older listings) (nodes : List Node) :
    CarriesProp older fun words => nodes.foldl (Listing.take script) (listings words) := by
  induction nodes generalizing listings with
  | nil => exact carries
  | cons node nodes ih => exact ih (carries.take node)

theorem CarriesProp.followsAt (carries : CarriesProp older listings) :
    FollowsAt (fun words => (listings words).props.reverse) (some older.length) := by
  obtain ⟨newer, prop, waiting, lastRow, isListing⟩ := carries
  refine ⟨older.reverse, prop, newer.reverse, List.length_reverse, fun words => ?_⟩
  simp [isListing]

/-- What waits is in no one's way while the latest prop takes the comments. -/
theorem Listing.take_waiting (isComment : node.kind = "comment")
    (taken : listing.takesRow node.extent.firstRow) (waiting : Option (List Char)) :
    ({ listing with waiting := waiting } : Listing).take script node =
      { listing.take script node with waiting := waiting } := by
  obtain ⟨props, waits, lastRow⟩ := listing
  obtain ⟨prop, rest, rfl, -⟩ := exists_of_takesRow taken
  have takenEither : ({ props := prop :: rest, waiting := waiting, lastRow := lastRow } :
      Listing).takesRow node.extent.firstRow := taken
  simp only [take_of_comment isComment, takeComment_of_takesRow taken,
    takeComment_of_takesRow takenEither]

theorem Listing.length_takeComment (comment : Option (List Char)) :
    (listing.takeComment row comment).props.length = listing.props.length := by
  obtain ⟨_ | ⟨prop, rest⟩, waits, lastRow⟩ := listing
  · rfl
  · simp only [takeComment]
    split <;> rfl

/-- A comment that is awaited comes to stand in the next prop, and any other is lost. -/
theorem Listing.followsAt_waiting (script : List UInt8) (listing : Listing) (nodes : List Node) :
    FollowsAt
      (fun words =>
        (nodes.foldl (take script) { listing with waiting := some words }).props.reverse)
      (if listing.awaits script nodes then some listing.props.length else none) := by
  induction nodes generalizing listing with
  | nil => exact ⟨listing.props.reverse, fun _ => rfl⟩
  | cons node later ih =>
      rw [Listing.awaits]
      by_cases isComment : node.kind = "comment"
      · rw [if_pos isComment]
        cases taken : listing.takesRow node.extent.firstRow with
        | true =>
            have passed : (fun words => ((node :: later).foldl (take script)
                  { listing with waiting := some words }).props.reverse) =
                fun words => (later.foldl (take script)
                  { listing.take script node with waiting := some words }).props.reverse :=
              funext fun words =>
                congrArg (fun between => (later.foldl (take script) between).props.reverse)
                  (take_waiting isComment taken (some words))
            have sameLength : listing.props.length = (listing.take script node).props.length := by
              rw [take_of_comment isComment, length_takeComment]
            rw [passed, Bool.true_and, sameLength]
            exact ih (listing.take script node)
        | false =>
            -- The other comment comes to wait in its place.
            refine ⟨(later.foldl (take script) (listing.take script node)).props.reverse,
              fun words => ?_⟩
            have takesNeither : ({ listing with waiting := some words } : Listing).takesRow
                node.extent.firstRow = false := taken
            simp only [List.foldl_cons, take_of_comment isComment,
              takeComment_of_not_takesRow taken, takeComment_of_not_takesRow takesNeither]
      · rw [if_neg isComment]
        cases isProp : node.isProp with
        | true =>
            obtain ⟨nameNode, isTake⟩ := take_of_isProp script isProp
            have carries : CarriesProp listing.props fun words =>
                ({ listing with waiting := some words } : Listing).take script node := by
              refine ⟨[], node.prop script nameNode none, none, some node.extent.endRow,
                fun words => ?_⟩
              simp only [isTake]
              rfl
            exact (carries.foldl later).followsAt
        | false =>
            refine ⟨(later.foldl (take script) (listing.take script node)).props.reverse,
              fun words => ?_⟩
            simp only [List.foldl_cons, take_of_other isComment isProp]

end

/-- The place of the prop that a comment on the line describes, if there is one: the latest or
the next. -/
def Listing.described? (script : List UInt8) (listing : Listing) (row : Nat)
    (later : List Node) : Option Nat :=
  if listing.takesRow row then some (listing.props.length - 1)
  else if listing.awaits script later then some listing.props.length
  else none

/-- What a comment says follows it to the prop that it describes. -/
theorem Listing.followsAt_described? (script : List UInt8) (listing : Listing) (row : Nat)
    (later : List Node) :
    FollowsAt
      (fun words =>
        (later.foldl (take script) (listing.takeComment row (some words))).props.reverse)
      (listing.described? script row later) := by
  unfold described?
  split
  case isTrue taken =>
    obtain ⟨props, waits, lastRow⟩ := listing
    obtain ⟨prop, rest, rfl, -⟩ := exists_of_takesRow taken
    have carries : CarriesProp rest fun words =>
        ({ props := prop :: rest, waiting := waits, lastRow := lastRow } : Listing).takeComment row
          (some words) :=
      ⟨[], prop, waits, lastRow, fun words => takeComment_of_takesRow taken (some words)⟩
    exact (carries.foldl later).followsAt
  case isFalse notTaken =>
    have notTaken : listing.takesRow row = false := by simpa using notTaken
    simp only [takeComment_of_not_takesRow notTaken]
    exact followsAt_waiting script listing later

/-!
A comment in a member list.
-/

/-- What was listed of the nodes. -/
def listingOf (script : List UInt8) (nodes : List Node) : Listing :=
  nodes.foldl (Listing.take script) {}

/-- The props of a member list in which a comment on the row, between the nodes ahead of it and
those behind it, has these words. -/
def propsTelling (script : List UInt8) (ahead : List Node) (row : Nat) (behind : List Node)
    (words : List Char) : List PropDecl :=
  (behind.foldl (Listing.take script)
    ((listingOf script ahead).takeComment row (some words))).props.reverse

/-- Whatever the comment between the nodes says is the description of the prop at this place
in the list. -/
def NodeDescribes (script : List UInt8) (ahead : List Node) (row : Nat) (behind : List Node)
    (prop : Nat) : Prop :=
  Describes (fun source words : List Char => source = words)
    (propsTelling script ahead row behind) prop

section

variable {script : List UInt8} {body comment member : Node} {front gap ahead behind : List Node}
  {row : Nat} {words : List Char} {own : PropDecl} {others : List PropDecl}

theorem propsOf_eq_propsTelling
    (isBody : body.children.filter Node.isNamed = ahead ++ comment :: behind)
    (isComment : comment.kind = "comment")
    (tells : commentText (comment.text script) = some words) :
    propsOf script body = propsTelling script ahead comment.extent.firstRow behind words := by
  rw [propsOf, isBody, List.foldl_append, List.foldl_cons, Listing.take_of_comment isComment, tells]
  rfl

theorem nodeDescribes_iff (script : List UInt8) (ahead : List Node) (row : Nat)
    (behind : List Node) (prop : Nat) :
    NodeDescribes script ahead row behind prop ↔
      (listingOf script ahead).described? script row behind = some prop := by
  have endless : IsEndless fun source words : List Char => source = words :=
    Set.infinite_univ.mono fun words _ => ⟨words, rfl⟩
  refine ((listingOf script ahead).followsAt_described? script row behind).describes_iff endless ?_
  rintro source words rfl
  rfl

/-- A comment is lost unless the latest prop takes it or the next one does. -/
theorem exists_nodeDescribes_iff (script : List UInt8) (ahead : List Node) (row : Nat)
    (behind : List Node) :
    (∃ prop, NodeDescribes script ahead row behind prop) ↔
      (listingOf script ahead).takesRow row ∨ (listingOf script ahead).awaits script behind := by
  simp only [nodeDescribes_iff, Listing.described?]
  by_cases takes : (listingOf script ahead).takesRow row <;> simp [takes]

/-- Comments leave the last line of the latest prop as it is. -/
theorem lastRow_foldl_comments {listing : Listing}
    (areComments : ∀ node ∈ gap, node.kind = "comment") :
    (gap.foldl (Listing.take script) listing).lastRow = listing.lastRow := by
  induction gap generalizing listing with
  | nil => rfl
  | cons node gap ih =>
      rw [List.forall_mem_cons] at areComments
      rw [List.foldl_cons, ih areComments.2, Listing.take_of_comment areComments.1]
      obtain ⟨_ | ⟨prop, rest⟩, waits, lastRow⟩ := listing
      · rfl
      · simp only [Listing.takeComment]
        split <;> rfl

/-- A described prop takes no comment, so one that waits is for a prop right behind it. -/
theorem awaits_of_described {listing : Listing} (isLatest : listing.props = own :: others)
    (described : own.description.isSome) (behind : List Node) :
    listing.awaits script behind = behind.head?.any Node.isProp := by
  cases behind with
  | nil => rfl
  | cons node behind =>
      rw [Listing.awaits, List.head?_cons, Option.any_some]
      split
      case isTrue isComment =>
        have notProp : node.isProp = false :=
          Bool.eq_false_of_not_eq_true fun isProp => Node.kind_of_isProp isProp isComment
        have notTaken : listing.takesRow node.extent.firstRow = false := by
          rw [Listing.takesRow, isLatest, List.head?_cons, Option.any_some,
            Option.isNone_eq_false_iff.mpr described, Bool.and_false]
        rw [notTaken, notProp, Bool.false_and]
      case isFalse => rfl

/-- Behind a prop, on its last line, a comment describes another one exactly when the prop is
described already and the next one follows right behind. -/
theorem exists_nodeDescribes_other_iff (areComments : ∀ node ∈ gap, node.kind = "comment")
    (isProp : member.isProp)
    (isAhead : (listingOf script (front ++ member :: gap)).props = own :: others)
    (behind : List Node) :
    (∃ prop, prop ≠ others.length ∧
        NodeDescribes script (front ++ member :: gap) member.extent.endRow behind prop) ↔
      own.description.isSome ∧ behind.head?.any Node.isProp := by
  have lastRow : (listingOf script (front ++ member :: gap)).lastRow =
      some member.extent.endRow := by
    obtain ⟨nameNode, isTake⟩ := Listing.take_of_isProp script isProp
    rw [listingOf, List.foldl_append, List.foldl_cons, lastRow_foldl_comments areComments, isTake]
  have takes : (listingOf script (front ++ member :: gap)).takesRow member.extent.endRow =
      own.description.isNone := by
    rw [Listing.takesRow, lastRow, isAhead, List.head?_cons, Option.any_some, decide_eq_true rfl,
      Bool.true_and]
  simp only [nodeDescribes_iff, Listing.described?, takes, isAhead]
  cases described : own.description with
  | none => simp
  | some words =>
      have isSome : own.description.isSome := by rw [described]; rfl
      simp [awaits_of_described isAhead isSome]

end

end ComponentAtlas.Props
