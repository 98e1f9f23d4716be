/-
Module: ComponentAtlas.Proofs.Props.Nodes
Purpose: Nodes of a syntax tree that stand for written members, and the props that are
  listed from them.
Main exports:
  extentBehind, Doc.IsNode, Signature.IsNode, Signature.AreNodes, AreMembers,
  Listing.foldl_areNodes, propsOf_of_areMembers
-/
import ComponentAtlas.Proofs.Props.Members
import ComponentAtlas.Proofs.Text.Utf8
import ComponentAtlas.Props.SyntaxTree

namespace ComponentAtlas.Props

open ComponentAtlas.Text

/-- The part of a script that a text behind the given one covers. -/
def extentBehind (lead text : List Char) : Extent :=
  { firstByte := (Utf8.encode lead).length
    endByte := (Utf8.encode (lead ++ text)).length
    firstRow := lead.count '\n'
    endRow := (lead ++ text).count '\n' }

/-- The node is the comment behind the given text. -/
structure Doc.IsNode (doc : Doc) (lead : List Char) (node : Node) : Prop where
  kind : node.kind = "comment"
  isNamed : node.isNamed
  covers : node.extent = extentBehind (lead ++ doc.before) doc.comment

/-- What stands in front of the name of a member. -/
def Signature.modifier (signature : Signature) : List Char :=
  if signature.isReadonly then "readonly ".toList else []

/-- The mark of a member that may be missing. -/
def Signature.mark (signature : Signature) : List Char :=
  if signature.optional then ['?'] else []

/-- The node is the member behind the given text, without what ends it.  It has a part for
the name and one for the type with its colon, and a question mark among its children where
one is written. -/
structure Signature.IsNode (signature : Signature) (lead : List Char) (node : Node) : Prop where
  kind : node.kind = "property_signature"
  isNamed : node.isNamed
  covers : node.extent = extentBehind lead (signature.lead ++ trimRight signature.type)
  name : ∃ part, node.part? "name" = some part ∧
    part.extent = extentBehind (lead ++ signature.modifier) signature.name.written
  type : ∃ part, node.part? "type" = some part ∧
    part.extent = extentBehind
      (lead ++ (signature.modifier ++ (signature.name.written ++ signature.mark)))
      (':' :: trimRight signature.type)
  optional : (node.children.any fun child => child.kind = "?") = signature.optional

/-- What stands in front of a member from the end of the line before it. -/
def Signature.indent (signature : Signature) : List Char :=
  (signature.doc.elim [] fun doc => doc.text ++ ['\n']) ++ signature.before

/-- The nodes are those of the member behind the given text: the member itself, and in
front of it its comment. -/
inductive Signature.AreNodes (signature : Signature) (lead : List Char) : List Node → Prop where
  | plain {member : Node} (noDoc : signature.doc = none)
      (isMember : signature.IsNode (lead ++ signature.indent) member) :
      AreNodes signature lead [member]
  | documented {doc : Doc} {comment member : Node} (hasDoc : signature.doc = some doc)
      (isComment : doc.IsNode lead comment)
      (isMember : signature.IsNode (lead ++ signature.indent) member) :
      AreNodes signature lead [comment, member]

/-- The nodes are those of the members behind the given text, in order. -/
inductive AreMembers : (lead : List Char) → List Signature → List Node → Prop where
  | nil (lead : List Char) : AreMembers lead [] []
  | cons {lead : List Char} {signature : Signature} {signatures : List Signature}
      {own nodes : List Node} (areNodes : signature.AreNodes lead own)
      (later : AreMembers (lead ++ signature.text) signatures nodes) :
      AreMembers lead (signature :: signatures) (own ++ nodes)

/-!
The bytes that a node covers are those of its text, whatever characters stand before it.
-/

section

variable {lead text : List Char} {node : Node}

theorem slice_encode (lead text rest : List Char) :
    slice (Utf8.encode (lead ++ (text ++ rest))) (Utf8.encode lead).length
      (Utf8.encode (lead ++ text)).length = text := by
  have taken : (Utf8.encode (lead ++ (text ++ rest))).take (Utf8.encode (lead ++ text)).length =
      Utf8.encode (lead ++ text) := by
    rw [← List.append_assoc, Utf8.encode_append (lead ++ text), List.take_left]
  rw [slice, taken, Utf8.encode_append, List.drop_left, Utf8.decodeLenient_encode]

theorem Node.text_of_covers (covers : node.extent = extentBehind lead text)
    {script : List Char} (rest : List Char) (divided : script = lead ++ (text ++ rest)) :
    node.text (Utf8.encode script) = text := by
  rw [divided, Node.text, covers]
  exact slice_encode lead text rest

end

/-!
A member node shows the prop that the member declares.
-/

section

variable {signature : Signature} {lead : List Char} {member : Node}

/-- Behind the type of a member its line ends. -/
theorem Signature.exists_behind (signature : Signature) :
    ∃ behind, '\n' ∈ behind ∧ signature.text =
      signature.indent ++ (signature.lead ++ (trimRight signature.type ++ behind)) := by
  obtain ⟨blanks, _, divided⟩ := exists_trimRight signature.type
  refine ⟨blanks ++ signature.ending.text, ?_, ?_⟩
  · cases signature.ending <;> simp [Ending.text]
  · rw [← List.append_assoc (trimRight signature.type), ← divided]
    simp only [text, indent, line, type, List.append_assoc]

theorem Signature.lead_eq (signature : Signature) :
    signature.lead = signature.modifier ++ (signature.name.written ++ (signature.mark ++ [':'])) :=
  rfl

/-- The type of a member node is the type that is written, on one line. -/
theorem collapsedType_trim (written : signature.IsWritten) :
    collapsedType (trim (trimRight signature.type)) = collapse signature.type := by
  have same : collapse (trimRight signature.type) = collapse signature.type := by
    rw [collapse, words_trimRight, collapse]
  have kept : dropRightWhile (fun c => c = ';' || c = ',') (trim (trimRight signature.type)) =
      trim (trimRight signature.type) := by
    refine dropRightWhile_eq_self fun c isLast => ?_
    rw [getLast?_trim, same] at isLast
    simp [written.getLast?_collapse c isLast]
  rw [collapsedType, kept, collapse_trim, same]

theorem Signature.IsNode.propertyType (isNode : signature.IsNode lead member)
    {script : List Char} {rest : List Char}
    (divided : script = lead ++ (signature.lead ++ (trimRight signature.type ++ rest))) :
    propertyType (Utf8.encode script) member = trim (trimRight signature.type) := by
  obtain ⟨part, isPart, covers⟩ := isNode.type
  have shown : part.text (Utf8.encode script) = ':' :: trimRight signature.type :=
    Node.text_of_covers covers rest (by rw [divided, signature.lead_eq]; simp)
  have colon : trimLeft (':' :: trimRight signature.type) = [':'] ++ trimRight signature.type :=
    dropWhile_eq_self (by simp; rfl)
  rw [Props.propertyType, isPart, Option.map_some, Option.getD_some, shown, colon, withoutStart,
    after?_append, Option.getD_some]

theorem Signature.IsNode.prop_eq (isNode : signature.IsNode lead member)
    (written : signature.IsWritten) {script rest : List Char} {part : Node}
    (isPart : member.part? "name" = some part)
    (divided : script = lead ++ (signature.lead ++ (trimRight signature.type ++ rest))) :
    member.prop (Utf8.encode script) part
      (signature.doc.bind fun doc => commentText doc.comment) = signature.prop := by
  obtain ⟨other, isOther, covers⟩ := isNode.name
  obtain rfl : other = part := Option.some.inj (isOther.symm.trans isPart)
  have name : other.text (Utf8.encode script) = signature.name.written :=
    Node.text_of_covers covers (signature.mark ++ ':' :: (trimRight signature.type ++ rest))
      (by rw [divided, signature.lead_eq]; simp)
  have noMethod : member.kind ≠ "method_signature" := by
    rw [isNode.kind]
    decide
  rw [Node.prop, if_neg noMethod, isNode.propertyType divided, collapsedType_trim written, name,
    written.name.trimWhile_written, isNode.optional]
  rfl

end

/-!
Listing goes along the members.  In front of a member no comment waits, and the prop
before it ends on an earlier line.
-/

/-- No comment waits, and the latest prop ends on a line before the one that starts behind
the given text. -/
structure Listing.IsBetween (listing : Listing) (lead : List Char) : Prop where
  waiting : listing.waiting = none
  row : ∀ row ∈ listing.lastRow, row < lead.count '\n'

section

variable {signature : Signature} {lead : List Char} {member comment : Node} {listing : Listing}

/-- A comment in front of a member waits for it. -/
theorem Listing.take_doc {doc : Doc} (between : listing.IsBetween lead)
    (isNode : doc.IsNode lead comment) {script rest : List Char}
    (divided : script = lead ++ (doc.text ++ rest)) :
    listing.take (Utf8.encode script) comment =
      { listing with waiting := commentText doc.comment } := by
  have shown : comment.text (Utf8.encode script) = doc.comment :=
    Node.text_of_covers isNode.covers rest (by rw [divided, Doc.text]; simp)
  have otherRow : listing.lastRow ≠ some comment.extent.firstRow := by
    intro same
    have before := between.row _ same
    simp only [isNode.covers, extentBehind, List.count_append] at before
    omega
  rw [Listing.take, if_pos isNode.kind, shown, Listing.takeComment]
  split
  · simp [otherRow]
  · rfl

/-- A member node is listed as the prop of the member, with the comment that waits. -/
theorem Listing.take_member (written : signature.IsWritten)
    (isNode : signature.IsNode lead member)
    (waits : listing.waiting = signature.doc.bind fun doc => commentText doc.comment)
    {script rest : List Char}
    (divided : script = lead ++ (signature.lead ++ (trimRight signature.type ++ rest))) :
    listing.take (Utf8.encode script) member =
      { props := signature.prop :: listing.props
        waiting := none
        lastRow := some
          (List.count '\n' (lead ++ (signature.lead ++ trimRight signature.type))) } := by
  obtain ⟨part, isPart, covers⟩ := isNode.name
  have noComment : member.kind ≠ "comment" := by
    rw [isNode.kind]
    decide
  have isMember : (member.kind = "property_signature" || member.kind = "method_signature") := by
    rw [isNode.kind]
    decide
  rw [Listing.take, if_neg noComment, if_pos isMember]
  simp only [isPart, waits, isNode.prop_eq written isPart divided, isNode.covers, extentBehind]

/-- The listing after a member: its prop is the latest one, and ends where its type does. -/
def Listing.after (listing : Listing) (signature : Signature) (lead : List Char) : Listing :=
  { props := signature.prop :: listing.props
    waiting := none
    lastRow := some (List.count '\n'
      ((lead ++ signature.indent) ++ (signature.lead ++ trimRight signature.type))) }

/-- The nodes of a member are listed as its prop. -/
theorem Listing.foldl_areNodes {nodes : List Node} (areNodes : signature.AreNodes lead nodes)
    (written : signature.IsWritten) (between : listing.IsBetween lead)
    {script rest : List Char} (divided : script = lead ++ (signature.text ++ rest)) :
    nodes.foldl (Listing.take (Utf8.encode script)) listing = listing.after signature lead := by
  obtain ⟨behind, _, text⟩ := signature.exists_behind
  have atMember : script = (lead ++ signature.indent) ++
      (signature.lead ++ (trimRight signature.type ++ (behind ++ rest))) := by
    simp [divided, text]
  cases areNodes with
  | plain noDoc isMember =>
      have waits : listing.waiting = signature.doc.bind fun doc => commentText doc.comment := by
        rw [between.waiting, noDoc, Option.bind_none]
      exact Listing.take_member written isMember waits atMember
  | @documented doc comment member hasDoc isComment isMember =>
      have atComment : script = lead ++ (doc.text ++ ('\n' :: signature.before ++
          (signature.lead ++ (trimRight signature.type ++ (behind ++ rest))))) := by
        simp [atMember, Signature.indent, hasDoc]
      have waits : commentText doc.comment =
          signature.doc.bind fun doc => commentText doc.comment := by
        rw [hasDoc, Option.bind_some]
      rw [List.foldl_cons, Listing.take_doc between isComment atComment]
      exact Listing.take_member written isMember waits atMember

/-- A member ends on a line before the next one. -/
theorem Listing.isBetween_after (listing : Listing) (signature : Signature) (lead : List Char) :
    (listing.after signature lead).IsBetween (lead ++ signature.text) := by
  refine { waiting := rfl, row := ?_ }
  rintro row ⟨⟩
  obtain ⟨behind, isBreak, divided⟩ := signature.exists_behind
  have positive := List.count_pos_iff.mpr isBreak
  rw [divided]
  simp only [List.count_append]
  omega

/-- The nodes of members are listed as their props, in order. -/
theorem Listing.foldl_areMembers {signatures : List Signature} {nodes : List Node}
    {script rest : List Char} (areMembers : AreMembers lead signatures nodes)
    (written : ∀ signature ∈ signatures, signature.IsWritten) (between : listing.IsBetween lead)
    (divided : script = lead ++ (signatures.flatMap Signature.text ++ rest)) :
    (nodes.foldl (Listing.take (Utf8.encode script)) listing).props =
      (signatures.map Signature.prop).reverse ++ listing.props := by
  induction areMembers generalizing listing with
  | nil => rfl
  | @cons lead signature signatures own nodes areNodes _ ih =>
      rw [List.forall_mem_cons] at written
      rw [List.flatMap_cons, List.append_assoc] at divided
      rw [List.foldl_append, Listing.foldl_areNodes areNodes written.1 between divided,
        ih written.2 (listing.isBetween_after signature lead) (by rw [divided, List.append_assoc])]
      simp [Listing.after]

/-- From a member list exactly the props of its members are listed. -/
theorem propsOf_of_areMembers {signatures : List Signature} {script rest : List Char}
    {body : Node} (areMembers : AreMembers lead signatures (body.children.filter Node.isNamed))
    (written : ∀ signature ∈ signatures, signature.IsWritten)
    (divided : script = lead ++ (signatures.flatMap Signature.text ++ rest)) :
    propsOf (Utf8.encode script) body = signatures.map Signature.prop := by
  have between : Listing.IsBetween {} lead := ⟨rfl, by simp⟩
  rw [propsOf, Listing.foldl_areMembers areMembers written between divided, List.append_nil,
    List.reverse_reverse]

end

end ComponentAtlas.Props
