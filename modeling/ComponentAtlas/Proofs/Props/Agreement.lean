/-
Module: ComponentAtlas.Proofs.Props.Agreement
Purpose: For an interface of props at the start of a script, the text and the syntax tree
  give the same props.
Main exports:
  Interface, Interface.IsTree, OnlyAtStart, sourceProps_interface,
  declarations_interface, byGrammar_extract_eq
-/
import ComponentAtlas.Proofs.Props.Nodes
import ComponentAtlas.Props.Extractor

namespace ComponentAtlas.Props

open ComponentAtlas.Text
open ComponentAtlas.Source

/-- An interface of props. -/
structure Interface where
  /-- The name without the ending that makes it one of props. -/
  stem : List Char
  members : List Signature
deriving Repr, DecidableEq

namespace Interface

def name (interface : Interface) : List Char := interface.stem ++ nameEnding

/-- What stands in front of the members, through the opening brace. -/
def header (interface : Interface) : List Char :=
  "interface ".toList ++ (interface.name ++ [' ', '{'])

def body (interface : Interface) : List Char :=
  '\n' :: interface.members.flatMap Signature.text

def text (interface : Interface) : List Char :=
  interface.header ++ (interface.body ++ ['}'])

structure IsWritten (interface : Interface) : Prop where
  stem : ∀ c ∈ interface.stem, isWord c
  members : ∀ signature ∈ interface.members, signature.IsWritten

/-- The node is the interface at the start of a script. -/
structure IsNode (interface : Interface) (node : Node) : Prop where
  kind : node.kind = "interface_declaration"
  name : ∃ part, node.part? "name" = some part ∧
    part.extent = extentBehind "interface ".toList interface.name
  body : ∃ list, node.part? "body" = some list ∧ isMemberList list ∧
    AreMembers (interface.header ++ ['\n']) interface.members (list.children.filter Node.isNamed)

end Interface

/-- The nodes that may declare props. -/
def isDeclaration (node : Node) : Bool :=
  node.kind = "interface_declaration" || node.kind = "type_alias_declaration"

/-- The tree of a script that starts with the interface and declares nothing else. -/
def Interface.IsTree (interface : Interface) (root : Node) : Prop :=
  ∃ node, root.descendants.filter isDeclaration = [node] ∧ interface.IsNode node

/-- Behind the first character of the script the header starts nowhere. -/
def OnlyAtStart (header : Header) (script : List Char) : Prop :=
  ∀ lead rest, script = lead ++ rest → lead ≠ [] → header lead.getLast? rest = none

instance (header : Header) (script : List Char) : Decidable (OnlyAtStart header script) :=
  decidable_of_iff _ forall_append_iff.symm

/-!
In the text of an interface the header is recognised, and its body ends at the last brace:
the scanner passes over one member after the other.
-/

section

variable {interface : Interface} {signature : Signature} {below : List Frame}
  {rest : List Char}

theorem afterKeyword?_written {keyword : String} {text : List Char}
    (word : ∀ c ∈ text.head?, isBlank c = false) :
    afterKeyword? keyword none (keyword.toList ++ ' ' :: text) = some text := by
  have space : isBlank ' ' := rfl
  rw [afterKeyword?, after?_append]
  simp [startsWord, space, trimLeft_cons space word]

theorem Interface.isSuffixOf_name (interface : Interface) :
    nameEnding.isSuffixOf interface.name := by
  rw [List.isSuffixOf_iff_suffix]
  exact List.suffix_append _ _

theorem Interface.IsWritten.isWord_name (written : interface.IsWritten) :
    ∀ c ∈ interface.name, isWord c :=
  List.forall_mem_append.mpr ⟨written.stem, List.all_eq_true.mp (by decide)⟩

theorem Interface.IsWritten.afterPropsName? (written : interface.IsWritten) :
    afterPropsName? (interface.name ++ ' ' :: '{' :: rest) = some (' ' :: '{' :: rest) := by
  obtain ⟨taken, dropped⟩ := takeWhile_append_stop written.isWord_name
    (show ∀ c ∈ (' ' :: '{' :: rest).head?, isWord c = false by simp; rfl)
  rw [Props.afterPropsName?, taken, dropped, if_pos interface.isSuffixOf_name]

theorem Interface.header_eq (interface : Interface) :
    interface.header = "interface ".toList ++ (interface.name ++ [' ', '{']) := rfl

theorem Interface.header_append (interface : Interface) (rest : List Char) :
    interface.header ++ rest =
      "interface".toList ++ ' ' :: (interface.name ++ ' ' :: '{' :: rest) := by
  have keyword : "interface ".toList = "interface".toList ++ [' '] := by decide +kernel
  have regrouped (word name : List Char) : ((word ++ [' ']) ++ (name ++ [' ', '{'])) ++ rest =
      word ++ ' ' :: (name ++ ' ' :: '{' :: rest) := by simp
  rw [header_eq, keyword, regrouped]

theorem Interface.IsWritten.interfaceHeader (written : interface.IsWritten) :
    interfaceHeader none (interface.header ++ rest) = some interface.header.length := by
  have ne_nil : interface.name ≠ [] := List.append_ne_nil_of_right_ne_nil _ (by decide)
  have word : ∀ c ∈ (interface.name ++ ' ' :: '{' :: rest).head?, isBlank c = false := by
    rw [List.head?_append_of_ne_nil _ ne_nil]
    exact fun c isHead => isBlank_of_isWord (written.isWord_name c (List.mem_of_mem_head? isHead))
  have behindKeyword : afterKeyword? "interface" none (interface.header ++ rest) =
      some (interface.name ++ ' ' :: '{' :: rest) := by
    rw [interface.header_append]
    exact afterKeyword?_written word
  have isTail : isInterfaceTail [' '] := by decide
  simp [Props.interfaceHeader, declarationHeader, behindKeyword, written.afterPropsName?, isTail]

theorem Interface.aliasHeader_eq_none (interface : Interface) (rest : List Char) :
    aliasHeader none (interface.header ++ rest) = none := by
  have noKeyword : afterKeyword? "type" none (interface.header ++ rest) = none := by
    rw [interface.header_append]
    simp [afterKeyword?, after?]
  simp [aliasHeader, declarationHeader, noKeyword]

/-- Behind a line of a type stands no character with which a slash starts a comment. -/
theorem keepsSlash_lines (more : List (List Char)) :
    KeepsSlash (more.flatMap ('\n' :: ·)).head? := by
  cases more <;> simp [KeepsSlash]

theorem passes_lines {more : List (List Char)} (follows : KeepsSlash rest.head?)
    (isMore : ∀ line ∈ more, Closes 0 0 none line ∧ MarkFree line) :
    Passes (.bracket :: below) (more.flatMap ('\n' :: ·)) (.bracket :: below) rest := by
  induction more with
  | nil => exact .nil _ _
  | cons line more ih =>
      rw [List.forall_mem_cons] at isMore
      obtain ⟨⟨closes, markFree⟩, isMore⟩ := isMore
      have first : Passes (.bracket :: below) line (.bracket :: below)
          (more.flatMap ('\n' :: ·) ++ rest) :=
        closes.passes markFree ((keepsSlash_lines more).append follows)
      exact .append (.cons (move_ordinary rfl) first) (ih isMore)

theorem Doc.IsWritten.passes {doc : Doc} (written : doc.IsWritten) :
    Passes (.bracket :: below) (doc.text ++ ['\n']) (.bracket :: below) rest := by
  have body : IsBody [] doc.text := written.isGap.isBody (by simp)
  exact .append (body.passes (by simp [KeepsSlash])) (.cons (move_ordinary rfl) (.nil _ _))

/-- The scanner passes over a member as a whole. -/
theorem Signature.IsWritten.passes (written : signature.IsWritten) :
    Passes (.bracket :: below) signature.text (.bracket :: below) rest := by
  have doc (rest : List Char) : Passes (.bracket :: below)
      (signature.doc.elim [] fun doc => doc.text ++ ['\n']) (.bracket :: below) rest := by
    cases isDoc : signature.doc with
    | none => exact .nil _ _
    | some doc => exact (written.doc doc isDoc).passes
  have keeps : KeepsSlash (signature.ending.text ++ rest).head? := by
    cases signature.ending <;> simp [Ending.text, KeepsSlash]
  have line : Passes (.bracket :: below) (signature.before ++ signature.line)
      (.bracket :: below)
      (signature.more.flatMap ('\n' :: ·) ++ signature.ending.text ++ rest) := by
    rw [List.append_assoc]
    exact (written.closes_line none).passes written.markFree_line
      ((keepsSlash_lines _).append keeps)
  have lines : Passes (.bracket :: below) (signature.more.flatMap ('\n' :: ·))
      (.bracket :: below) (signature.ending.text ++ rest) :=
    passes_lines keeps fun line member =>
      ⟨(written.more line member).1, written.markFree_more line member⟩
  have ending : Passes (.bracket :: below) signature.ending.text (.bracket :: below) rest := by
    cases signature.ending
    · exact .cons (move_ordinary rfl) (.cons (move_ordinary rfl) (.nil _ _))
    · exact .cons (move_ordinary rfl) (.cons (move_ordinary rfl) (.nil _ _))
    · exact .cons (move_ordinary rfl) (.nil _ _)
  rw [Signature.text, ← List.append_assoc signature.before]
  exact (doc _).append (line.append (lines.append ending))

theorem passes_signatures {signatures : List Signature}
    (written : ∀ signature ∈ signatures, signature.IsWritten) :
    Passes (.bracket :: below) (signatures.flatMap Signature.text) (.bracket :: below) rest := by
  induction signatures with
  | nil => exact .nil _ _
  | cons signature signatures ih =>
      rw [List.forall_mem_cons] at written
      exact .append written.1.passes (ih written.2)

theorem Interface.IsWritten.groupBody (written : interface.IsWritten) :
    groupBody (interface.body ++ '}' :: rest) = interface.body :=
  groupBody_of_passes (.cons (move_ordinary rfl) (passes_signatures written.members)) rfl

/-- The line break behind the opening brace starts no member. -/
theorem Interface.IsWritten.membersOf_body (written : interface.IsWritten) :
    membersOf interface.body = interface.members.map Signature.prop := by
  have blank : (Piece.of { text := [], separator := some '\n' }) =
      { code := [], comment := none, separator := some '\n' } :=
    Piece.of_markFree (.of_not_mem List.not_mem_nil) _
  have read : Reading.of interface.body =
      readingFrom {} (some '\n') (interface.members.flatMap Signature.text) := by
    change readingFrom {} none ([] ++ '\n' :: _) = _
    rw [readingFrom_append isWhole_nil (by decide), blank]
    rfl
  rw [membersOf, read, props_readingFrom _ written.members]

end

/-- From the text of a script the props of its interface are read. -/
theorem sourceProps_interface {interface : Interface} {after : List Char}
    (written : interface.IsWritten)
    (onlyInterface : OnlyAtStart interfaceHeader (interface.text ++ after))
    (onlyAlias : OnlyAtStart aliasHeader (interface.text ++ after)) :
    sourceProps (interface.text ++ after) = interface.members.map Signature.prop := by
  have divided : interface.text ++ after =
      [] ++ (interface.header ++ (interface.body ++ '}' :: after)) := by
    simp [Interface.text]
  have block : blocks interfaceHeader (interface.text ++ after) =
      [{ start := 0, header := interface.header, body := interface.body }] := by
    rw [divided]
    refine blocks_eq_singleton written.interfaceHeader ?_ written.groupBody fun other rest => ?_
    · rw [interface.header_eq, List.getLast?_append_of_ne_nil _ (by simp),
        List.getLast?_append_of_ne_nil _ (by simp)]
      rfl
    · rw [← divided]
      exact onlyInterface other rest
  have noBlock : blocks aliasHeader (interface.text ++ after) = [] := by
    refine blocks_eq_nil fun lead rest isLead => ?_
    by_cases atStart : lead = []
    · subst atStart
      rw [← List.nil_append rest, ← isLead, divided]
      exact interface.aliasHeader_eq_none _
    · exact onlyAlias lead rest isLead atStart
  simp [sourceProps, block, noBlock, written.membersOf_body]

theorem declaration?_eq (script : List UInt8) :
    declaration? script = fun node =>
      if isDeclaration node then declaration? script node else none := by
  funext node
  unfold declaration? isDeclaration
  split <;> rfl

/-- The node of an interface declares the props of its members. -/
theorem Interface.IsNode.declaration? {interface : Interface} {node : Node}
    (isNode : interface.IsNode node) (written : interface.IsWritten) (after : List Char) :
    declaration? (Utf8.encode (interface.text ++ after)) node =
      some
        { name := String.ofList interface.name
          props := interface.members.map Signature.prop } := by
  obtain ⟨namePart, isName, covers⟩ := isNode.name
  obtain ⟨list, isBody, isList, areMembers⟩ := isNode.body
  have name : namePart.text (Utf8.encode (interface.text ++ after)) = interface.name :=
    Node.text_of_covers covers (' ' :: '{' :: (interface.body ++ '}' :: after))
      (by rw [Interface.text, interface.header_eq]; simp only [List.append_assoc]; rfl)
  have atMembers : interface.text ++ after = (interface.header ++ ['\n']) ++
      (interface.members.flatMap Signature.text ++ '}' :: after) := by
    simp [Interface.text, Interface.body]
  have props : propsOf (Utf8.encode (interface.text ++ after)) list =
      interface.members.map Signature.prop :=
    propsOf_of_areMembers areMembers written.members atMembers
  have isMembers : memberList? node = some list := by
    simp [memberList?, isNode.kind, isBody, Option.filter, isList]
  simp [Props.declaration?, isNode.kind, isMembers, isName, name, props,
    interface.isSuffixOf_name]

/-- From the tree of a script the props of its interface are listed. -/
theorem declarations_interface {interface : Interface} {root : Node} (after : List Char)
    (written : interface.IsWritten) (isTree : interface.IsTree root) :
    declarations (Utf8.encode (interface.text ++ after)) root =
      [{ name := String.ofList interface.name
         props := interface.members.map Signature.prop }] := by
  obtain ⟨node, onlyNode, isNode⟩ := isTree
  rw [declarations, declaration?_eq, ← List.filterMap_filter, onlyNode]
  simp [isNode.declaration? written after]

/-- The two ways to find props agree on a script that starts with an interface of props and
declares no other: both give the props that the members declare. -/
theorem byGrammar_extract_eq {interface : Interface} {after : List Char} {grammar : Grammar}
    {fileName : String} {root : Node} (written : interface.IsWritten)
    (onlyInterface : OnlyAtStart interfaceHeader (interface.text ++ after))
    (onlyAlias : OnlyAtStart aliasHeader (interface.text ++ after))
    (isInstalled : grammar.isInstalled)
    (parsed : grammar.parse (Language.ofFile fileName)
      (Utf8.encode (interface.text ++ after)) = .ok root)
    (isTree : interface.IsTree root) :
    (byGrammar grammar).extract (String.ofList (interface.text ++ after)) fileName =
        .ok (interface.members.map Signature.prop) ∧
      bySource.extract (String.ofList (interface.text ++ after)) fileName =
        .ok (interface.members.map Signature.prop) := by
  refine ⟨?_, ?_⟩
  · have found : grammar.declarations (String.ofList (interface.text ++ after)) fileName =
        .ok [{ name := String.ofList interface.name
               props := interface.members.map Signature.prop }] := by
      simp only [Grammar.declarations, isInstalled, if_true, String.toList_ofList, parsed,
        Except.map, declarations_interface after written isTree]
    simp only [byGrammar, found, Except.map, List.flatMap_singleton]
  · simp [bySource, sourceProps_interface written onlyInterface onlyAlias]

/-!
Two scripts with their trees: one for which the two ways agree, and one for which they do
not.
-/

/-- A node with a name of its own, on one line. -/
def Node.onLine (row : Nat) (kind : String) (field : Option String) (first past : Nat)
    (children : List Node) : Node :=
  .node kind { firstByte := first, endByte := past, firstRow := row, endRow := row } true field
    children

/-- A mark of one line. -/
def Node.mark (row : Nat) (mark : String) (first : Nat) : Node :=
  .node mark
    { firstByte := first, endByte := first + mark.length, firstRow := row, endRow := row } false
    none []

/-- The tree of a script with one interface and nothing else. -/
def Node.script (past endRow nameEnd : Nat) (members : List Node) : Node :=
  let whole : Extent := { firstByte := 0, endByte := past, firstRow := 0, endRow := endRow }
  .node "program" whole true none
    [.node "interface_declaration" whole true none
      [.mark 0 "interface" 0,
        .onLine 0 "type_identifier" (some "name") 10 nameEnd [],
        .node "object_type" { whole with firstByte := nameEnd + 1 } true (some "body")
          (.mark 0 "\x7b" (nameEnd + 1) :: members ++ [.mark endRow "\x7d" (past - 1)])]]

/-- The grammar that reads every script as this tree. -/
def Grammar.of (root : Node) : Grammar :=
  { isInstalled := true, parse := fun _ _ => .ok root }

def sampleInterface : Interface :=
  { stem := ['A']
    members :=
      [{ doc := some { before := [' ', ' '], inside := " é ".toList }
         before := [' ', ' ']
         isReadonly := false
         name := .word ['b']
         optional := true
         first := [' ', 'T']
         more := []
         ending := .semicolon },
        { doc := none
          before := [' ', ' ']
          isReadonly := false
          name := .quoted '\'' ['c', '-', 'd']
          optional := false
          first := " string".toList
          more := []
          ending := .semicolon }] }

def sampleTree : Node :=
  .script 58 4 16
    [.onLine 1 "comment" none 21 30 [],
      .onLine 2 "property_signature" none 33 38
        [.onLine 2 "property_identifier" (some "name") 33 34 [], .mark 2 "?" 34,
          .onLine 2 "type_annotation" (some "type") 35 38
            [.mark 2 ":" 35, .onLine 2 "type_identifier" none 37 38 []]],
      .mark 2 ";" 38,
      .onLine 3 "property_signature" none 42 55
        [.onLine 3 "string" (some "name") 42 47
            [.mark 3 "'" 42, .onLine 3 "string_fragment" none 43 46 [], .mark 3 "'" 46],
          .onLine 3 "type_annotation" (some "type") 47 55
            [.mark 3 ":" 47, .onLine 3 "predefined_type" none 49 55 [.mark 3 "string" 49]]],
      .mark 3 ";" 55]

theorem sampleInterface_isTree : sampleInterface.IsTree sampleTree := by
  refine ⟨_, rfl, rfl, ⟨_, rfl, by decide +kernel⟩, _, rfl, rfl, ?_⟩
  exact @AreMembers.cons _ _ _ [_, _] _
    (.documented rfl ⟨rfl, rfl, by decide +kernel⟩
      ⟨rfl, rfl, by decide +kernel, ⟨_, rfl, by decide +kernel⟩, ⟨_, rfl, by decide +kernel⟩, rfl⟩)
    (@AreMembers.cons _ _ _ [_] _
      (.plain rfl
        ⟨rfl, rfl, by decide +kernel, ⟨_, rfl, by decide +kernel⟩, ⟨_, rfl, by decide +kernel⟩,
          rfl⟩)
      (.nil _))

theorem sampleInterface_isWritten : sampleInterface.IsWritten := by
  refine ⟨List.all_eq_true.mp (by decide),
    List.forall_mem_cons.mpr ⟨?_, List.forall_mem_singleton.mpr ?_⟩⟩
  · exact
      { doc := by rintro doc ⟨⟩; exact ⟨by decide +kernel, by decide +kernel⟩
        before := by decide +kernel
        name := by decide +kernel
        first := .of_neutral (List.all_eq_true.mp (by decide +kernel))
        more := by simp
        markFree := by decide +kernel
        notBlank := by decide +kernel }
  · exact
      { doc := by rintro doc ⟨⟩
        before := by decide +kernel
        name := by decide +kernel
        first := .of_neutral (List.all_eq_true.mp (by decide +kernel))
        more := by simp
        markFree := by decide +kernel
        notBlank := by decide +kernel }

theorem byGrammar_extract_sampleInterface :
    sampleInterface.IsWritten ∧ OnlyAtStart interfaceHeader (sampleInterface.text ++ []) ∧
      OnlyAtStart aliasHeader (sampleInterface.text ++ []) ∧
      sampleInterface.IsTree sampleTree ∧
      (byGrammar (Grammar.of sampleTree)).extract
          "interface AProps \x7b\n  /** é */\n  b?: T;\n  'c-d': string;\n\x7d" "A.tsx" =
        .ok [{ name := "b", type := "T", required := false, description := some "é" },
          { name := "c-d", type := "string", required := true }] ∧
      bySource.extract
          "interface AProps \x7b\n  /** é */\n  b?: T;\n  'c-d': string;\n\x7d" "A.tsx" =
        .ok [{ name := "b", type := "T", required := false, description := some "é" },
          { name := "c-d", type := "string", required := true }] := by
  have onlyInterface : OnlyAtStart interfaceHeader (sampleInterface.text ++ []) := by
    decide +kernel
  have onlyAlias : OnlyAtStart aliasHeader (sampleInterface.text ++ []) := by decide +kernel
  have script : String.ofList (sampleInterface.text ++ []) =
      "interface AProps \x7b\n  /** é */\n  b?: T;\n  'c-d': string;\n\x7d" := by decide +kernel
  have props : sampleInterface.members.map Signature.prop =
      [{ name := "b", type := "T", required := false, description := some "é" },
        { name := "c-d", type := "string", required := true }] := by decide +kernel
  have agree := @byGrammar_extract_eq sampleInterface [] (Grammar.of sampleTree) "A.tsx"
    sampleTree sampleInterface_isWritten onlyInterface onlyAlias rfl rfl sampleInterface_isTree
  rw [script, props] at agree
  exact ⟨sampleInterface_isWritten, onlyInterface, onlyAlias, sampleInterface_isTree, agree⟩

/-- A member on a line of its own that must be there. -/
def Signature.required (name : Name) (type : List Char) : Signature :=
  { doc := none
    before := [' ', ' ']
    isReadonly := false
    name := name
    optional := false
    first := type
    more := []
    ending := .semicolon }

def unusualInterface : Interface :=
  { stem := ['A']
    members :=
      [.required (.word ['é']) [' ', 'T'],
        .required (.word ['a', '\u0301']) [' ', 'T'],
        .required (.quoted '\'' ['a', '\\', '\'', 'b']) [' ', 'T'],
        .required (.quoted '\'' []) [' ', 'T'],
        .required (.word ['c']) " A<[<T>() => B], C>".toList,
        .required (.word ['d']) " Map <A, B>".toList] }

def unusualTree : Node :=
  .script 103 7 16
    [.onLine 1 "property_signature" none 21 26
        [.onLine 1 "property_identifier" (some "name") 21 23 [],
          .onLine 1 "type_annotation" (some "type") 23 26
            [.mark 1 ":" 23, .onLine 1 "type_identifier" none 25 26 []]],
      .mark 1 ";" 26,
      .onLine 2 "property_signature" none 30 36
        [.onLine 2 "property_identifier" (some "name") 30 33 [],
          .onLine 2 "type_annotation" (some "type") 33 36
            [.mark 2 ":" 33, .onLine 2 "type_identifier" none 35 36 []]],
      .mark 2 ";" 36,
      .onLine 3 "property_signature" none 40 49
        [.onLine 3 "string" (some "name") 40 46
            [.mark 3 "'" 40, .onLine 3 "string_fragment" none 41 42 [],
              .onLine 3 "escape_sequence" none 42 44 [],
              .onLine 3 "string_fragment" none 44 45 [], .mark 3 "'" 45],
          .onLine 3 "type_annotation" (some "type") 46 49
            [.mark 3 ":" 46, .onLine 3 "type_identifier" none 48 49 []]],
      .mark 3 ";" 49,
      .onLine 4 "property_signature" none 53 58
        [.onLine 4 "string" (some "name") 53 55 [.mark 4 "'" 53, .mark 4 "'" 54],
          .onLine 4 "type_annotation" (some "type") 55 58
            [.mark 4 ":" 55, .onLine 4 "type_identifier" none 57 58 []]],
      .mark 4 ";" 58,
      .onLine 5 "property_signature" none 62 83
        [.onLine 5 "property_identifier" (some "name") 62 63 [],
          .onLine 5 "type_annotation" (some "type") 63 83
            [.mark 5 ":" 63,
              .onLine 5 "generic_type" none 65 83
                [.onLine 5 "type_identifier" (some "name") 65 66 [],
                  .onLine 5 "type_arguments" (some "type_arguments") 66 83
                    [.mark 5 "<" 66,
                      .onLine 5 "tuple_type" none 67 79
                        [.mark 5 "[" 67,
                          .onLine 5 "function_type" none 68 78
                            [.onLine 5 "type_parameters" (some "type_parameters") 68 71
                                [.mark 5 "<" 68,
                                  .onLine 5 "type_parameter" none 69 70
                                    [.onLine 5 "type_identifier" (some "name") 69 70 []],
                                  .mark 5 ">" 70],
                              .onLine 5 "formal_parameters" (some "parameters") 71 73
                                [.mark 5 "(" 71, .mark 5 ")" 72],
                              .mark 5 "=>" 74,
                              .onLine 5 "type_identifier" (some "return_type") 77 78 []],
                          .mark 5 "]" 78],
                      .mark 5 "," 79, .onLine 5 "type_identifier" none 81 82 [],
                      .mark 5 ">" 82]]]],
      .mark 5 ";" 83,
      .onLine 6 "property_signature" none 87 100
        [.onLine 6 "property_identifier" (some "name") 87 88 [],
          .onLine 6 "type_annotation" (some "type") 88 100
            [.mark 6 ":" 88,
              .onLine 6 "generic_type" none 90 100
                [.onLine 6 "type_identifier" (some "name") 90 93 [],
                  .onLine 6 "type_arguments" (some "type_arguments") 94 100
                    [.mark 6 "<" 94, .onLine 6 "type_identifier" none 95 96 [],
                      .mark 6 "," 96, .onLine 6 "type_identifier" none 98 99 [],
                      .mark 6 ">" 99]]]],
      .mark 6 ";" 100]

theorem unusualInterface_isTree : unusualInterface.IsTree unusualTree := by
  refine ⟨_, rfl, rfl, ⟨_, rfl, by decide +kernel⟩, _, rfl, rfl, ?_⟩
  iterate 6
    refine @AreMembers.cons _ _ _ [_] _ (.plain rfl ⟨rfl, rfl, by decide +kernel,
      ⟨_, rfl, by decide +kernel⟩, ⟨_, rfl, by decide +kernel⟩, rfl⟩) ?_
  exact .nil _

/-- Outside these conditions the text has fewer props than the tree, and other types: names
whose first character is not an ASCII letter or that have a combining mark, quoted names that
are empty or have an escape, a list behind a blank, and the angles of type parameters inside
the brackets of a list.  An interface whose name starts with a dollar sign is not found. -/
theorem bySource_extract_unusual :
    unusualInterface.IsTree unusualTree ∧
      OnlyAtStart interfaceHeader unusualInterface.text ∧
      OnlyAtStart aliasHeader unusualInterface.text ∧
      (byGrammar (Grammar.of unusualTree)).extract (String.ofList unusualInterface.text) "A.tsx" =
        .ok [{ name := "é", type := "T", required := true },
          { name := "a\u0301", type := "T", required := true },
          { name := "a\\'b", type := "T", required := true },
          { name := "", type := "T", required := true },
          { name := "c", type := "A<[<T>() => B], C>", required := true },
          { name := "d", type := "Map <A, B>", required := true }] ∧
      bySource.extract (String.ofList unusualInterface.text) "A.tsx" =
        .ok [{ name := "c", type := "A<[<T>() => B],C>", required := true },
          { name := "d", type := "Map <A,B>", required := true }] ∧
      bySource.extract "interface $Props \x7b\n  a: T;\n\x7d" "A.tsx" = .ok [] := by
  refine ⟨unusualInterface_isTree, ?_⟩
  decide +kernel

end ComponentAtlas.Props
