/-
Module: ComponentAtlas.Props.SyntaxTree
Purpose: Props declarations in the syntax tree of a script.
Main exports:
  Node, Language, Grammar, Declaration, declarations, Grammar.declarations
-/
import ComponentAtlas.Component.Basic
import ComponentAtlas.Fault
import ComponentAtlas.Props.Comment
import ComponentAtlas.Props.Header
import ComponentAtlas.Source.Enclosure
import ComponentAtlas.Text.LowerCase
import ComponentAtlas.Text.Utf8

namespace ComponentAtlas.Props

open ComponentAtlas.Text

/-- The part of a script that a node covers: its bytes, and its first and last
line. -/
structure Extent where
  firstByte : Nat
  endByte : Nat
  firstRow : Nat
  endRow : Nat
deriving Repr, DecidableEq, Inhabited

/-- A node of a syntax tree.  `field` is its role among the children of its
parent; a node without a name of its own is a mark such as a bracket. -/
inductive Node where
  | node (kind : String) (extent : Extent) (isNamed : Bool) (field : Option String)
      (children : List Node)
deriving Repr, Inhabited

namespace Node

/-- What the node is, in the words of the grammar. -/
def kind : Node → String
  | .node kind _ _ _ _ => kind

/-- The part of the script that the node covers. -/
def extent : Node → Extent
  | .node _ extent _ _ _ => extent

/-- The node is more than a mark. -/
def isNamed : Node → Bool
  | .node _ _ isNamed _ _ => isNamed

def field : Node → Option String
  | .node _ _ _ field _ => field

def children : Node → List Node
  | .node _ _ _ _ children => children

def part? (node : Node) (role : String) : Option Node :=
  node.children.find? fun child => child.field = some role

mutual

/-- All nodes below the node, each one before the nodes below it. -/
def descendants : Node → List Node
  | .node _ _ _ _ children => descendantsOf children

/-- The given nodes with all nodes below them. -/
def descendantsOf : List Node → List Node
  | [] => []
  | child :: rest => child :: (descendants child ++ descendantsOf rest)

end

end Node

/-- The characters between two bytes of a script; a broken character at an end is
left out. -/
def slice (script : List UInt8) (first past : Nat) : List Char :=
  Utf8.decodeLenient ((script.take past).drop first)

def Node.text (script : List UInt8) (node : Node) : List Char :=
  slice script node.extent.firstByte node.extent.endByte

/-- A declaration of props with its members. -/
structure Declaration where
  name : String
  props : List PropDecl
deriving Repr, DecidableEq

/-- The nodes that list the members of a type. -/
def isMemberList (node : Node) : Bool :=
  node.kind = "object_type" || node.kind = "interface_body"

/-- The member list of a declaration.  A type alias that joins several types
keeps the first one that is written out. -/
def memberList? (node : Node) : Option Node :=
  if node.kind = "interface_declaration" then
    (node.part? "body").filter isMemberList
  else
    (node.part? "value").bind fun value =>
      if value.kind = "object_type" then some value
      else value.children.find? fun child => child.kind = "object_type"

/-- The type of a method: everything behind its name and question mark. -/
def methodType (script : List UInt8) (member nameNode : Node) : List Char :=
  trim ((trimLeft (slice script nameNode.extent.endByte member.extent.endByte)).dropWhile
    (· = '?'))

/-- The type of a property, `any` when it has none. -/
def propertyType (script : List UInt8) (member : Node) : List Char :=
  let written := ((member.part? "type").map (·.text script)).getD "any".toList
  trim (withoutStart [':'] (trimLeft written))

def collapsedType (type : List Char) : List Char :=
  collapse (dropRightWhile (fun c => c = ';' || c = ',') type)

/-- The prop of a member node, with the comment in front of it. -/
def Node.prop (script : List UInt8) (member nameNode : Node)
    (comment : Option (List Char)) : PropDecl :=
  let type :=
    if member.kind = "method_signature" then methodType script member nameNode
    else propertyType script member
  { name := String.ofList (trimWhile Source.isLineQuote (nameNode.text script))
    type := String.ofList (collapsedType type)
    required := !member.children.any fun child => child.kind = "?"
    description := comment.map String.ofList }

/-- What was read of a member list: the props so far, the latest first, the
comment that waits for the next one, and the last line of the latest one. -/
structure Listing where
  props : List PropDecl := []
  waiting : Option (List Char) := none
  lastRow : Option Nat := none

/-- A comment that starts on the last line of a prop describes it unless it is
described already; any other comment waits for the next prop. -/
def Listing.takeComment (listing : Listing) (row : Nat) (comment : Option (List Char)) :
    Listing :=
  match listing.props with
  | prop :: rest =>
    if listing.lastRow = some row && prop.description.isNone then
      { listing with props := { prop with description := comment.map String.ofList } :: rest }
    else { listing with waiting := comment }
  | [] => { listing with waiting := comment }

/-- Read one more node of a member list.  What is neither comment nor member
takes away the comment in front of it. -/
def Listing.take (script : List UInt8) (listing : Listing) (member : Node) : Listing :=
  if member.kind = "comment" then
    listing.takeComment member.extent.firstRow (commentText (member.text script))
  else if member.kind = "property_signature" || member.kind = "method_signature" then
    match member.part? "name" with
    | some nameNode =>
      { props := member.prop script nameNode listing.waiting :: listing.props
        waiting := none
        lastRow := some member.extent.endRow }
    | none => { listing with waiting := none }
  else { listing with waiting := none }

def propsOf (script : List UInt8) (body : Node) : List PropDecl :=
  ((body.children.filter Node.isNamed).foldl (Listing.take script) {}).props.reverse

/-- The declaration of props that a node is, if it is one. -/
def declaration? (script : List UInt8) (node : Node) : Option Declaration :=
  if node.kind = "interface_declaration" || node.kind = "type_alias_declaration" then
    let name := ((node.part? "name").map (·.text script)).getD []
    match memberList? node with
    | some body =>
      if nameEnding.isSuffixOf name then
        some { name := String.ofList name, props := propsOf script body }
      else none
    | none => none
  else none

/-- All declarations of props in a syntax tree. -/
def declarations (script : List UInt8) (root : Node) : List Declaration :=
  root.descendants.filterMap (declaration? script)

/-- The languages that have a grammar. -/
inductive Language where
  | typescript
  | tsx
deriving Repr, DecidableEq

def Language.key : Language → String
  | .typescript => "typescript"
  | .tsx => "tsx"

/-- The language of a file, from the ending of its name. -/
def Language.ofFile (fileName : String) : Language :=
  let name := lower fileName.toList
  if [".tsx", ".jsx", ".js"].any fun ending => ending.toList.isSuffixOf name then .tsx
  else .typescript

/-- A parser that may be installed or not. -/
structure Grammar where
  isInstalled : Bool
  parse : Language → List UInt8 → Except Fault Node

def Grammar.declarations (grammar : Grammar) (source fileName : String) :
    Except Fault (List Declaration) :=
  if grammar.isInstalled then
    let script := Utf8.encode source.toList
    (grammar.parse (Language.ofFile fileName) script).map (Props.declarations script)
  else .error .noGrammar

end ComponentAtlas.Props
