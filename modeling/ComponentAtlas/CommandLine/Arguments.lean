/-
Module: ComponentAtlas.CommandLine.Arguments
Purpose: Options and operands among the arguments of a program.
Main exports:
  OptionSpec, Token, Stop, classifyAll, Found, readOptions, readLeading
-/
import ComponentAtlas.Text.Alphanumeric

namespace ComponentAtlas.CommandLine

open ComponentAtlas.Text

/-!
First each argument is classified on its own; only then are the arguments taken in
order.  A long option may be cut short as long as it stays the only one with that
beginning, and its value may follow an equals sign.  One-letter options take no
value and may stand together behind one hyphen.  Behind two hyphens alone nothing
is an option.
-/

/-- What an option stands for. -/
inductive Role where
  /-- It is given or not. -/
  | switch
  /-- It has a value, which must pass a test. -/
  | value (accepts : String → Bool)
  /-- It asks for help, and nothing after it counts. -/
  | help

/-- An option: the key under which it is found, its letter if it has one, and its
long name. -/
structure OptionSpec where
  key : String
  letter : Option Char := none
  long : String
  role : Role

/-- Why the arguments give no command. -/
inductive Stop where
  | help
  | usage
deriving Repr, DecidableEq

/-- An argument on its own. -/
inductive Token where
  | operand (text : String)
  /-- Two hyphens alone. -/
  | mark
  /-- A long option, with the value behind its equals sign. -/
  | long (spec : OptionSpec) (attached : Option String)
  /-- Letters behind one hyphen: the options among them up to one that is none, if
  there is one. -/
  | letters (specs : List OptionSpec) (strays : Bool)
  /-- Letters behind one hyphen that make no sense. -/
  | badLetters
  | unknown

/-- The text up to the first equals sign, and what follows it. -/
def splitValue (text : List Char) : List Char × Option String :=
  let name := text.takeWhile (· ≠ '=')
  match text.drop name.length with
  | [] => (name, none)
  | _ :: value => (name, some (String.ofList value))

def withLetter? (specs : List OptionSpec) (letter : Char) : Option OptionSpec :=
  specs.find? fun spec => spec.letter = some letter

/-- A long option: the one with exactly this name, or else the only one that begins
with it. -/
def classifyLong (specs : List OptionSpec) (text : List Char) : Except Stop Token :=
  let (name, attached) := splitValue text
  match specs.find? fun spec => spec.long.toList = name with
  | some spec => .ok (.long spec attached)
  | none =>
    match specs.filter fun spec => name.isPrefixOf spec.long.toList with
    | [] => .ok .unknown
    | [spec] => .ok (.long spec attached)
    | _ => .error .usage

/-- Letters behind one hyphen, after some that are options.  An equals sign or another
hyphen makes no sense there. -/
def classifyMore (specs : List OptionSpec) (known : List OptionSpec) : List Char → Token
  | [] => .letters known false
  | c :: rest =>
    if c = '=' || c = '-' then .badLetters
    else
      match withLetter? specs c with
      | some spec => classifyMore specs (known ++ [spec]) rest
      | none => .letters known true

/-- Letters behind one hyphen. -/
def classifyLetters (specs : List OptionSpec) (first : Char) (rest : List Char) : Token :=
  match withLetter? specs first with
  | some spec => classifyMore specs [spec] rest
  | none => .unknown

def isNegativeNumber (text : List Char) : Bool :=
  let isDigit (c : Char) : Bool := (decimalDigit? c).isSome
  let whole := text.takeWhile isDigit
  match text.drop whole.length with
  | [] => !whole.isEmpty
  | '.' :: fraction => !fraction.isEmpty && fraction.all isDigit
  | _ => false

/-- What an argument that no option fits is: an operand when it is a number or
contains a space. -/
def orOperand (text : String) (behindHyphen : List Char) : Token → Token
  | .unknown =>
    if isNegativeNumber behindHyphen || text.contains ' ' then .operand text else .unknown
  | token => token

def classify (specs : List OptionSpec) (text : String) : Except Stop Token :=
  match text.toList with
  | ['-', '-'] => .ok .mark
  | '-' :: '-' :: rest =>
    (classifyLong specs rest).map (orOperand text ('-' :: rest))
  | '-' :: first :: rest =>
    .ok (orOperand text (first :: rest) (classifyLetters specs first rest))
  | _ => .ok (.operand text)

def classifyAll (specs : List OptionSpec) : List String → Except Stop (List Token)
  | [] => .ok []
  | text :: rest => do
    match ← classify specs text with
    | .mark => return .mark :: rest.map .operand
    | token => return token :: (← classifyAll specs rest)

/-- The options that were given, in order, each with its value. -/
structure Found where
  options : List (String × String) := []
  operands : List String := []
  /-- There were arguments that nothing takes. -/
  strays : Bool := false
deriving Repr, DecidableEq

namespace Found

def add (found : Found) (spec : OptionSpec) (value : String) : Found :=
  { found with options := found.options ++ [(spec.key, value)] }

/-- Take an argument that nothing takes. -/
def stray (found : Found) : Found := { found with strays := true }

def has (found : Found) (key : String) : Bool := found.options.any fun option => option.1 = key

def value? (found : Found) (key : String) : Option String :=
  (found.options.reverse.find? fun option => option.1 = key).map (·.2)

def switch (found : Found) (spec : OptionSpec) : Except Stop Found :=
  match spec.role with
  | .switch => .ok (found.add spec "")
  | .help => .error .help
  | .value _ => .error .usage

def valued (found : Found) (spec : OptionSpec) (value : String) : Except Stop Found :=
  match spec.role with
  | .value accepts => if accepts value then .ok (found.add spec value) else .error .usage
  | _ => .error .usage

/-- Take options that stand behind one hyphen. -/
def letters (found : Found) (specs : List OptionSpec) (strays : Bool) : Except Stop Found :=
  specs.foldlM switch (if strays then found.stray else found)

/-- Take an operand, if another one is wanted. -/
def operand (found : Found) (wanted : Nat) (text : String) : Found :=
  if found.operands.length < wanted then { found with operands := found.operands ++ [text] }
  else found.stray

end Found

def OptionSpec.needsValue (spec : OptionSpec) : Bool :=
  match spec.role with
  | .value _ => true
  | _ => false

/-- Take arguments in order, with a number of operands.  Two hyphens next to an
operand that is wanted belong to it. -/
def takeAll (wanted : Nat) (found : Found) : List Token → Except Stop Found
  | [] => .ok found
  | .operand text :: .mark :: rest | .mark :: .operand text :: rest
  | .operand text :: rest => takeAll wanted (found.operand wanted text) rest
  | .mark :: rest => takeAll wanted found.stray rest
  | .long spec (some value) :: rest => do takeAll wanted (← found.valued spec value) rest
  | .long spec none :: rest =>
    if spec.needsValue then
      match rest with
      | .operand value :: rest => do takeAll wanted (← found.valued spec value) rest
      | _ => .error .usage
    else do takeAll wanted (← found.switch spec) rest
  | .letters specs strays :: rest => do takeAll wanted (← found.letters specs strays) rest
  | .badLetters :: _ => .error .usage
  | .unknown :: rest => takeAll wanted found.stray rest

/-- Take all arguments; each operand that is wanted must be there. -/
def readOptions (specs : List OptionSpec) (wanted : Nat) (args : List String) :
    Except Stop Found := do
  let found ← takeAll wanted {} (← classifyAll specs args)
  if found.operands.length < wanted then .error .usage else .ok found

/-- Take options up to the first operand; the arguments from there on are left. -/
def takeLeading (found : Found) : List Token → List String → Except Stop (Found × List String)
  | .operand _ :: _, args => .ok (found, args)
  | .long spec (some value) :: rest, _ :: args => do
    takeLeading (← found.valued spec value) rest args
  | .long spec none :: rest, _ :: args =>
    if spec.needsValue then
      match rest, args with
      | .operand value :: rest, _ :: args => do
        takeLeading (← found.valued spec value) rest args
      | _, _ => .error .usage
    else do takeLeading (← found.switch spec) rest args
  | .letters specs strays :: rest, _ :: args => do
    takeLeading (← found.letters specs strays) rest args
  | .unknown :: rest, _ :: args => takeLeading found.stray rest args
  | _, _ => .error .usage

/-- Take the options in front of the first operand. -/
def readLeading (specs : List OptionSpec) (args : List String) :
    Except Stop (Found × List String) := do
  takeLeading {} (← classifyAll specs args) args

end ComponentAtlas.CommandLine
