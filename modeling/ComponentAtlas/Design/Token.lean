/-
Module: ComponentAtlas.Design.Token
Purpose: Design tokens: values with the number of their uses, and the tables that
  count them.
Main exports:
  ColorToken, TokenUsage, colorTokens, tokenUsages
-/
import ComponentAtlas.Data.Basic

namespace ComponentAtlas.Design

/-- A color with the number of its uses and the properties that used it. -/
structure ColorToken where
  value : String
  usage : Nat
  contexts : List String
deriving Repr, DecidableEq

/-- A value with the number of its uses. -/
structure TokenUsage where
  value : String
  usage : Nat
deriving Repr, DecidableEq

def addColor (tokens : List ColorToken) (use : String × String) : List ColorToken :=
  match tokens with
  | [] => [{ value := use.1, usage := 1, contexts := [use.2] }]
  | token :: rest =>
    if token.value = use.1 then
      { token with
        usage := token.usage + 1
        contexts :=
          if use.2 ∈ token.contexts then token.contexts else token.contexts ++ [use.2] } :: rest
    else token :: addColor rest use

/-- The colors of a list of uses, in the order of their first use. -/
def colorTokens (uses : List (String × String)) : List ColorToken := uses.foldl addColor []

def addUse (tokens : List TokenUsage) (value : String) : List TokenUsage :=
  match tokens with
  | [] => [{ value, usage := 1 }]
  | token :: rest =>
    if token.value = value then { token with usage := token.usage + 1 } :: rest
    else token :: addUse rest value

/-- The values of a list of uses, in the order of their first use. -/
def tokenUsages (uses : List String) : List TokenUsage := uses.foldl addUse []

/-- A color as data; its value is its name too. -/
def ColorToken.data (token : ColorToken) : Data :=
  .record [("name", .text token.value), ("value", .text token.value),
    ("usage", .int token.usage), ("contexts", .texts token.contexts)]

def TokenUsage.data (token : TokenUsage) : Data :=
  .record [("value", .text token.value), ("usage", .int token.usage)]

def tableData (tokens : List TokenUsage) : Data :=
  .record (tokens.map fun token => (token.value, token.data))

end ComponentAtlas.Design
