/-
Module: ComponentAtlas.Component.Framework
Purpose: The framework that a component is written for, from its source.
Main exports:
  frameworkOf
-/
import ComponentAtlas.Component.Basic
import ComponentAtlas.Text.Alphanumeric
import ComponentAtlas.Text.Blank
import ComponentAtlas.Text.Search

namespace ComponentAtlas

open ComponentAtlas.Text

/-- The text begins with a word and the word ends there. -/
def wordHere (word : String) (text : List Char) : Bool :=
  (after? word.toList text).any endsWord

def packageHere (text : List Char) : Bool :=
  match text with
  | quote :: rest =>
    (quote = '"' || quote = '\'') &&
      ((after? reactNative.toList rest).any fun after =>
        after.head? = some '"' || after.head? = some '\'')
  | [] => false

/-- Marks that only components of the first framework have. -/
def nativeImportHere (before : Option Char) (text : List Char) : Bool :=
  packageHere text || (startsWord before && wordHere "StyleSheet.create" text)

/-- The elements that the first framework brings. -/
def nativeElements : List String :=
  ["View", "Text", "TouchableOpacity", "TouchableHighlight", "ScrollView", "FlatList",
    "SectionList", "SafeAreaView", "Pressable", "TextInput", "KeyboardAvoidingView"]

def nativeElementHere (_ : Option Char) (text : List Char) : Bool :=
  match text with
  | '<' :: rest => nativeElements.any fun element => wordHere element rest
  | _ => false

/-- A class attribute or one of the rules of style files. -/
def utilityHere (before : Option Char) (text : List Char) : Bool :=
  (!(before.any fun c => isWord c || c = '-') &&
    (["className", "class"].any fun name =>
      (after? name.toList text).any fun rest => (trimLeft rest).head? = some '=')) ||
    wordHere "@apply" text || wordHere "@tailwind" text

/-- The framework of a source.  Imports decide first, then utility classes, and
elements last, because other frameworks may have elements of the same name. -/
def frameworkOf (source : String) : String :=
  let text := source.toList
  if anywhere nativeImportHere none text then reactNative
  else if anywhere utilityHere none text then tailwind
  else if anywhere nativeElementHere none text then reactNative
  else unknownFramework

end ComponentAtlas
