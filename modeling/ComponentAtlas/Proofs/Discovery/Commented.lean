/-
Module: ComponentAtlas.Proofs.Discovery.Commented
Purpose: What comments change in what is found in a script, and what a line that is commented
  out contributes.
Main exports:
  found_withoutComments
-/
import ComponentAtlas.Component.Imports
import ComponentAtlas.Proofs.Props.Uncommented
import ComponentAtlas.Proofs.Styles.Uncommented

namespace ComponentAtlas

open ComponentAtlas.Source
open ComponentAtlas.Props
open ComponentAtlas.Styles

/-!
Only imports are looked for in a script without its comments.  Headers are looked for in the
whole script, so a header in a comment counts, and a comment in a header or directly before a
value hides what follows.
-/

/-- Where no header touches a comment, and no comment stands where the code of a member or a
literal is read, the comments make no difference to the names and types of the props and to the
styles; to imports they never do.  A line that is commented out still contributes all that it
declares, although nothing is left of it without its comments. -/
theorem found_withoutComments (source : List Char) :
    (KeepsProps source →
      (sourceProps (withoutComments source)).map shape = (sourceProps source).map shape) ∧
    (Undisturbed sheetHeader source →
      sheetStyles (withoutComments source) = sheetStyles source) ∧
    (KeepsClasses source →
      classStyles (withoutComments source) = classStyles source) ∧
    dependencies (withoutComments source) = dependencies source ∧
    (sourceProps ('/' :: '/' :: source) = sourceProps source ∧
      sheetStyles ('/' :: '/' :: source) = sheetStyles source ∧
      classStyles ('/' :: '/' :: source) = classStyles source) ∧
    ('\n' ∉ source →
      sourceProps (withoutComments ('/' :: '/' :: source)) = [] ∧
        sheetStyles (withoutComments ('/' :: '/' :: source)) = [] ∧
        classStyles (withoutComments ('/' :: '/' :: source)) = []) := by
  refine ⟨sourceProps_withoutComments, sheetStyles_withoutComments, classStyles_withoutComments,
    ?_, ⟨sourceProps_behindSlashes source, sheetStyles_behindSlashes source,
      classStyles_behindSlashes source⟩, fun onLine => ?_⟩
  · rw [dependencies, withoutComments_withoutComments, dependencies]
  · rw [withoutComments_behindSlashes onLine]
    exact ⟨rfl, rfl, rfl⟩

/-- Scripts with comments in places where they change nothing. -/
def commentedProps : List Char := "type Props = \x7b// a\n/*\nb */\nc: D; /* e */\n\x7d".toList

def commentedSheet : List Char :=
  "StyleSheet.create(\x7b/* a */ b: \x7b c: 1 /* d */ \x7d \x7d)".toList

def commentedClass : List Char := "<p class=\x7b/* a */ 'b'\x7d />".toList

/-- A line that declares a prop, a style and a class. -/
def declaringLine : List Char :=
  "type Props=\x7ba:B\x7d StyleSheet.create(\x7bc:\x7bd:1\x7d\x7d) class='e'".toList

theorem found_withoutComments_lines :
    (KeepsProps commentedProps ∧
      (sourceProps (withoutComments commentedProps)).map shape = [("c", "D", true)]) ∧
    (Undisturbed sheetHeader commentedSheet ∧
      sheetStyles (withoutComments commentedSheet) =
        [{ property := "c", value := "1", name := some "b" }]) ∧
    (KeepsClasses commentedClass ∧
      classStyles (withoutComments commentedClass) = [classStyle "b".toList]) ∧
    '\n' ∉ declaringLine ∧
      ((sourceProps ('/' :: '/' :: declaringLine)).map shape = [("a", "B", true)] ∧
        sourceProps (withoutComments ('/' :: '/' :: declaringLine)) = []) ∧
      (sheetStyles ('/' :: '/' :: declaringLine) =
          [{ property := "d", value := "1", name := some "c" }] ∧
        sheetStyles (withoutComments ('/' :: '/' :: declaringLine)) = []) ∧
      classStyles ('/' :: '/' :: declaringLine) = [classStyle "e".toList] ∧
        classStyles (withoutComments ('/' :: '/' :: declaringLine)) = [] := by
  have keepsProps : KeepsProps commentedProps := by decide +kernel
  have undisturbed : Undisturbed sheetHeader commentedSheet := by decide +kernel
  have keepsClasses : KeepsClasses commentedClass := by decide +kernel
  have onLine : '\n' ∉ declaringLine := by decide
  obtain ⟨-, -, -, -, ⟨sameProps, sameSheets, sameClasses⟩, nothing⟩ :=
    found_withoutComments declaringLine
  obtain ⟨noProps, noSheets, noClasses⟩ := nothing onLine
  refine ⟨⟨keepsProps, ?_⟩, ⟨undisturbed, ?_⟩, ⟨keepsClasses, ?_⟩, onLine, ⟨?_, noProps⟩,
    ⟨?_, noSheets⟩, ?_, noClasses⟩
  · rw [(found_withoutComments commentedProps).1 keepsProps]
    decide +kernel
  · rw [(found_withoutComments commentedSheet).2.1 undisturbed]
    decide +kernel
  · rw [(found_withoutComments commentedClass).2.2.1 keepsClasses]
    decide +kernel
  · rw [sameProps]
    decide +kernel
  · rw [sameSheets]
    decide +kernel
  · rw [sameClasses]
    decide +kernel

end ComponentAtlas
