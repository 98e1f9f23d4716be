/-
Module: ComponentAtlas.Data.Reader
Purpose: Readers of documents, by what they give for a text.
Main exports:
  ReadingFault, Reader, Reader.json, Reader.plainYaml
-/
import ComponentAtlas.Data.Json
import ComponentAtlas.Data.Yaml.Document
import ComponentAtlas.Fault

namespace ComponentAtlas

/-- Why a reader gives no data for a text. -/
inductive ReadingFault where
  /-- The text does not follow the format, and the reader says so. -/
  | malformed
  /-- Anything else that stops a reader. -/
  | stopped (fault : Fault)
deriving Repr, DecidableEq

/-- A reader of documents.  Nothing is assumed of a reader that comes from outside. -/
structure Reader where
  read : String → Except ReadingFault Data

namespace Reader

/-- The failure of a reader for a failure to follow a format.  A number with too many digits
does follow it. -/
def faultOf : FormatError → ReadingFault
  | .malformed => .malformed
  | .tooManyDigits digits => .stopped (.numberTooLong digits)

def json : Reader := { read := fun text => (Json.read text).mapError faultOf }

/-- A reader of plain YAML: single documents of mappings and lists, by indentation or in
brackets, with scalars that are quoted or stand on their own.  It knows no anchors, tags,
merges, dates, directives or scalars in blocks, so that it serves where documents do without
them. -/
def plainYaml : Reader := { read := fun text => (Yaml.read text).mapError faultOf }

end Reader

end ComponentAtlas
