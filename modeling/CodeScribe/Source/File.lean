import CodeScribe.Data.Path
import CodeScribe.Data.Record

/-!
# Source files

* `SourceFile.ofValue`, `SourceFile.toValue` — source files as data.
-/

namespace CodeScribe

/-- A file handed in for documentation. -/
structure SourceFile where
  path : Option Value := none
  relativePath : Option Value := none
  name : Option Value := none
  language : Option Value := none
  content : Option Value := none

namespace SourceFile

def ofValue (v : Value) : SourceFile where
  path := v.get? "path"
  relativePath := v.get? "relative_path"
  name := v.get? "name"
  language := v.get? "language"
  content := v.get? "content"

def toValue (f : SourceFile) : Value :=
  .record ([("path", f.path), ("relative_path", f.relativePath), ("name", f.name),
    ("language", f.language), ("content", f.content)].filterMap fun (k, v?) => v?.map ((k, ·)))

def ofTexts (path relativePath name language content : String) : SourceFile where
  path := some (.text path)
  relativePath := some (.text relativePath)
  name := some (.text name)
  language := some (.text language)
  content := some (.text content)

def given (field : Option Value) (default : Value) : Value := (field.getD .null).orElse default

/-- The relative path if it counts as given, or else the path, empty if it is missing. -/
def place (f : SourceFile) : Value := given f.relativePath (f.path.getD (.text ""))

/-- A path text without empty parts and single points; the empty text stays empty. -/
def normalText (s : String) : String := if s.isEmpty then "" else Path.normal s

/-- The path text that data stands for, empty if none counts as given. -/
def normalPath (place : Value) : String :=
  if !place.isPresent then ""
  else match place with
    | .text s => Path.normal s
    | v => Text.replace v.display "\\" "/"

end SourceFile

end CodeScribe
