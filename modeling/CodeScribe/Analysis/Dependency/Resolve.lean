import CodeScribe.Analysis.Dependency.Index

/-!
# From imports to files
-/

namespace CodeScribe.Dependency

open Pattern

namespace Index

def filesOfType (ix : Index) (name : String) : List String :=
  ((ix.types.listOf name).filter (· != "")).map SourceFile.normalText

/-- The import text without white space around it and without a final wildcard. -/
def importName (text : String) : String :=
  let text := Text.trim text
  if Text.endsWith text ".*" then Text.dropRight 2 text else text

/-- The files of the first type name that is the import or ends with it behind a point. -/
def filesBySuffix (ix : Index) (name : String) : List String :=
  (ix.types.findSome? fun (full, paths) =>
    if Text.endsWith full ("." ++ name) || full == name then
      let files := (paths.filter (· != "")).map SourceFile.normalText
      if files.isEmpty then none else some files
    else none).getD []

/-- The files an import stands for: those of the type, of the type named by its last part, of the
Java package, or of a type whose name ends with the import; none if there are no such files. -/
def resolveImport (ix : Index) (language : Option Language) (text : String) : List String :=
  let name := importName text
  let exactly := ix.filesOfType name
  let byLast := if Text.contains name "." then ix.filesOfType (Text.lastPiece name ".") else []
  if !exactly.isEmpty then exactly
  else if !byLast.isEmpty then byLast
  else if language == some .java && ix.packages.has name then
    (ix.packages.listOf name).map SourceFile.normalText
  else if [some .csharp, some .vbnet, some .fsharp].contains language && ix.packages.has name then
    []
  else ix.filesBySuffix name

def isIdentStart (c : Char) : Bool := c.isAlpha || c == '_'

def isIdentChar (c : Char) : Bool := c.isAlphanum || c == '_'

def identPattern : Pattern :=
  wordEdge ++ one isIdentStart ++ span isIdentChar ++ wordEdge

def identifiers (content : List Char) : List String :=
  (identPattern.findAll content).map (·.text)

def typeNames (ix : Index) (path : String) : List String :=
  ((ix.files.get? path).map fun f => f.types.map (·.name)).getD []

/-- The files of an imported namespace, other than the source itself, that declare a type which
the source mentions and does not declare. -/
def resolveUsage (ix : Index) (packageName source : String) (content : List Char) :
    List String :=
  let own := ix.typeNames source
  let mentioned := (identifiers content).filter fun t => !own.contains t
  (((ix.packages.listOf packageName).map SourceFile.normalText).filter fun candidate =>
    candidate != source && (ix.typeNames candidate).any mentioned.contains).eraseDups

end Index

end CodeScribe.Dependency
