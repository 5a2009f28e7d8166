import CodeScribe.Data.Table
import CodeScribe.Source.Facts
import CodeScribe.Source.File

/-!
# The index of source files

* `Index.ofFiles` — the index of source files; files that cannot be read are left out.
-/

namespace CodeScribe.Dependency

/-- A declared type: its name and its name with the package. -/
structure TypeName where
  name : String
  fullName : String
deriving DecidableEq, Repr

structure IndexedFile where
  /-- The path as it was handed in. -/
  source : Value
  language : Language
  facts : Facts
  types : List TypeName
  package : Option String
  namespaceName : Option String

def IndexedFile.home (f : IndexedFile) : Option String := f.package.or f.namespaceName

/-- Files by path, and the files of each type name and of each package. -/
structure Index where
  files : Table IndexedFile := []
  types : Table (List String) := []
  packages : Table (List String) := []

def fullName (language : Option Language) (package name : String) : String :=
  if package == "" then name
  else match language with
    | some .java | some .csharp | some .vbnet | some .fsharp => package ++ "." ++ name
    | some .php => "\\" ++ package ++ "\\" ++ name
    | _ => name

/-- The types that a source declares, classes first. -/
def typesOf (language : Language) (facts : Facts) : List TypeName :=
  (facts.classMethods.map (·.1) ++ facts.interfaceNames).map fun name =>
    ⟨name, fullName (some language) facts.package name⟩

def indexed (source : Value) (language : Language) (facts : Facts) : IndexedFile :=
  let package := if facts.package == "" then none else some facts.package
  { source, language, facts
    types := typesOf language facts
    package := if language == .java then package else none
    namespaceName := if language == .java then none else package }

namespace Index

/-- Enter a type under its name with and without the package. -/
def addType (path : String) (types : Table (List String)) (t : TypeName) : Table (List String) :=
  (types.addText t.fullName path).addText t.name path

def add (ix : Index) (path : String) (f : IndexedFile) : Index where
  files := ix.files.set path f
  types := f.types.foldl (addType path) ix.types
  packages := match f.home with
    | some p => ix.packages.push p path
    | none => ix.packages

end Index

/-- Readers of sources: the languages they know, and what they include. -/
structure Readers where
  languages : List Language := Language.all
  options : ReadOptions := {}

def Readers.languageOf? (r : Readers) (f : SourceFile) : Option Language :=
  match f.language with
  | some (.text name) => (Language.ofId? name).filter r.languages.contains
  | _ => none

def pathOf (f : SourceFile) : String :=
  SourceFile.normalPath (f.relativePath.getD (f.path.getD (.text "")))

def Readers.index? (r : Readers) (f : SourceFile) : Option IndexedFile := do
  let language ← r.languageOf? f
  let facts ← (Facts.readContent language r.options f.content).toOption
  some (indexed (f.path.getD (.text "")) language facts)

def Index.ofFiles (r : Readers) (files : List SourceFile) : Index :=
  files.foldl (fun ix f =>
    match r.index? f with
    | some entry => ix.add (pathOf f) entry
    | none => ix) {}

end CodeScribe.Dependency
