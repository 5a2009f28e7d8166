import CodeScribe.Source.Comment
import CodeScribe.Source.Declaration

/-!
# F# sources

* `FSharp.read` — the facts a source shows to a reader that looks for declaration patterns.

Words of the language are found in any case.
-/

namespace CodeScribe.FSharp

open Pattern Declaration

structure Member where
  name : String
  kind : String
  signature : String

structure TypeDecl where
  name : String
  kind : String
  members : List Member

structure Module where
  name : String
  functions : List Routine
  types : List TypeDecl

structure RecordType where
  name : String
  fields : List Variable

structure Union where
  name : String
  cases : List String

structure Source where
  namespaceName : String
  opens : List String
  modules : List Module
  types : List TypeDecl
  records : List RecordType
  unions : List Union
  functions : List Routine
  comments : List String

def modifierWords : List String :=
  ["public", "private", "internal", "static", "abstract", "override", "rec"]

/-- A word of the language with white space behind it. -/
def keyword (w : String) : Pattern := litAnyCase w ++ blanks1

def namespacePattern : Pattern := keyword "namespace" ++ group 1 (span1 isDottedChar)

def openPattern : Pattern :=
  keyword "open" ++ group 1 (span1 fun c => isDottedChar c || among "*=" c)

def modulePattern : Pattern :=
  opt (keyword "public") ++ keyword "module" ++ group 1 name ++ blanks ++ char '='

/-- An equals sign with white space around it. -/
def equals : Pattern := blanks ++ char '=' ++ blanks

def classPattern : Pattern :=
  opt (keyword "type") ++ group 1 name ++ blanks ++ arguments ++ equals ++ litAnyCase "class"

def interfacePattern : Pattern :=
  keyword "type" ++ group 1 name ++ equals ++ litAnyCase "interface"

def recordPattern : Pattern :=
  keyword "type" ++ group 1 name ++ equals ++ char '{' ++ span (· != '}') ++ char '}'

def recordFieldPattern : Pattern :=
  group 1 name ++ blanks ++ char ':' ++ blanks ++ group 2 (span1 isTypeChar)

def typePattern : Pattern := keyword "type" ++ group 1 name ++ equals

/-- The first line of the definition of a type with a given name. -/
def definitionPattern (typeName : String) : Pattern :=
  keyword "type" ++ litAnyCase typeName ++ equals ++ group 1 (span1 (· != '\n'))

def casePattern : Pattern := char '|' ++ blanks ++ group 1 name ++ span (· != '|')

/-- A type behind a colon, which may be missing. -/
def typeAfter : Pattern := opt (char ':' ++ blanks ++ span1 isTypeChar)

def functionPattern : Pattern :=
  opt (keyword "let" ++ opt (keyword "rec") <|> keyword "member") ++ group 1 name ++ blanks ++
    arguments ++ blanks ++ typeAfter ++ blanks ++ char '='

def memberHead : Pattern := keyword "member" ++ opt (litAnyCase "this.") ++ group 1 name ++ blanks

def propertyPattern : Pattern :=
  memberHead ++ typeAfter ++ blanks ++
    (keyword "with" ++ litAnyCase "get" <|> keyword "with" ++ litAnyCase "set")

def methodPattern : Pattern := memberHead ++ arguments ++ blanks ++ typeAfter

/-- Words that look like functions when followed by parentheses and an equals sign. -/
def controlWords : List String := ["if", "for", "while", "match", "try", "with"]

/-- The block from a position to a closing word, empty if there is none. -/
def block (closing : String) (code : List Char) (pos : Nat) : List Char :=
  Block.upTo (wordEdge ++ litAnyCase closing ++ wordEdge) code pos

/-- The body of a module: up to the next module or the end. -/
def moduleBody (code : List Char) (pos : Nat) : List Char :=
  let rest := code.drop pos
  match (wordEdge ++ keyword "module" ++ name ++ blanks ++ char '=').find? rest with
  | some m => rest.take m.start
  | none => rest

def membersIn (body : List Char) : List Member :=
  (propertyPattern.findAll body).map (fun m => ⟨m.get 1, "property", trimmed m.chars⟩) ++
    (methodPattern.findAll body).map (fun m => ⟨m.get 1, "method", trimmed m.chars⟩)

/-- The class and interface types of a source, classes first. -/
def typesIn (code : List Char) : List TypeDecl :=
  (classPattern.findAll code).map
      (fun m => ⟨m.get 1, "class", membersIn (block "end" code m.stop)⟩) ++
    (interfacePattern.findAll code).map
      (fun m => ⟨m.get 1, "interface", membersIn (block "end" code m.stop)⟩)

def functionsIn (code : List Char) : List Routine :=
  ((functionPattern.findAll code).filter fun m => !controlWords.contains (m.get 1)).map fun m =>
    ⟨m.get 1, trimmed m.chars, modifiersInAnyCase modifierWords m.chars⟩

def modulesIn (code : List Char) : List Module :=
  (modulePattern.findAll code).map fun m =>
    let body := moduleBody code m.stop
    ⟨m.get 1, functionsIn body, typesIn body⟩

def recordsIn (code : List Char) : List RecordType :=
  (recordPattern.findAll code).map fun m =>
    ⟨m.get 1, (recordFieldPattern.findAll m.chars).map fun f =>
      { name := f.get 1, type := trimmed ((f.chars? 2).getD []) }⟩

/-- The union types of a source: those with a bar in the first line of the first definition of
that name. -/
def unionsIn (code : List Char) : List Union :=
  (typePattern.findAll code).filterMap fun m => do
    let definition ← (definitionPattern (m.get 1)).find? code
    let line := (definition.chars? 1).getD []
    if line.contains '|' then some ⟨m.get 1, casePattern.findGroup 1 line⟩ else none

def read (options : ReadOptions) (code : List Char) : Source where
  namespaceName := ((namespacePattern.find? code).map (·.get 1)).getD ""
  opens := if options.imports then openPattern.findGroup 1 code else []
  modules := modulesIn code
  types := typesIn code
  records := recordsIn code
  unions := unionsIn code
  functions := functionsIn code
  comments := if options.comments then CommentStyle.parentheses.comments code else []

/-! ### As data -/

def Member.toValue (m : Member) : Value :=
  .record [("name", .text m.name), ("kind", .text m.kind), ("signature", .text m.signature)]

def TypeDecl.toValue (t : TypeDecl) : Value :=
  .record [("name", .text t.name), ("kind", .text t.kind),
    ("members", .listOf Member.toValue t.members)]

def Module.toValue (m : Module) : Value :=
  .record [("name", .text m.name), ("functions", .listOf Routine.toValue m.functions),
    ("types", .listOf TypeDecl.toValue m.types)]

def RecordType.toValue (r : RecordType) : Value :=
  .record [("name", .text r.name), ("fields", .listOf Variable.plainValue r.fields)]

def Union.toValue (u : Union) : Value :=
  .record [("name", .text u.name), ("cases", .texts u.cases)]

def Source.toValue (s : Source) : Value :=
  .record [("namespace", .text s.namespaceName), ("open", .texts s.opens),
    ("modules", .listOf Module.toValue s.modules), ("types", .listOf TypeDecl.toValue s.types),
    ("records", .listOf RecordType.toValue s.records),
    ("unions", .listOf Union.toValue s.unions),
    ("functions", .listOf Routine.toValue s.functions), ("comments", .texts s.comments)]

end CodeScribe.FSharp
