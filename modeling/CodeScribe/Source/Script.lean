import CodeScribe.Source.Comment
import CodeScribe.Source.Declaration

/-!
# JavaScript and TypeScript sources

* `JavaScript.read`, `TypeScript.read` — the facts a source shows to a reader that looks for
  declaration patterns.
-/

namespace CodeScribe.Script

open Pattern Declaration

def quotedText : Pattern :=
  one (among "'\"") ++ group 1 (span1 (noneOf "'\"")) ++ one (among "'\"")

def importPattern : Pattern :=
  lit "import" ++ blanks1 ++
    span1 (fun c => Text.isWord c || Text.isBlank c || among "*\x7b\x7d," c) ++ blanks1 ++
    lit "from" ++ blanks1 ++ quotedText

/-- A call that loads a module. -/
def requirePattern : Pattern := lit "require(" ++ blanks ++ quotedText ++ blanks ++ char ')'

/-- The modules a source loads, imports first. -/
def importsIn (code : List Char) : List String :=
  importPattern.findGroup 1 code ++ requirePattern.findGroup 1 code

/-- A parent class, which may be missing. -/
def parent : Pattern := opt (blanks1 ++ lit "extends" ++ blanks1 ++ group 2 (span1 isDottedChar))

/-- A function bound to a name. -/
def arrowPattern : Pattern :=
  words ["const", "let", "var"] ++ blanks1 ++ group 1 name ++ blanks ++ char '=' ++ blanks ++
    arguments ++ blanks ++ lit "=>"

/-- The functions of a source: those found by a pattern first, then those bound to names. -/
def functionsIn (functionPattern : Pattern) (code : List Char) : List Routine :=
  (functionPattern.findAll code).map
      (fun m => { name := m.get 1, signature := headOf m.chars }) ++
    (arrowPattern.findAll code).map (fun m => { name := m.get 1, signature := trimmed m.chars })

/-- Words that look like methods when followed by parentheses and a block. -/
def controlWords : List String := ["if", "for", "while", "switch", "catch"]

def methodsIn (p : Pattern) (body : List Char) : List Routine :=
  ((p.findAll body).filter fun m => !controlWords.contains (m.get 1)).map fun m =>
    { name := m.get 1, signature := headOf m.chars }

end CodeScribe.Script

namespace CodeScribe.JavaScript

open Pattern Declaration

structure Class where
  name : String
  parent : Option String
  methods : List Routine

structure Source where
  imports : List String
  classes : List Class
  functions : List Routine
  comments : List String

def classPattern : Pattern :=
  lit "class" ++ blanks1 ++ group 1 name ++ Script.parent ++ blanks ++ char '{'

def functionPattern : Pattern :=
  lit "function" ++ blanks1 ++ group 1 name ++ blanks ++ arguments ++ blanks ++ char '{'

def methodPattern : Pattern :=
  lineStart ++ blanks ++ group 1 name ++ blanks ++ arguments ++ blanks ++ char '{'

def classesIn (code : List Char) : List Class :=
  (classPattern.findAll code).map fun m =>
    ⟨m.get 1, m.get? 2, Script.methodsIn methodPattern (bodyOf code m)⟩

def read (options : ReadOptions) (code : List Char) : Source where
  imports := if options.imports then Script.importsIn code else []
  classes := classesIn code
  functions := Script.functionsIn functionPattern code
  comments := if options.comments then CommentStyle.slashes.comments code else []

def Class.toValue (c : Class) : Value :=
  .record [("name", .text c.name), ("extends", .optText c.parent),
    ("methods", .listOf Routine.plainValue c.methods)]

def Source.toValue (s : Source) : Value :=
  .record [("imports", .texts s.imports), ("classes", .listOf Class.toValue s.classes),
    ("functions", .listOf Routine.plainValue s.functions), ("comments", .texts s.comments)]

end CodeScribe.JavaScript

namespace CodeScribe.TypeScript

open Pattern Declaration

structure Class where
  name : String
  parent : Option String
  implements : List String
  decorators : List String
  methods : List Routine
  properties : List Variable

structure Interface where
  name : String
  parents : List String

structure Source where
  imports : List String
  classes : List Class
  interfaces : List Interface
  types : List String
  enums : List String
  functions : List Routine
  comments : List String

/-- The word export, which may be missing. -/
def exported : Pattern := opt (lit "export" ++ blanks1)

/-- Letters of lists of names with points. -/
def isDottedListChar (c : Char) : Bool := isListChar c || c == '.'

def classPattern : Pattern :=
  star (char '@' ++ name ++ arguments ++ blanks) ++ exported ++ lit "class" ++ blanks1 ++
    group 1 name ++ Script.parent ++
    opt (blanks1 ++ lit "implements" ++ blanks1 ++ group 3 (span1 isDottedListChar)) ++ blanks ++
    char '{'

def interfacePattern : Pattern :=
  exported ++ lit "interface" ++ blanks1 ++ group 1 name ++
    opt (blanks1 ++ lit "extends" ++ blanks1 ++ group 2 (span1 isDottedListChar)) ++ blanks ++
    char '{'

def typePattern : Pattern :=
  exported ++ lit "type" ++ blanks1 ++ group 1 name ++ blanks ++ char '='

def enumPattern : Pattern :=
  exported ++ lit "enum" ++ blanks1 ++ group 1 name ++ blanks ++ char '{'

def resultType : Pattern :=
  opt (char ':' ++ blanks ++ span1 (fun c => Text.isWord c || among "<>[]|" c))

def functionPattern : Pattern :=
  lit "function" ++ blanks1 ++ group 1 name ++ blanks ++ arguments ++ blanks ++ resultType ++
    blanks ++ char '{'

def methodPattern : Pattern :=
  lineStart ++ blanks ++ modifier ["public", "private", "protected", "async", "static"] ++
    group 1 name ++ blanks ++ arguments ++ blanks ++ resultType ++ blanks ++ char '{'

def propertyPattern : Pattern :=
  lineStart ++ blanks ++ modifier ["public", "private", "protected", "readonly"] ++
    group 1 name ++ blanks ++ char ':' ++ blanks ++ group 2 (span1 (noneOf ";=")) ++ char ';'

/-- The decorators in the last five lines before a class. -/
def decoratorsIn (before : List Char) : List String :=
  let lines := Chars.lines before
  (lines.drop (lines.length - 5)).filterMap fun line =>
    ((char '@' ++ group 1 name).find? (Chars.trim line)).map (·.get 1)

def propertiesIn (body : List Char) : List Variable :=
  (propertyPattern.findAll body).map fun m =>
    { name := m.get 1, type := trimmed ((m.chars? 2).getD []) }

def classesIn (code : List Char) : List Class :=
  (classPattern.findAll code).map fun m =>
    let body := bodyOf code m
    ⟨m.get 1, m.get? 2, listed (m.chars? 3), decoratorsIn (code.take m.start),
      Script.methodsIn methodPattern body, propertiesIn body⟩

def interfacesIn (code : List Char) : List Interface :=
  (interfacePattern.findAll code).map fun m => ⟨m.get 1, listed (m.chars? 2)⟩

def read (options : ReadOptions) (code : List Char) : Source where
  imports := if options.imports then Script.importsIn code else []
  classes := classesIn code
  interfaces := interfacesIn code
  types := typePattern.findGroup 1 code
  enums := enumPattern.findGroup 1 code
  functions := Script.functionsIn functionPattern code
  comments := if options.comments then CommentStyle.slashes.comments code else []

def Class.toValue (c : Class) : Value :=
  .record [("name", .text c.name), ("extends", .optText c.parent),
    ("implements", .texts c.implements), ("decorators", .texts c.decorators),
    ("methods", .listOf Routine.plainValue c.methods),
    ("properties", .listOf Variable.plainValue c.properties)]

def Interface.toValue (i : Interface) : Value :=
  .record [("name", .text i.name), ("extends", .texts i.parents)]

def namedValue (name : String) : Value := .record [("name", .text name)]

def Source.toValue (s : Source) : Value :=
  .record [("imports", .texts s.imports), ("classes", .listOf Class.toValue s.classes),
    ("interfaces", .listOf Interface.toValue s.interfaces),
    ("types", .listOf namedValue s.types), ("enums", .listOf namedValue s.enums),
    ("functions", .listOf Routine.plainValue s.functions), ("comments", .texts s.comments)]

end CodeScribe.TypeScript
