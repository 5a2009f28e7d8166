import CodeScribe.Source.Comment
import CodeScribe.Source.Declaration

/-!
# Java sources

* `Java.read` — the facts a source shows to a reader that looks for declaration patterns.
-/

namespace CodeScribe.Java

open Pattern Declaration

structure Class where
  name : String
  parent : Option String
  implements : List String
  methods : List Routine
  fields : List Variable
  modifiers : List String

structure Interface where
  name : String
  parents : List String
  methods : List Routine

structure Source where
  package : String
  imports : List String
  classes : List Class
  interfaces : List Interface
  enums : List Enumeration
  comments : List String

def modifierWords : List String :=
  ["public", "private", "protected", "static", "final", "abstract", "synchronized"]

def packagePattern : Pattern :=
  lit "package" ++ blanks1 ++ group 1 (span1 isDottedChar) ++ char ';'

def importPattern : Pattern :=
  lit "import" ++ blanks1 ++ opt (lit "static" ++ blanks1) ++
    group 1 (span1 fun c => isDottedChar c || c == '*') ++ char ';'

def classPattern : Pattern :=
  modifier ["public", "private", "protected", "abstract", "final", "static"] ++ lit "class" ++
    blanks1 ++ group 1 name ++ opt (blanks1 ++ lit "extends" ++ blanks1 ++ group 2 name) ++
    opt (blanks1 ++ lit "implements" ++ blanks1 ++ group 3 (span1 isListChar)) ++ blanks ++
    char '{'

def interfacePattern : Pattern :=
  modifier ["public", "private", "protected"] ++ lit "interface" ++ blanks1 ++ group 1 name ++
    opt (blanks1 ++ lit "extends" ++ blanks1 ++ group 2 (span1 isListChar)) ++ blanks ++ char '{'

def enumPattern : Pattern :=
  modifier ["public", "private", "protected"] ++ lit "enum" ++ blanks1 ++ group 1 name ++ blanks ++
    char '{'

def constantPattern : Pattern :=
  group 1 name ++ opt arguments ++ ahead (one (among ",;\x7d"))

def methodPattern : Pattern :=
  modifier ["public", "private", "protected", "static", "final", "abstract", "synchronized"] ++
    typeBefore ++ group 1 name ++ blanks ++ arguments ++ blanks ++
    opt (lit "throws" ++ blanks1 ++ span1 isListChar) ++ blanks ++ char '{'

def fieldPattern : Pattern :=
  modifier ["public", "private", "protected", "static", "final"] ++ group 1 (span1 isTypeChar) ++
    blanks1 ++ group 2 name ++ blanks ++ opt (char '=' ++ blanks ++ span1 (· != ';')) ++ char ';'

/-- Words that look like methods when followed by parentheses and a block. -/
def controlWords : List String := ["if", "for", "while", "switch", "try", "catch"]

def methodsIn (body : List Char) : List Routine :=
  ((methodPattern.findAll body).filter fun m => !controlWords.contains (m.get 1)).map fun m =>
    ⟨m.get 1, headOf m.chars, modifiersIn modifierWords m.chars⟩

def fieldsIn (body : List Char) : List Variable :=
  (fieldPattern.findAll body).map fun m =>
    ⟨m.get 2, trimmed ((m.chars? 1).getD []), modifiersIn modifierWords m.chars⟩

def classesIn (code : List Char) : List Class :=
  (classPattern.findAll code).map fun m =>
    let body := bodyOf code m
    ⟨m.get 1, m.get? 2, listed (m.chars? 3), methodsIn body, fieldsIn body,
      modifiersIn modifierWords m.chars⟩

def interfacesIn (code : List Char) : List Interface :=
  (interfacePattern.findAll code).map fun m =>
    ⟨m.get 1, listed (m.chars? 2), methodsIn (bodyOf code m)⟩

def enumsIn (code : List Char) : List Enumeration :=
  (enumPattern.findAll code).map fun m =>
    ⟨m.get 1, constantPattern.findGroup 1 (bodyOf code m)⟩

def read (options : ReadOptions) (code : List Char) : Source where
  package := ((packagePattern.find? code).map (·.get 1)).getD ""
  imports := if options.imports then importPattern.findGroup 1 code else []
  classes := classesIn code
  interfaces := interfacesIn code
  enums := enumsIn code
  comments := if options.comments then CommentStyle.slashes.comments code else []

/-! ### As data -/

def Class.toValue (c : Class) : Value :=
  .record [("name", .text c.name), ("extends", .optText c.parent),
    ("implements", .texts c.implements), ("methods", .listOf Routine.toValue c.methods),
    ("fields", .listOf Variable.toValue c.fields), ("modifiers", .texts c.modifiers)]

def Interface.toValue (i : Interface) : Value :=
  .record [("name", .text i.name), ("extends", .texts i.parents),
    ("methods", .listOf Routine.toValue i.methods)]

def Source.toValue (s : Source) : Value :=
  .record [("package", .text s.package), ("imports", .texts s.imports),
    ("classes", .listOf Class.toValue s.classes),
    ("interfaces", .listOf Interface.toValue s.interfaces),
    ("enums", .listOf Enumeration.toValue s.enums), ("comments", .texts s.comments)]

end CodeScribe.Java
