import CodeScribe.Source.Comment
import CodeScribe.Source.Declaration

/-!
# C# sources

* `CSharp.read` — the facts a source shows to a reader that looks for declaration patterns.
-/

namespace CodeScribe.CSharp

open Pattern Declaration

structure Class where
  name : String
  parents : List String
  methods : List Routine
  properties : List Variable
  fields : List Variable
  modifiers : List String

structure Interface where
  name : String
  parents : List String
  methods : List Routine
  properties : List Variable

structure Struct where
  name : String
  parents : List String
  fields : List Variable
  properties : List Variable

structure Source where
  namespaceName : String
  usings : List String
  classes : List Class
  interfaces : List Interface
  enums : List Enumeration
  structs : List Struct
  comments : List String

def modifierWords : List String :=
  ["public", "private", "internal", "protected", "static", "virtual", "override", "abstract",
    "sealed", "partial", "async", "readonly", "const"]

def namespacePattern : Pattern := lit "namespace" ++ blanks1 ++ group 1 (span1 isDottedChar)

def usingPattern : Pattern :=
  lit "using" ++ blanks1 ++ opt (lit "static" ++ blanks1) ++
    group 1 (span1 fun c => isDottedChar c || among "*=" c) ++ char ';'

/-- Base types behind a colon, which may be missing. -/
def bases (accept : Char → Bool) : Pattern :=
  opt (blanks ++ char ':' ++ blanks ++ group 2 (span1 accept))

def classPattern : Pattern :=
  modifier ["public", "private", "internal", "protected", "abstract", "sealed", "static",
      "partial"] ++ lit "class" ++ blanks1 ++ group 1 name ++
    bases (fun c => isListChar c || among "<>" c) ++ blanks ++ char '{'

def interfacePattern : Pattern :=
  modifier ["public", "private", "internal", "protected"] ++ lit "interface" ++ blanks1 ++
    group 1 name ++ bases isListChar ++ blanks ++ char '{'

def enumPattern : Pattern :=
  modifier ["public", "private", "internal"] ++ lit "enum" ++ blanks1 ++ group 1 name ++ blanks ++
    char '{'

def constantPattern : Pattern :=
  group 1 name ++ opt (blanks ++ char '=' ++ blanks ++ span1 (noneOf ",\x7d"))

def structPattern : Pattern :=
  modifier ["public", "private", "internal"] ++ lit "struct" ++ blanks1 ++ group 1 name ++
    bases isListChar ++ blanks ++ char '{'

def methodPattern : Pattern :=
  modifier ["public", "private", "internal", "protected", "static", "virtual", "override",
      "abstract", "async"] ++
    typeBefore ++ group 1 name ++ blanks ++ arguments ++ blanks ++ char '{'

def propertyPattern : Pattern :=
  modifier ["public", "private", "internal", "protected", "static", "virtual", "override"] ++
    group 1 (span1 isTypeChar) ++ blanks1 ++ group 2 name ++ blanks ++ char '{' ++ blanks ++
    words ["get", "set"]

def fieldPattern : Pattern :=
  modifier ["public", "private", "internal", "protected", "static", "readonly", "const"] ++
    group 1 (span1 isTypeChar) ++ blanks1 ++ group 2 name ++ blanks ++
    opt (char '=' ++ blanks ++ span1 (· != ';')) ++ char ';'

/-- Words that look like methods when followed by parentheses and a block. -/
def controlWords : List String := ["if", "for", "while", "switch", "try", "catch", "using"]

def methodsIn (body : List Char) : List Routine :=
  ((methodPattern.findAll body).filter fun m => !controlWords.contains (m.get 1)).map fun m =>
    ⟨m.get 1, headOf m.chars, modifiersIn modifierWords m.chars⟩

def variablesIn (p : Pattern) (body : List Char) : List Variable :=
  (p.findAll body).map fun m =>
    ⟨m.get 2, trimmed ((m.chars? 1).getD []), modifiersIn modifierWords m.chars⟩

def propertiesIn (body : List Char) : List Variable := variablesIn propertyPattern body

def fieldsIn (body : List Char) : List Variable := variablesIn fieldPattern body

def classesIn (code : List Char) : List Class :=
  (classPattern.findAll code).map fun m =>
    let body := bodyOf code m
    ⟨m.get 1, listed (m.chars? 2), methodsIn body, propertiesIn body, fieldsIn body,
      modifiersIn modifierWords m.chars⟩

def interfacesIn (code : List Char) : List Interface :=
  (interfacePattern.findAll code).map fun m =>
    let body := bodyOf code m
    ⟨m.get 1, listed (m.chars? 2), methodsIn body, propertiesIn body⟩

def enumsIn (code : List Char) : List Enumeration :=
  (enumPattern.findAll code).map fun m =>
    ⟨m.get 1, constantPattern.findGroup 1 (bodyOf code m)⟩

def structsIn (code : List Char) : List Struct :=
  (structPattern.findAll code).map fun m =>
    let body := bodyOf code m
    ⟨m.get 1, listed (m.chars? 2), fieldsIn body, propertiesIn body⟩

def read (options : ReadOptions) (code : List Char) : Source where
  namespaceName := ((namespacePattern.find? code).map (·.get 1)).getD ""
  usings := if options.imports then usingPattern.findGroup 1 code else []
  classes := classesIn code
  interfaces := interfacesIn code
  enums := enumsIn code
  structs := structsIn code
  comments := if options.comments then CommentStyle.slashes.comments code else []

/-! ### As data -/

def Class.toValue (c : Class) : Value :=
  .record [("name", .text c.name), ("inherits", .texts c.parents),
    ("methods", .listOf Routine.toValue c.methods),
    ("properties", .listOf Variable.toValue c.properties),
    ("fields", .listOf Variable.toValue c.fields), ("modifiers", .texts c.modifiers)]

def Interface.toValue (i : Interface) : Value :=
  .record [("name", .text i.name), ("extends", .texts i.parents),
    ("methods", .listOf Routine.toValue i.methods),
    ("properties", .listOf Variable.toValue i.properties)]

def Struct.toValue (s : Struct) : Value :=
  .record [("name", .text s.name), ("inherits", .texts s.parents),
    ("fields", .listOf Variable.toValue s.fields),
    ("properties", .listOf Variable.toValue s.properties)]

def Source.toValue (s : Source) : Value :=
  .record [("namespace", .text s.namespaceName), ("using", .texts s.usings),
    ("classes", .listOf Class.toValue s.classes),
    ("interfaces", .listOf Interface.toValue s.interfaces),
    ("enums", .listOf Enumeration.toValue s.enums),
    ("structs", .listOf Struct.toValue s.structs), ("comments", .texts s.comments)]

end CodeScribe.CSharp
