import CodeScribe.Source.Comment
import CodeScribe.Source.Declaration

/-!
# Visual Basic sources

* `VisualBasic.read` — the facts a source shows to a reader that looks for declaration patterns.

Words of the language are found in any case, and a block runs to the next `End` of its kind.
-/

namespace CodeScribe.VisualBasic

open Pattern Declaration

/-- A function or subroutine. -/
structure Procedure where
  name : String
  signature : String
  kind : String
  modifiers : List String

structure Class where
  name : String
  parents : List String
  methods : List Procedure
  properties : List Variable
  fields : List Variable
  modifiers : List String

structure Interface where
  name : String
  parents : List String
  methods : List Procedure
  properties : List Variable

structure Structure where
  name : String
  implements : List String
  fields : List Variable
  properties : List Variable

structure Module where
  name : String
  functions : List Procedure
  subroutines : List Procedure

structure Source where
  namespaceName : String
  imports : List String
  classes : List Class
  interfaces : List Interface
  enums : List Enumeration
  structures : List Structure
  modules : List Module
  comments : List String

/-- The modifiers that are reported; one of them is reported twice. -/
def modifierWords : List String :=
  ["Public", "Private", "Friend", "Protected", "Shared", "Overridable", "Overrides",
    "MustOverride", "MustInherit", "NotInheritable", "Partial", "Async", "ReadOnly", "Const",
    "MustInherit"]

/-- A word of the language with white space behind it. -/
def keyword (w : String) : Pattern := litAnyCase w ++ blanks1

def namespacePattern : Pattern := keyword "Namespace" ++ group 1 (span1 isDottedChar)

def importPattern : Pattern :=
  keyword "Imports" ++ group 1 (span1 fun c => isDottedChar c || among "*=" c)

/-- Types behind a word, which may be missing. -/
def listAfter (w : String) (accept : Char → Bool) : Pattern :=
  opt (blanks1 ++ keyword w ++ group 2 (span1 accept))

def classPattern : Pattern :=
  modifierAnyCase ["Public", "Private", "Friend", "Protected", "MustInherit", "NotInheritable",
      "Partial"] ++ keyword "Class" ++ group 1 name ++
    listAfter "Inherits" (fun c => isListChar c || among "<>" c) ++ blanks

def declared (w : String) : Pattern :=
  modifierAnyCase ["Public", "Private", "Friend"] ++ keyword w ++ group 1 name

def interfacePattern : Pattern := declared "Interface" ++ listAfter "Inherits" isListChar ++ blanks

def enumPattern : Pattern := declared "Enum" ++ blanks

def constantPattern : Pattern :=
  group 1 name ++ opt (blanks ++ char '=' ++ blanks ++ span1 (· != '\n'))

def structurePattern : Pattern :=
  declared "Structure" ++ listAfter "Implements" isListChar ++ blanks

def modulePattern : Pattern := declared "Module" ++ blanks

/-- The modifiers in front of functions and subroutines. -/
def procedureModifiers : List String :=
  ["Public", "Private", "Friend", "Protected", "Shared", "Overridable", "Overrides",
    "MustOverride", "Async"]

def functionPattern : Pattern :=
  modifierAnyCase procedureModifiers ++ keyword "Function" ++ group 1 name ++ blanks ++
    arguments ++ blanks ++ opt (keyword "As" ++ span1 isTypeChar)

def subroutinePattern : Pattern :=
  modifierAnyCase procedureModifiers ++ keyword "Sub" ++ group 1 name ++ blanks ++ arguments ++
    blanks

def propertyPattern : Pattern :=
  modifierAnyCase ["Public", "Private", "Friend", "Protected", "Shared", "Overridable",
      "Overrides"] ++
    keyword "Property" ++ group 1 name ++ blanks ++ opt arguments ++ blanks ++ keyword "As" ++
    group 2 (span1 isTypeChar)

def fieldPattern : Pattern :=
  modifierAnyCase ["Public", "Private", "Friend", "Protected", "Shared", "ReadOnly", "Const"] ++
    modifierAnyCase ["Dim", "Private", "Public", "Friend", "Protected"] ++ group 1 name ++
    blanks1 ++ keyword "As" ++ group 2 (span1 isTypeChar) ++
    opt (blanks ++ char '=' ++ blanks ++ span1 (· != '\n'))

/-- The block from a position to the next `End` of its kind, empty if there is none. -/
def block (kind : String) (code : List Char) (pos : Nat) : List Char :=
  Block.upTo (litAnyCase "End" ++ blanks1 ++ litAnyCase kind) code pos

def proceduresIn (kind : String) (p : Pattern) (body : List Char) : List Procedure :=
  (p.findAll body).map fun m =>
    ⟨m.get 1, trimmed m.chars, kind, modifiersInAnyCase modifierWords m.chars⟩

def functionsIn (body : List Char) : List Procedure := proceduresIn "Function" functionPattern body

def subroutinesIn (body : List Char) : List Procedure := proceduresIn "Sub" subroutinePattern body

def variablesIn (p : Pattern) (body : List Char) : List Variable :=
  (p.findAll body).map fun m =>
    ⟨m.get 1, trimmed ((m.chars? 2).getD []), modifiersInAnyCase modifierWords m.chars⟩

def propertiesIn (body : List Char) : List Variable := variablesIn propertyPattern body

def fieldsIn (body : List Char) : List Variable := variablesIn fieldPattern body

def classesIn (code : List Char) : List Class :=
  (classPattern.findAll code).map fun m =>
    let body := block "Class" code m.stop
    ⟨m.get 1, listed (m.chars? 2), functionsIn body, propertiesIn body, fieldsIn body,
      modifiersInAnyCase modifierWords m.chars⟩

def interfacesIn (code : List Char) : List Interface :=
  (interfacePattern.findAll code).map fun m =>
    let body := block "Interface" code m.stop
    ⟨m.get 1, listed (m.chars? 2), functionsIn body, propertiesIn body⟩

def enumsIn (code : List Char) : List Enumeration :=
  (enumPattern.findAll code).map fun m =>
    ⟨m.get 1, constantPattern.findGroup 1 (block "Enum" code m.stop)⟩

def structuresIn (code : List Char) : List Structure :=
  (structurePattern.findAll code).map fun m =>
    let body := block "Structure" code m.stop
    ⟨m.get 1, listed (m.chars? 2), fieldsIn body, propertiesIn body⟩

def modulesIn (code : List Char) : List Module :=
  (modulePattern.findAll code).map fun m =>
    let body := block "Module" code m.stop
    ⟨m.get 1, functionsIn body, subroutinesIn body⟩

def read (options : ReadOptions) (code : List Char) : Source where
  namespaceName := ((namespacePattern.find? code).map (·.get 1)).getD ""
  imports := if options.imports then importPattern.findGroup 1 code else []
  classes := classesIn code
  interfaces := interfacesIn code
  enums := enumsIn code
  structures := structuresIn code
  modules := modulesIn code
  comments := if options.comments then CommentStyle.apostrophe.comments code else []

/-! ### As data -/

def Procedure.toValue (p : Procedure) : Value :=
  .record [("name", .text p.name), ("signature", .text p.signature), ("type", .text p.kind),
    ("modifiers", .texts p.modifiers)]

def Class.toValue (c : Class) : Value :=
  .record [("name", .text c.name), ("inherits", .texts c.parents),
    ("methods", .listOf Procedure.toValue c.methods),
    ("properties", .listOf Variable.toValue c.properties),
    ("fields", .listOf Variable.toValue c.fields), ("modifiers", .texts c.modifiers)]

def Interface.toValue (i : Interface) : Value :=
  .record [("name", .text i.name), ("inherits", .texts i.parents),
    ("methods", .listOf Procedure.toValue i.methods),
    ("properties", .listOf Variable.toValue i.properties)]

def Structure.toValue (s : Structure) : Value :=
  .record [("name", .text s.name), ("implements", .texts s.implements),
    ("fields", .listOf Variable.toValue s.fields),
    ("properties", .listOf Variable.toValue s.properties)]

def Module.toValue (m : Module) : Value :=
  .record [("name", .text m.name), ("functions", .listOf Procedure.toValue m.functions),
    ("subroutines", .listOf Procedure.toValue m.subroutines)]

def Source.toValue (s : Source) : Value :=
  .record [("namespace", .text s.namespaceName), ("imports", .texts s.imports),
    ("classes", .listOf Class.toValue s.classes),
    ("interfaces", .listOf Interface.toValue s.interfaces),
    ("enums", .listOf Enumeration.toValue s.enums),
    ("structures", .listOf Structure.toValue s.structures),
    ("modules", .listOf Module.toValue s.modules), ("comments", .texts s.comments)]

end CodeScribe.VisualBasic
