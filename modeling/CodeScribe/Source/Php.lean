import CodeScribe.Source.Comment
import CodeScribe.Source.Declaration

/-!
# PHP sources

* `Php.read` — the facts a source shows to a reader that looks for declaration patterns.
-/

namespace CodeScribe.Php

open Pattern Declaration

structure Property where
  name : String
  modifiers : List String

structure Constant where
  name : String
  kind : String

structure Class where
  name : String
  parent : Option String
  implements : List String
  methods : List Routine
  properties : List Property
  constants : List String
  modifiers : List String

structure Interface where
  name : String
  parents : List String
  methods : List Routine

structure Trait where
  name : String
  methods : List Routine
  properties : List Property

structure Source where
  namespaceName : String
  uses : List String
  classes : List Class
  interfaces : List Interface
  traits : List Trait
  functions : List Routine
  constants : List Constant
  comments : List String

def modifierWords : List String :=
  ["public", "private", "protected", "static", "final", "abstract"]

def isPathChar (c : Char) : Bool := Text.isWord c || c == '\\'

def namespacePattern : Pattern :=
  lit "namespace" ++ blanks1 ++ group 1 (span1 isPathChar) ++ char ';'

def usePattern : Pattern :=
  lit "use" ++ blanks1 ++ group 1 (span1 isPathChar) ++
    opt (blanks1 ++ lit "as" ++ blanks1 ++ name) ++ char ';'

def classPattern : Pattern :=
  modifier ["abstract", "final"] ++ lit "class" ++ blanks1 ++ group 1 name ++
    opt (blanks1 ++ lit "extends" ++ blanks1 ++ group 2 name) ++
    opt (blanks1 ++ lit "implements" ++ blanks1 ++ group 3 (span1 isListChar)) ++ blanks ++
    char '{'

def interfacePattern : Pattern :=
  lit "interface" ++ blanks1 ++ group 1 name ++
    opt (blanks1 ++ lit "extends" ++ blanks1 ++ group 2 (span1 isListChar)) ++ blanks ++ char '{'

def traitPattern : Pattern := lit "trait" ++ blanks1 ++ group 1 name ++ blanks ++ char '{'

def functionPattern : Pattern :=
  lit "function" ++ blanks1 ++ group 1 name ++ blanks ++ arguments ++ blanks ++
    opt (char ':' ++ blanks ++ span1 (fun c => Text.isWord c || c == '|')) ++ blanks ++ char '{'

def methodPattern : Pattern :=
  modifier ["public", "private", "protected", "static", "final", "abstract"] ++ functionPattern

def propertyPattern : Pattern :=
  modifier ["public", "private", "protected", "static"] ++
    (char '$' ++ group 1 name <|> lit "const" ++ blanks1 ++ group 2 name) ++ blanks ++
    opt (char '=' ++ blanks ++ span1 (· != ';')) ++ char ';'

/-- A constant made by a call. -/
def definePattern : Pattern :=
  lit "define" ++ blanks ++ char '(' ++ blanks ++ one (among "'\"") ++ group 1 name ++
    one (among "'\"")

/-- A constant made by a declaration. -/
def constPattern : Pattern := lit "const" ++ blanks1 ++ group 1 name ++ blanks ++ char '='

def classConstantPattern : Pattern := modifier ["public", "private", "protected"] ++ constPattern

def methodsIn (body : List Char) : List Routine :=
  (methodPattern.findAll body).map fun m =>
    ⟨m.get 1, headOf m.chars, modifiersIn modifierWords m.chars⟩

def propertiesIn (body : List Char) : List Property :=
  (propertyPattern.findAll body).map fun m =>
    ⟨(m.get? 1).getD (m.get 2), modifiersIn modifierWords m.chars⟩

def classesIn (code : List Char) : List Class :=
  (classPattern.findAll code).map fun m =>
    let body := bodyOf code m
    ⟨m.get 1, m.get? 2, listed (m.chars? 3), methodsIn body, propertiesIn body,
      classConstantPattern.findGroup 1 body, modifiersIn modifierWords m.chars⟩

def interfacesIn (code : List Char) : List Interface :=
  (interfacePattern.findAll code).map fun m =>
    ⟨m.get 1, listed (m.chars? 2), methodsIn (bodyOf code m)⟩

def traitsIn (code : List Char) : List Trait :=
  (traitPattern.findAll code).map fun m =>
    let body := bodyOf code m
    ⟨m.get 1, methodsIn body, propertiesIn body⟩

/-- Whether a place seems to lie inside a class: the word stands before it, and more braces are
open than closed. -/
def insideClass (before : List Char) : Bool :=
  Chars.contains before "class".toList && before.count '{' > before.count '}'

/-- The functions of a source that seem to lie outside of classes. -/
def functionsIn (code : List Char) : List Routine :=
  ((functionPattern.findAll code).filter fun m => !insideClass (code.take m.start)).map fun m =>
    { name := m.get 1, signature := headOf m.chars }

/-- The constants of a source, those made by a call first. -/
def constantsIn (code : List Char) : List Constant :=
  (definePattern.findGroup 1 code).map (⟨·, "define"⟩) ++
    (constPattern.findGroup 1 code).map (⟨·, "const"⟩)

def read (options : ReadOptions) (code : List Char) : Source where
  namespaceName := ((namespacePattern.find? code).map (·.get 1)).getD ""
  uses := if options.imports then usePattern.findGroup 1 code else []
  classes := classesIn code
  interfaces := interfacesIn code
  traits := traitsIn code
  functions := functionsIn code
  constants := constantsIn code
  comments := if options.comments then CommentStyle.slashes.comments code else []

/-! ### As data -/

def Property.toValue (p : Property) : Value :=
  .record [("name", .text p.name), ("modifiers", .texts p.modifiers)]

def Constant.toValue (c : Constant) : Value :=
  .record [("name", .text c.name), ("type", .text c.kind)]

def Class.toValue (c : Class) : Value :=
  .record [("name", .text c.name), ("extends", .optText c.parent),
    ("implements", .texts c.implements), ("methods", .listOf Routine.toValue c.methods),
    ("properties", .listOf Property.toValue c.properties),
    ("constants", .listOf (fun n => .record [("name", .text n)]) c.constants),
    ("modifiers", .texts c.modifiers)]

def Interface.toValue (i : Interface) : Value :=
  .record [("name", .text i.name), ("extends", .texts i.parents),
    ("methods", .listOf Routine.toValue i.methods)]

def Trait.toValue (t : Trait) : Value :=
  .record [("name", .text t.name), ("methods", .listOf Routine.toValue t.methods),
    ("properties", .listOf Property.toValue t.properties)]

def Source.toValue (s : Source) : Value :=
  .record [("namespace", .text s.namespaceName), ("use", .texts s.uses),
    ("classes", .listOf Class.toValue s.classes),
    ("interfaces", .listOf Interface.toValue s.interfaces),
    ("traits", .listOf Trait.toValue s.traits),
    ("functions", .listOf Routine.plainValue s.functions),
    ("constants", .listOf Constant.toValue s.constants), ("comments", .texts s.comments)]

end CodeScribe.Php
