import CodeScribe.Data.Record
import CodeScribe.Source.CSharp
import CodeScribe.Source.FSharp
import CodeScribe.Source.Java
import CodeScribe.Source.Php
import CodeScribe.Source.Plain
import CodeScribe.Source.Script
import CodeScribe.Source.VisualBasic

/-!
# Facts of a source

* `Facts` — the facts of a source in any of the languages;
* `Facts.toValue` — the facts as data;
* `Facts.package`, `Facts.classMethods`, `Facts.interfaceNames`, `Facts.importsFor` — what
  analyses across files look at.
-/

namespace CodeScribe

inductive Facts where
  | java (source : Java.Source)
  | csharp (source : CSharp.Source)
  | vbnet (source : VisualBasic.Source)
  | fsharp (source : FSharp.Source)
  | php (source : Php.Source)
  | javascript (source : JavaScript.Source)
  | typescript (source : TypeScript.Source)
  | markup (source : Markup.Source)
  | config (source : Settings.Source)

namespace Facts

def read (language : Language) (options : ReadOptions) (code : List Char) : Facts :=
  match language with
  | .java => java (Java.read options code)
  | .csharp => csharp (CSharp.read options code)
  | .vbnet => vbnet (VisualBasic.read options code)
  | .fsharp => fsharp (FSharp.read options code)
  | .php => php (Php.read options code)
  | .javascript => javascript (JavaScript.read options code)
  | .typescript => typescript (TypeScript.read options code)
  | .markup => markup (Markup.read options code)
  | .config => config (Settings.read options code)

def toValue : Facts → Value
  | java s => s.toValue
  | csharp s => s.toValue
  | vbnet s => s.toValue
  | fsharp s => s.toValue
  | php s => s.toValue
  | javascript s => s.toValue
  | typescript s => s.toValue
  | markup s => s.toValue
  | config s => s.toValue

/-- Read what a file holds; the format of a settings file is found out without its comments even
if it holds no text. -/
def readContent (language : Language) (options : ReadOptions) (content : Option Value) :
    Outcome Facts :=
  match content with
  | none => .error (.missingKey (.text "content"))
  | some (.text code) => .ok (read language options code.toList)
  | some v =>
    if language == .config && !options.comments then .ok (config ⟨"unknown", [], []⟩)
    else .error (.notText v.kind)

/-! ### What other analyses look at -/

/-- The package or namespace of a source, empty if it has none or its language knows none. -/
def package : Facts → String
  | java s => s.package
  | csharp s => s.namespaceName
  | vbnet s => s.namespaceName
  | fsharp s => s.namespaceName
  | php s => s.namespaceName
  | _ => ""

def classMethods : Facts → List (String × List String)
  | java s => s.classes.map fun c => (c.name, c.methods.map (·.name))
  | csharp s => s.classes.map fun c => (c.name, c.methods.map (·.name))
  | vbnet s => s.classes.map fun c => (c.name, c.methods.map (·.name))
  | php s => s.classes.map fun c => (c.name, c.methods.map (·.name))
  | javascript s => s.classes.map fun c => (c.name, c.methods.map (·.name))
  | typescript s => s.classes.map fun c => (c.name, c.methods.map (·.name))
  | _ => []

def interfaceNames : Facts → List String
  | java s => s.interfaces.map (·.name)
  | csharp s => s.interfaces.map (·.name)
  | vbnet s => s.interfaces.map (·.name)
  | php s => s.interfaces.map (·.name)
  | typescript s => s.interfaces.map (·.name)
  | _ => []

def importsFor (language : Language) (facts : Facts) : List String :=
  match language, facts with
  | .java, java s | .vbnet, java s => s.imports
  | .java, vbnet s | .vbnet, vbnet s => s.imports
  | .java, javascript s | .vbnet, javascript s => s.imports
  | .java, typescript s | .vbnet, typescript s => s.imports
  | .csharp, csharp s => s.usings
  | .fsharp, fsharp s => s.opens
  | .php, php s => s.uses
  | _, _ => []

end Facts

/-- What the settings say about reading sources. -/
def ReadOptions.ofConfig (config : Value) : Outcome ReadOptions := do
  let config := config.orElse (.map [])
  let flag (name : String) : Outcome Bool := do
    let documentation ← config.fieldOr "documentation" (.map [])
    return (← documentation.fieldOr name (.bool true)).isPresent
  let comments ← flag "include_comments"
  let imports ← flag "include_imports"
  return ⟨comments, imports⟩

end CodeScribe
