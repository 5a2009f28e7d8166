import CodeScribe.Data.Value

/-!
# Languages

The languages whose sources can be read.
-/

namespace CodeScribe

/-- The languages whose sources can be read. -/
inductive Language where
  | java
  | csharp
  | vbnet
  | fsharp
  | php
  | javascript
  | typescript
  | markup
  | config
deriving DecidableEq, Repr

namespace Language

def all : List Language :=
  [java, csharp, vbnet, fsharp, php, javascript, typescript, markup, config]

/-- The name of a language in settings and documents. -/
def id : Language → String
  | java => "java"
  | csharp => "csharp"
  | vbnet => "vbnet"
  | fsharp => "fsharp"
  | php => "php"
  | javascript => "javascript"
  | typescript => "typescript"
  | markup => "markup"
  | config => "config"

def ofId? (name : String) : Option Language := all.find? (·.id == name)

end Language

end CodeScribe
