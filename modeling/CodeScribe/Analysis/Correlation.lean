import CodeScribe.Source.File
import CodeScribe.Source.Script

/-!
# Signals across technology stacks

* `Correlation.mermaid` — the drawing of signals.
-/

namespace CodeScribe.Correlation

open Pattern

/-- A file and the words that made it a signal. -/
structure Hit where
  file : Value
  words : List String

/-- The files that show messaging or a user interface. -/
structure Signals where
  dotnet : List Hit
  node : List Hit
  angular : List Value

/-- Words that show messaging in the languages of .NET. -/
def dotnetWords : List String :=
  ["masstransit", "rabbitmq", "rabbitmq.client", "masstransit.rabbitmq"]

/-- Words that show messaging in scripts. -/
def nodeWords : List String :=
  ["amqplib", "amqp-connection-manager", "rascal", "@golevelup/nestjs-rabbitmq",
    "@nestjs/microservices", "rabbitmq"]

def usingPattern : Pattern :=
  lit "using" ++ blanks1 ++ group 1 (span1 fun c => Text.isWord c || c == '.') ++ blanks ++
    char ';'

/-- The words that occur in some value, in ascending order. -/
def wordsIn (words values : List String) : List String :=
  Text.sort (words.filter fun w => values.any fun v => Text.contains (Text.lower v) w)

def among (s : String) (ss : List String) : Bool := ss.contains s

/-- The imports that the text of a file shows: scripts and the languages of .NET have some. -/
def importsOf (isScript isDotnet : Bool) (content : Value) : Outcome (List Value) := do
  if isScript then return (Script.importsIn (← content.asText).toList).map .text
  else if isDotnet then return (usingPattern.findGroup 1 (← content.asText).toList).map .text
  else return []

/-- Whether some value mentions the framework of user interfaces. -/
def mentionsPages : List Value → Outcome Bool
  | [] => .ok false
  | v :: rest => do
    if Text.contains (Text.lower (← v.textFor "lower")) "@angular/" then return true
    else mentionsPages rest

/-- What one file shows, given the table of what files use from outside. -/
def signalsOf (external : Value) (f : SourceFile) : Outcome Signals := do
  let place := f.place
  let path := SourceFile.normalPath place
  let language := Text.lower (← (SourceFile.given f.language (.text "")).textFor "lower")
  let isScript := among language ["javascript", "typescript"]
  let isDotnet := among language ["csharp", "vbnet", "fsharp"]
  let used ← (← external.fieldOr path (.list [])).each
  let values := used ++ (← importsOf isScript isDotnet (SourceFile.given f.content (.text "")))
  let texts ← if isScript || isDotnet then values.mapM (·.textFor "lower") else pure []
  let hits (relevant : Bool) (words : List String) : List Hit :=
    let found := wordsIn words texts
    if relevant && !found.isEmpty then [⟨place, found⟩] else []
  let mayShowPages := isScript || language == "markup"
  let mentions ← if mayShowPages then mentionsPages values else pure false
  let isPage := mentions || (mayShowPages && Text.contains (Text.lower path) "/src/app/")
  return ⟨hits isDotnet dotnetWords, hits isScript nodeWords, if isPage then [place] else []⟩

/-- The table of what files use from outside, according to dependency data. -/
def externalOf (data : Value) : Outcome Value :=
  if data.isPresent then data.fieldOr "external_dependencies" (.map []) else .ok (.map [])

def signals (data : Value) (files : List SourceFile) : Outcome Signals := do
  let external ← externalOf data
  let all ← files.mapM (signalsOf external)
  return ⟨all.flatMap (·.dotnet), all.flatMap (·.node), all.flatMap (·.angular)⟩

def Hit.toValue (h : Hit) : Value := .record [("file", h.file), ("matches", .texts h.words)]

def Signals.toValue (s : Signals) : Value :=
  .record [("csharp_messaging", .list (s.dotnet.map Hit.toValue)),
    ("node_messaging", .list (s.node.map Hit.toValue)),
    ("angular_files", .list (s.angular.map fun f => .record [("file", f)]))]

/-- The drawing of signals, by how many files of each kind there are. -/
def drawing (dotnet node angular : Nat) : Option String :=
  let has (n : Nat) (lines : List String) : List String := if n == 0 then [] else lines
  let box (id label : String) (n : Nat) : List String :=
    has n ["  " ++ id ++ "[\"" ++ label ++ " (" ++ toString n ++ ")\"]"]
  if dotnet + node + angular == 0 then none
  else some (Text.join "\n" (["```mermaid", "graph LR"] ++
    box "DOTNET" ".NET Services" dotnet ++ box "NODE" "Node.js Services" node ++
    box "ANGULAR" "Angular UI" angular ++ has (dotnet + node) ["  MQ[\"RabbitMQ / Messaging\"]"] ++
    has dotnet ["  DOTNET --> MQ"] ++ has node ["  NODE --> MQ"] ++
    has angular [if node == 0 then "  ANGULAR --> MQ" else "  ANGULAR --> NODE"] ++ ["```"]))

def Signals.mermaid (s : Signals) : Option String :=
  drawing s.dotnet.length s.node.length s.angular.length

def mermaidOf (data : Value) : Outcome (Option String) := do
  if !data.isPresent then return none
  let count (key : String) : Outcome Nat := do
    let v ← data.fieldOr key (.list [])
    if v.isPresent then v.size else return 0
  return drawing (← count "csharp_messaging") (← count "node_messaging") (← count "angular_files")

end CodeScribe.Correlation
