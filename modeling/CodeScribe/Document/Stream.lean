import CodeScribe.Data.Record
import CodeScribe.Data.Table

/-!
# Documents written as the files come

A document can be written section by section, so that no more than one file has to be kept.  What
was written before something goes wrong stays written.

* `Stream.start` — the head of a document;
* `Stream.finish` — the end of a document, after which nothing can be written.
-/

namespace CodeScribe.Document

/-- A document being written. -/
structure Stream where
  text : String := ""
  total : Nat := 0
  languages : List Value := []
  finished : Bool := false

namespace Stream

/-- Writing: it can fail, and what was written stays. -/
abbrev Writing := ExceptT Fault (StateM Stream)

def write (s : String) : Writing Unit := do
  if (← get).finished then throw .documentClosed
  modify fun d => { d with text := d.text ++ s }

def ofOutcome {α : Type} (x : Outcome α) : Writing α := ExceptT.mk (pure x)

def start (provider modelName : Value) : Stream where
  text := "# Technical Documentation\n\n**TechDocGen by IBMC**  \n**Model Use :** " ++
    (if provider.same (.text "ollama") then "local " else "") ++ modelName.display ++
    "\n\n---\n\n## Files\n\n"

/-! ### The section of a file -/

def countLine (facts : Value) (entry : String × String) : Writing Unit := do
  let v ← ofOutcome (facts.fieldOrNull entry.1)
  if v.isPresent then
    write ("- " ++ entry.2 ++ ": " ++ toString (← ofOutcome v.size) ++ "\n")

/-- The kinds of declarations that are counted, with their titles. -/
def counted : List (String × String) :=
  [("classes", "Classes"), ("interfaces", "Interfaces"), ("functions", "Functions"),
    ("enums", "Enums"), ("types", "Types"), ("imports", "Imports")]

def factsPart (facts : Value) : Writing Unit := do
  if facts.isPresent then
    write "#### Code Structure\n\n"
    counted.forM (countLine facts)
    write "\n"

/-- Texts joined by commas, or a note that there are none. -/
def joinedOrNone (v : Value) : Outcome String := do
  let s ← v.joined ", "
  return if s == "" then "N/A" else s

def flowLine (flow : Value) : Writing Unit := do
  let consumers ← ofOutcome (do joinedOrNone (← flow.fieldOr "consumers" (.list [])))
  let sagas ← ofOutcome (do joinedOrNone (← flow.fieldOr "sagas" (.list [])))
  let queue ← ofOutcome (flow.fieldOrNull "queue")
  write ("- Queue `" ++ queue.display ++ "` -> Consumers: " ++ consumers ++ "; Sagas: " ++ sagas ++
    "\n")

def listLine (flows : Value) (entry : String × String) : Writing Unit := do
  let v ← ofOutcome (flows.fieldOrNull entry.1)
  if v.isPresent then write ("- " ++ entry.2 ++ ": " ++ (← ofOutcome (v.joined ", ")) ++ "\n")

def consumerLine (flows : Value) : Writing Unit := do
  let v ← ofOutcome (flows.fieldOrNull "consumer_messages")
  if v.isPresent then
    let entries ← ofOutcome do
      (← v.each).mapM fun item => do
        return (← item.fieldOrNull "consumer").display ++ "(" ++
          (← item.fieldOrNull "message").display ++ ")"
    if !entries.isEmpty then write ("- Consumers: " ++ Text.join ", " entries ++ "\n")

def messagingPart (flows : Value) : Writing Unit := do
  if flows.isPresent then
    write "#### Messaging Flows\n\n"
    let queues ← ofOutcome (flows.fieldOrNull "flows")
    if queues.isPresent then (← ofOutcome queues.each).forM flowLine
    [("publishes", "Publishes"), ("sends", "Sends"), ("send_endpoints", "Send Endpoints")].forM
      (listLine flows)
    consumerLine flows
    write "\n"

def sequencePart (info : Value) : Writing Unit := do
  let diagram ← ofOutcome (info.fieldOrNull "sequence_diagram")
  if diagram.isPresent then
    write "#### Sequence Diagram\n\n"
    match diagram with
    | .text s => write (s ++ "\n\n")
    | v => throw (.noOperator "+" v.kind "str")

def callGraphPart (graph : Value) : Writing Unit := do
  let name ← ofOutcome (graph.fieldOrNull "class")
  write ("##### " ++ name.display ++ "\n\n")
  match ← ofOutcome (graph.fieldOr "mermaid" (.text "")) with
  | .text s => write (s ++ "\n\n")
  | v => throw (.noOperator "+" v.kind "str")

def callGraphsPart (info : Value) : Writing Unit := do
  let graphs ← ofOutcome (info.fieldOrNull "call_graphs")
  if graphs.isPresent then
    write "#### Call Graphs\n\n"
    (← ofOutcome graphs.each).forM callGraphPart

/-- Count a file and put its language among those met. -/
def meet (language : Value) : Writing Unit := do
  modify fun d => { d with total := d.total + 1 }
  let language ← ofOutcome language.asKey
  modify fun d => { d with
    languages := if d.languages.any (Value.same language) then d.languages
      else d.languages ++ [language] }

def fileSection (info language : Value) : Writing Unit := do
  meet language
  let name ← ofOutcome (info.require "name")
  let shown ← ofOutcome (language.textFor "upper")
  write ("### " ++ name.display ++ " (" ++ Text.upper shown ++ ")\n\n")
  let relative ← ofOutcome (info.fieldOrNull "relative_path")
  let path ← ofOutcome (info.fieldOrNull "path")
  write ("**Path:** `" ++ (relative.orElse path).display ++ "`\n\n")
  let documentation ← ofOutcome (info.fieldOr "documentation" (.text ""))
  write (Text.trim (← ofOutcome (documentation.textFor "strip")) ++ "\n\n")
  factsPart (← ofOutcome (info.fieldOr "parsed_info" (.map [])))
  messagingPart (← ofOutcome (info.fieldOrNull "messaging_flows"))
  sequencePart info
  callGraphsPart info
  write "---\n\n"

/-! ### The end -/

/-- The languages met, ascending; they must all be texts. -/
def languageNames (d : Stream) : Outcome (List String) := do
  return Text.sort (← d.languages.mapM (·.asText))

def diagramPart (title : String) (diagram : Value) : Writing Unit := do
  if diagram.isPresent then
    write ("## " ++ title ++ "\n\n")
    write (Text.trim (← ofOutcome (diagram.textFor "strip")) ++ "\n\n")

def finish (integration sequence : Value) : Writing Unit := do
  diagramPart "App Interaction Sequence" sequence
  diagramPart "Integration Graph" integration
  write "## Summary\n\n"
  let d ← get
  write ("- Total files processed: " ++ toString d.total ++ "\n")
  write ("- Languages: " ++ Text.join ", " (← ofOutcome d.languageNames) ++ "\n\n")
  write "---\n\n"
  write "*This documentation was automatically generated.*\n"
  modify fun d => { d with finished := true }

/-- How some writing ends, and the document after it. -/
def run (w : Writing Unit) (d : Stream) : Outcome Unit × Stream := (ExceptT.run w).run d

end Stream

end CodeScribe.Document
