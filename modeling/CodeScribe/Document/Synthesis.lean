import CodeScribe.Document.FileEntry
import CodeScribe.Document.FileByFile

/-!
# Writing the parts of a document structure

Each part of a document structure that has instructions is written by a language model, which
sees the whole code base.  A part that cannot be written says so; the others are not affected.
-/

namespace CodeScribe.Synthesis

open Document

variable {m : Type → Type} [Monad m]

/-! ### The code base -/

def shownPath (f : SourceFile) : String :=
  (f.relativePath.getD (f.path.getD (.text "unknown"))).display

/-- The project of a file: the first folder on the way to it. -/
def projectOf (f : SourceFile) : Outcome String := do
  let path ← (relativePathOf f).textFor "split"
  match Text.splitOn path "/" with
  | first :: _ :: _ => return first
  | _ => return "root"

def byProject (files : List SourceFile) : Outcome (Table (List SourceFile)) :=
  files.foldlM (fun groups f => do
    return groups.alter (← projectOf f) fun fs => fs.getD [] ++ [f]) []

def shownLength : Nat := 8000

/-- A file with what it holds, cut if it is long. -/
def fileLines (f : SourceFile) : Outcome String := do
  let content := f.content.getD (.text "")
  let length ← content.size
  let shown ← if length ≤ shownLength then pure content.display
    else do pure (Text.take shownLength (← content.textFor "replace") ++ "\n... (truncated)")
  return "\n### " ++ shownPath f ++ "\n```\n" ++ shown ++ "\n```\n"

def catalogLines (catalog : Value) (key : String) (write : Value → Outcome (List String)) :
    Outcome (List String) := do
  let v ← catalog.fieldOrNull key
  if v.isPresent then write v else return []

def controllerLine (c : Value) : Outcome String := do
  let route ← c.fieldOr "route" (.text "")
  let name ← c.require "name"
  return "- " ++ name.display ++
    (if route.isPresent then " (Route: " ++ route.display ++ ")" else "")

def endpointLine (e : Value) : Outcome String := do
  let verbs ← (← e.fieldOr "http_verbs" (.list [])).joined ", "
  let part (key : String) : Outcome String := do return (← e.fieldOr key (.text "")).display
  return "- " ++ verbs ++ " " ++ (← part "route") ++ " -> " ++ (← part "controller") ++ "." ++
    (← part "method")

def catalogPart (catalog : Value) : Outcome (List String) := do
  if !catalog.isPresent then return []
  let controllers ← catalogLines catalog "controllers" fun v => do
    return "### Controllers\n" :: (← (← v.each).mapM controllerLine)
  let endpoints ← catalogLines catalog "endpoints" fun v => do
    return "\n### Endpoints\n" :: (← (← v.each).mapM endpointLine)
  let services ← catalogLines catalog "services" fun v => do
    return ["\n### Services\n" ++ (← v.joined ", ")]
  let interfaces ← catalogLines catalog "interfaces" fun v => do
    return ["\n### Interfaces\n" ++ (← v.joined ", ")]
  return "\n## Service Catalog\n" :: controllers ++ endpoints ++ services ++ interfaces

def flowLine (flow : Value) : Outcome String := do
  let queue ← flow.fieldOr "queue" (.text "unknown")
  let consumers ← (← flow.fieldOr "consumers" (.list [])).joined ", "
  return "- Queue: " ++ queue.display ++ " -> Consumers: " ++ consumers

def flowPart (flows : Value) : Outcome (List String) := do
  if !flows.isPresent then return []
  return "\n## Messaging Flows\n" :: (← (← flows.each).mapM flowLine)

/-- The code base as the model sees it. -/
def codebase (files : List SourceFile) (catalog flows : Value) : Outcome String := do
  let projects ← byProject files
  let tree := projects.flatMap fun (project, fs) =>
    ("\n### " ++ project ++ "\n") :: fs.map fun f => "- " ++ shownPath f
  let contents ← files.mapM fileLines
  let catalogText ← catalogPart catalog
  let flowText ← flowPart flows
  return Text.join "\n" (["## Project Structure\n"] ++ tree ++ ["\n\n## File Contents\n"] ++
    contents ++ catalogText ++ flowText)

/-! ### Questions -/

/-- The rules for a part of a document. -/
def systemText : String :=
  Text.join "\n" [
    "You are a technical documentation expert writing architecture documentation.",
    "",
    "Your task is to analyze the provided codebase and write a specific documentation section.",
    "",
    "Guidelines:",
    "- Write clear, professional prose (not bullet points unless specifically appropriate)",
    "- Be concise but comprehensive",
    "- Reference specific files, classes, and methods when relevant",
    "- Include code examples or configuration snippets when helpful",
    "- Focus on the architectural aspects and design decisions",
    "- Explain the \"why\" not just the \"what\"",
    "",
    "Do NOT include markdown headers in your response (the section title is provided separately).",
    "Write as continuous prose with occasional sub-points where appropriate."]

def question (title instructions : Value) (codebase : String) : Prompt where
  user := "# Section: " ++ title.display ++ "\n\n## Instructions\n" ++ instructions.display ++
    "\n\n## Codebase Context\n" ++ codebase ++
    "\n\nPlease write the documentation for the \"" ++ title.display ++
    "\" section based on the codebase context provided."
  system := systemText

/-- The text of a part, or a note that it could not be written. -/
def written (ask : Ask m) (p : Prompt) : ExceptT Fault m Value := do
  match ← attempt (ask p) with
  | .ok v => return v
  | .error fault => return .text ("*Error generating content: " ++ fault.message ++ "*")

/-- The content of a part: nothing without instructions. -/
def contentOf (ask : Ask m) (codebase : String) (part : Value) : ExceptT Fault m Value := do
  if !(← lift (part.fieldOrNull "prompt")).isPresent then return .text ""
  let title ← lift (part.require "title")
  let instructions ← lift (part.require "prompt")
  written ask (question title instructions codebase)

/-! ### Parts -/

def innerParts (part : Value) : Outcome (List Value) := do
  let inner ← part.fieldOrNull "subsections"
  if inner.isPresent then inner.each else return []

/-- A field of a part, empty if it is missing. -/
def fieldOf (part : Value) (key : String) : Outcome Value := part.fieldOr key (.text "")

def ofInner (ask : Ask m) (codebase : String) (part : Value) : ExceptT Fault m Value := do
  let id ← lift (fieldOf part "id")
  let title ← lift (fieldOf part "title")
  let content ← contentOf ask codebase part
  return .record [("id", id), ("title", title), ("content", content)]

def ofPart (ask : Ask m) (codebase : String) (part : Value) : ExceptT Fault m Value := do
  let id ← lift (fieldOf part "id")
  let title ← lift (fieldOf part "title")
  let description ← lift (fieldOf part "description")
  let content ← contentOf ask codebase part
  let inner ← (← lift (innerParts part)).mapM (ofInner ask codebase)
  return .record [("id", id), ("title", title), ("description", description),
    ("content", content), ("subsections", .list inner)]

/-- The number of parts that a part stands for: itself and its parts. -/
def weight (part : Value) : Outcome Nat := do
  let inner ← part.fieldOrNull "subsections"
  if inner.isPresent then return 1 + (← inner.size) else return 1

def count (parts : List Value) : Outcome Nat := do return (← parts.mapM weight).foldl (· + ·) 0

/-- All parts, written one after another, with progress told. -/
def ofParts (ask : Ask m) (report : Report m) (codebase : String) (total : Nat) :
    Nat → List Value → ExceptT Fault m (List Value)
  | _, [] => pure []
  | done, part :: rest => do
    let finished ← ofPart ask codebase part
    let done := done + (← lift (weight part))
    report done (some total) (← lift (part.fieldOr "title" (.text "Unknown")))
    return finished :: (← ofParts ask report codebase total done rest)

/-- A document structure with all its parts written. -/
def ofStructure (ask : Ask m) (report : Report m) (doc : Value) (files : List SourceFile)
    (catalog flows : Value) : ExceptT Fault m Value := do
  let text ← lift (codebase files catalog flows)
  let parts ← lift (do (← doc.fieldOr "sections" (.list [])).each)
  let total ← lift (count parts)
  let sections ← ofParts ask report text total 0 parts
  let flag (key : String) : ExceptT Fault m Value := lift (doc.fieldOr key (.bool true))
  let name ← lift (doc.fieldOr "name" (.text "Architecture Documentation"))
  let title ← lift (doc.fieldOr "title" name)
  return .record [("title", title), ("sections", .list sections),
    ("show_file_reference", ← flag "show_file_reference"),
    ("show_integration_graph", ← flag "show_integration_graph"),
    ("show_sequence_diagram", ← flag "show_sequence_diagram")]

end CodeScribe.Synthesis
