import CodeScribe.Diagram.CallGraph
import CodeScribe.Diagram.ClassSequence
import CodeScribe.Document.Chunk
import CodeScribe.Document.Merge
import CodeScribe.Messaging.Flows
import CodeScribe.Model.Prompt
import CodeScribe.Source.Facts
import CodeScribe.Source.File

/-!
# The entry of a file in a document

A file is read, its facts are put to a language model chunk by chunk, and the answers become the
entry of the file.  Whatever goes wrong with a file stays in its own entry.
-/

namespace CodeScribe.Document

variable {m : Type → Type} [Monad m]

/-- How questions are put to a language model. -/
abbrev Ask (m : Type → Type) := Prompt → ExceptT Fault m Value

def lift {α : Type} (x : Outcome α) : ExceptT Fault m α := ExceptT.mk (pure x)

/-- Do something and hand on how it ended. -/
def attempt {α : Type} (x : ExceptT Fault m α) : ExceptT Fault m (Outcome α) :=
  ExceptT.mk do return .ok (← x.run)

/-! ### Fields of files -/

def nameOf (f : SourceFile) : Value := f.name.getD (.text "Unknown")

def pathOf (f : SourceFile) : Value := f.path.getD (.text "")

def relativePathOf (f : SourceFile) : Value := f.relativePath.getD (pathOf f)

def contentOf (f : SourceFile) : Outcome Value :=
  match f.content with
  | some v => .ok v
  | none => .error (.missingKey (.text "content"))

/-! ### Describing a file -/

/-- What is known about a file once it has been described. -/
structure Described where
  name : Value
  path : Value
  relativePath : Value
  documentation : Value
  facts : Value
  messaging : Option Value
  callGraphs : List Value

def Described.toValue (d : Described) : Value :=
  .record [("name", d.name), ("path", d.path), ("relative_path", d.relativePath),
    ("documentation", d.documentation), ("parsed_info", d.facts),
    ("messaging_flows", d.messaging.getD .null), ("call_graphs", .list d.callGraphs)]

namespace Describe

def withMessaging (messaging : Option Value) (facts : Value) : Value :=
  match messaging with
  | some flows => facts.put "messaging_flows" flows
  | none => facts

def callGraphsOf (language : Language) (content : Value) : List Value :=
  match language, content with
  | .csharp, .text s => (CallGraph.ofSource s.toList).map CallGraph.toValue
  | _, _ => []

def chunkNumber (index total : Nat) : Value :=
  if 1 < total then .record [("index", .nat index), ("total", .nat total)] else .null

def chunk (ask : Ask m) (language : Language) (options : ReadOptions) (messaging : Option Value)
    (total : Nat) (numbered : Value × Nat) : ExceptT Fault m (Value × Value) := do
  let facts ← lift (Facts.readContent language options (some numbered.1))
  let facts := withMessaging messaging facts.toValue
  let prompt ← lift (Prompt.documentation facts language.id (chunkNumber (numbered.2 + 1) total))
  return (facts, ← ask prompt)

/-- The documentation of several chunks, each under its number. -/
def joinedDocs (docs : List Value) : Value :=
  match docs with
  | [doc] => doc
  | docs => .text (Text.join "\n\n" (docs.zipIdx.map fun (doc, i) =>
      "#### Chunk " ++ toString (i + 1) ++ "/" ++ toString docs.length ++ "\n\n" ++ doc.display))

def file (ask : Ask m) (language : Language) (options : ReadOptions) (size overlap : Value)
    (f : SourceFile) : ExceptT Fault m Described := do
  let content ← lift (contentOf f)
  let messaging ← lift (Messaging.flowsIn (some language) content)
  let chunks ← lift (Chunk.ofContent content size overlap)
  let described ← chunks.zipIdx.mapM (chunk ask language options messaging chunks.length)
  let facts ← lift (Merge.all (described.map (·.1)))
  return {
    name := nameOf f
    path := pathOf f
    relativePath := relativePathOf f
    documentation := joinedDocs (described.map (·.2))
    facts := withMessaging messaging facts
    messaging
    callGraphs := callGraphsOf language content }

end Describe

/-! ### Entries -/

structure FileEntry where
  described : Described
  sequence : Option String := none

def FileEntry.toValue (e : FileEntry) : Value :=
  e.described.toValue.put "sequence_diagram" (.optText e.sequence)

/-- The place of the trace of a failure in a document. -/
def traceText : String := "<traceback>"

def noFacts : Value := .record [("classes", .list []), ("functions", .list []), ("imports", .list [])]

def failureNote (fault : Fault) : String := "*Error processing file: " ++ fault.brief ++ "*"

def failureDetails (fault : Fault) : String :=
  failureNote fault ++ "\n\n<details><summary>Error Details</summary>\n\n```\n" ++ traceText ++
    "\n```\n\n</details>"

def Described.bare (f : SourceFile) (text : String) : Described where
  name := nameOf f
  path := pathOf f
  relativePath := relativePathOf f
  documentation := .text text
  facts := noFacts
  messaging := none
  callGraphs := []

/-- What decides how the entries of a document are made. -/
structure EntryStyle where
  options : ReadOptions
  size : Value
  overlap : Value
  /-- Whether the settings ask for sequence diagrams. -/
  diagrams : Bool
  /-- Whether the diagrams themselves are switched on. -/
  diagramsOn : Bool

/-- The sequence diagram that a language model makes of a file. -/
def askedSequence (ask : Ask m) (on : Bool) (facts : Value) (code : List Char) :
    ExceptT Fault m (Option String) := do
  if !on then return none
  match ClassSequence.prompt facts code with
  | .ok (some question) =>
    match ← attempt (ask ⟨question, ClassSequence.systemPrompt⟩) with
    | .ok (.text reply) => return ClassSequence.ofReply .guarded reply
    | _ => return none
  | _ => return none

/-- The sequence diagram of a file: drawn from its facts, or else asked for if there are several
classes. -/
def sequenceOf (askOwn : Ask m) (style : EntryStyle) (language : Language) (facts : Value)
    (content : Value) : ExceptT Fault m (Option String) := do
  let classes := ((facts.get? "classes").getD (.list [])).items
  match content with
  | .text s =>
    if !style.diagrams || classes.isEmpty then return none
    match ClassSequence.draw .guarded style.diagramsOn facts s.toList language.id with
    | some diagram => return some diagram
    | none =>
      if 1 < classes.length then askedSequence askOwn style.diagramsOn facts s.toList
      else return none
  | _ => return none

/-- The entry of a file; a file that cannot be described has an entry that says so. -/
def FileEntry.ofFile (ask askOwn : Ask m) (style : EntryStyle) (language : Language)
    (f : SourceFile) : ExceptT Fault m FileEntry := do
  match ← attempt (Describe.file ask language style.options style.size style.overlap f) with
  | .ok d =>
    let sequence ← sequenceOf askOwn style language d.facts (f.content.getD .null)
    return ⟨d, sequence⟩
  | .error fault => return ⟨.bare f (failureDetails fault), none⟩

end CodeScribe.Document
