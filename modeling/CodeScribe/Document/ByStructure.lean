import CodeScribe.Document.Synthesis

/-!
# Documents that follow a document structure
-/

namespace CodeScribe.Document

variable {m : Type → Type} [Monad m]

def shownField (v : Value) (key default : String) : Outcome String := do
  return (← v.fieldOr key (.text default)).display

def plainPart (mark default : String) (part : Value) : Outcome (List String) := do
  let title ← shownField part "title" default
  let content ← part.fieldOrNull "content"
  return ("\n" ++ mark ++ " " ++ title ++ "\n") ::
    (if content.isPresent then [content.display ++ "\n"] else [])

/-- The written parts without a template. -/
def plainRender (doc names : Value) : Outcome String := do
  let title ← shownField doc "title" "Architecture Documentation"
  let provider ← shownField names "llm_provider" ""
  let model ← shownField names "model_name" ""
  let date ← shownField names "generation_date" ""
  let head := ["# " ++ title ++ "\n", "**Generated by:** TechDocGen by IBMC\n",
    "**Model Use:** " ++ provider ++ " " ++ model ++ "\n", "**Generation Date:** " ++ date ++ "\n",
    "---\n"]
  let parts ← (← (← doc.fieldOr "sections" (.list [])).each).mapM fun part => do
    let own ← plainPart "#" "Section" part
    let inner ← (← (← part.fieldOr "subsections" (.list [])).each).mapM
      (plainPart "##" "Subsection")
    return own ++ inner.flatten
  return Text.join "\n" (head ++ parts.flatten)

def Described.ofFacts (f : SourceFile) (facts : Value) (messaging : Option Value) : Described where
  name := nameOf f
  path := pathOf f
  relativePath := relativePathOf f
  documentation := .null
  facts
  messaging
  callGraphs := []

/-- What a file says without a language model; a file that cannot be read says nothing. -/
def readFile (options : ReadOptions) (language : Language) (f : SourceFile) : Described :=
  let read : Outcome Described := do
    let content ← contentOf f
    let facts ← Facts.readContent language options (some content)
    let messaging ← Messaging.flowsIn (some language) content
    return .ofFacts f facts.toValue messaging
  match read with
  | .ok d => d
  | .error _ => .ofFacts f noFacts none

def Described.readValue (d : Described) : Value :=
  .record [("name", d.name), ("path", d.path), ("relative_path", d.relativePath),
    ("parsed_info", d.facts), ("messaging_flows", d.messaging.getD .null)]

def readOf (report : Report m) (options : ReadOptions) (total : Nat) (language : Language) :
    Nat → List SourceFile → ExceptT Fault m (List Described)
  | _, [] => pure []
  | done, f :: rest => do
    report (done + 1) (some total) (.text ("Parsing: " ++ (nameOf f).display))
    return readFile options language f :: (← readOf report options total language (done + 1) rest)

def readByLanguage (report : Report m) (options : ReadOptions) (total : Nat) :
    Nat → List (Value × List SourceFile) → ExceptT Fault m (List (Value × List Described) × Nat)
  | done, [] => pure ([], done)
  | done, (language, files) :: rest =>
    if isUnknown language then readByLanguage report options total done rest
    else match readable? language with
      | none => do
        let (others, all) ← readByLanguage report options total done rest
        return ((language, []) :: others, all)
      | some l => do
        let read ← readOf report options total l done files
        let (others, all) ← readByLanguage report options total (done + files.length) rest
        return ((language, read) :: others, all)

/-- The document of some files after a document structure.  The graph is the one to look
controllers up in, if the settings ask for it. -/
def Maker.documentBy (mk : Maker m) (doc : Value) (graph : Option Dependency.Graph)
    (files : List SourceFile) : ExceptT Fault m String := do
  let groups ← lift (byLanguage files)
  let total := files.length
  let (read, done) ← readByLanguage mk.report mk.style.options total 0 groups
  let passings := (read.flatMap (·.2)).flatMap Passing.ofDescribed
  let catalog := (Catalog.ServiceCatalog.ofFiles graph files).toValue
  let integration ← lift (Passing.integrationGraph passings)
  let flows := Value.list (passings.flatMap Passing.queueFlows)
  let types := Value.list (passings.flatMap Passing.messageTypes)
  let sequence ← lift (AppSequence.draw catalog flows types)
  mk.report done (some total) (.text "Synthesizing architecture documentation...")
  let parts ← Synthesis.ofStructure mk.ask mk.report doc files catalog flows
  let shownIf (key : String) (text : Option String) : Value :=
    if ((parts.get? key).getD (.bool true)).isPresent then .optText text else .null
  let names : Table Value := [
    ("llm_provider", mk.provider),
    ("model_name", mk.modelName),
    ("generation_date", .text mk.date),
    ("total_files", .nat total),
    ("files_by_language", .map (read.map fun (l, ds) => (l, .list (ds.map (·.readValue))))),
    ("languages", .list (read.map (·.1))),
    ("messaging_flows", flows),
    ("integration_graph", shownIf "show_integration_graph" integration),
    ("service_catalog", catalog),
    ("app_sequence_diagram", shownIf "show_sequence_diagram" sequence),
    ("doc_structure", parts),
    ("show_file_reference", (parts.get? "show_file_reference").getD (.bool true))]
  let template ← lift (doc.fieldOr "template" (.text "architecture.md"))
  match mk.fill template names with
  | .ok text => return text
  | .error _ => lift (plainRender parts (.record names))

end CodeScribe.Document
