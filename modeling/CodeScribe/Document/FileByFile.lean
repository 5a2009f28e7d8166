import CodeScribe.Analysis.Correlation
import CodeScribe.Analysis.Dependency.Export
import CodeScribe.Catalog.Build
import CodeScribe.Data.Table
import CodeScribe.Document.Records

/-!
# Documents that go through the source file by file
-/

namespace CodeScribe.Document

variable {m : Type → Type} [Monad m]

/-- How progress is told: the number of the file, the number of all files, and the name. -/
abbrev Report (m : Type → Type) := Nat → Option Nat → Value → ExceptT Fault m Unit

/-! ### Grouping -/

def addToGroup (language : Value) (f : SourceFile) :
    List (Value × List SourceFile) → List (Value × List SourceFile)
  | [] => [(language, [f])]
  | (l, fs) :: rest =>
    if l.same language then (l, fs ++ [f]) :: rest else (l, fs) :: addToGroup language f rest

def languageOf (f : SourceFile) : Outcome Value :=
  match f.language with
  | some l => l.asKey
  | none => .error (.missingKey (.text "language"))

/-- Files grouped by language, languages in the order in which they come in. -/
def byLanguage (files : List SourceFile) : Outcome (List (Value × List SourceFile)) :=
  files.foldlM (fun groups f => do return addToGroup (← languageOf f) f groups) []

def readable? (language : Value) : Option Language := language.text?.bind Language.ofId?

/-- Whether a language is the one of files that no ending told the language of. -/
def isUnknown (language : Value) : Bool := language.same (.text "unknown")

/-! ### Entries -/

def entriesOf (ask askOwn : Ask m) (report : Report m) (style : EntryStyle) (total : Nat)
    (language : Language) : Nat → List SourceFile → ExceptT Fault m (List FileEntry)
  | _, [] => pure []
  | done, f :: rest => do
    report (done + 1) (some total) (nameOf f)
    let entry ← FileEntry.ofFile ask askOwn style language f
    return entry :: (← entriesOf ask askOwn report style total language (done + 1) rest)

/-- The entries of all files, language by language; a language that cannot be read has none, and
files of unknown language are left out. -/
def entriesByLanguage (ask askOwn : Ask m) (report : Report m) (style : EntryStyle) (total : Nat) :
    Nat → List (Value × List SourceFile) → ExceptT Fault m (List (Value × List FileEntry))
  | _, [] => pure []
  | done, (language, files) :: rest =>
    if isUnknown language then entriesByLanguage ask askOwn report style total done rest
    else match readable? language with
      | none => do
        return (language, []) :: (← entriesByLanguage ask askOwn report style total done rest)
      | some l => do
        let entries ← entriesOf ask askOwn report style total l done files
        return (language, entries) ::
          (← entriesByLanguage ask askOwn report style total (done + files.length) rest)

/-! ### Documents -/

def emptyDocument : String :=
  "# Technical Documentation\n\n**TechDocGen by IBMC**\n\nNo source files found."

/-- What a document is made with. -/
structure Maker (m : Type → Type) where
  ask : Ask m
  /-- The model for diagrams, which is not always the one for documentation. -/
  askOwn : Ask m
  report : Report m
  style : EntryStyle
  provider : Value
  modelName : Value
  date : String
  /-- Fill a template from named values. -/
  fill : Value → Table Value → Outcome String
  template : Value

/-- What the settings ask for besides the entries. -/
structure Extras where
  dependencyMap : Bool
  dependencyGraph : Bool

/-- Whether dependencies are analysed: only if asked for, and with several files. -/
def Extras.wantsAnalysis (e : Extras) (files : List SourceFile) : Bool :=
  (e.dependencyMap || e.dependencyGraph) && 1 < files.length

/-- What the settings ask for besides the entries. -/
def Extras.ofConfig (config : Value) : Outcome Extras := do
  let documentation ← config.fieldOr "documentation" (.map [])
  let dependencyMap ← documentation.fieldOr "include_dependency_map" (.bool false)
  let output ← config.fieldOr "output" (.map [])
  let dependencyGraph ← output.fieldOr "include_architecture_diagram" (.bool false)
  return ⟨dependencyMap.isPresent, dependencyGraph.isPresent⟩

/-- A text, if it is asked for and something was found. -/
def optional (wanted : Bool) (graph : Option Dependency.Graph) (write : Dependency.Graph → String) :
    Value :=
  match graph with
  | some g => if wanted then .text (write g) else .null
  | none => .null

def contextOf (mk : Maker m) (extras : Extras) (graph : Option Dependency.Graph)
    (files : List SourceFile) (entries : List (Value × List FileEntry)) :
    Outcome (Table Value) := do
  let passings := (entries.flatMap (·.2)).flatMap (Passing.ofDescribed ·.described)
  let integration ← Passing.integrationGraph passings
  let catalog := (Catalog.ServiceCatalog.ofFiles graph files).toValue
  let flows := Value.list (passings.flatMap Passing.queueFlows)
  let types := Value.list (passings.flatMap Passing.messageTypes)
  let sequence ← AppSequence.draw catalog flows types
  let signals ← Correlation.signals ((graph.map (·.mapValue)).getD .null) files
  return [
    ("llm_provider", mk.provider),
    ("model_name", mk.modelName),
    ("generation_date", .text mk.date),
    ("total_files", .nat files.length),
    ("files_by_language", .map (entries.map fun (l, es) => (l, .list (es.map (·.toValue))))),
    ("dependency_map", optional extras.dependencyMap graph (·.report)),
    ("dependency_graph", optional extras.dependencyGraph graph (·.mermaidBlock 80)),
    ("languages", .list (entries.map (·.1))),
    ("messaging_flows", flows),
    ("integration_graph", .optText integration),
    ("service_catalog", catalog),
    ("app_sequence_diagram", .optText sequence),
    ("correlation_signals", signals.toValue),
    ("correlation_graph", .optText signals.mermaid)]

/-- A template filled; the default one if it cannot be, and a bare note as the last resort. -/
def filled (mk : Maker m) (names : Table Value) : String :=
  match mk.fill mk.template names with
  | .ok text => text
  | .error fault =>
    match mk.fill (.text "default.md") names with
    | .ok text => text
    | .error _ =>
      "# Technical Documentation\n\n**TechDocGen by IBMC**\n\nModel Use : " ++
        (if mk.provider.same (.text "ollama") then "local " else "") ++ mk.modelName.display ++
        "\n\nError rendering template: " ++ fault.message

def Maker.document (mk : Maker m) (extras : Extras) (graph : Option Dependency.Graph)
    (files : List SourceFile) : ExceptT Fault m String := do
  let groups ← lift (byLanguage files)
  let entries ← entriesByLanguage mk.ask mk.askOwn mk.report mk.style files.length 0 groups
  let names ← lift (contextOf mk extras graph files entries)
  return filled mk names

end CodeScribe.Document
