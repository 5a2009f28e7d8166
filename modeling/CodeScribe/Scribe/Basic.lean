import CodeScribe.Document.ByStructure
import CodeScribe.Document.FileByFile
import CodeScribe.Document.Stream
import CodeScribe.Document.Structure
import CodeScribe.Document.Template.Library
import CodeScribe.Model.Provider
import CodeScribe.Workspace.Repository

/-!
# Scribes

A scribe writes documents about source code: it knows the settings, has a language model at hand
and knows where templates and document structures are kept.

* `Scribe.document`, `Scribe.documentBy`, `Scribe.stream` — the three kinds of documents.
-/

namespace CodeScribe

open Document

/-! ### Sources -/

inductive Source where
  | file (path : String)
  | folder (path : String)
  | repository (address : String) (branch : Option String)
deriving DecidableEq, Repr

namespace Source

def ofKind (kind path branch : Value) : Outcome Source := do
  let known := ["file", "folder", "git"].any fun k => kind.same (.text k)
  if !known then .error (.unknownSourceKind kind.display)
  match kind, path with
  | .text "file", .text p => return .file p
  | .text "folder", .text p => return .folder p
  | _, .text p => return .repository p branch.text?
  | _, v => .error (.notText v.kind)

def read (s : Selection) : Source → Work (List SourceFile)
  | file path => Reader.file s path
  | folder path => Reader.folder s path
  | repository address branch => Repository.read s address branch

/-- The source files of a source, one after another; a folder need not be there. -/
def each (s : Selection) : Source → Work (List SourceFile)
  | file path => Reader.file s path
  | folder path => Reader.below s path
  | repository address branch => Repository.each s address branch

end Source

/-! ### Scribes -/

/-- A writer of documents. -/
structure Scribe where
  config : Value
  provider : Value
  model : Model
  options : ReadOptions
  /-- Whether sequence diagrams are switched on. -/
  diagramsOn : Bool
  templates : TemplateFolder
  template : Value
  size : Value
  overlap : Value
  streaming : Value

/-- How progress is told during a run. -/
abbrev Progress := Report (StateM World)

def silent : Progress := fun _ _ _ => pure ()

/-- What one document does otherwise than the scribe usually does. -/
structure Choices where
  report : Progress := silent
  template : Value := .null
  model : Option Model := none
  provider : Value := .null
  size : Value := .null
  overlap : Value := .null
  options : Option ReadOptions := none

namespace Scribe

/-- A scribe for a run, with a provider of language models or else the usual one. -/
def create (configPath : Option String) (provider : Value) : Work Scribe := do
  let config ← Config.load configPath
  let provider ← if provider.isPresent then pure provider
    else Work.ofOutcome (Config.defaultProvider config)
  let model ← Model.openAt provider config
  let options ← Work.ofOutcome (ReadOptions.ofConfig config)
  let diagramsOn ← Work.ofOutcome (ClassSequence.enabled .guarded config)
  modify fun w => { w with graph := {} }
  let documentation ← Work.ofOutcome (Config.documentation config)
  let field (key : String) (default : Value) : Work Value :=
    Work.ofOutcome (documentation.fieldOr key default)
  let templates ← TemplateFolder.ofSetting (← field "template_dir" .null)
  let template ← field "template" (.text "confluence.md")
  let _ ← templates.ensureDefault
  return {
    config, provider, model, options, diagramsOn, templates, template
    size := ← field "chunk_size_chars" (.int 0)
    overlap := ← field "chunk_overlap_chars" (.int 0)
    streaming := ← field "streaming_mode" (.bool false) }

/-- A choice, unless it is nothing. -/
def chosen (choice usual : Value) : Value := if choice.isNull then usual else choice

def modelFor (s : Scribe) (c : Choices) : Model := c.model.getD s.model

/-- How the entries of a document are made. -/
def styleFor (s : Scribe) (c : Choices) : Outcome EntryStyle := do
  let documentation ← Config.documentation s.config
  let diagrams ← documentation.fieldOr "include_sequence_diagrams" (.bool true)
  return { options := c.options.getD s.options, size := chosen c.size s.size,
           overlap := chosen c.overlap s.overlap, diagrams := diagrams.isPresent,
           diagramsOn := s.diagramsOn }

def fillWith (s : Scribe) (disk : Disk) (template : Value) (names : Table Value) :
    Outcome String := do
  s.templates.fill disk (← template.asText) names

def maker (s : Scribe) (c : Choices) : Work (Maker (StateM World)) := do
  let w ← get
  return {
    ask := (s.modelFor c).ask
    askOwn := s.model.ask
    report := c.report
    style := ← Work.ofOutcome (s.styleFor c)
    provider := c.provider.orElse s.provider
    modelName := (s.modelFor c).name
    date := w.now
    fill := s.fillWith w.disk
    template := c.template.orElse s.template }

/-! ### Dependencies -/

/-- How files are read for an analysis of dependencies. -/
def readers (s : Scribe) : Dependency.Readers := { options := s.options }

def analyse (s : Scribe) (files : List SourceFile) : Work Dependency.Graph := do
  match Dependency.Graph.obstacle? files with
  | some fault =>
    modify fun w => { w with graph := Dependency.Graph.stopped s.readers files }
    throw fault
  | none =>
    let graph := Dependency.Graph.ofFiles s.readers files
    modify fun w => { w with graph }
    return graph

/-! ### Documents -/

def document (s : Scribe) (c : Choices) (files : List SourceFile) : Work String := do
  if files.isEmpty then return emptyDocument
  let extras ← Work.ofOutcome (Extras.ofConfig s.config)
  let graph ← if extras.wantsAnalysis files then do pure (← Work.attempt (s.analyse files)).toOption
    else pure none
  (← s.maker c).document extras graph files

def structures : Work StructureFolder := do
  let w ← get
  match w.structureFolder with
  | some path => return .folder path
  | none => return .builtIn w.program

def structureNames : Work (List String) := do return (← structures).names (← Work.disk)

def isMissing (f : Fault) : Bool := f.family == .missingFile

def documentBy (s : Scribe) (c : Choices) (structureName : String) (files : List SourceFile) :
    Work String := do
  match (← structures).load (← Work.disk) structureName with
  | .error fault =>
    if isMissing fault then return "# Error\n\nDocument structure not found: " ++ fault.message
    else throw fault
  | .ok doc =>
    let documentation ← Work.ofOutcome (Config.documentation s.config)
    let wanted ← Work.ofOutcome (documentation.fieldOr "include_dependency_map" (.bool false))
    let known := (← get).graph
    let graph := if wanted.isPresent then some known else none
    (← s.maker c).documentBy doc graph files

def documentFolderBy (s : Scribe) (structureName folder : String) : Work String := do
  let selection ← Work.ofOutcome (Selection.ofConfig s.config)
  let files ← Reader.folder selection folder
  if files.isEmpty then
    return "# Architecture Documentation\n\n**TechDocGen by IBMC**\n\nNo source files found."
  s.documentBy {} structureName files

/-! ### Documents written as the files come -/

def makeParent (path : String) : Work Unit :=
  Work.changeDisk (·.makeFolders (Path.ofString path).parent.text)

def putDown (path : String) (d : Stream) : Work Unit :=
  Work.changeDisk (·.write path (.text d.text))

/-- The section of a file, or of what went wrong with it. -/
def streamFile (mk : Maker (StateM World)) (language : Language) (f : SourceFile)
    (d : Stream) : Work (Stream × List Passing) := do
  let shown : Value := .text language.id
  let failed (fault : Fault) (d : Stream) : Work Stream := do
    let info := (Described.bare f (failureNote fault)).toValue
    let (result, d) := Stream.run (Stream.fileSection info shown) d
    match result with
    | .ok _ => return d
    | .error fault => throw fault
  let described ← Work.attempt
    (Describe.file mk.ask language mk.style.options mk.style.size mk.style.overlap f)
  match described with
  | .error fault => return (← failed fault d, [])
  | .ok info =>
    let (result, d) := Stream.run (Stream.fileSection info.toValue shown) d
    match result with
    | .ok _ => return (d, Passing.ofDescribed info)
    | .error fault => return (← failed fault d, Passing.ofDescribed info)

/-- The sections of all files that can be read, one after another. -/
def streamFiles (mk : Maker (StateM World)) (path : String) :
    Nat → List SourceFile → Stream → Work (List Passing)
  | _, [], _ => return []
  | done, f :: rest, d => do
    let language ← Work.ofOutcome (languageOf f)
    match if isUnknown language then none else readable? language with
    | none => streamFiles mk path done rest d
    | some l =>
      mk.report (done + 1) none (nameOf f)
      let (d, passings) ← streamFile mk l f d
      putDown path d
      return passings ++ (← streamFiles mk path (done + 1) rest d)

/-- Write a document as the files of a source come.  The closing diagrams need the queues of all
files, which are never gathered, so the document is left without its end. -/
def stream (s : Scribe) (c : Choices) (selection : Selection) (source : Source) (path : String) :
    Work String := do
  let path := Path.normal path
  let mk ← s.maker c
  makeParent path
  let d := Stream.start mk.provider mk.modelName
  putDown path d
  let files ← source.each selection
  let passings ← streamFiles mk path 0 files d
  let _ ← Work.ofOutcome (Passing.integrationGraph passings)
  throw (.undefinedName "messaging_flows")

/-! ### Files -/

def textSetting (s : Scribe) (key default : String) : Outcome String :=
  (Config.get s.config key (.text default)).asText

def outputFolder (s : Scribe) : Work String := do
  let folder := Path.normal (← Work.ofOutcome (s.textSetting "output.directory" "./docs"))
  Work.changeDisk (·.makeFolders folder)
  return folder

/-- Put a document into a file, or into the usual one, and give its path. -/
def save (s : Scribe) (text : String) (path : Option String) : Work String := do
  let file ← match path with
    | some p => if p != "" then pure (Path.normal p) else usual
    | none => usual
  makeParent file
  Work.changeDisk (·.write file (.text text))
  return file
where
  usual : Work String := do
    let folder ← s.outputFolder
    return Path.below folder
      (← Work.ofOutcome (s.textSetting "output.filename_template" "technical_docs.md"))

def mapEndings : List (String × String) :=
  [("json", ".json"), ("dot", ".dot"), ("mermaid", ".mmd"), ("markdown", ".md")]

def mapText (graph : Dependency.Graph) (format : String) : Outcome String :=
  match format with
  | "json" => .ok graph.json
  | "dot" => .ok graph.dot
  | "mermaid" => .ok graph.mermaid
  | "markdown" => .ok graph.report
  | other => .error (.unknownFormat other)

def saveMap (s : Scribe) (files : List SourceFile) (format : String) (path : Option String) :
    Work String := do
  let graph ← s.analyse files
  let file ← match path with
    | some p => if p != "" then pure (Path.normal p) else usual
    | none => usual
  let text ← Work.ofOutcome (mapText graph format)
  makeParent file
  Work.changeDisk (·.write file (.text text))
  return file
where
  usual : Work String := do
    return Path.below (← s.outputFolder) ("dependency_map" ++ (mapEndings.lookup format).getD ".json")

end Scribe

end CodeScribe
