import CodeScribe.CommandLine.Arguments
import CodeScribe.CommandLine.Markup
import CodeScribe.Scribe.Domain

/-!
# Runs from the command line
-/

namespace CodeScribe

open Document

namespace Command

def display (line : String) : Work Unit := do Work.print (← Work.ofOutcome (StyledLine.plain line))

def isGiven (argument : Option String) : Bool := argument.any (· != "")

def valueOf (argument : Option String) : Value := (argument.map Value.text).getD .null

def fullPath (path : String) : Work String := do return Path.below (← Work.disk).home path

/-- Show where something was put. -/
def displayOutput (path : String) : Work Unit := do
  display ("[dim]Output: " ++ (← fullPath path) ++ "[/dim]\n")

/-- The kind of a source as the source itself shows it: what is neither a file nor a folder is
taken for a repository. -/
def detectKind (disk : Disk) (source : String) : String :=
  if disk.isFile source then "file" else if disk.isFolder source then "folder" else "git"

def sourceKind (disk : Disk) (source : String) (kind : Option String) : Outcome String :=
  match kind with
  | some "auto" => .ok (detectKind disk source)
  | some k => .ok (Text.lower k)
  | none => .error (.noOperation "NoneType" "lower")

def listStructures (a : Arguments) : Work Unit := do
  let _ ← Scribe.create a.config (valueOf a.provider)
  let names ← Scribe.structureNames
  display "[bold]Available Document Structures:[/bold]\n"
  for name in names do display ("  - " ++ name)
  display
    "\n[dim]Use --doc-structure <name> to generate architecture-centric documentation[/dim]"

/-- Tell what is going to be done. -/
def announce (a : Arguments) (kind : Option String) : Work Unit := do
  if isGiven a.source then
    display ("[dim]Source: " ++ a.source.getD "" ++ "[/dim]")
    display ("[dim]Type: " ++ kind.getD "" ++ "[/dim]")
  if isGiven a.domain then display ("[dim]Domain: " ++ a.domain.getD "" ++ "[/dim]")
  let provider := if isGiven a.provider then a.provider.getD "" else "default"
  display ("[dim]Provider: " ++ provider ++ "[/dim]\n")

def writeDomains (s : Scribe) : Work Unit := do
  for path in ← s.writeAllDomains do
    display "[bold green]✓ Documentation generated![/bold green]"
    displayOutput path

def writeDomain (s : Scribe) (a : Arguments) : Work Unit := do
  let path ← s.writeDomain (valueOf a.domain) (valueOf a.output) (.bool a.stream)
  display "[bold green]✓ Documentation generated successfully![/bold green]"
  displayOutput path

def sourceOf (a : Arguments) (kind : Option String) : Outcome Source :=
  Source.ofKind (valueOf kind) (valueOf a.source) (valueOf a.branch)

def writeByStructure (s : Scribe) (a : Arguments) (kind : Option String) (name : String) :
    Work Unit := do
  display ("[dim]Using document structure: " ++ name ++ "[/dim]\n")
  let source ← Work.ofOutcome (sourceOf a kind)
  let files ← source.read (← Work.ofOutcome (Selection.ofConfig s.config))
  let path ← s.save (← s.documentBy {} name files) a.output
  display "\n[bold green]✓ Architecture documentation generated successfully![/bold green]"
  displayOutput path

/-- Write the document of a source file by file, after its dependency map if that is asked for.
A document that is not streamed is made under one display of progress and saved under another, and
two of them cannot be open at once. -/
def writeFileByFile (s : Scribe) (a : Arguments) (kind : Option String) : Work Unit := do
  let source ← Work.ofOutcome (sourceOf a kind)
  let selection ← Work.ofOutcome (Selection.ofConfig s.config)
  let files ← if a.map || !a.stream then source.read selection else pure []
  if a.map then
    let path ← s.saveMap files a.mapFormat a.mapOutput
    display "\n[bold green]✓ Dependency map generated![/bold green]"
    displayOutput path
  if a.stream then
    let usual := "./docs/technical_docs.md"
    let path ← s.stream {} selection source (if isGiven a.output then a.output.getD usual else usual)
    display "\n[bold green]✓ Documentation generated successfully![/bold green]"
    displayOutput path
  else
    let files ← if a.map && !files.isEmpty then pure files else source.read selection
    let _ ← s.document {} files
    throw .nestedDisplay

def write (a : Arguments) (kind : Option String) : Work Unit := do
  let s ← Scribe.create a.config (valueOf a.provider)
  if a.allDomains then writeDomains s
  else if isGiven a.domain then writeDomain s a
  else match a.structureName.filter (· != "") with
    | some name => writeByStructure s a kind name
    | none => writeFileByFile s a kind

/-- Do what the arguments ask for; trouble is shown and the run given up. -/
def perform (a : Arguments) : Work Unit := do
  display "[bold blue]TechDocGen by IBMC[/bold blue]"
  display "[dim]Technical Documentation Generator[/dim]\n"
  if a.listStructures then
    match ← Work.attempt (listStructures a) with
    | .ok _ => return
    | .error fault =>
      display ("[bold red]Error: " ++ fault.message ++ "[/bold red]")
      throw .aborted
  if !isGiven a.source && !isGiven a.domain && !a.allDomains then
    throw (.badParameter "Provide --source or --domain/--all-domains")
  let kind ← match a.source.filter (· != "") with
    | some source => some <$> Work.ofOutcome (sourceKind (← Work.disk) source a.kind)
    | none => pure none
  if a.verbose then announce a kind
  match ← Work.attempt (write a kind) with
  | .ok _ => return
  | .error fault =>
    display ("\n[bold red]✗ Error: " ++ fault.message ++ "[/bold red]\n")
    if a.verbose then Work.print "<traceback>"
    throw .aborted

end Command

namespace CommandLine

/-- A run from the command line, with its exit status: 1 for a run given up and 2 for arguments
that cannot be used. -/
def run (arguments : List String) : Work Nat := do
  match Arguments.parse arguments with
  | .error misuse => refuse misuse
  | .ok none =>
    help.forM Work.print
    return 0
  | .ok (some a) =>
    match ← Work.attempt (Command.perform a) with
    | .ok _ => return 0
    | .error .aborted =>
      Work.print "Aborted!"
      return 1
    | .error (.badParameter problem) => refuse (.unusable problem)
    | .error _ => return 1
where
  /-- Tell what is wrong with the arguments. -/
  refuse (misuse : Misuse) : Work Nat := do
    misuse.lines.forM Work.print
    return 2

end CommandLine

end CodeScribe
