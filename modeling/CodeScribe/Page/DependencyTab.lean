import CodeScribe.Analysis.Correlation
import CodeScribe.Analysis.Dependency.Export
import CodeScribe.Page.Choice
import CodeScribe.Page.DependencyGraph

/-!
# Looking at dependencies

* `Page.correlation`, `Page.graphPart`, `Page.findings`, `Page.exports` — what was found;
* `Page.dependencyTab` — the part of the page on which dependencies are looked at.
-/

namespace CodeScribe.Page

open Text

/-! ### Analysing -/

def analyse (provider : Value) : Page Unit := do
  let scribe ← work (Scribe.create none provider)
  status "📊 Analyzing dependencies..."
  progress 30
  let files ← ofOutcome (← known "source_files").each
  let graph ← work (scribe.analyse (files.map SourceFile.ofValue))
  progress 80
  status "✅ Analysis complete!"
  remember "dependency_analysis" graph.toValue
  remember "dependency_map_data" graph.mapValue
  modify fun s => { s with graph := some graph }
  progress 100
  status "✅ Ready!"
  success "✅ Dependency analysis complete!"
  again

/-! ### What was found -/

/-- The first entries of a list, or the first characters of a text. -/
def firstOf (n : Nat) (v : Value) : Outcome (List Value) := do return (← v.each).take n

def signalLine (item : Value) : Page Unit := do
  let found ← ofOutcome do (← item.fieldOr "matches" (.list [])).joined ", "
  text ("• " ++ (← ofOutcome (item.require "file")).display ++ " (" ++ found ++ ")")

def fileLine (item : Value) : Page Unit := do
  text ("• " ++ (← ofOutcome (item.require "file")).display)

/-- Files of one kind, folded away. -/
def signals (title : String) (line : Value → Page Unit) (found : Value) : Page Unit := do
  if found.isPresent then
    expander title
    (← ofOutcome (firstOf 25 found)).forM line

/-- What the files have in common across languages. -/
def correlation (map : Value) : Page Unit := do
  markdown "#### 🔍 Cross-Stack Correlation (C#/.NET, RabbitMQ/MassTransit, Node.js, Angular)"
  let files ← ofOutcome (← known "source_files").each
  let found ← ofOutcome
    (Correlation.signals map (files.map SourceFile.ofValue))
  let under (key : String) : Value := (found.toValue.get? key).getD (.list [])
  let dotnet := under "csharp_messaging"
  let node := under "node_messaging"
  let angular := under "angular_files"
  columns (.int 4)
  metric ".NET Messaging Files" (.nat dotnet.items.length)
  metric "Node.js Messaging Files" (.nat node.items.length)
  metric "Angular Files" (.nat angular.items.length)
  metric "Cross-Stack Signal"
    (.text (if dotnet.isPresent && node.isPresent then "Detected" else "Not detected"))
  signals "View .NET RabbitMQ/MassTransit signals" signalLine dotnet
  signals "View Node.js RabbitMQ signals" signalLine node
  signals "View Angular files detected" fileLine angular
  caption ("Signals are inferred from imports/usings and file paths. " ++
    "Review the file lists to confirm actual integrations.")
  rule

def numbers (analysis : Value) : Page Unit := do
  markdown "#### 📊 Analysis Metrics"
  columns (.int 4)
  [("Total Files", "file_count"), ("Total Classes", "class_count"),
    ("Dependencies", "dependency_count"), ("External Deps", "external_dependency_count")].forM
    fun (title, key) => do metric title (← ofOutcome (analysis.require key))
  rule

/-- A drawing of dependencies; where it cannot be shown, its code is. -/
def graphDrawing (s : String) : Page Unit := do
  if (← get).diagrams == .missing then
    diagramHint
    expander "View diagram code"
    diagramCode s
  else
    match ← attempt (diagram s) with
    | .ok _ => return
    | .error fault => undrawn fault s

def graphPart (map : Value) : Page Unit := do
  markdown "#### 🗺️ Dependency Graph"
  match ← ofOutcome (dependencyDrawing map) with
  | some s => graphDrawing s
  | none => info "No dependencies found to visualize."
  rule

def pathName (v : Value) : Outcome String := do return (Path.ofString (← v.asText)).name

def cycleLine (cycle : Value × Nat) : Page Unit := do
  let names ← ofOutcome do (← cycle.1.each).mapM pathName
  code ("Cycle " ++ toString (cycle.2 + 1) ++ ": " ++ join " → " names)

def cyclesPart (analysis : Value) : Page Unit := do
  let cycles ← ofOutcome (analysis.fieldOrNull "circular_dependencies")
  if cycles.isPresent then
    markdown "#### ⚠️ Circular Dependencies"
    warning ("Found " ++ toString (← ofOutcome cycles.size) ++ " circular dependency cycle(s)")
    (← ofOutcome (firstOf 10 cycles)).zipIdx.forM cycleLine

def orphansPart (analysis : Value) : Page Unit := do
  let orphans ← ofOutcome (analysis.fieldOrNull "orphaned_files")
  if orphans.isPresent then
    markdown "#### 📦 Orphaned Files"
    info ("Found " ++ toString (← ofOutcome orphans.size) ++ " file(s) with no dependencies")
    expander "View orphaned files"
    (← ofOutcome (firstOf 20 orphans)).forM fun path => text ("• " ++ path.display)

def coupledRow (item : Value) : Outcome Value := do
  return .record [("File", .text (← pathName (← item.require "file"))),
    ("Dependencies", ← item.require "dependencies"), ("Dependents", ← item.require "dependents"),
    ("Total Coupling", ← item.require "total_coupling")]

def coupledLine (item : Value) : Page Unit := do
  let name ← ofOutcome do pathName (← item.require "file")
  let total ← ofOutcome (item.require "total_coupling")
  text ("• " ++ name ++ ": " ++ total.display ++ " total coupling")

def coupledPart (analysis : Value) : Page Unit := do
  let coupled ← ofOutcome (analysis.fieldOrNull "highly_coupled_files")
  if coupled.isPresent then
    markdown "#### 🔗 Highly Coupled Files"
    info "Files with high coupling (many dependencies or dependents)"
    if (← get).tables then
      let rows ← ofOutcome do (← firstOf 15 coupled).mapM coupledRow
      if !rows.isEmpty then call "dataframe" [.list rows] [wide, ("hide_index", .bool true)]
    else
      info "Install pandas for table view: `pip install pandas`"
      (← ofOutcome (firstOf 15 coupled)).forM coupledLine

/-! ### Exports -/

def exportButton (label key : String) (write : Dependency.Graph → String)
    (handOut : String × String × String × String) : Page Unit := do
  if ← button label [wide, ("key", .text key)] then
    match (← get).graph with
    | some g =>
      let (title, fileName, mime, downloadKey) := handOut
      download title (.text (write g)) fileName mime [("key", .text downloadKey)]
    | none => return

def exports : Page Unit := do
  markdown "#### 💾 Export Dependency Map"
  columns (.int 4)
  exportButton "📄 Export JSON" "export_json" (Utf8.unixLines ·.json)
    ("📥 Download JSON", "dependency_map.json", "application/json", "dl_json")
  exportButton "🔄 Export DOT" "export_dot" (Utf8.unixLines ·.dot)
    ("📥 Download DOT", "dependency_map.dot", "text/plain", "dl_dot")
  exportButton "🌊 Export Mermaid" "export_mermaid" (Utf8.unixLines ·.mermaid)
    ("📥 Download Mermaid", "dependency_map.mmd", "text/plain", "dl_mermaid")
  exportButton "📝 Export Markdown" "export_md" (·.report)
    ("📥 Download Markdown", "dependency_map.md", "text/markdown", "dl_md")

/-! ### The tab -/

def findings (analysis map : Value) : Page Unit := do
  correlation map
  numbers analysis
  graphPart map
  cyclesPart analysis
  orphansPart analysis
  coupledPart analysis
  rule
  exports

def howTo : String :=
  join "\n" [
    "",
    "            **How to use Dependency Map:**",
    "            1. Go to **Source Selection** tab and select your source code",
    "            2. Go to **Generate** tab and click \"Generate Documentation\" (this will read your files)",
    "            3. Come back to this tab and click \"Analyze Dependencies\"",
    "            4. View the interactive dependency graph and analysis results",
    "            "]

def dependencyTab (provider : Value) : Page Unit := do
  markdown "### 🔗 Correlation & Dependency Analysis"
  let files ← known "source_files"
  if !files.isPresent then
    info ("👆 Please select and process source code first in the " ++
      "'Source Selection' and 'Generate' tabs.")
    markdown howTo
    return
  let number ← ofOutcome files.size
  columns (.list [.int 3, .int 1])
  info ("📂 " ++ toString number ++ " file(s) available for analysis")
  if ← button "🔍 Analyze Dependencies"
      [("type", .text "primary"), wide, ("key", .text "analyze_deps")] then
    withChoice provider "🔄 Initializing dependency analyzer..." (analyse provider)
      fun _ => pure ()
  let analysis ← known "dependency_analysis"
  if analysis.isPresent then findings analysis (← known "dependency_map_data")

end CodeScribe.Page
