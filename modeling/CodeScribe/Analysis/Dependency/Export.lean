import CodeScribe.Analysis.Dependency.Graph
import CodeScribe.Data.Json
import CodeScribe.Diagram.Mermaid

/-!
# Texts of dependency graphs

* `Graph.dot`, `Graph.mermaid` — drawings;
* `Graph.report` — a report with cycles, orphans, coupling and a small drawing.
-/

namespace CodeScribe.Dependency.Graph

/-! ### As data -/

/-- The first methods of a file's classes. -/
def methodNames (f : IndexedFile) : List String :=
  (f.facts.classMethods.flatMap fun (c, ms) => ms.map fun m => c ++ "." ++ m).take 20

def nodeValue (g : Graph) (path : String) (f : IndexedFile) : Value :=
  let coupling := g.coupling path
  .record [("id", .text path), ("path", .text path), ("language", .text f.language.id),
    ("package", .optText f.home), ("classes", .texts (f.types.map (·.name))),
    ("methods", .texts (methodNames f)), ("dependency_count", .nat coupling.dependencies),
    ("dependent_count", .nat coupling.dependents)]

def listsValue (t : Table (List String)) : Value :=
  .record (t.map fun (name, ss) => (name, .texts ss))

/-- Nodes, edges and uses from outside. -/
def mapFields (g : Graph) : List (String × Value) :=
  [("nodes", .list (g.index.files.map fun (path, f) => g.nodeValue path f)),
    ("edges", .list (g.edges.map fun (s, t) =>
      .record [("source", .text s), ("target", .text t), ("type", .text "internal")])),
    ("external_dependencies", listsValue g.external)]

def Coupling.toValue (c : Coupling) : Value :=
  .record [("file", .text c.file), ("dependencies", .nat c.dependencies),
    ("dependents", .nat c.dependents), ("total_coupling", .nat c.total)]

def coupledValue (g : Graph) (threshold : Int) : Value :=
  .list ((g.coupled threshold).map Coupling.toValue)

/-- The coupling from which on a file is reported. -/
def defaultThreshold : Int := 5

def analysisFields (g : Graph) : List (String × Value) :=
  [("file_count", .nat g.index.files.length), ("class_count", .nat g.index.types.length),
    ("dependency_count", .nat g.links.total),
    ("external_dependency_count", .nat g.external.total),
    ("circular_dependencies", .list (g.cycles.map Value.texts)),
    ("orphaned_files", .texts g.orphans),
    ("highly_coupled_files", g.coupledValue defaultThreshold)]

def mapValue (g : Graph) : Value := .record g.mapFields

def toValue (g : Graph) : Value :=
  .record (("dependency_map", g.mapValue) :: g.analysisFields)

/-- The whole analysis as a data text. -/
def json (g : Graph) : String :=
  Json.render (.record (g.mapFields ++ [("analysis", .record g.analysisFields)]))

/-! ### Drawings -/

/-- The identifier of a path in a drawing with quoted identifiers. -/
def dotId (path : String) : String :=
  String.ofList (path.toList.map fun c => if c == '/' || c == '\\' || c == '.' then '_' else c)

def dotNode (path : String) (f : IndexedFile) : String :=
  let package := match f.home with
    | some p => "\\n(" ++ p ++ ")"
    | none => ""
  "  \"" ++ dotId path ++ "\" [label=\"" ++ (Path.ofString path).name ++ package ++ "\"];"

/-- The drawing with quoted identifiers. -/
def dot (g : Graph) : String :=
  Text.join "\n" (["digraph Dependencies \x7b", "  rankdir=LR;",
      "  node [shape=box, style=rounded];", ""] ++
    g.index.files.map (fun (path, f) => dotNode path f) ++ [""] ++
    g.edges.map (fun (s, t) => "  \"" ++ dotId s ++ "\" -> \"" ++ dotId t ++ "\";") ++ ["\x7d"])

/-- The label of a file: its name, and its first method or type.  The name of its folder stands
in front if asked for. -/
def displayLabel (g : Graph) (path : String) (withFolder : Bool) : String :=
  let normal := SourceFile.normalText path
  let p := Path.ofString normal
  let name := if p.name == "" then normal else p.name
  let name := if withFolder && p.parent.text != "." then p.parent.name ++ "/" ++ name else name
  match g.index.files.get? normal with
  | none => name
  | some f =>
    let method? := f.facts.classMethods.findSome? fun (c, ms) => ms.head?.map fun m => c ++ "." ++ m
    match method?, f.types.head? with
    | some m, _ => name ++ " / " ++ m
    | none, some t => name ++ " / " ++ t.name
    | none, none => name

def fileName (path : String) : String := (Path.ofString (SourceFile.normalText path)).name

/-- A node with its label; files of one name are told apart by their folders. -/
def mermaidNode (g : Graph) (path : String) : String :=
  let shared := (g.paths.filter fun p => fileName p == fileName path).length > 1
  Mermaid.node (Mermaid.nodeId path) (Mermaid.label 120 (g.displayLabel path shared))

def firstOfEach (lines : List (String × String)) : List String :=
  (lines.foldl (fun (seen, kept) (key, line) =>
    if seen.contains key then (seen, kept) else (key :: seen, line :: kept))
    (([], []) : List String × List String)).2.reverse

def edgeLines (g : Graph) : List String :=
  firstOfEach (g.edges.map fun (s, t) =>
    (Mermaid.nodeId s ++ "->" ++ Mermaid.nodeId t,
      "  " ++ g.mermaidNode s ++ " --> " ++ g.mermaidNode t))

def mermaid (g : Graph) : String := Text.join "\n" ("graph LR" :: g.edgeLines)

/-- A drawing for a document while it grows: the keys of its edges, their lines, and how many there
are. -/
structure Sketch where
  keys : List String := []
  lines : List String := []
  count : Nat := 0
  counted : count = lines.length := by rfl

namespace Sketch

/-- Whether a sketch has as many edges as a limit allows. -/
def isFull (limit : Int) (sk : Sketch) : Bool := limit ≤ sk.count

/-- Draw the line of an edge, unless an edge with its key was drawn before. -/
def draw (sk : Sketch) (edge : String × String) : Sketch :=
  if sk.keys.contains edge.1 then sk
  else
    { keys := edge.1 :: sk.keys, lines := sk.lines ++ [edge.2], count := sk.count + 1
      counted := by simp [sk.counted] }

def drawUpTo (limit : Int) : Sketch → List (String × String) → Sketch
  | sk, [] => sk
  | sk, edge :: edges => if sk.isFull limit then sk else drawUpTo limit (sk.draw edge) edges

end Sketch

def keyedLine (g : Graph) (source target : String) : String × String :=
  (Mermaid.nodeId source ++ "->" ++ Mermaid.nodeId target,
    "  " ++ g.mermaidNode source ++ " --> " ++ g.mermaidNode target)

def sketchRows (g : Graph) (limit : Int) : Sketch → Table (List String) → Sketch
  | sk, [] => sk
  | sk, (source, targets) :: rows =>
    let sk := sk.drawUpTo limit (targets.map (g.keyedLine source))
    if sk.isFull limit then sk else sketchRows g limit sk rows

/-- The drawing of the first edges for a document, empty if there are none. -/
def mermaidBlock (g : Graph) (limit : Int) : String :=
  let sk := g.sketchRows limit {} g.links
  if sk.count == 0 then ""
  else Text.join "\n" (["```mermaid", "graph LR"] ++ sk.lines ++ ["```"])

/-! ### Report -/

def unlessEmpty (head : List String) (lines : List String) : List String :=
  if lines.isEmpty then [] else head ++ lines ++ ["\n"]

def reportNode (path : String) : String :=
  Mermaid.node (Mermaid.shortId path) (Mermaid.label 40 (Path.ofString path).name)

/-- The edges of the small drawing: five targets of each of the first twenty sources. -/
def reportEdges (g : Graph) : List String :=
  firstOfEach ((g.links.take 20).flatMap fun (s, ts) => (ts.take 5).map fun t =>
    (Mermaid.shortId s ++ "->" ++ Mermaid.shortId t,
      "  " ++ reportNode s ++ " --> " ++ reportNode t ++ "\n"))

def report (g : Graph) : String :=
  String.join (
    ["# Dependency Map Analysis\n",
      "**Total Files:** " ++ toString g.index.files.length ++ "\n",
      "**Total Classes:** " ++ toString g.index.types.length ++ "\n",
      "**Internal Dependencies:** " ++ toString g.links.total ++ "\n",
      "**External Dependencies:** " ++ toString g.external.total ++ "\n\n"] ++
    unlessEmpty ["## ⚠️ Circular Dependencies\n\n"]
      (g.cycles.map fun c => "- " ++ Text.join " → " c ++ "\n") ++
    unlessEmpty ["## 📦 Orphaned Files\n\n", "Files with no dependencies:\n\n"]
      (g.orphans.map fun p => "- `" ++ p ++ "`\n") ++
    unlessEmpty ["## 🔗 Highly Coupled Files\n\n",
        "| File | Dependencies | Dependents | Total Coupling |\n",
        "|------|--------------|------------|----------------|\n"]
      (((g.coupled defaultThreshold).take 10).map fun c =>
        "| `" ++ c.file ++ "` | " ++ toString c.dependencies ++ " | " ++ toString c.dependents ++
          " | " ++ toString c.total ++ " |\n") ++
    ["## Dependency Graph\n\n", "```mermaid\n", "graph TD\n"] ++ g.reportEdges ++ ["```\n"])

end CodeScribe.Dependency.Graph
