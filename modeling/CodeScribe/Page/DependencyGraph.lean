import CodeScribe.Diagram.Mermaid
import CodeScribe.Source.File

/-!
# The dependency graph on the page

* `Page.nodeNames` — the names of nodes in the drawing, by identifier and by path.
-/

namespace CodeScribe.Page

open Value

def shownEdges : Nat := 100

/-- Names in a drawing, by what they stand for. -/
abbrev Names := List (Value × Value)

def nameOf? (names : Names) (key : Value) : Option String := (lookup key names).bind (·.text?)

def normal (v : Value) : Value := .text (SourceFile.normalPath v)

/-- Give a node its name: under its identifier, normal or not, and under its path. -/
def addNode (names : Names) (node : Value) : Outcome Names := do
  let id ← node.require "id"
  let path ← node.require "path"
  let name : Value := .text (Mermaid.shortId (SourceFile.normalPath path))
  return insert (← path.asKey) name (insert (← id.asKey) name (insert (normal id) name names))

def nodeNames (nodes : List Value) : Outcome Names := nodes.foldlM addNode []

def endsOf (edge : Value) : Outcome (Value × Value) := do
  return (normal (← edge.require "source"), normal (← edge.require "target"))

def mentioned (names : Names) (edges : List Value) : Outcome (List Value) := do
  let pairs ← edges.mapM endsOf
  return (pairs.flatMap fun (s, t) => [s, t]).filter fun v => (nameOf? names v).isSome

/-- The names of the nodes that edges mention; of all nodes, if none is mentioned. -/
def mentionedNames (names : Names) (nodes edges : List Value) : Outcome Names := do
  let found ← mentioned names edges
  nodes.foldlM (fun kept node => do
    let id ← node.require "id"
    if found.isEmpty || found.any (normal id).same then
      match nameOf? names (normal id) with
      | some name => return insert id (.text name) (insert (normal id) (.text name) kept)
      | none => return kept
    else return kept) []

def stemOf (path : String) : String :=
  let p := Path.ofString path
  if p.stem != "" then p.stem else p.name

def lastPart (v : Value) : String := Text.lastPiece (Text.lastPiece v.display "/") "\\"

def edgeLabels (source target : Value) : String × String :=
  match source, target with
  | .text s, .text t => (Mermaid.label 40 (stemOf s), Mermaid.label 40 (stemOf t))
  | s, t => (Mermaid.label 40 (lastPart s), Mermaid.label 40 (lastPart t))

/-- The lines of a drawing, with the pairs that were drawn. -/
structure Drawing where
  pairs : List (String × String) := []
  text : String := "graph TD\n"

def drawEdge (names : Names) (d : Drawing) (edge : Value) : Outcome Drawing := do
  let (s, t) ← endsOf edge
  match nameOf? names s, nameOf? names t with
  | some a, some b =>
    if d.pairs.contains (a, b) then return d
    let labels := edgeLabels (← edge.require "source") (← edge.require "target")
    return ⟨d.pairs ++ [(a, b)], d.text ++ "  " ++ Mermaid.node a labels.1 ++ " --> " ++
      Mermaid.node b labels.2 ++ "\n"⟩
  | _, _ => return d

def dependencyDrawing (map : Value) : Outcome (Option String) := do
  if !map.isPresent then return none
  let edges ← map.fieldOr "edges" (.list [])
  if (← edges.size) == 0 then return none
  let nodes ← (← map.require "nodes").each
  let names ← nodeNames nodes
  let edges := (← edges.each).take shownEdges
  let names ← mentionedNames names nodes edges
  return some (← edges.foldlM (drawEdge names) {}).text

end CodeScribe.Page
