import CodeScribe.Page.Basic

/-!
# Documents on the page
-/

namespace CodeScribe.Page

open Text Pattern

/-! ### The code of a diagram -/

/-- Whether a character takes no room. -/
def isZeroWidth (c : Char) : Bool :=
  c == '\u200B' || c == '\u200C' || c == '\u200D' || c == '\uFEFF'

def fence : Pattern := lit "```"

def openingFence : Pattern := textStart ++ blanks ++ lit "```mermaid" ++ blanks

/-- A mark on lines of its own. -/
def fenceLine : Pattern := lineStart ++ blanks ++ fence ++ blanks ++ lineEnd

def closingFence : Pattern := blanks ++ fence ++ blanks ++ textEnd

def indents (c : Char) : Bool := c == ' ' || c == '\t'

/-- What two texts have in common in front. -/
def commonStart : List Char → List Char → List Char
  | a :: as, b :: bs => if a == b then a :: commonStart as bs else []
  | _, _ => []

def margin (lines : List (List Char)) : List Char :=
  match (lines.filter fun l => !l.all indents).map (·.takeWhile indents) with
  | [] => []
  | first :: rest => rest.foldl commonStart first

/-- Lines moved to the left as far as they go together; blank lines become empty. -/
def dedent (s : String) : String :=
  let lines := Chars.splitOn ['\n'] s.toList
  let width := (margin lines).length
  join "\n" (lines.map fun l => if l.all indents then "" else String.ofList (l.drop width))

def diagramWords : List String :=
  ["sequenceDiagram", "graph", "flowchart", "classDiagram", "stateDiagram", "stateDiagram-v2",
    "erDiagram", "journey", "gantt", "pie", "mindmap", "timeline", "quadrantChart", "C4Context",
    "C4Container", "C4Component", "C4Dynamic", "requirementDiagram", "gitGraph", "sankey-beta",
    "xychart-beta", "block-beta"]

def startsDiagram (line : String) : Bool := diagramWords.any (startsWith (trim line))

/-- The lines from the start of the diagram on; all lines if it has none. -/
def fromStart (lines : List String) : List String :=
  match lines.dropWhile (!startsDiagram ·) with
  | [] => lines
  | found => found

/-- The code of a diagram without what does not belong to it. -/
def cleanDiagram (s : String) : String :=
  let s := replace (replace s "\r\n" "\n") "\r" "\n"
  let cs := s.toList.filter (!isZeroWidth ·)
  let cs := closingFence.removeAll (fenceLine.removeAll (openingFence.removeAll cs))
  let s := trim (dedent (String.ofList cs))
  if s == "" then "" else trim (join "\n" (fromStart ((splitOn s "\n").map trimRight)))

def betweenFences (part : List Char) : String :=
  let cs := (lit "```mermaid" ++ blanks).removeAll part
  String.ofList ((fence ++ blanks ++ lineEnd).removeAll cs)

/-! ### Documents -/

def block : Pattern := lit "```mermaid" ++ spanLazy (fun _ => true) ++ fence

def documentDiagram (s : String) : Page Unit := do
  if (← get).diagrams == .missing then
    diagramHint
    diagramCode s
  else
    let shown ← attempt (if s == "" then throw (.fault .emptyDiagram) else diagram s)
    match shown with
    | .ok _ => return
    | .error fault => undrawn fault s

/-- A part of a document: a diagram or text. -/
def documentPart (part : List Char) : Page Unit :=
  let s := trim (String.ofList part)
  if startsWith s "```mermaid" then documentDiagram (cleanDiagram (betweenFences part))
  else if s == "" then pure () else markdown (String.ofList part)

def document (s : String) : Page Unit := (block.splitKeeping s.toList).forM documentPart

end CodeScribe.Page
