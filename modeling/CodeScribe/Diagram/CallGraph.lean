import CodeScribe.Source.CSharp

/-!
# Calls inside C# classes

* `CallGraph.mermaid` — the drawing of a graph.
-/

namespace CodeScribe

open Pattern Declaration

structure CallGraph where
  className : String
  edges : List (String × String)

namespace CallGraph

/-- Words that look like calls or methods when followed by parentheses. -/
def controlWords : List String :=
  ["if", "for", "while", "switch", "catch", "using", "return", "new", "throw", "lock", "foreach",
    "await"]

structure Method where
  name : String
  body : List Char

/-- A word followed by a parenthesis. -/
def callPattern : Pattern := wordEdge ++ group 1 name ++ blanks ++ char '('

def methodsIn (className : String) (body : List Char) : List Method :=
  (CSharp.methodPattern.findAll body).filterMap fun m =>
    let name := m.get 1
    let block := bodyOf body m
    if controlWords.contains name || name == className || block.isEmpty then none
    else some ⟨name, block⟩

/-- The methods, of the given names, that a body calls, in ascending order. -/
def callsIn (names : List String) (body : List Char) : List String :=
  Text.sortDistinct ((callPattern.findGroup 1 body).filter fun n =>
    names.contains n && !controlWords.contains n)

def edgesOf (methods : List Method) : List (String × String) :=
  let names := methods.map (·.name)
  methods.flatMap fun m => (callsIn names m.body).map fun callee => (m.name, callee)

def ofSource (code : List Char) : List CallGraph :=
  ((CSharp.classPattern.findAll code).map fun m =>
    (⟨m.get 1, edgesOf (methodsIn (m.get 1) (bodyOf code m))⟩ : CallGraph)).filter
      fun g => !g.edges.isEmpty

/-- The identifier of a node: fifty characters at most, word characters only. -/
def nodeId (label : String) : String :=
  let id := String.ofList ((label.toList.map fun c => if Text.isWord c then c else '_').take 50)
  if id.isEmpty then "node" else id

def edgeLine (className : String) (edge : String × String) : String :=
  let node (method : String) : String :=
    let label := className ++ "." ++ method
    nodeId label ++ "[\"" ++ label ++ "\"]"
  "  " ++ node edge.1 ++ " --> " ++ node edge.2

def mermaid (g : CallGraph) : String :=
  Text.join "\n" (["```mermaid", "graph TD"] ++ g.edges.map (edgeLine g.className) ++ ["```"])

def toValue (g : CallGraph) : Value :=
  .record [("class", .text g.className),
    ("edges", .list (g.edges.map fun e => .texts [e.1, e.2])), ("mermaid", .text g.mermaid)]

end CallGraph

end CodeScribe
