import CodeScribe.Analysis.Dependency.Resolve

/-!
# The dependency graph

* `Graph.ofFiles` — the graph of source files.
-/

namespace CodeScribe.Dependency

/-- The index, the dependencies between indexed files, and what is used from outside. -/
structure Graph where
  index : Index := {}
  links : Table (List String) := []
  external : Table (List String) := []

def importsNamespaces (language : Language) : Bool :=
  language == .csharp || language == .vbnet || language == .fsharp

def contentOf (f : SourceFile) : List Char :=
  match f.content with
  | some (.text s) => s.toList
  | _ => []

/-- Whether a file's content can be searched: it is a text, or it does not count as given. -/
def canSearch (f : SourceFile) : Bool :=
  match f.content with
  | none | some (.text _) => true
  | some v => !v.isPresent

namespace Graph

/-- Whether an import is a namespace whose use is looked up in the content. -/
def byUsage (g : Graph) (language : Language) (text : String) : Bool :=
  importsNamespaces language && g.index.packages.has text

/-- The files that an import of a source stands for; a single file without a path is none. -/
def resolve (g : Graph) (language : Language) (source : String) (content : List Char)
    (text : String) : List String :=
  if g.byUsage language text then
    g.index.resolveUsage text source content
  else
    let found := g.index.resolveImport (some language) text
    if found == [""] then [] else found

/-- Enter an import of a source: links to the files it stands for, or else a use from outside.
An import that stands for nothing is dropped. -/
def addImport (language : Language) (source : String) (content : List Char) (g : Graph)
    (text : String) : Graph :=
  let found := (g.resolve language source content text).map SourceFile.normalText
  let inside := found.filter fun p => g.index.files.has p && p != source
  if found.isEmpty then g
  else if inside.isEmpty then { g with external := g.external.addText source text }
  else { g with links := inside.foldl (fun ls p => ls.addText source p) g.links }

/-- The imports of a file that are looked at: all of them, or those before the first one whose use
would have to be looked up in a content that cannot be searched. -/
def importsOf (g : Graph) (language : Language) (f : SourceFile) (entry : IndexedFile) :
    List String :=
  let imports := entry.facts.importsFor language
  if canSearch f then imports else imports.takeWhile fun text => !g.byUsage language text

def addFile (r : Readers) (g : Graph) (f : SourceFile) : Graph :=
  let path := pathOf f
  match r.languageOf? f, g.index.files.get? path with
  | some language, some entry =>
    (g.importsOf language f entry).foldl (addImport language path (contentOf f)) g
  | _, _ => g

def ofFiles (r : Readers) (files : List SourceFile) : Graph :=
  files.foldl (addFile r) { index := Index.ofFiles r files }

def canLookUp (f : SourceFile) : Bool := (f.language.getD .null).isKey

/-- What stops an analysis: a language that cannot be looked up. -/
def obstacle? (files : List SourceFile) : Option Fault :=
  (files.find? fun f => !canLookUp f).map fun f => .notKey (f.language.getD .null).kind

/-- What an analysis leaves behind when a language stops it: the index of the files before. -/
def stopped (r : Readers) (files : List SourceFile) : Graph :=
  { index := Index.ofFiles r (files.takeWhile canLookUp) }

/-! ### Edges -/

/-- The files that a file depends on, in ascending order. -/
def targets (g : Graph) (path : String) : List String := g.links.listOf path

def dependents (g : Graph) (path : String) : Nat := g.links.countP fun (_, ts) => ts.contains path

def edges (g : Graph) : List (String × String) :=
  g.links.flatMap fun (source, ts) => ts.map fun t => (source, t)

def paths (g : Graph) : List String := g.index.files.names

/-! ### Cycles -/

/-- What a search has seen: visited files, the files whose visit still runs, and closed walks in
the order in which they were found. -/
structure Search where
  visited : List String := []
  running : List String := []
  cycles : List (List String) := []

namespace Search

def enter (s : Search) (node : String) : Search :=
  { s with visited := node :: s.visited, running := node :: s.running }

/-- End the visit of a file, which has to be running. -/
def leave (s : Search) (node : String) : Outcome Search :=
  if s.running.contains node then .ok { s with running := s.running.erase node }
  else .error (.missingKey (.text node))

/-- Record the walk from a file on a path along the path and back; the file has to lie on the
path. -/
def close (s : Search) (path : List String) (next : String) : Outcome Search :=
  match path.idxOf? next with
  | some i => .ok { s with cycles := s.cycles ++ [path.drop i ++ [next]] }
  | none => .error (.notListed next)

/-- Look at a target of the file at the end of a path: a new one is visited, and a running one
closes a walk. -/
def look (visit : String → Search → Outcome Search) (path : List String) (s : Search)
    (next : String) : Outcome Search :=
  if !s.visited.contains next then visit next s
  else if s.running.contains next then s.close path next
  else .ok s

end Search

/-- Visit a file that comes behind a path, and everything new behind it, down to a depth. -/
def visit (g : Graph) : Nat → List String → String → Search → Outcome Search
  | 0, _, _, _ => .error .tooDeep
  | depth + 1, before, node, s => do
    let path := before ++ [node]
    let s ← (g.targets node).foldlM (Search.look (visit g depth path) path) (s.enter node)
    s.leave node

/-- Search from each indexed file in turn that is still new. -/
def search (g : Graph) : Outcome Search :=
  g.paths.foldlM (fun s node =>
    if s.visited.contains node then .ok s else visit g (g.paths.length + 1) [] node s) {}

def cycles (g : Graph) : List (List String) :=
  match g.search with
  | .ok s => s.cycles
  | .error _ => []

/-! ### Coupling -/

/-- How many files a file depends on, and how many depend on it. -/
structure Coupling where
  file : String
  dependencies : Nat
  dependents : Nat
deriving DecidableEq, Repr

def Coupling.total (c : Coupling) : Nat := c.dependencies + c.dependents

def coupling (g : Graph) (path : String) : Coupling :=
  ⟨path, (g.targets path).length, g.dependents path⟩

/-- The indexed files that depend on no file and that no file depends on. -/
def orphans (g : Graph) : List String :=
  g.paths.filter fun p => (g.coupling p).dependencies == 0 && (g.coupling p).dependents == 0

/-- The indexed files with at least so many edges, those with most edges first. -/
def coupled (g : Graph) (threshold : Int) : List Coupling :=
  ((g.paths.map g.coupling).filter fun c => threshold ≤ c.total).mergeSort
    fun a b => b.total ≤ a.total

end Graph

end CodeScribe.Dependency
