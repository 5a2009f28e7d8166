import CodeScribe.Analysis.Dependency.Graph
import CodeScribe.Catalog.Sequence

/-!
# The service catalog

* `ServiceCatalog.ofFiles` — the catalog of source files, with the dependency graph if there is
  one.
-/

namespace CodeScribe.Catalog

structure Flow where
  endpoint : Endpoint
  steps : List String
  messages : List String

structure SpecRow where
  endpoint : Endpoint
  components : List String
  steps : List String

structure Drawing where
  endpoint : Endpoint
  components : List String
  mermaid : String

structure ServiceCatalog where
  controllers : List Controller
  services : List String
  interfaces : List String
  endpoints : List Endpoint
  flowGraph : Option String
  dependencies : Table (List String)
  flows : List Flow
  spec : List SpecRow
  drawings : List Drawing

/-! ### Endpoints -/

def flowOf (bodies : Table (List Char)) (consumers : Table (List Consumer)) (e : Endpoint) :
    Flow :=
  let (steps, messages) := stepsOf ((bodies.get? (bodyKey e.controller e.method)).getD [])
  let matched := messages.flatMap fun m => (consumers.get? (shortType m)).getD []
  ⟨e, steps ++ matched.flatMap consumerSteps, messages⟩

def stepsFor (flows : List Flow) (e : Endpoint) : List String :=
  ((flows.reverse.find? fun f =>
    bodyKey f.endpoint.controller f.endpoint.method == bodyKey e.controller e.method).map
      (·.steps)).getD []

def dependenciesOf (t : Table (List String)) (controller : Option String) : List String :=
  ((Sequence.given? controller).map t.listOf).getD []

def specRow (dependencies : Table (List String)) (flows : List Flow) (e : Endpoint) : SpecRow :=
  ⟨e, (Sequence.given? e.controller).toList ++
    (dependenciesOf dependencies e.controller).filter (· != ""), stepsFor flows e⟩

def requestLabel (e : Endpoint) : String :=
  let label := Text.trim (Text.join ", " (e.verbs.getD []) ++ " " ++ e.route.getD "")
  if label == "" then "Request" else label

def drawingOf (dependencies : Table (List String)) (flows : List Flow) (e : Endpoint) : Drawing :=
  let deps := dependenciesOf dependencies e.controller
  ⟨{ e with route := some (e.route.getD "") }, (Sequence.given? e.controller).toList ++ deps,
    Sequence.render e.controller deps (requestLabel e) (stepsFor flows e)⟩

/-! ### Controllers and the components they depend on -/

def isComponent (className : String) : Bool :=
  ["Service", "Repository", "Consumer", "Handler"].any (Text.endsWith className) ||
    Text.startsWith className "I"

/-- The classes of each source, by path. -/
abbrev ClassMap := Table (List String)

/-- The path of the last source that declares a controller. -/
def controllerFile (classes : ClassMap) (name : String) : Option String :=
  if Text.endsWith name "Controller" then
    (classes.reverse.find? fun (_, cs) => cs.contains name).map (·.1)
  else none

/-- The components that a controller's source depends on, with repetitions. -/
def componentsOf (classes : ClassMap) (targets : String → List String) (name : String) :
    List String :=
  match controllerFile classes name with
  | some path =>
    if path == "" then []
    else (targets path).flatMap fun t => (classes.listOf t).filter isComponent
  | none => []

def controllerDependencies (classes : ClassMap) (targets : String → List String)
    (controllers : List Controller) : Table (List String) :=
  controllers.foldl (fun t c =>
    (componentsOf classes targets c.name).foldl (fun t d =>
      t.alter c.name fun ds => if (ds.getD []).contains d then ds.getD [] else ds.getD [] ++ [d]) t)
    []

def componentGraph (classes : ClassMap) (targets : String → List String)
    (controllers : List Controller) : Option String :=
  let edges := (controllers.flatMap fun c =>
    (componentsOf classes targets c.name).map fun d => (c.name, d))
  let lines := (edges.foldl (fun (seen, out) (c, d) =>
    let key := Sequence.partId c ++ "->" ++ Sequence.partId d
    if seen.contains key then (seen, out)
    else (key :: seen, ("  " ++ Sequence.partId c ++ "[\"" ++ c ++ "\"] --> " ++
      Sequence.partId d ++ "[\"" ++ d ++ "\"]") :: out))
    (([], []) : List String × List String)).2.reverse
  if lines.isEmpty then none
  else some (Text.join "\n" (["```mermaid", "graph LR"] ++ lines ++ ["```"]))

/-! ### The catalog -/

def isCSharp (f : SourceFile) : Bool :=
  match f.language with
  | some (.text s) => Text.lower s == "csharp"
  | _ => false

/-- The text of a file, empty if there is none. -/
def contentText (f : SourceFile) : String :=
  match f.content with
  | some (.text s) => s
  | _ => ""

/-- The outlines of the C# sources, by path; a source without a path stands under the empty one. -/
def outlines (files : List SourceFile) : List (String × Outline) :=
  (files.filter isCSharp).map fun f =>
    (f.place.text?.getD "", Outline.ofSource (contentText f).toList)

def ServiceCatalog.ofFiles (graph : Option Dependency.Graph) (files : List SourceFile) :
    ServiceCatalog :=
  let outlines := outlines files
  let all := outlines.map (·.2)
  let controllers := all.flatMap (·.controllers)
  let endpoints := all.flatMap (·.endpoints)
  let classes := all.flatMap (·.classes)
  let classMap := outlines.foldl (fun t (path, o) => Table.set t path o.classes) ([] : ClassMap)
  let bodies := (all.flatMap (·.bodies)).foldl (fun t (key, body) => Table.set t key body)
    ([] : Table (List Char))
  let consumers := consumersByMessage ((files.filter isCSharp).map contentText)
  let targets (path : String) : List String := (graph.map (·.targets path)).getD []
  let dependencies := controllerDependencies classMap targets controllers
  let flows := endpoints.map (flowOf bodies consumers)
  { controllers, endpoints, dependencies, flows
    services := Text.sortDistinct
      (classes.filter fun c => Text.endsWith c "Service" || Text.endsWith c "Repository")
    interfaces := Text.sortDistinct
      (classes.filter fun c => Text.startsWith c "I" && c.length > 1)
    flowGraph := componentGraph classMap targets controllers
    spec := endpoints.map (specRow dependencies flows)
    drawings := endpoints.map (drawingOf dependencies flows) }

/-! ### As data -/

def Flow.toValue (f : Flow) : Value :=
  .record (f.endpoint.fields ++ [("steps", .texts f.steps), ("messages", .texts f.messages)])

def SpecRow.toValue (r : SpecRow) : Value :=
  .record (r.endpoint.fields ++ [("components", .texts r.components), ("steps", .texts r.steps)])

def Drawing.toValue (d : Drawing) : Value :=
  .record (d.endpoint.fields ++
    [("components", .texts d.components), ("mermaid", .text d.mermaid)])

def ServiceCatalog.toValue (c : ServiceCatalog) : Value :=
  .record [("controllers", .list (c.controllers.map Controller.toValue)),
    ("services", .texts c.services), ("interfaces", .texts c.interfaces),
    ("endpoints", .list (c.endpoints.map Endpoint.toValue)),
    ("flow_graph", .optText c.flowGraph),
    ("controller_dependencies",
      .record (c.dependencies.map fun (name, ds) => (name, .texts ds))),
    ("endpoint_flows", .list (c.flows.map Flow.toValue)),
    ("api_spec", .list (c.spec.map SpecRow.toValue)),
    ("endpoint_sequence_diagrams", .list (c.drawings.map Drawing.toValue))]

end CodeScribe.Catalog
