import CodeScribe.Data.Table
import CodeScribe.Source.Block
import CodeScribe.Source.Declaration

/-!
# Endpoints of C# controllers

* `Outline.ofSource` — the outline of a C# source.
-/

namespace CodeScribe.Catalog

open Pattern

/-- A way into a controller; a request handed in may leave any part open. -/
structure Endpoint where
  controller : Option String
  method : Option String
  verbs : Option (List String)
  route : Option String

/-- A class that offers endpoints, and the route in front of theirs. -/
structure Controller where
  name : String
  route : String

structure Outline where
  controllers : List Controller := []
  endpoints : List Endpoint := []
  classes : List String := []
  bodies : Table (List Char) := []

structure Method where
  name : String
  attributes : List Char
  body : List Char

/-! ### Attributes -/

/-- An attribute in brackets; brackets inside quotes do not close it. -/
def attributePattern : Pattern :=
  char '[' ++ plus (one (noneOf "]\"'") <|>
    char '"' ++ span (· != '"') ++ char '"' <|> char '\'' ++ span (· != '\'') ++ char '\'') ++
    char ']'

def attributesPattern : Pattern := group 1 (star (attributePattern ++ blanks))

def verbWords : List String :=
  ["HttpGet", "HttpPost", "HttpPut", "HttpDelete", "HttpPatch", "HttpHead", "HttpOptions"]

/-- An attribute that names a kind of request. -/
def verbPattern : Pattern := char '[' ++ group 1 (wordsAnyCase verbWords) ++ wordEdge

def routePattern : Pattern :=
  litAnyCase "[Route(" ++ blanks ++ char '"' ++ group 1 (span1 (· != '"')) ++ char '"' ++ blanks ++
    lit ")]"

/-- An attribute that names a kind of request and gives a route. -/
def verbRoutePattern : Pattern :=
  char '[' ++ wordsAnyCase verbWords ++ char '(' ++ blanks ++ char '"' ++
    group 1 (span (· != '"')) ++ char '"' ++ blanks ++ lit ")]"

/-- The kinds of request that attributes name, in ascending order. -/
def verbsIn (attributes : List Char) : List String :=
  Text.sortDistinct ((verbPattern.findGroup 1 attributes).map fun w => Text.upper (Text.drop 4 w))

def routeIn (attributes : List Char) : String :=
  match routePattern.find? attributes with
  | some m => m.get 1
  | none => ((verbRoutePattern.find? attributes).map (·.get 1)).getD ""

/-- A route below another. -/
def joinRoutes (base sub : String) : String :=
  if base == "" then sub
  else if sub == "" then base
  else Text.trimRightOf (· == '/') base ++ "/" ++ Text.trimLeftOf (· == '/') sub

/-- A route with the name of its class put in place of the placeholder. -/
def resolveRoute (route className : String) : String :=
  if !Text.contains (Text.lower route) "[controller]" then route
  else
    let name := if Text.endsWith (Text.lower className) "controller" then
      Text.dropRight "Controller".length className else className
    let token := if name == "" then Text.lower className else Text.lower name
    String.ofList ((litAnyCase "[controller]").replaceAll (fun _ => token.toList) route.toList)

/-! ### Classes and methods -/

def classPattern : Pattern :=
  attributesPattern ++
    Declaration.modifier ["public", "private", "internal", "protected", "abstract", "sealed",
      "static", "partial"] ++
    lit "class" ++ blanks1 ++ group 2 name ++
    opt (blanks ++ char ':' ++ blanks ++
      span1 (fun c => Declaration.isListChar c || among "<>" c)) ++ blanks ++ char '{'

/-- The head of a method with its attributes; an access word must be there. -/
def methodPattern : Pattern :=
  attributesPattern ++
    group 2 (words ["public", "private", "internal", "protected"] ++
      span (fun c => c != '{' && c != ';') ++ char '{')

def namePattern : Pattern := group 1 name ++ blanks ++ char '('

def methodsIn (body : List Char) : List Method :=
  (methodPattern.findAll body).filterMap fun m =>
    (namePattern.find? ((m.chars? 2).getD [])).map fun n =>
      ⟨n.get 1, (m.chars? 1).getD [], Declaration.bodyOf body m⟩

def isController (className : String) (attributes : List Char) : Bool :=
  Text.endsWith className "Controller" || Chars.contains attributes "ApiController".toList

/-- The name under which the body of an endpoint is kept. -/
def bodyKey (controller method : Option String) : String :=
  controller.getD "None" ++ "." ++ method.getD "None"

def endpointsIn (className route : String) (body : List Char) : List (Endpoint × List Char) :=
  (methodsIn body).filterMap fun m =>
    let verbs := verbsIn m.attributes
    if verbs.isEmpty then none
    else some (⟨some className, some m.name, some verbs,
      some (joinRoutes route (routeIn m.attributes))⟩, m.body)

def Outline.addClass (code : List Char) (o : Outline) (m : Match) : Outline :=
  let className := m.get 2
  let attributes := (m.chars? 1).getD []
  let o := { o with classes := o.classes ++ [className] }
  let body := Declaration.bodyOf code m
  if body.isEmpty then o
  else
    let route := resolveRoute (routeIn attributes) className
    let found := endpointsIn className route body
    { o with
      controllers := o.controllers ++
        (if isController className attributes then [⟨className, route⟩] else [])
      endpoints := o.endpoints ++ found.map (·.1)
      bodies := found.foldl (fun t (e, b) => t.set (bodyKey e.controller e.method) b) o.bodies }

def Outline.ofSource (code : List Char) : Outline :=
  (classPattern.findAll code).foldl (addClass code) {}

/-! ### As data -/

def verbsValue : Option (List String) → Value
  | some vs => .texts vs
  | none => .null

def Endpoint.fields (e : Endpoint) : List (String × Value) :=
  [("controller", .optText e.controller), ("method", .optText e.method),
    ("http_verbs", verbsValue e.verbs), ("route", .optText e.route)]

def Endpoint.toValue (e : Endpoint) : Value := .record e.fields

def Controller.toValue (c : Controller) : Value :=
  .record [("name", .text c.name), ("route", .text c.route)]

def Outline.toValue (o : Outline) : Value :=
  .record [("controllers", .list (o.controllers.map Controller.toValue)),
    ("endpoints", .list (o.endpoints.map Endpoint.toValue)), ("classes", .texts o.classes),
    ("endpoint_bodies",
      .record (o.bodies.map fun (key, body) => (key, .text (String.ofList body))))]

end CodeScribe.Catalog
