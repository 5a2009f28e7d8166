import CodeScribe.Data.Record
import CodeScribe.Text.Pattern

/-!
# The sequence drawing of an application

* `AppSequence.flowMessages` — the messages and consumers that steps tell;
* `AppSequence.draw` — the drawing of a catalog and message flows, if there is something to draw.
-/

namespace CodeScribe.AppSequence

open Pattern

/-! ### Names and texts -/

/-- The identifier of a participant: fifty word characters, not starting with a digit. -/
def partId (v : Value) : String :=
  let text := if v.isPresent then v.display else ""
  let cs := (text.toList.map fun c => if Text.isWord c then c else '_').take 50
  match cs with
  | [] => "node"
  | c :: _ => if Text.isDecimal c then "node_" ++ String.ofList cs else String.ofList cs

/-- White space made single. -/
def squeeze : List Char → List Char
  | a :: b :: rest =>
    if Text.isBlank a then
      if Text.isBlank b then squeeze (b :: rest) else ' ' :: squeeze (b :: rest)
    else a :: squeeze (b :: rest)
  | [a] => if Text.isBlank a then [' '] else [a]
  | [] => []

/-- A text that can stand behind an arrow. -/
def message (label : String) : String :=
  let cs := Chars.trim (label.toList.map fun c => if c == '\n' then ' ' else c)
  let cs := cs.filter (noneOf "[]\"<>`|:")
  let cs := cs.map fun c => if c == '/' || c == '\\' then ' ' else c
  let cs := Chars.trim (squeeze cs)
  if cs.isEmpty then "Message" else String.ofList cs

/-! ### Steps -/

def messagePattern : Pattern :=
  lit "Publish/Send" ++ blanks1 ++ group 1 (span1 fun c => !Text.isBlank c)

def consumerPattern : Pattern :=
  lit "Consumer" ++ blanks1 ++ group 1 (span1 fun c => !Text.isBlank c) ++ blanks1 ++
    lit "reads queue"

def flowMessages (steps : List String) : List String × List String :=
  (steps.filterMap fun s => (messagePattern.find? s.toList).map (·.get 1),
    steps.filterMap fun s => (consumerPattern.find? s.toList).map (·.get 1))

def stepsOf (v : Value) : Outcome (List String) := do
  let items ← (v.orElse (.list [])).each
  (items.filter (·.isPresent)).mapM (·.asText)

/-! ### The drawing -/

def first : Value → Outcome Value
  | .list (v :: _) => .ok v
  | .list [] => .error .outOfRange
  | .text s => match s.toList with
    | c :: _ => .ok (.text (String.singleton c))
    | [] => .error .outOfRange
  | .map entries => match Value.lookup (.int 0) entries with
    | some v => .ok v
    | none => .error (.missingKey (.int 0))
  | v => .error (.notIndexable v.kind)

/-- A list under a key that may be missing or empty. -/
def listUnder (v : Value) (key : String) : Outcome Value := do
  return (← v.fieldOr key (.list [])).orElse (.list [])

def flowKey (v : Value) : Outcome String := do
  return (← v.fieldOrNull "controller").display ++ "." ++ (← v.fieldOrNull "method").display

structure FlowFacts where
  key : String
  messages : List String
  consumers : List String

def flowFacts (v : Value) : Outcome FlowFacts := do
  let key ← flowKey v
  let (messages, consumers) := flowMessages (← stepsOf (← v.fieldOr "steps" (.list [])))
  return ⟨key, messages, consumers⟩

def queueOf : List Value → Outcome (Value × Value)
  | [] => .ok (.null, .null)
  | flow :: rest => do
    let queue ← flow.fieldOrNull "queue"
    if queue.isPresent then
      let consumers ← flow.fieldOrNull "consumers"
      let consumer ← if consumers.isPresent then first consumers else pure .null
      return (queue, consumer)
    else queueOf rest

/-- The first dependency with one of some endings. -/
def pick (endings : List String) : List Value → Outcome Value
  | [] => .ok .null
  | d :: rest => do
    let s ← d.textFor "endswith"
    if endings.any (Text.endsWith s) then return d else pick endings rest

def arrow (source target : Value) (label : String) : String :=
  "  " ++ partId source ++ "->>" ++ partId target ++ ": " ++ message label

def answer (source target : Value) (label : String) : String :=
  "  " ++ partId source ++ "-->>" ++ partId target ++ ": " ++ message label

def client : Value := .text "Client"

/-- What is drawn. -/
structure Scene where
  controller : Value
  service : Value
  queue : Value
  dependencies : Value
  flows : List FlowFacts

/-- The work behind a target: its own service and repository, or else the service of the
application. -/
def workLines (s : Scene) (target : Value) : Outcome (List String) := do
  let table ← s.dependencies.entriesFor "get"
  let key ← target.asKey
  let deps ← ((Value.lookup key table).getD (.list [])).each
  let service ← pick ["Service", "Handler"] deps
  let repository ← pick ["Repository", "DbContext"] deps
  if service.isPresent then
    return [arrow target service "Handle"] ++
      (if repository.isPresent then
        [arrow service repository "Query/Save", answer repository service "Result"] else []) ++
      [answer service target "Result"]
  else if s.service.isPresent && !target.same s.service then
    return [arrow target s.service "Handle", answer s.service target "Result"]
  else return []

/-- The messages that a target passes on, through the queue or directly. -/
def messageLines (s : Scene) (target : Value) (messages consumers : List String) : List String :=
  messages.flatMap fun m =>
    if s.queue.isPresent then
      arrow target s.queue ("Publish Send " ++ m) ::
        consumers.map fun c => answer s.queue (.text c) ("Consume " ++ m)
    else consumers.map fun c => arrow target (.text c) ("Publish Send " ++ m)

def endpointLines (s : Scene) (endpoint : Value) : Outcome (List String) := do
  let verbs ← (← listUnder endpoint "http_verbs").joined ", "
  let route := (← endpoint.fieldOrNull "route").orElse (.text "")
  let label := Text.trim (verbs ++ " " ++ route.display)
  let target := (← endpoint.fieldOrNull "controller").orElse (s.controller.orElse s.service)
  if !target.isPresent then return []
  let work ← workLines s target
  let key ← flowKey endpoint
  let (messages, consumers) := match s.flows.reverse.find? (·.key == key) with
    | some f => (f.messages, f.consumers)
    | none => ([], [])
  return [arrow client target (if label == "" then "Request" else label)] ++ work ++
    messageLines s target messages consumers ++ [answer target client "Response"]

/-- The lines of requests if no endpoints are known. -/
def requestLines (s : Scene) : List String :=
  if s.controller.isPresent then
    [arrow client s.controller "Request"] ++
      (if s.service.isPresent then
        [arrow s.controller s.service "Handle", answer s.service s.controller "Result"] else []) ++
      [answer s.controller client "Response"]
  else if s.service.isPresent then
    [arrow client s.service "Request", answer s.service client "Response"]
  else []

def firstMessage : List Value → Outcome (Option Value)
  | [] => .ok none
  | v :: rest => do
    let name ← v.fieldOrNull "message"
    if name.isPresent then return some name else firstMessage rest

/-- The lines of a queue that no endpoint's flow mentions. -/
def queueLines (s : Scene) (consumer : Value) (messageTypes : Value) : Outcome (List String) := do
  let sender := if s.service.isPresent then s.service else s.controller
  let label := match ← firstMessage (← (messageTypes.orElse (.list [])).each) with
    | some m => "Publish/Send " ++ m.display
    | none => "Publish/Send"
  return arrow sender s.queue label ::
    (if consumer.isPresent then
      [answer s.queue consumer "Consume", answer consumer s.queue "Ack"] else [])

def firstItems (n : Nat) : Value → Outcome (List Value)
  | .map _ => .error (.notKey "slice")
  | .int _ => .error (.notIndexable "int")
  | v => do return (← v.each).take n

def draw (catalog messaging messageTypes : Value) : Outcome (Option String) := do
  let listed ← (← catalog.fieldOr "controllers" (.list [])).each
  let controllers := (← listed.mapM fun c => c.fieldOrNull "name").filter (·.isPresent)
  let controller := controllers.head?.getD .null
  let services ← listUnder catalog "services"
  let interfaces ← listUnder catalog "interfaces"
  let service ← if services.isPresent then first services
    else if interfaces.isPresent then first interfaces else pure .null
  let endpoints ← listUnder catalog "endpoints"
  let flowValues ← listUnder catalog "endpoint_flows"
  let dependencies := (← catalog.fieldOr "controller_dependencies" (.map [])).orElse (.map [])
  let flows ← (← flowValues.each).mapM flowFacts
  let (queue, consumer) ← queueOf (← (messaging.orElse (.list [])).each)
  let consumers := Text.sortDistinct (flows.flatMap (·.consumers))
  let queue := if !queue.isPresent && !consumers.isEmpty then .text "RabbitMQ" else queue
  if !controller.isPresent && !service.isPresent && !queue.isPresent then return none
  let scene : Scene := ⟨controller, service, queue, dependencies, flows⟩
  let given (v : Value) : List Value := if v.isPresent then [v] else []
  let participants := [client] ++ given controller ++ given queue ++ consumers.map Value.text ++
    controllers.drop 1 ++ (if controller.isPresent then [] else given service)
  let requests ← if endpoints.isPresent then
      (·.flatten) <$> (← firstItems 5 endpoints).mapM (endpointLines scene)
    else pure (requestLines scene)
  let queueing ← if queue.isPresent && consumers.isEmpty then
      queueLines scene consumer messageTypes
    else pure []
  return some (Text.join "\n" (["```mermaid", "sequenceDiagram"] ++
    participants.map (fun p => "  participant " ++ partId p) ++ requests ++ queueing ++ ["```"]))

end CodeScribe.AppSequence
