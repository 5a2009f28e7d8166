import CodeScribe.Catalog.Steps
import CodeScribe.Diagram.CallGraph
import CodeScribe.Fault

/-!
# Sequence drawings of endpoints

* `Sequence.render` — the drawing as a text.
-/

namespace CodeScribe.Catalog.Sequence

def partId (name : String) : String := CallGraph.nodeId name

def keepsData (name : String) : Bool :=
  ["repository", "db", "context"].any (mentions name)

def passesMessages (name : String) : Bool :=
  ["bus", "publisher", "producer", "queue", "messaging", "event", "mass"].any (mentions name)

/-- What the steps of an endpoint tell. -/
structure Activity where
  messages : List String
  consumers : List String
  publishes : Table (List String)
  database : Bool
  queue : Bool
  steps : List String

def Activity.ofSteps (steps : List String) : Activity :=
  let messages := messageNames steps
  { messages, steps
    consumers := consumerNames steps
    publishes := consumerPublishes steps
    database := touchesDatabase steps
    queue := !messages.isEmpty || steps.any (mentions · "queue") }

def messageLabel (verb : String) (messages : List String) : String :=
  verb ++ " " ++ (if messages.isEmpty then "event/message" else Text.join ", " messages)

/-- What a component is asked to do. -/
def actionOf (name : String) (database queue : Bool) (messages : List String) : String :=
  if keepsData name && database then "Read/Write data"
  else if passesMessages name && queue then messageLabel "Publish" messages
  else "Execute business logic"

def participantLine (id label : String) : String :=
  "  participant " ++ id ++ (if label == "" then "" else " as " ++ label)

def declare (parts : List (String × String)) : List String :=
  (parts.foldl (fun (seen, out) (id, label) =>
    if seen.contains id then (seen, out) else (id :: seen, participantLine id label :: out))
    ((["Client"], []) : List String × List String)).2.reverse

/-- The participants of a drawing, with their labels, in the order in which they are declared. -/
def participants (controller : Option String) (dependencies : List String) (a : Activity) :
    List (String × String) :=
  (controller.toList ++ dependencies).map (fun n => (partId n, n)) ++
    (if a.database then [("Database", "")] else []) ++
    (if a.queue then [("MessageBroker", "")] else []) ++ a.consumers.map fun n => (partId n, n)

def arrow (source target text : String) : String :=
  "  " ++ source ++ "->>" ++ target ++ ": " ++ text

def answer (source target text : String) : String :=
  "  " ++ source ++ "-->>" ++ target ++ ": " ++ text

def dataLines (id : String) : List String :=
  [arrow id "Database" "Read/Write data", answer "Database" id "Data/ACK"]

def publishLines (id label : String) : List String :=
  [arrow id "MessageBroker" label, answer "MessageBroker" id "Ack"]

def when' (condition : Bool) (lines : List String) : List String := if condition then lines else []

def dependencyLines (controller : String) (a : Activity) (name : String) : List String :=
  let id := partId name
  [arrow controller id (actionOf name a.database a.queue a.messages), "  activate " ++ id] ++
    when' (a.database && keepsData name) (dataLines id) ++
    when' (a.queue && passesMessages name) (publishLines id (messageLabel "Publish" a.messages)) ++
    [answer id controller "Result", "  deactivate " ++ id]

def consumerLines (a : Activity) (name : String) : List String :=
  let id := partId name
  let emitted := a.publishes.listOf name
  [arrow "MessageBroker" id (messageLabel "Deliver" a.messages), "  activate " ++ id] ++
    when' (readsDatabase name a.steps) (dataLines id) ++
    when' (!emitted.isEmpty) (publishLines id ("Publish " ++ Text.join ", " emitted)) ++
    [answer id "MessageBroker" "Ack", "  deactivate " ++ id]

def requestLines (controller : String) (dependencies : List String) (label : String)
    (a : Activity) : List String :=
  let id := partId controller
  let notes := remainingSteps a.steps
  [arrow "Client" id label, "  activate " ++ id] ++
    dependencies.flatMap (dependencyLines id a) ++
    when' (dependencies.isEmpty && a.database) (dataLines id) ++
    when' (dependencies.isEmpty && a.queue)
      (publishLines id (messageLabel "Publish" a.messages)) ++
    a.consumers.flatMap (consumerLines a) ++
    when' (!notes.isEmpty) ["  Note over " ++ id ++ ": " ++ Text.join " | " notes] ++
    [answer id "Client" "Response", "  deactivate " ++ id]

def given? (controller : Option String) : Option String := controller.filter (· != "")

/-- The drawing of one request, line by line. -/
def lines (controller : Option String) (dependencies : List String) (label : String)
    (steps : List String) : List String :=
  let a := Activity.ofSteps steps
  let controller := given? controller
  ["```mermaid", "sequenceDiagram", "  participant Client"] ++
    declare (participants controller dependencies a) ++
    (match controller with
      | some c => requestLines c dependencies label a
      | none => [arrow "Client" "Service" "Request", answer "Service" "Client" "Response"]) ++
    ["```"]

def render (controller : Option String) (dependencies : List String) (label : String)
    (steps : List String) : String :=
  Text.join "\n" (lines controller dependencies label steps)

/-- Steps handed in from outside.  A missing step counts as empty, but it must not be met before
some step has shown that a queue is at work. -/
def checkSteps (steps : List (Option String)) : Outcome (List String) :=
  let texts := steps.map (·.getD "")
  let seen := steps.takeWhile fun s => !s.any (mentions · "queue")
  if (messageNames texts).isEmpty && seen.any (·.isNone) then
    .error (.noOperation "NoneType" "lower")
  else .ok texts

end CodeScribe.Catalog.Sequence
