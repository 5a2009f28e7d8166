import CodeScribe.Data.Json
import CodeScribe.Data.Record
import CodeScribe.Data.Yaml.Load

/-!
# Broker definitions in settings files

The definitions keep whatever data the settings give; a file that defines no broker gives an
empty table.
-/

namespace CodeScribe.Broker

/-- The data of a settings text in either format, nothing if it is malformed. -/
def contentOf (text : String) : Value :=
  match Json.parse text with
  | .ok v => v
  | .error _ => ((Yaml.load text).toOption).getD .null

def isTable : Value → Bool
  | .map _ => true
  | _ => false

def tablesUnder (v : Value) (key : String) : Outcome (List Value) := do
  let items ← ((← v.fieldOr key (.list [])).orElse (.list [])).each
  return items.filter isTable

def fieldOf (v : Value) (key : String) (default : Value) : Value := (v.get? key).getD default

def isNamed (v : Value) : Bool := (fieldOf v "name" .null).isPresent

/-- The named items under a key, with their types. -/
def exchangesUnder (v : Value) (key type : String) : Outcome (List Value) := do
  return ((← tablesUnder v key).filter isNamed).map fun e =>
    .record [("name", fieldOf e "name" .null), ("type", fieldOf e "type" (.text type))]

def queuesOf (broker : Value) : Outcome (List Value) := do
  return ((← tablesUnder broker "queues").filter isNamed).map fun q =>
    .record [("name", fieldOf q "name" .null), ("durable", fieldOf q "durable" (.bool false))]

def bindingsOf (broker : Value) : Outcome (List Value) := do
  return (← tablesUnder broker "queues").filterMap fun q =>
    let binding := fieldOf q "binding" .null
    if isTable binding then
      some (.record [("queue", fieldOf q "name" (.text "")),
        ("exchange", fieldOf binding "exchange" (.text "")),
        ("routing_key", fieldOf binding "routing_key" (.text ""))])
    else none

def definitionsOf (data : Value) : Outcome Value := do
  if !isTable data then return .map []
  let broker := (fieldOf data "rabbitmq" .null).orElse
    ((fieldOf data "amqp" .null).orElse (.map []))
  if !isTable broker then return .map []
  let exchanges ← exchangesUnder broker "exchanges" ""
  let topics ← exchangesUnder broker "topics" "topic"
  let rootTopics ← exchangesUnder data "topics" "topic"
  let queues ← queuesOf broker
  let bindings ← bindingsOf broker
  return .record [("exchanges", .list (exchanges ++ topics ++ rootTopics)),
    ("queues", .list queues), ("bindings", .list bindings)]

/-- The exchanges, queues and bindings that a settings file defines. -/
def definitionsIn (text : String) : Outcome Value := definitionsOf (contentOf text)

end CodeScribe.Broker
