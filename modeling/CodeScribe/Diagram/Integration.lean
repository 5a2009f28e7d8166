import CodeScribe.Data.Record
import CodeScribe.Text.Pattern

/-!
# How files pass messages to each other

A record names a file, the way in which it passes messages, and the messages.  The diagram has a
node for every exchange, queue, service, message and consumer, and an arrow for every binding,
publication and consumption.
-/

namespace CodeScribe.Integration

open Text Pattern

/-! ### Names -/

/-- A piece of a name: itself if it is made of letters and digits, or else an underscore. -/
def idPiece (v : Value) : Outcome String := do
  let s ← v.textFor "isalnum"
  return if s != "" && s.toList.all isAlnum then s else "_"

def nodeId (v : Value) : Outcome String := do
  return String.join (← (← v.each).mapM idPiece)

/-- A name made fit for a label; no label is empty. -/
def label (v : Value) : String :=
  let s := (v.orElse (.text "")).display
  let cs := s.toList.filter (noneOf "[]\"`<>|")
  let cs := cs.map fun c => if c == '\\' || c == '\n' || c == '\r' then ' ' else c
  let cs := Chars.trim (blanks1.replaceAll (fun _ => [' ']) cs)
  if cs.isEmpty then "label" else String.ofList cs

/-! ### What the records say -/

/-- Someone who passes a message on, to an exchange or to a queue. -/
structure Publisher where
  service : Value
  exchange : Value := .null
  queue : Value := .null

/-- What all records together say. -/
structure Parts where
  exchanges : List (Value × Value) := []
  queues : List (Value × Value) := []
  /-- Exchange and queue of each binding. -/
  bindings : List (Value × Value) := []
  publishers : List Publisher := []
  /-- Queue and service. -/
  consumers : List (Value × Value) := []
  /-- Message and service. -/
  messagePublishers : List (Value × Value) := []
  /-- Message and consumer. -/
  messageConsumers : List (Value × Value) := []

/-- Whether no record said anything. -/
def Parts.isEmpty (p : Parts) : Bool :=
  p.exchanges.isEmpty && p.queues.isEmpty && p.bindings.isEmpty && p.publishers.isEmpty &&
    p.consumers.isEmpty && p.messagePublishers.isEmpty && p.messageConsumers.isEmpty

/-- The items under a key, none if it does not count as given. -/
def under (flows : Value) (key : String) : Outcome (List Value) := do
  ((← flows.fieldOr key (.list [])).orElse (.list [])).each

def addNamed (table : List (Value × Value)) (valueOf : Value → Outcome Value) (items : List Value) :
    Outcome (List (Value × Value)) :=
  items.foldlM (fun t item => do
    let name ← item.fieldOrNull "name"
    if name.isPresent then return Value.insert (← name.asKey) (← valueOf item) t else return t) table

def addTopology (p : Parts) (flows : Value) : Outcome Parts := do
  let exchanges ← addNamed p.exchanges (·.fieldOr "type" (.text "")) (← under flows "exchanges")
  let queues ← addNamed p.queues (fun _ => .ok (.bool true)) (← under flows "queues")
  let bindings ← (← under flows "bindings").mapM fun b => do
    return (← b.fieldOrNull "exchange", ← b.fieldOrNull "queue")
  return { p with exchanges, queues, bindings := p.bindings ++ bindings }

def addChannel (p : Parts) (file flows : Value) : Outcome Parts := do
  let p ← addTopology p flows
  let published ← (← under flows "publishes").mapM fun x => do
    return { service := file, exchange := ← x.fieldOrNull "exchange" : Publisher }
  let sent ← (← under flows "send_to_queue").mapM fun x => do
    return { service := file, queue := ← x.fieldOrNull "queue" : Publisher }
  let consumed ← (← under flows "consumes").mapM fun x => do
    return (← x.fieldOrNull "queue", file)
  return { p with publishers := p.publishers ++ published ++ sent,
                  consumers := p.consumers ++ consumed }

def addEndpoint (file : Value) (p : Parts) (flow : Value) : Outcome Parts := do
  let queue ← flow.fieldOrNull "queue"
  if !queue.isPresent then return p
  let queues := Value.insert (← queue.asKey) (.bool true) p.queues
  let names ← (← flow.fieldOr "consumers" (.list [])).joined ", "
  return { p with queues, consumers :=
    p.consumers ++ [(queue, if names == "" then file else .text names)] }

/-- The queue that an address of a bus names. -/
def queueOf? : Value → Option String
  | .text s => if startsWith s "queue:" then some (drop 6 s) else none
  | _ => none

def addBus (p : Parts) (file flows : Value) : Outcome Parts := do
  let p ← (← under flows "flows").foldlM (addEndpoint file) p
  let published ← under flows "publishes"
  let sent ← under flows "sends"
  let consumed ← (← under flows "consumer_messages").filterMapM fun c => do
    let message ← c.fieldOrNull "message"
    if message.isPresent then
      return some (message, (← c.fieldOrNull "consumer").orElse file)
    else return none
  let addresses ← under flows "send_endpoints"
  return { p with
    messagePublishers := p.messagePublishers ++ (published ++ sent).map (·, file)
    messageConsumers := p.messageConsumers ++ consumed
    publishers := p.publishers ++ (addresses.filterMap queueOf?).map fun q =>
      { service := file, queue := .text q } }

def addRecord (p : Parts) (record : Value) : Outcome Parts := do
  let flows ← record.fieldOr "flows" (.map [])
  let way ← record.fieldOrNull "source_type"
  let file ← record.fieldOr "file" (.text "unknown")
  match way with
  | .text "infra_config" => addTopology p flows
  | .text "amqplib" => addChannel p file flows
  | .text "masstransit" => addBus p file flows
  | _ => return p

/-! ### Ascending names -/

/-- Whether one name comes before another; only names of one kind have an order. -/
def before (a b : Value) : Outcome Bool :=
  match a, b with
  | .text s, .text t => .ok (decide (s < t))
  | a, b => match a.whole?, b.whole? with
    | some m, some n => .ok (decide (m < n))
    | _, _ => .error (.notOrdered a.kind b.kind)

def insertByName (e : Value × Value) : List (Value × Value) → Outcome (List (Value × Value))
  | [] => .ok [e]
  | f :: rest => do
    if ← before e.1 f.1 then return e :: f :: rest else return f :: (← insertByName e rest)

def sortByName (entries : List (Value × Value)) : Outcome (List (Value × Value)) :=
  entries.foldlM (fun sorted e => insertByName e sorted) []

/-! ### The diagram -/

/-- The lines so far and the nodes that have one. -/
structure Drawing where
  lines : List String := []
  declared : List String := []

def Drawing.declare (d : Drawing) (id text : String) : Drawing :=
  if d.declared.contains id then d
  else ⟨d.lines ++ ["  " ++ id ++ "[\"" ++ text ++ "\"]"], d.declared ++ [id]⟩

def Drawing.arrow (d : Drawing) (source target : String) : Drawing :=
  { d with lines := d.lines ++ ["  " ++ source ++ " --> " ++ target] }

def drawExchange (d : Drawing) (e : Value × Value) : Outcome Drawing := do
  let text := if e.2.isPresent then label e.1 ++ " (" ++ label e.2 ++ ")" else label e.1
  return d.declare ("EX_" ++ (← nodeId e.1)) ("Exchange " ++ text)

def drawQueue (d : Drawing) (q : Value × Value) : Outcome Drawing := do
  return d.declare ("Q_" ++ (← nodeId q.1)) ("Queue " ++ label q.1)

def drawBinding (d : Drawing) (b : Value × Value) : Outcome Drawing := do
  if !b.1.isPresent || !b.2.isPresent then return d
  return d.arrow ("EX_" ++ (← nodeId b.1)) ("Q_" ++ (← nodeId b.2))

def drawPublisher (d : Drawing) (p : Publisher) : Outcome Drawing := do
  let id := "S_" ++ (← nodeId p.service)
  let d := d.declare id ("Service " ++ label p.service)
  let d ← if p.exchange.isPresent then do pure (d.arrow id ("EX_" ++ (← nodeId p.exchange)))
    else pure d
  if p.queue.isPresent then return d.arrow id ("Q_" ++ (← nodeId p.queue)) else return d

def drawConsumer (d : Drawing) (c : Value × Value) : Outcome Drawing := do
  let id := "S_" ++ (← nodeId c.2)
  let d := d.declare id ("Service " ++ label c.2)
  if c.1.isPresent then return d.arrow ("Q_" ++ (← nodeId c.1)) id else return d

def messageId (message : Value) : Outcome String := do
  return "MSG_" ++ (← nodeId (.text ("MSG_" ++ message.display)))

def drawMessagePublisher (d : Drawing) (p : Value × Value) : Outcome Drawing := do
  if !p.1.isPresent then return d
  let id ← messageId p.1
  let service ← nodeId p.2
  return (d.declare id ("Message " ++ label p.1)).arrow ("S_" ++ service) id

def drawMessageConsumer (d : Drawing) (c : Value × Value) : Outcome Drawing := do
  if !c.1.isPresent then return d
  let id ← messageId c.1
  let consumer := "C_" ++ (← nodeId c.2)
  let d := d.declare id ("Message " ++ label c.1)
  return (d.declare consumer ("Consumer " ++ label c.2)).arrow id consumer

/-- The diagram of what all records say. -/
def Parts.draw (p : Parts) : Outcome String := do
  let d : Drawing := { lines := ["```mermaid", "graph LR"] }
  let d ← (← sortByName p.exchanges).foldlM drawExchange d
  let d ← (← sortByName p.queues).foldlM drawQueue d
  let d ← p.bindings.foldlM drawBinding d
  let d ← p.publishers.foldlM drawPublisher d
  let d ← p.consumers.foldlM drawConsumer d
  let d ← p.messagePublishers.foldlM drawMessagePublisher d
  let d ← p.messageConsumers.foldlM drawMessageConsumer d
  return join "\n" (d.lines ++ ["```"])

def draw (records : List Value) : Outcome (Option String) := do
  let parts ← records.foldlM addRecord {}
  if parts.isEmpty then return none else return some (← parts.draw)

end CodeScribe.Integration
