import CodeScribe.Data.Value
import CodeScribe.Text.Pattern

/-!
# Message channels in scripts
-/

namespace CodeScribe.Channel

open Pattern

structure Exchange where
  name : String
  type : String

structure Binding where
  queue : String
  exchange : String
  routingKey : String

structure Publish where
  exchange : String
  routingKey : String

structure Flows where
  exchanges : List Exchange
  queues : List String
  bindings : List Binding
  publishes : List Publish
  sends : List String
  consumes : List String

def quote : Pattern := one (among "'\"")

/-- A text in quotes that is not empty. -/
def someText (i : Nat) : Pattern := quote ++ group i (span1 (noneOf "'\"")) ++ quote

def comma : Pattern := blanks ++ char ',' ++ blanks

def callPattern (f : String) : Pattern := lit (f ++ "(") ++ blanks ++ someText 1

def exchangePattern : Pattern := callPattern "assertExchange" ++ comma ++ someText 2

def bindingPattern : Pattern :=
  callPattern "bindQueue" ++ comma ++ someText 2 ++ blanks ++
    opt (char ',' ++ blanks ++ someText 3)

def publishPattern : Pattern :=
  callPattern "publish" ++ comma ++ quote ++ group 2 (span (noneOf "'\"")) ++ quote

def flowsIn (code : List Char) : Flows where
  exchanges := (exchangePattern.findAll code).map fun m => ⟨m.get 1, m.get 2⟩
  queues := (callPattern "assertQueue").findGroup 1 code
  bindings := (bindingPattern.findAll code).map fun m => ⟨m.get 1, m.get 2, m.get 3⟩
  publishes := (publishPattern.findAll code).map fun m => ⟨m.get 1, m.get 2⟩
  sends := (callPattern "sendToQueue").findGroup 1 code
  consumes := (callPattern "consume").findGroup 1 code

def Flows.toValue (f : Flows) : Value :=
  let queue (q : String) : Value := .record [("queue", .text q)]
  .record [
    ("exchanges", .list (f.exchanges.map fun e =>
      .record [("name", .text e.name), ("type", .text e.type)])),
    ("queues", .list (f.queues.map fun q => .record [("name", .text q)])),
    ("bindings", .list (f.bindings.map fun b =>
      .record [("queue", .text b.queue), ("exchange", .text b.exchange),
        ("routing_key", .text b.routingKey)])),
    ("publishes", .list (f.publishes.map fun p =>
      .record [("exchange", .text p.exchange), ("routing_key", .text p.routingKey)])),
    ("send_to_queue", .list (f.sends.map queue)), ("consumes", .list (f.consumes.map queue))]

end CodeScribe.Channel
