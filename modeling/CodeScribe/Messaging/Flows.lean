import CodeScribe.Data.Record
import CodeScribe.Messaging.Broker
import CodeScribe.Messaging.Bus
import CodeScribe.Messaging.Channel
import CodeScribe.Source.Language

/-!
# Messages in a source file

* `Messaging.flowsIn` — the messages that a file passes, by the way its language passes them, or
  none.
-/

namespace CodeScribe.Messaging

/-- Whether what a file holds mentions one of several words. -/
def mentions (content : Value) : List String → Outcome Bool
  | [] => .ok false
  | word :: rest => do if ← content.holds word then return true else mentions content rest

def marked (way : String) (flows : Value) : Value := flows.put "source_type" (.text way)

/-- The text of what a file holds; nothing else has characters. -/
def charsOf (content : Value) : Outcome (List Char) := do return (← content.asText).toList

def flowsIn (language : Option Language) (content : Value) : Outcome (Option Value) := do
  match language with
  | some .csharp =>
    if ← mentions content ["MassTransit", "ReceiveEndpoint"] then
      return some (marked "masstransit" (Bus.flowsIn (← charsOf content)).toValue)
    else return none
  | some .javascript | some .typescript =>
    if ← mentions content ["amqplib", ".publish(", ".sendToQueue("] then
      return some (marked "amqplib" (Channel.flowsIn (← charsOf content)).toValue)
    else return none
  | some .config =>
    match content with
    | .text s =>
      let flows ← Broker.definitionsIn s
      return if flows.isPresent then some (marked "infra_config" flows) else none
    | _ => return none
  | _ => return none

end CodeScribe.Messaging
