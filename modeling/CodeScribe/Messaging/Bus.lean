import CodeScribe.Source.Block
import CodeScribe.Data.Value

/-!
# Message bus configuration in C# sources
-/

namespace CodeScribe.Bus

open Pattern

structure Queue where
  name : String
  consumers : List String
  sagas : List String

structure Consumer where
  name : String
  message : String

structure Flows where
  queues : List Queue
  publishes : List String
  sends : List String
  sendEndpoints : List String
  consumers : List Consumer

def quotedText (i : Nat) : Pattern :=
  one (among "'\"") ++ group i (span1 (noneOf "'\"")) ++ one (among "'\"")

def dottedName (i : Nat) : Pattern := group i (span1 fun c => Text.isWord c || c == '.')

/-- A type argument in angle brackets, recorded as a group. -/
def typeArgument (i : Nat) : Pattern :=
  char '<' ++ blanks ++ dottedName i ++ blanks ++ char '>'

def endpointPattern : Pattern :=
  lit "ReceiveEndpoint" ++ blanks ++ char '(' ++ blanks ++ quotedText 1

def consumerPattern : Pattern := lit "Consumer" ++ typeArgument 1

def configuredPattern : Pattern := lit "ConfigureConsumer" ++ typeArgument 1

def sagaPattern : Pattern := words ["Saga", "StateMachineSaga"] ++ typeArgument 1

/-- A call that passes a message on, by type or by value. -/
def callPattern (verb : String) : Pattern :=
  lit ("." ++ verb) ++ typeArgument 1 <|>
    wordEdge ++ lit (verb ++ "(") ++ blanks ++ lit "new" ++ blanks1 ++ dottedName 2

/-- The address of an endpoint that messages are sent to. -/
def sendEndpointPattern : Pattern :=
  lit "GetSendEndpoint(" ++ blanks ++ lit "new" ++ blanks1 ++ lit "Uri(" ++ blanks ++ quotedText 1

def consumerClassPattern : Pattern :=
  lit "class" ++ blanks1 ++ group 1 name ++ blanks ++ char ':' ++ blanks ++
    span (noneOf "\x7b\n") ++ lit "IConsumer" ++ typeArgument 2

def queueAddress (uri : String) : String :=
  if Text.startsWith uri "queue:" then uri
  else if Text.contains uri "queue:" then
    "queue:" ++ Text.join "queue:" ((Text.splitOn uri "queue:").drop 1)
  else if Text.contains uri "rabbitmq://" then "queue:" ++ Text.lastPiece uri "/"
  else uri

def queuesIn (code : List Char) : List Queue :=
  (endpointPattern.findAll code).map fun m =>
    let block := Block.bracesAfter code m.stop
    ⟨m.get 1, Text.sortDistinct (consumerPattern.findGroup 1 block ++
      configuredPattern.findGroup 1 block), Text.sortDistinct (sagaPattern.findGroup 1 block)⟩

def messagesIn (verb : String) (code : List Char) : List String :=
  Text.sortDistinct (((callPattern verb).findAll code).map fun m => (m.get? 1).getD (m.get 2))

def flowsIn (code : List Char) : Flows where
  queues := queuesIn code
  publishes := messagesIn "Publish" code
  sends := messagesIn "Send" code
  sendEndpoints := Text.sortDistinct ((sendEndpointPattern.findGroup 1 code).map queueAddress)
  consumers := (consumerClassPattern.findAll code).map fun m => ⟨m.get 1, m.get 2⟩

/-! ### As data -/

def Queue.toValue (q : Queue) : Value :=
  .record [("queue", .text q.name), ("consumers", .texts q.consumers), ("sagas", .texts q.sagas)]

def Consumer.toValue (c : Consumer) : Value :=
  .record [("consumer", .text c.name), ("message", .text c.message)]

def Flows.toValue (f : Flows) : Value :=
  .record [("queues", .list (f.queues.map Queue.toValue)),
    ("flows", .list (f.queues.map Queue.toValue)), ("publishes", .texts f.publishes),
    ("sends", .texts f.sends), ("send_endpoints", .texts f.sendEndpoints),
    ("consumer_messages", .list (f.consumers.map Consumer.toValue))]

end CodeScribe.Bus
