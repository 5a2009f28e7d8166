import CodeScribe.Data.Record
import CodeScribe.Diagram.AppSequence
import CodeScribe.Diagram.Integration
import CodeScribe.Document.FileEntry

/-!
# What the files of a document pass to each other

* `Passing.records`, `Passing.queueFlows` — the messages of all files as data.
-/

namespace CodeScribe.Document

structure Passing where
  file : Value
  flows : Value

namespace Passing

def ofDescribed (d : Described) : List Passing :=
  d.messaging.toList.map fun flows => ⟨d.relativePath, flows⟩

def way (p : Passing) : Value := (p.flows.get? "source_type").getD .null

/-- A field of the messages; what does not count as given is an empty list. -/
def under (p : Passing) (key : String) : List Value :=
  (((p.flows.get? key).getD .null).orElse (.list [])).items

def record (p : Passing) : Value :=
  .record [("source_type", p.way), ("file", p.file), ("flows", p.flows)]

def queueFlows (p : Passing) : List Value :=
  (p.under "flows").map fun flow =>
    .record [("queue", (flow.get? "queue").getD .null),
      ("consumers", (flow.get? "consumers").getD (.list [])),
      ("sagas", (flow.get? "sagas").getD (.list [])),
      ("file", p.file)]

/-- Who sends and who reads which message on a bus. -/
def messageTypes (p : Passing) : List Value :=
  if !p.way.same (.text "masstransit") then []
  else
    (p.under "publishes" ++ p.under "sends").map
      (fun message => .record [("message", message), ("service", p.file)]) ++
    (p.under "consumer_messages").filterMap fun c =>
      let message := (c.get? "message").getD .null
      if message.isPresent then
        some (.record [("message", message), ("consumer", (c.get? "consumer").getD (.text ""))])
      else none

def integrationGraph (ps : List Passing) : Outcome (Option String) :=
  if ps.isEmpty then .ok none else Integration.draw (ps.map record)

end Passing

end CodeScribe.Document
