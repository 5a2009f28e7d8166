import CodeScribe.Catalog.Endpoint
import CodeScribe.Messaging.Bus
import CodeScribe.Source.Comment

/-!
# Steps of endpoints

What an endpoint does is told as a list of short sentences, its steps.
-/

namespace CodeScribe.Catalog

open Pattern

/-- A class that consumes a message. -/
structure Consumer where
  name : String
  readsDatabase : Bool
  publishes : List String

/-- A name without type arguments and without the package in front of it. -/
def shortType (type : String) : String :=
  let cleaned := (char '<' ++ span1 (· != '>') ++ char '>').removeAll (Chars.trim type.toList)
  Text.lastPiece (String.ofList cleaned) "."

/-- A source without comments: block comments go first, then the rest of lines from two slashes
on. -/
def stripComments (code : List Char) : List Char :=
  let noBlocks := (lit "/*" ++ CommentStyle.throughTo (lit "*/")).removeAll code
  (lit "//" ++ CommentStyle.restOfLine).removeAll noBlocks

/-! ### Steps of a body -/

def dotted (i : Nat) : Pattern := group i (span1 fun c => Text.isWord c || c == '.')

def construction (i : Nat) : Pattern :=
  blanks ++ char '=' ++ blanks ++ lit "new" ++ blanks1 ++ dotted i ++ blanks ++ char '('

/-- A variable declared without its type. -/
def untypedPattern : Pattern := wordEdge ++ lit "var" ++ blanks1 ++ group 1 name ++ construction 2

/-- A variable declared with its type. -/
def typedPattern : Pattern :=
  wordEdge ++ dotted 1 ++ blanks1 ++ group 2 name ++ construction 3

/-- The types of the variables of a body, each type passed through `simplify`. -/
def variableTypes (simplify : String → String) (body : List Char) : Table String :=
  let untyped := (untypedPattern.findAll body).map fun m => (m.get 1, simplify (m.get 2))
  let typed := (typedPattern.findAll body).map fun m =>
    let declared := simplify (m.get 1)
    (m.get 2, if Text.lower declared == "var" then simplify (m.get 3) else declared)
  (untyped ++ typed).foldl (fun t (name, type) => t.set name type) []

def messageStep (message : String) : String := "Publish/Send " ++ message ++ " to queue"

def databaseStep : String := "Insert/Update DB"

def newIdPattern : Pattern := lit "Guid.NewGuid(" <|> lit "new" ++ blanks1 ++ lit "Guid("

def changePattern : Pattern :=
  wordEdge ++ lit "SaveChanges" ++ opt (lit "Async") ++ char '(' <|>
    wordEdge ++ words ["Add", "AddAsync", "Insert", "Update"] ++ wordEdge

/-- A variable passed on as a message. -/
def passedPattern : Pattern :=
  wordEdge ++ lit "Publish(" ++ blanks ++ group 1 name ++ blanks ++ char ')' <|>
    wordEdge ++ lit "Send(" ++ blanks ++ group 2 name ++ blanks ++ char ')'

def typedMessages (verb : String) (body : List Char) : List String :=
  ((Bus.callPattern verb).findAll body).map fun m => (m.get? 1).getD (m.get 2)

/-- Add the messages that stand in variables and are not yet known. -/
def addPassed (types : Table String) (messages : List String) (m : Match) : List String :=
  match types.get? ((m.get? 1).getD (m.get 2)) with
  | some message =>
    if message == "" || messages.contains message then messages else messages ++ [message]
  | none => messages

/-- The messages that a body without comments passes on: published by type, sent by type, and
then those in variables. -/
def messagesOf (body : List Char) : List String :=
  (passedPattern.findAll body).foldl (addPassed (variableTypes id body))
    (typedMessages "Publish" body ++ typedMessages "Send" body)

def stepsOf (body : List Char) : List String × List String :=
  let body := stripComments body
  let messages := messagesOf body
  let when' (p : Pattern) (step : String) : List String := if p.occursIn body then [step] else []
  (when' newIdPattern "Generate OrderId" ++ when' changePattern databaseStep ++
    messages.map messageStep ++ when' (lit "GetSendEndpoint(") "Send to queue endpoint", messages)

/-! ### Consumers -/

def publishPattern : Pattern :=
  litAnyCase ".Publish<" ++ blanks ++ dotted 1 ++ blanks ++ char '>' <|>
    wordEdge ++ litAnyCase "Publish(" ++ blanks ++ litAnyCase "new" ++ blanks1 ++ dotted 2

def publishVariablePattern : Pattern :=
  wordEdge ++ litAnyCase "Publish(" ++ blanks ++ group 1 name ++ blanks ++ char ')'

/-- The non-empty texts of a list, each once. -/
def distinct (names : List String) : List String := (names.filter (· != "")).eraseDups

def publishedIn (code : List Char) : List String :=
  let body := stripComments code
  let types := variableTypes shortType body
  let typed := (publishPattern.findAll body).map fun m => shortType ((m.get? 1).getD (m.get 2))
  let passed := (publishVariablePattern.findGroup 1 body).map fun v =>
    shortType ((types.get? v).getD "")
  distinct (typed ++ passed)

def worksOnDatabase (content : String) : Bool :=
  Text.contains content "DbContext" || Text.contains content "DbSet" ||
    Text.contains content "SaveChanges"

def consumersIn (content : String) : List (String × Consumer) :=
  (Bus.consumerClassPattern.findAll content.toList).map fun m =>
    (shortType (m.get 2), ⟨m.get 1, worksOnDatabase content, publishedIn content.toList⟩)

def consumersByMessage (contents : List String) : Table (List Consumer) :=
  (contents.flatMap consumersIn).foldl
    (fun t (message, c) => t.alter message fun cs => cs.getD [] ++ [c]) []

def consumerSteps (c : Consumer) : List String :=
  let head := "Consumer " ++ c.name
  (head ++ " reads queue") :: (if c.readsDatabase then [head ++ " reads DB"] else []) ++
    c.publishes.map fun message => head ++ " publishes " ++ message

/-! ### What steps tell -/

/-- A word with white space behind it, in any case. -/
def keyword (w : String) : Pattern := litAnyCase w ++ blanks1

def messageStepPattern : Pattern :=
  keyword "Publish/Send" ++ dotted 1 ++ blanks1 ++ litAnyCase "to queue"

def consumerStepPattern : Pattern :=
  keyword "Consumer" ++ dotted 1 ++ blanks1 ++ litAnyCase "reads queue"

def publishStepPattern : Pattern :=
  keyword "Consumer" ++ dotted 1 ++ blanks1 ++ keyword "publishes" ++ dotted 2

/-- The messages that steps tell, by short name, each once. -/
def messageNames (steps : List String) : List String :=
  distinct (steps.filterMap fun s =>
    (messageStepPattern.find? s.toList).map fun m => shortType (m.get 1))

/-- The consumers that steps tell, each once. -/
def consumerNames (steps : List String) : List String :=
  distinct (steps.filterMap fun s => (consumerStepPattern.find? s.toList).map (·.get 1))

def addPublish (t : Table (List String)) (step : String) : Table (List String) :=
  match publishStepPattern.find? step.toList with
  | some m =>
    let message := shortType (m.get 2)
    if message == "" then t
    else t.alter (m.get 1) fun ms =>
      if (ms.getD []).contains message then ms.getD [] else ms.getD [] ++ [message]
  | none => t

/-- The messages that each consumer publishes, by short name, each once. -/
def consumerPublishes (steps : List String) : Table (List String) := steps.foldl addPublish []

def readsDatabase (consumer : String) (steps : List String) : Bool :=
  let p := keyword "Consumer" ++ litAnyCase consumer ++ blanks1 ++ litAnyCase "reads DB"
  steps.any fun s => p.occursIn s.toList

def mentions (s word : String) : Bool := Text.contains (Text.lower s) word

def touchesDatabase (steps : List String) : Bool := steps.any (mentions · "db")

/-- The steps that no other part of a drawing shows. -/
def remainingSteps (steps : List String) : List String :=
  steps.filter fun step =>
    let s := Text.lower step
    let ofConsumer := Text.startsWith s "consumer "
    !(step == "" || Text.startsWith s "publish/send " ||
      (ofConsumer && Text.contains s "reads queue") || Text.contains s "db")

/-! ### As data -/

def Consumer.toValue (c : Consumer) : Value :=
  .record [("consumer", .text c.name), ("reads_db", .bool c.readsDatabase),
    ("publishes", .texts c.publishes)]

end CodeScribe.Catalog
