import CodeScribe.Analysis.Dependency.Graph
import CodeScribe.Workspace.Disk

/-!
# The world around a run

What a run sees of the world and does to it, as a value, so that runs can be compared and
replayed: files, environment, printed lines, the web, the repositories that can be fetched and the
printers.
-/

namespace CodeScribe

/-! ### The web -/

structure Request where
  method : String
  url : String
  json : Option Value := none
  data : Option String := none
  headers : Option Value := none
  timeout : Nat

/-- What comes back for a web request. -/
inductive Reply where
  | answer (status : Int) (reason body : String)
  | failure (kind reason : String)
deriving DecidableEq, Repr

/-- The replies to come and the requests made, oldest first. -/
structure Web where
  replies : List Reply := []
  requests : List Request := []

/-! ### Repositories -/

/-- What a fetch brings: files in place, then success or failure. -/
structure Fetch where
  files : List (String × Content) := []
  failure : Option String := none
  /-- The folders that are repositories after a failure, if they are others than before. -/
  remains : Option (List String) := none

/-- Something done with repositories. -/
inductive Deed where
  | opening (path : String)
  | update
  | switch (branch : String)
  | fetch (url path : String)
  | removal (path : String)
deriving DecidableEq, Repr

/-- The line of the log on a deed; removals are not logged. -/
def Deed.line? : Deed → Option String
  | opening path => some ("open " ++ path)
  | update => some "pull"
  | switch branch => some ("checkout " ++ branch)
  | fetch url path => some ("clone " ++ url ++ " -> " ++ path)
  | removal _ => none

/-- A deed, with the disk and the folders that were repositories when it was begun. -/
structure Noted where
  deed : Deed
  disk : Disk
  valid : List String

/-- Which folders are repositories, what fetches will bring, and what was done, oldest first. -/
structure Repositories where
  supported : Bool := true
  valid : List String := []
  fetches : List Fetch := []
  updateFails : Bool := false
  missingBranches : List String := []
  journal : List Noted := []

/-- The log: a line for each deed that has one. -/
def Repositories.log (r : Repositories) : List String := r.journal.filterMap (·.deed.line?)

/-! ### Printers -/

/-- What comes of printing a page: its errors, or a failure. -/
inductive PrintResult where
  | printed (errors : Value)
  | failure (kind reason : String)

/-- What was printed, and the place at which it is read on. -/
structure Paper where
  bytes : List UInt8 := []
  position : Nat := 0

structure Printers where
  /-- The printer that takes style sheets, if it is there, and why it fails, if it does. -/
  styled : Option (Option String) := none
  /-- Whether the printer without style sheets is there. -/
  plain : Bool := false
  /-- What will come of printing without style sheets. -/
  results : List PrintResult := []
  /-- The pages handed to a printer, oldest first. -/
  pages : List String := []
  paper : Paper := {}

/-! ### The world -/

/-- A question to a language model: the question itself and the rules for the answer. -/
structure Prompt where
  user : String
  system : String
deriving DecidableEq, Repr

/-- Progress: how much is done, how much there is to do, if that is known, and what comes next. -/
structure Step where
  done : Nat
  total : Option Nat
  name : Value

structure World where
  disk : Disk
  /-- The folder of the program itself. -/
  program : String := ""
  /-- A folder of document structures in place of the built-in ones. -/
  structureFolder : Option String := none
  /-- The time of the run, as shown. -/
  now : String := ""
  environment : Table String := []
  printed : List String := []
  /-- The progress told, oldest first. -/
  told : List Step := []
  web : Web := {}
  repositories : Repositories := {}
  printers : Printers := {}
  /-- Answers in place of the model servers, by the number of the question. -/
  standIn : Nat → Prompt → Outcome String := fun _ _ => .error (.failed "no model")
  /-- Whether the stand-in answers for every model. -/
  standsInForAll : Bool := false
  /-- The number of questions put to the stand-in. -/
  asked : Nat := 0
  /-- The kinds of the model servers that models were opened at. -/
  opened : List String := []
  /-- What the last analysis of dependencies found. -/
  graph : Dependency.Graph := {}

/-- Work in the world: it can fail, and what it did stays done. -/
abbrev Work := ExceptT Fault (StateM World)

namespace Work

def ofOutcome {α : Type} (x : Outcome α) : Work α := ExceptT.mk (pure x)

instance {α : Type} : Coe (Outcome α) (Work α) := ⟨ofOutcome⟩

def runIn {α : Type} (w : Work α) (world : World) : Outcome α × World := (ExceptT.run w).run world

/-- Do some work and hand on how it ended. -/
def attempt {α : Type} (w : Work α) : Work (Outcome α) :=
  ExceptT.mk do return .ok (← w.run)

def disk : Work Disk := do return (← get).disk

def changeDisk (change : Disk → Outcome Disk) : Work Unit := do
  let d ← ofOutcome (change (← disk))
  modify fun w => { w with disk := d }

def print (line : String) : Work Unit := modify fun w => { w with printed := w.printed ++ [line] }

def tell (s : Step) : Work Unit := modify fun w => { w with told := w.told ++ [s] }

def env? (name : String) : Work (Option String) := do return (← get).environment.get? name

def setEnv (name : String) (value : Option String) : Work Unit :=
  modify fun w => { w with environment := match value with
    | some v => Table.set w.environment name v
    | none => w.environment.filter (·.1 != name) }

/-- Make a web request; when no reply is to come, there is no connection. -/
def send (r : Request) : Work Reply := do
  let w ← get
  set { w with web := { replies := w.web.replies.drop 1, requests := w.web.requests ++ [r] } }
  return w.web.replies.head?.getD (.failure "ConnectionError" "")

def askStandIn (p : Prompt) : Work String := do
  let w ← get
  set { w with asked := w.asked + 1 }
  ofOutcome (w.standIn w.asked p)

end Work

end CodeScribe
