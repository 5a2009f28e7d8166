import CodeScribe.Scribe.Basic

/-!
# The page

The page is shown as a sequence of calls of its elements.  What the user entered is read where an
element is shown, and a session remembers values from one showing to the next.

* `Page.markdown`, `Page.button`, … — the elements.
-/

namespace CodeScribe

structure Call where
  element : String
  args : List Value := []
  options : Table Value := []

inductive DiagramView where
  /-- Diagrams cannot be shown. -/
  | missing
  | working
  /-- Diagrams are shown, but showing them fails. -/
  | failing
deriving DecidableEq, Repr

/-- What ends a showing early: a fault, or the wish to be shown again. -/
inductive Halt where
  | fault (f : Fault)
  | again

/-- What is kept while the page is shown, and from one showing to the next. -/
structure Session where
  world : World
  /-- What the user entered, by the names of the elements. -/
  entered : Table Value := []
  memory : Table Value := []
  /-- The last analysis of dependencies. -/
  graph : Option Dependency.Graph := none
  /-- Whether a printer was found. -/
  printer : Bool := false
  calls : List Call := []
  /-- The number of files that were uploaded. -/
  uploads : Nat := 0
  diagrams : DiagramView := .missing
  /-- Whether tables can be shown. -/
  tables : Bool := false

abbrev Page := ExceptT Halt (StateM Session)

namespace Page

/-! ### Faults -/

/-- How showing ends in a session, and the session after it. -/
def runIn {α : Type} (p : Page α) (s : Session) : Except Halt α × Session := (ExceptT.run p).run s

def ofOutcome {α : Type} (x : Outcome α) : Page α := ExceptT.mk (pure (x.mapError Halt.fault))

def work {α : Type} (w : Work α) : Page α := ExceptT.mk do
  let s ← get
  let (result, world) := Work.runIn w s.world
  set { s with world }
  return result.mapError Halt.fault

/-- Show something and hand on how it ended; the wish to be shown again is not held up. -/
def attempt {α : Type} (p : Page α) : Page (Outcome α) := ExceptT.mk do
  match ← p.run with
  | .ok a => return .ok (.ok a)
  | .error (.fault f) => return .ok (.error f)
  | .error .again => return .error .again

/-- Show something, and do something else after it in any case. -/
def ensure {α : Type} (p : Page α) (after : Page Unit) : Page α := ExceptT.mk do
  let result ← p.run
  match ← after.run with
  | .ok _ => return result
  | .error h => return .error h

/-! ### Memory -/

/-- A remembered value, nothing if there is none. -/
def known (key : String) : Page Value := do return ((← get).memory.get? key).getD .null

def remember (key : String) (v : Value) : Page Unit :=
  modify fun s => { s with memory := s.memory.set key v }

/-! ### Elements -/

def call (element : String) (args : List Value) (options : Table Value) : Page Unit :=
  modify fun s => { s with calls := s.calls ++ [⟨element, args, options⟩] }

/-- What the user entered into an element, by its key or else by its label. -/
def entered? (label : String) (options : Table Value) : Page (Option Value) := do
  let name := ((options.get? "key").bind (·.text?)).getD label
  return (← get).entered.get? name

def shown (element s : String) : Page Unit := call element [.text s] []

def markdown (s : String) : Page Unit := shown "markdown" s

def html (s : String) : Page Unit := call "markdown" [.text s] [("unsafe_allow_html", .bool true)]

/-- A line between parts. -/
def rule : Page Unit := markdown "---"

def info (s : String) : Page Unit := shown "info" s

def warning (s : String) : Page Unit := shown "warning" s

def success (s : String) : Page Unit := shown "success" s

def failure (s : String) : Page Unit := shown "error" s

def text (s : String) : Page Unit := shown "text" s

def caption (s : String) : Page Unit := shown "caption" s

def code (s : String) : Page Unit := shown "code" s

def diagramCode (s : String) : Page Unit :=
  call "code" [.text s] [("language", .text "mermaid")]

/-- A part that can be folded away. -/
def expander (s : String) : Page Unit := shown "expander" s

def metric (name : String) (v : Value) : Page Unit := call "metric" [.text name, v] []

def columns (v : Value) : Page Unit := call "columns" [v] []

def textInput (label : String) (options : Table Value) : Page Value := do
  call "text_input" [.text label] options
  return ((← entered? label options).or (options.get? "value")).getD (.text "")

def chosenAt (choices : List Value) (index : Nat) : Value := (choices[index]?).getD .null

def button (label : String) (options : Table Value) : Page Bool := do
  call "button" [.text label] options
  return ((← entered? label options).getD (.bool false)).isPresent

/-- A wide button has this option. -/
def wide : String × Value := ("use_container_width", .bool true)

def download (label : String) (data : Value) (fileName mime : String) (more : Table Value) :
    Page Unit :=
  call "download_button" [] ([("label", .text label), ("data", data),
    ("file_name", .text fileName), ("mime", .text mime), wide] ++ more)

def again {α : Type} : Page α := do
  call "rerun" [] []
  throw .again

def progress (n : Nat) : Page Unit := call "progress.progress" [.nat n] []

/-- The text beside a bar of progress. -/
def status (s : String) : Page Unit := shown "empty.text" s

/-- The details of a fault, folded away. -/
def details (s : String) : Page Unit := do
  expander "🔍 Error Details"
  code s

/-- A diagram; where it cannot be shown, its code is. -/
def diagram (s : String) : Page Unit := do
  call "st_mermaid" [.text s] []
  if (← get).diagrams == .failing then throw (.fault (.failed "render failed"))

def diagramHint : Page Unit :=
  info "💡 Install streamlit-mermaid to view diagrams: `pip install streamlit-mermaid`"

def undrawn (fault : Fault) (s : String) : Page Unit := do
  warning ("⚠️ Could not render diagram: " ++ fault.message)
  expander "View diagram code"
  diagramCode s

end Page

end CodeScribe
