import CodeScribe.Data.Record
import CodeScribe.Text.Pattern

/-!
# Sequence drawings of classes

A drawing of the calls between the classes of one source, made from the facts of the source or
from a reply of a language model.
-/

namespace CodeScribe.ClassSequence

open Pattern

/-- How drawings are made: with cleaned names and only if asked for, or with names as they are
and unless refused. -/
inductive Style where
  | guarded
  | plain
deriving DecidableEq, Repr

/-! ### Settings -/

def isOn : Value → Bool
  | .bool b => b
  | _ => false

def isOff : Value → Bool
  | .bool b => !b
  | _ => false

/-- Whether the settings ask for drawings. -/
def enabled (style : Style) (config : Value) : Outcome Bool := do
  let config := config.orElse (.map [])
  let output ← config.fieldOr "output" (.map [])
  let architecture ← output.fieldOr "include_architecture_diagram" (.bool false)
  match style with
  | .guarded =>
    let documentation ← config.fieldOr "documentation" (.map [])
    let wanted ← documentation.fieldOr "include_sequence_diagrams" (.bool false)
    return isOn wanted || (isOn architecture && !isOff wanted)
  | .plain =>
    if architecture.isPresent then return true
    let documentation ← config.fieldOr "documentation" (.map [])
    return (← documentation.fieldOr "include_sequence_diagrams" (.bool true)).isPresent

/-! ### Names -/

/-- A text with word characters only, underscores trimmed. -/
def cleanName (name : String) : String :=
  let cs := Chars.trimOf (· == '_') (name.toList.map fun c => if Text.isWord c then c else '_')
  if cs.isEmpty then "Unknown" else String.ofList cs

def cleanNameOf (v : Value) : Outcome String := do
  if !v.isPresent then return "Unknown"
  return cleanName (← v.asText)

def shown (style : Style) (v : Value) : Outcome String :=
  match style with
  | .guarded => cleanNameOf v
  | .plain => .ok v.display

/-! ### Facts of classes -/

/-- A class and its methods, as far as the facts give them. -/
structure ClassFacts where
  name : Option Value
  methods : List Value

def classesOf (info : Value) : Outcome (List ClassFacts) := do
  (← (← info.fieldOr "classes" (.list [])).each).mapM fun c => do
    let name ← c.field "name"
    let methods ← (← c.fieldOr "methods" (.list [])).each
    return ⟨name, methods⟩

def ClassFacts.methodNames (c : ClassFacts) : Outcome (List Value) :=
  c.methods.mapM fun m => m.fieldOr "name" (.text "")

/-! ### Calls -/

/-- A call of one class by another. -/
structure Interaction where
  caller : Value
  callee : Value
  method : String

def callPattern : Pattern :=
  group 1 (name ++ star (char '.' ++ name)) ++ blanks ++ char '.' ++ blanks ++ group 2 name ++
    blanks ++ char '('

/-- The methods of each class, by name; the last class of a name counts. -/
def methodTable (classes : List ClassFacts) : Outcome (List (Value × List Value)) :=
  classes.foldlM (fun table c => do
    let names ← c.methodNames
    let key ← (c.name.getD (.text "")).asKey
    if table.any fun e => e.1.same key then
      return table.map fun e => if e.1.same key then (e.1, names) else e
    else return table ++ [(key, names)]) []

/-- The calls of other classes that a source shows; the first class is taken for the caller. -/
def interactions (language : String) (classes : List ClassFacts) (code : List Char) :
    Outcome (List Interaction) := do
  let table ← methodTable classes
  if language != "java" then return []
  let caller := (classes.head?.bind (·.name)).getD .null
  return (callPattern.findAll code).flatMap fun m => table.filterMap fun (callee, methods) =>
    if methods.any (·.same (.text (m.get 2))) && caller.isPresent && !caller.same callee then
      some ⟨caller, callee, m.get 2⟩
    else none

def opening : String := "```mermaid\nsequenceDiagram\n"

def callLines (caller callee method : String) : String :=
  "    " ++ caller ++ "->>" ++ callee ++ ": " ++ method ++ "\n    activate " ++ callee ++ "\n    " ++
    callee ++ "-->>" ++ caller ++ ": return\n    deactivate " ++ callee ++ "\n\n"

def drawCalls (style : Style) (calls : List Interaction) : Outcome String := do
  let names ← (calls.flatMap fun c => [c.caller, c.callee]).mapM (·.asText)
  let participants ← (Text.sortDistinct names).mapM fun n => shown style (.text n)
  let lines ← (calls.take 10).mapM fun c => do
    let caller ← shown style c.caller
    let callee ← shown style c.callee
    let method ← shown style (.text c.method)
    return callLines caller callee (method ++ "()")
  return opening ++ String.join (participants.map fun p => "    participant " ++ p ++ "\n") ++
    "\n" ++ String.join lines ++ "```\n"

/-! ### Drawings without calls -/

/-- Methods that every object has. -/
def commonMethods : List String := ["equals", "hashCode", "toString"]

def isAmong (v : Value) (names : List String) : Bool := names.any fun n => v.same (.text n)

/-- Whether a method is public, or nothing is known about that. -/
def isOpen (m : Value) : Outcome Bool := do
  let modifiers ← m.fieldOr "modifiers" (.list [])
  return (← modifiers.holds "public") || !modifiers.isPresent

/-- The name of a class, or else a name made from its position. -/
def ClassFacts.nameAt (c : ClassFacts) (i : Nat) : Value :=
  c.name.getD (.text ("Class" ++ toString i))

def firstOpen : List Value → Outcome Value
  | [] => .ok (.text "process")
  | m :: rest => do
    let name ← m.fieldOr "name" (.text "")
    if name.isPresent && !isAmong name commonMethods then
      if ← isOpen m then return name
    firstOpen rest

def classNote (c : ClassFacts) : Outcome String := do
  let methods := c.methods.take 5
  if methods.isEmpty then return "Empty class"
  let names ← methods.mapM fun m => m.fieldOrNull "name"
  let count := (names.filter fun n =>
    n.isPresent && !isAmong n (commonMethods ++ ["__init__", "__str__"])).length
  return if count > 0 then "Contains " ++ toString count ++ " method(s)" else "Class definition"

def guardedStep (i : Nat) (a b : ClassFacts) : Outcome String := do
  let caller ← cleanNameOf (a.nameAt i)
  let callee ← cleanNameOf (b.nameAt (i + 1))
  let method ← cleanNameOf (← firstOpen b.methods)
  return callLines caller callee (method ++ "()")

/-- The calls of classes one after the other, from position `i` on. -/
def stepsFrom (step : Nat → ClassFacts → ClassFacts → Outcome String) :
    Nat → List ClassFacts → Outcome String
  | i, a :: b :: rest => do
    let first ← step i a b
    return first ++ (← stepsFrom step (i + 1) (b :: rest))
  | _, _ => .ok ""

def drawGuarded (classes : List ClassFacts) : Outcome String := do
  let names ← classes.mapM fun c => cleanNameOf (c.name.getD (.text "Unknown"))
  let head := opening ++ String.join (names.map fun n => "    participant " ++ n ++ "\n") ++ "\n"
  match classes with
  | [c] =>
    let name ← cleanNameOf (c.name.getD (.text "Unknown"))
    return head ++ "    Note right of " ++ name ++ ": " ++ (← classNote c) ++ "\n```\n"
  | _ => return head ++ (← stepsFrom guardedStep 0 classes) ++ "```\n"

/-- The first method that is public or of which nothing is known, called. -/
def firstCall : List Value → Outcome String
  | [] => .ok "process()"
  | m :: rest => do
    if ← isOpen m then
      match ← m.fieldOr "name" (.text "process()") with
      | .text s => return s ++ "()"
      | v => .error (.noOperator "+" v.kind "str")
    else firstCall rest

def plainClass (i : Nat) (c : ClassFacts) : Outcome String := do
  let name := (c.nameAt i).display
  let methods ← (c.methods.take 3).mapM fun m => m.fieldOr "name" (.text "")
  let calls := (methods.filter fun n => n.isPresent && !isAmong n commonMethods).map fun n =>
    "    " ++ name ++ "->>" ++ name ++ ": " ++ n.display ++ "()\n"
  return "    activate " ++ name ++ "\n" ++ String.join calls ++ "    deactivate " ++ name ++ "\n\n"

def plainStep (i : Nat) (a b : ClassFacts) : Outcome String := do
  return callLines (a.nameAt i).display (b.nameAt (i + 1)).display (← firstCall b.methods)

/-- The drawing of classes without calls, with names as they are. -/
def drawPlain (classes : List ClassFacts) : Outcome String := do
  let own ← (classes.mapIdx fun i c => (i, c)).mapM fun (i, c) => plainClass i c
  return opening ++ String.join own ++ (← stepsFrom plainStep 0 classes) ++ "```\n"

/-- The drawing of a source, or what is wrong with its facts; nothing if there is nothing to
draw. -/
def tryDraw (style : Style) (info : Value) (code : List Char) (language : String) :
    Outcome (Option String) := do
  let classes ← classesOf info
  if classes.isEmpty then return none
  let calls ← interactions language classes code
  if !calls.isEmpty then return some (← drawCalls style calls)
  match style with
  | .guarded => return some (← drawGuarded (classes.take 5))
  | .plain => if classes.length < 2 then return none else return some (← drawPlain (classes.take 5))

/-- The drawing of a source, if drawings are wanted and its facts allow one. -/
def draw (style : Style) (wanted : Bool) (info : Value) (code : List Char) (language : String) :
    Option String :=
  if wanted then ((tryDraw style info code language).toOption).join else none

/-! ### Drawings by a model -/

/-- What a model is told about its task. -/
def systemPrompt : String :=
  "You are a code analysis expert. Generate clear, concise sequence diagrams."

/-- The question to a model; none if there are no classes. -/
def prompt (info : Value) (code : List Char) : Outcome (Option String) := do
  let listed ← info.fieldOr "classes" (.list [])
  if !listed.isPresent then return none
  let classes ← listed.each
  let parts ← (classes.take 5).mapM fun c => do
    let name ← c.fieldOr "name" (.text "Unknown")
    let methods ← (← c.fieldOr "methods" (.list [])).each
    let lines ← (methods.take 5).mapM fun m => do
      return "  - " ++ (← m.fieldOr "name" (.text "unknown")).display ++ "()\n"
    return "\nClass: " ++ name.display ++ "\n" ++ String.join lines
  return some (
    "Analyze the following code and generate a Mermaid sequence diagram showing the main method " ++
    "calls and interactions between classes.\n\nCode structure:\n" ++ String.join parts ++
    "\n\nCode snippet (first 1000 chars):\n" ++ String.ofList (code.take 1000) ++
    "\n\nGenerate a Mermaid sequence diagram showing the main flow and interactions. Focus on:\n" ++
    "1. Main entry points\n2. Key method calls between classes\n3. Important data flows\n\n" ++
    "Return ONLY the Mermaid diagram code block, nothing else.")

def participantPattern : Pattern :=
  litAnyCase "participant" ++ blanks1 ++
    group 1 (span1 fun c => !Text.isBlank c && c != ':')

/-- An arrow with its text, which runs up to the next backslash or letter n. -/
def arrowPattern : Pattern :=
  group 1 name ++ blanks ++ group 2 (words ["->>", "-->>", "->", "--"]) ++ blanks ++
    group 3 name ++ blanks ++ char ':' ++ blanks ++ group 4 (span1 (noneOf "\\n"))

def activationPattern : Pattern :=
  group 1 (wordsAnyCase ["activate", "deactivate"]) ++ blanks1 ++
    group 2 (span1 fun c => !Text.isBlank c)

def cleanParticipant (line : List Char) : List Char :=
  match participantPattern.find? line with
  | some m =>
    let declared := litAnyCase "participant" ++ blanks1 ++ litAnyCase (m.get 1)
    declared.replaceAll (fun _ => ("participant " ++ cleanName (m.get 1)).toList) line
  | none => line

def isArrowText (c : Char) : Bool := Text.isWord c || among "()[]." c

def cleanArrow (m : Match) : List Char :=
  let text := (Chars.trim ((m.chars? 4).getD [])).map fun c => if isArrowText c then c else '_'
  (cleanName (m.get 1) ++ m.get 2 ++ cleanName (m.get 3) ++ ": ").toList ++ text

def cleanActivation (line : List Char) : List Char :=
  match activationPattern.find? line with
  | some m => ("    " ++ Text.lower (m.get 1) ++ " " ++ cleanName (m.get 2)).toList
  | none => line

def mentions (line : List Char) (word : String) : Bool :=
  Chars.contains (Text.lowerChars line) word.toList

def cleanLine (line : List Char) : List Char :=
  let line := if mentions line "participant" then cleanParticipant line else line
  let line := arrowPattern.replaceAll cleanArrow line
  if mentions line "activate" then cleanActivation line else line

/-- A drawing with its names cleaned; comments and leading empty lines go. -/
def clean (code : String) : String :=
  let lines := ((Chars.splitOn ['\n'] code.toList).dropWhile fun l =>
    let t := Chars.trim l
    t.isEmpty || "%%".toList.isPrefixOf t).filter fun l =>
      !"%%".toList.isPrefixOf (Chars.trim l)
  Text.join "\n" (lines.map fun l => String.ofList (cleanLine l))

def isValid (code : String) : Bool :=
  let declarations := (Chars.splitOn ['\n'] code.toList).filter (mentions · "participant")
  let wellFormed := blanks ++ lit "participant" ++ blanks1 ++ name
  Text.contains code "sequenceDiagram" && !declarations.isEmpty &&
    declarations.all fun l => (wellFormed.matchStart? l).isSome

def fenced (code : String) : Option String :=
  let cleaned := clean code
  if isValid cleaned then some ("```mermaid\n" ++ cleaned ++ "\n```\n") else none

/-- The place of the first fenced drawing in a reply: where it opens, and where it closes if it
does. -/
def fence? (reply : List Char) : Option (Nat × Option Nat) :=
  (Chars.find? "```mermaid".toList reply).map fun start =>
    (start, Chars.findFrom? "```".toList (start + 10) reply)

def ofReply (style : Style) (reply : String) : Option String :=
  let cs := reply.toList
  match style, fence? cs with
  | .guarded, some (start, some stop) =>
    let code := String.ofList (Chars.trim ((cs.take stop).drop (start + 10)))
    if Text.contains code "sequenceDiagram" then fenced code else none
  | .guarded, some (_, none) => none
  | .plain, some (start, some stop) => some (String.ofList ((cs.take (stop + 3)).drop start) ++ "\n")
  | .plain, some (_, none) => some reply
  | style, none =>
    if Text.contains reply "sequenceDiagram" then
      match style with
      | .guarded => fenced reply
      | .plain => some ("```mermaid\n" ++ reply ++ "\n```\n")
    else none

end CodeScribe.ClassSequence
