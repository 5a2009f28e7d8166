import CodeScribe.Data.Record
import CodeScribe.Workspace.World

/-!
# Questions to language models

* `Prompt.systemText` — the rules for documentation of source code;
* `Prompt.userText` — the facts of a source file as a question, part by part.
-/

namespace CodeScribe.Prompt

def systemText (language : String) : String :=
  Text.join "\n" [
    "You are a technical documentation expert. Generate comprehensive, well-structured technical documentation for "
      ++ language ++ " source code.",
    "",
    "Your documentation should include:",
    "1. Overview and purpose",
    "2. Architecture and structure",
    "3. Key components (classes, functions, interfaces)",
    "4. Usage examples",
    "5. API documentation",
    "6. Dependencies and imports",
    "",
    "Format the output in clear, professional markdown with proper headings, code blocks, and explanations."]

def given? (v : Value) (key : String) : Outcome (Option Value) := do
  if ← v.holds key then
    let x ← v.require key
    return if x.isPresent then some x else none
  else return none

def partOf (v : Value) (key : String) (write : Value → Outcome String) : Outcome String := do
  match ← given? v key with
  | some x => write x
  | none => return ""

def chunkPart (chunk : Value) : Outcome String := do
  if !chunk.isPresent then return ""
  let index ← chunk.fieldOr "index" (.int 1)
  let total ← chunk.fieldOr "total" (.int 1)
  return "Note: This is chunk " ++ index.display ++ " of " ++ total.display ++
    " for a large file.\n\n"

/-- Where the declarations belong. -/
def homePart (info : Value) : Outcome String := do
  if ← info.holds "namespace" then
    return "Namespace: " ++ (← info.require "namespace").display ++ "\n\n"
  else if ← info.holds "package" then
    return "Package: " ++ (← info.require "package").display ++ "\n\n"
  else return ""

def importLines (title : String) (v : Value) : Outcome String := do
  return title ++ ":\n" ++ Text.join "\n" ((← v.each).map fun i => "- " ++ i.display) ++ "\n\n"

/-- The imports under the first of their three names that gives some. -/
def importPart (info : Value) : Outcome String := do
  match ← given? info "imports" with
  | some v => importLines "Imports" v
  | none =>
    match ← given? info "using" with
    | some v => importLines "Using statements" v
    | none => partOf info "use" (importLines "Use statements")

def countLine (v : Value) (key title : String) : Outcome String := do
  if ← v.holds key then
    return "  " ++ title ++ ": " ++ toString (← (← v.require key).size) ++ "\n"
  else return ""

/-- A class with its relatives and the number of its members. -/
def classLines (cls : Value) : Outcome String := do
  let name ← cls.require "name"
  let extended ← partOf cls "extends" fun v => .ok (" extends " ++ v.display)
  let implemented ← partOf cls "implements" fun v => do
    return " implements " ++ (← v.joined ", ")
  let inherited ← partOf cls "inherits" fun v => do return " : " ++ (← v.joined ", ")
  let methods ← countLine cls "methods" "Methods"
  let fields ← countLine cls "fields" "Fields"
  let properties ← countLine cls "properties" "Properties"
  return "\n- " ++ name.display ++ extended ++ implemented ++ inherited ++ "\n" ++ methods ++
    fields ++ properties

def classPart (info : Value) : Outcome String :=
  partOf info "classes" fun v => do
    return "Classes:\n" ++ String.join (← (← v.each).mapM classLines) ++ "\n"

def namePart (info : Value) (key title : String) : Outcome String :=
  partOf info key fun v => do
    let names ← (← v.each).mapM (·.require "name")
    return title ++ ":\n" ++ String.join (names.map fun n => "- " ++ n.display ++ "\n") ++ "\n"

def countPart (info : Value) (key title : String) : Outcome String :=
  partOf info key fun v => do return title ++ ": " ++ toString (← v.size) ++ "\n\n"

/-- Texts joined by commas, or a note that there are none. -/
def joinedOrNone (v : Value) : Outcome String := do
  let s ← v.joined ", "
  return if s == "" then "N/A" else s

def flowLine (flow : Value) : Outcome String := do
  let consumers ← joinedOrNone (← flow.fieldOr "consumers" (.list []))
  let sagas ← joinedOrNone (← flow.fieldOr "sagas" (.list []))
  return "- Queue " ++ (← flow.fieldOrNull "queue").display ++ ": consumers=" ++ consumers ++
    "; sagas=" ++ sagas ++ "\n"

def listPart (flows : Value) (key title : String) : Outcome String := do
  let v ← flows.fieldOrNull key
  if v.isPresent then return title ++ ": " ++ (← v.joined ", ") ++ "\n\n" else return ""

def messagingPart (info : Value) : Outcome String :=
  partOf info "messaging_flows" fun flows => do
    let queues ← flows.fieldOrNull "flows"
    let lines ← if queues.isPresent then do
        pure ("Messaging Flows:\n" ++ String.join (← (← queues.each).mapM flowLine) ++ "\n")
      else pure ""
    let published ← listPart flows "publishes" "Publishes"
    let sent ← listPart flows "sends" "Sends"
    let addresses ← listPart flows "send_endpoints" "Send endpoints"
    return lines ++ published ++ sent ++ addresses

def userText (info : Value) (language : String) (chunk : Value) : Outcome String := do
  let parts ← [
    chunkPart chunk,
    homePart info,
    importPart info,
    classPart info,
    namePart info "interfaces" "Interfaces",
    namePart info "enums" "Enums",
    namePart info "types" "Type Aliases",
    countPart info "functions" "Functions",
    messagingPart info,
    countPart info "comments" "Comments found"].mapM id
  return "Generate technical documentation for the following " ++ language ++ " code:\n\n" ++
    String.join parts ++
    "\nPlease generate comprehensive technical documentation for this code."

/-- The question for the documentation of a source file, or of a part of it. -/
def documentation (info : Value) (language : String) (chunk : Value) : Outcome Prompt := do
  return ⟨← userText info language chunk, systemText language⟩

end CodeScribe.Prompt
