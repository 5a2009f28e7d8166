import CodeScribe.Page.Basic

/-!
# Working with the chosen model

While something is made, the environment holds the chosen model; afterwards it is put back.
-/

namespace CodeScribe.Page

/-- What the environment held before, as far as it was kept. -/
structure Kept where
  model : Option String := none
  url : Option String := none
deriving DecidableEq, Repr

def isLocal (provider : Value) : Bool := provider.same (.text "ollama")

/-- Whether a choice is put into the environment: the provider is the local one, and a model was
chosen. -/
def applies (provider : Value) : Page Bool := do
  return isLocal provider && (← known "ollama_model").isPresent

/-- What has to be kept of the environment: nothing if it is not changed. -/
def keep (provider : Value) : Page Kept := do
  if ← applies provider then
    return ⟨← work (Work.env? "OLLAMA_MODEL"), ← work (Work.env? "OLLAMA_BASE_URL")⟩
  else return {}

def envText : Value → Outcome String
  | .text s => .ok s
  | v => .error (.wrongKind ("str expected, not " ++ v.kind))

/-- Put the chosen model and address into the environment. -/
def applyChoice (provider : Value) : Page Unit := do
  if ← applies provider then
    let model ← ofOutcome (envText (← known "ollama_model"))
    work (Work.setEnv "OLLAMA_MODEL" (some model))
    let url ← known "ollama_url"
    if url.isPresent then
      let address ← ofOutcome (envText url)
      work (Work.setEnv "OLLAMA_BASE_URL" (some address))

/-- Put back what was kept; with the local provider, what was not kept is removed. -/
def putBack (provider : Value) (kept : Kept) : Page Unit := do
  if isLocal provider then
    work (Work.setEnv "OLLAMA_MODEL" kept.model)
    work (Work.setEnv "OLLAMA_BASE_URL" kept.url)

def tellFault (fault : Fault) : Page Unit := do
  progress 0
  status "❌ Error occurred"
  failure ("❌ Error: " ++ fault.message)

/-- Make something with the chosen model.  A bar tells of progress, faults are told, and the
environment is put back in any case. -/
def withChoice (provider : Value) (opening : String) (make : Page Unit)
    (onFault : Fault → Page Unit) : Page Unit := do
  call "progress" [.nat 0] []
  call "empty" [] []
  let kept ← keep provider
  let body : Page Unit := do
    status opening
    progress 10
    applyChoice provider
    make
  ensure (do
    match ← attempt body with
    | .ok _ => return
    | .error fault =>
      tellFault fault
      onFault fault
      details Document.traceText) (putBack provider kept)

end CodeScribe.Page
