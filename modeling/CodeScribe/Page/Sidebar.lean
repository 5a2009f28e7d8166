import CodeScribe.Page.Basic

/-!
# The settings beside the page
-/

namespace CodeScribe.Page

/-- The settings of the session: those of the remembered file, or else the usual ones. -/
def loadConfig : Page Value := do
  let path := ((← get).memory.get? "config_path").getD (.text "config.yaml")
  let load : Work Value := do
    if path.isNull then Config.load none else Config.load (some (← Work.ofOutcome path.asText))
  match ← attempt (work load) with
  | .ok v => return v
  | .error _ => work (Config.load none)

/-! ### Models -/

def namesIn (data : Value) : Outcome (List Value) := do
  (← (← data.fieldOr "models" (.list [])).each).mapM fun m => m.fieldOr "name" (.text "")

/-- Names in ascending order; only texts can be ordered. -/
def sortNames (names : List Value) : Outcome (List Value) :=
  match names.find? fun v => v.text?.isNone with
  | some v => if names.length ≤ 1 then .ok names else .error (.notOrdered v.kind "str")
  | none => .ok ((Text.sort (names.filterMap (·.text?))).map .text)

def isPassedOver : Fault → Bool
  | .requestFailed .. => true
  | .badData .. => true
  | .missingKey _ => true
  | _ => false

/-- What a server says about its models; only a good answer counts. -/
def modelsIn : Reply → Outcome (List Value)
  | .answer 200 _ body => do sortNames (← namesIn (← Json.parse body))
  | .answer .. => .ok []
  | .failure kind reason => .error (.requestFailed kind reason)

/-- The models of a local server, none if it cannot be asked. -/
def modelNames (url : String) : Work (List Value) := do
  let reply ← Work.send { method := "GET", url := url ++ "/api/tags", timeout := 5 }
  match modelsIn reply with
  | .ok names => return names
  | .error fault => if isPassedOver fault then return [] else throw fault

/-! ### Settings -/

def choose (label help : String) (choices : List Value) (index : Nat) : Page Value := do
  call "selectbox" [.text label] [("options", .list choices), ("index", .nat index),
    ("help", .text help)]
  return (← entered? label []).getD (chosenAt choices index)

/-- The place of a value among others, the first if it is not there. -/
def indexIn (v : Value) (choices : List Value) : Nat := (choices.findIdx? v.same).getD 0

def providers : List Value := [.text "ollama", .text "mcp"]

def chooseProvider (usual : Value) : Page Value := do
  let label := "🤖 LLM Provider"
  let index := indexIn usual providers
  call "selectbox" [.text label, .list providers] [("index", .nat index),
    ("help", .text "Choose the LLM provider to generate documentation")]
  return (← entered? label []).getD (chosenAt providers index)

/-- The choice of no document structure. -/
def noStructure : Value := .text "Default (file-centric)"

def chooseStructure : Page Unit := do
  let w := (← get).world
  let names := (Document.StructureFolder.builtIn w.program).names w.disk
  let chosen ← choose "🧱 Document Structure"
    "Choose an architecture-centric structure or use the default file-centric output"
    (noStructure :: names.map .text) 0
  remember "doc_structure" (if chosen.same noStructure then .null else chosen)

def refreshButton (help : String) : Page Unit := do
  if ← button "🔄 Refresh Models" [wide, ("help", .text help)] then again

def chooseModel (available : List Value) (usual : Value) : Page Value := do
  if available.isEmpty then
    warning "⚠️ Could not fetch models from Ollama. Make sure Ollama is running."
    let model ← textInput "Model" [("value", usual), ("help", .text
      ("Enter Ollama model name manually (e.g., deepseek-coder:6.7b). " ++
        "Make sure the model is pulled: ollama pull <model-name>"))]
    refreshButton "Try to reload available models"
    return model
  else
    let model ← choose "Model"
      "Select an Ollama model. Make sure Ollama is running and the model is pulled."
      available (indexIn usual available)
    refreshButton "Reload available models from Ollama"
    return model

def serverSettings (config : Value) : Page Unit := do
  markdown "#### Ollama Settings"
  let address := (← work (Work.env? "OLLAMA_BASE_URL")).getD "http://localhost:11434"
  let url ← textInput "Base URL" [("value", .text address), ("help", .text "Ollama server URL")]
  let available ← work (modelNames url.display)
  let own ← ofOutcome do
    (← config.fieldOr "llm_providers" (.map [])).fieldOr "ollama" (.map [])
  let configured ← ofOutcome (own.fieldOr "model" (.text "llama3.2"))
  let usual := ((← work (Work.env? "OLLAMA_MODEL")).map Value.text).getD configured
  let model ← chooseModel available usual
  remember "ollama_url" url
  remember "ollama_model" model

def advancedSettings : Page Unit := do
  expander "🔧 Advanced Settings"
  call "number_input" [.text "Max File Size (MB)"] [("min_value", .int 1), ("max_value", .int 100),
    ("value", .int 10), ("help", .text "Maximum file size to process")]
  call "checkbox" [.text "Include Comments"] [("value", .bool true)]
  call "checkbox" [.text "Include Imports"] [("value", .bool true)]

/-- The settings beside the page; it gives the chosen provider. -/
def sidebar : Page Value := do
  markdown "### ⚙️ Configuration"
  let config ← loadConfig
  let usual ← ofOutcome (Config.defaultProvider config)
  let provider ← chooseProvider usual
  chooseStructure
  if provider.same (.text "ollama") then serverSettings config
  rule
  advancedSettings
  return provider

end CodeScribe.Page
