import CodeScribe.Config
import CodeScribe.Data.Json
import CodeScribe.Model.Prompt

/-!
# Language models

* `Model.ask` — put a question to a model over the web.
-/

namespace CodeScribe

/-- The kinds of model servers. -/
inductive Provider where
  | ollama
  | mcp
deriving DecidableEq, Repr

namespace Provider

def name : Provider → String
  | ollama => "ollama"
  | mcp => "mcp"

def all : List Provider := [ollama, mcp]

/-- The name of a kind of server in messages. -/
def title : Provider → String
  | ollama => "Ollama"
  | mcp => "MCP"

/-- The address that a server is looked for at, unless the settings give one. -/
def standardUrl : Provider → String
  | ollama => "http://localhost:11434"
  | mcp => "http://localhost:8000"

/-- The model that is used unless the settings give one. -/
def standardModel : Provider → String
  | ollama => "llama3.2"
  | mcp => "default"

def urlKey : Provider → String
  | ollama => "base_url"
  | mcp => "server_url"

end Provider

structure Model where
  provider : Provider
  url : Value
  name : Value
  temperature : Value
  maxTokens : Value
  /-- Whether the stand-in answers in place of the server. -/
  standsIn : Bool := false

namespace Model

def ofSettings (provider : Provider) (settings : Value) : Outcome Model := do
  let maxTokens ← settings.fieldOr "max_tokens" (.int 4000)
  let url ← settings.fieldOr provider.urlKey (.text provider.standardUrl)
  let name ← settings.fieldOr "model" (.text provider.standardModel)
  let temperature ← settings.fieldOr "temperature" (.float 0.3)
  return { provider, url, name, temperature, maxTokens }

/-- The model of a provider by its name, in any case; the settings must not switch it off. -/
def create (provider settings : Value) : Outcome Model := do
  let name := Text.lower (← provider.textFor "lower")
  match Provider.all.find? (·.name == name) with
  | none => .error (.unknownProvider name)
  | some p =>
    let own ← Config.providerSettings settings (.text name)
    if !(← own.fieldOr "enabled" (.bool true)).isPresent then .error (.providerDisabled name)
    ofSettings p own

def openAt (provider settings : Value) : Work Model := do
  let m ← Work.ofOutcome (create provider settings)
  let w ← get
  set { w with opened := w.opened ++ [m.provider.name] }
  return { m with standsIn := w.standsInForAll }

/-! ### Requests -/

/-- The question in the form of the server's kind. -/
def request (m : Model) (p : Prompt) : Request :=
  let url := m.url.display
  match m.provider with
  | .ollama =>
    { method := "POST", url := url ++ "/api/generate", timeout := 300,
      json := some (.record [
        ("model", m.name),
        ("prompt", .text (if p.system == "" then p.user else p.system ++ "\n\n" ++ p.user)),
        ("stream", .bool false),
        ("options", .record [("temperature", m.temperature)])]) }
  | .mcp =>
    let turn (role content : String) : Value :=
      .record [("role", .text role), ("content", .text content)]
    { method := "POST", url := url ++ "/v1/chat/completions", timeout := 300,
      json := some (.record [
        ("model", m.name),
        ("messages", .list ((if p.system == "" then [] else [turn "system" p.system]) ++
          [turn "user" p.user])),
        ("temperature", m.temperature),
        ("max_tokens", m.maxTokens)]) }

/-! ### Answers -/

def firstOf : Value → Outcome Value
  | .list (v :: _) => .ok v
  | .list [] => .error .outOfRange
  | .text s => match s.toList with
    | c :: _ => .ok (.text (String.singleton c))
    | [] => .error .outOfRange
  | .map entries => match Value.lookup (.int 0) entries with
    | some v => .ok v
    | none => .error (.missingKey (.int 0))
  | v => .error (.notIndexable v.kind)

/-- What a server's data says: the text of its answer. -/
def answerIn (provider : Provider) (data : Value) : Outcome Value := do
  match provider with
  | .ollama => data.fieldOr "response" (.text "")
  | .mcp =>
    let chosen ← if ← data.holds "choices" then do
        let choices ← data.require "choices"
        pure (if 0 < (← choices.size) then some choices else none)
      else pure none
    match chosen with
    | some choices => (← (← firstOf choices).fieldOr "message" (.map [])).fieldOr "content" (.text "")
    | none =>
      if ← data.holds "content" then data.require "content" else return .text data.display

/-- The kinds of failure that mean that there is no connection. -/
def isDisconnection (kind : String) : Bool :=
  ["ConnectionError", "ProxyError", "SSLError", "ConnectTimeout"].contains kind

/-- What a reply says: the data in its body, unless its status tells of an error. -/
def dataOf (url : String) : Reply → Outcome Value
  | .failure kind reason => .error (.requestFailed kind reason)
  | .answer status reason body =>
    if 400 ≤ status && status < 600 then .error (.badStatus status reason url) else Json.parse body

/-- The answer of a server, trouble of all kinds being put down to it. -/
def answerOf (m : Model) (url : String) (reply : Reply) : Outcome Value :=
  match (do answerIn m.provider (← dataOf url reply)) with
  | .ok v => .ok v
  | .error (.requestFailed kind reason) =>
    if isDisconnection kind then .error (.unreachable m.provider.title m.url.display)
    else .error (.serverTrouble m.provider.title reason)
  | .error f => .error (.serverTrouble m.provider.title f.message)

def ask (m : Model) (p : Prompt) : Work Value := do
  if m.standsIn then return .text (← Work.askStandIn p)
  let r := m.request p
  Work.ofOutcome (m.answerOf r.url (← Work.send r))

end Model

end CodeScribe
