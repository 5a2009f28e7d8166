import CodeScribe.Data.Record
import CodeScribe.Data.Yaml.Load
import CodeScribe.Workspace.World

/-!
# Settings

Settings are loosely structured data from a file, overruled in a few places by the environment.

* `Config.documentation`, `Config.provider` — often used parts.
-/

namespace CodeScribe.Config

open Value

/-- The settings without a file. -/
def standard : Value :=
  record [
    ("languages", texts ["java", "csharp", "php", "javascript", "typescript", "markup", "config"]),
    ("extensions", record [
      ("java", texts [".java"]),
      ("csharp", texts [".cs"]),
      ("php", texts [".php"]),
      ("javascript", texts [".js", ".jsx", ".mjs", ".cjs"]),
      ("typescript", texts [".ts", ".tsx"]),
      ("markup", texts [".html", ".htm"]),
      ("config", texts [".json", ".yaml", ".yml"])]),
    ("llm_providers", record [
      ("ollama", record [
        ("enabled", bool true),
        ("model", text "llama3.2"),
        ("base_url", text "http://localhost:11434")])]),
    ("default_llm_provider", text "ollama"),
    ("documentation", record [
      ("include_comments", bool true),
      ("include_imports", bool true),
      ("include_methods", bool true),
      ("include_classes", bool true),
      ("include_functions", bool true),
      ("include_patterns", list []),
      ("streaming_mode", bool false),
      ("chunk_size_chars", int 0),
      ("chunk_overlap_chars", int 0)]),
    ("output", record [
      ("format", text "markdown"),
      ("directory", text "./docs")])]

/-- Give a key of a table a value; nothing else can take one. -/
def assign (key : String) (value : Value) : Value → Outcome Value
  | map entries => .ok (map (insert (text key) value entries))
  | other => .error (.wrongKind ("'" ++ other.kind ++ "' object does not support item assignment"))

/-- Change a table inside a table; one that is not there starts empty. -/
def within (key : String) (change : Value → Outcome Value) (v : Value) : Outcome Value := do
  let entries ← v.entriesFor "setdefault"
  let inner ← change ((lookup (text key) entries).getD (map []))
  return map (insert (text key) inner entries)

/-- Overrule a setting of the local model server, if the environment gives one. -/
def overruleServer (key : String) (given : Option String) (v : Value) : Outcome Value :=
  match given with
  | some s => if s == "" then .ok v else within "llm_providers" (within "ollama" (assign key (text s))) v
  | none => .ok v

/-- Overrule the choice of the provider, if the environment gives one. -/
def overruleProvider (given : Option String) (v : Value) : Outcome Value :=
  match given with
  | some s => if s == "" then .ok v else assign "default_llm_provider" (text s) v
  | none => .ok v

/-- The settings in a file, or the standard ones without it. -/
def read (path : String) : Work Value := do
  let disk ← Work.disk
  let path := Path.normal path
  if !disk.isThere path then return standard
  let content ← Work.ofOutcome (disk.read path)
  return (← Work.ofOutcome (Yaml.loadFrom path (← Work.ofOutcome content.readStrictly))).orElse (map [])

/-- The settings of a run: those in a file, overruled by the environment. -/
def load (path : Option String) : Work Value := do
  let path := match path with
    | some p => if p == "" then "config.yaml" else p
    | none => "config.yaml"
  let v ← read path
  let v ← Work.ofOutcome (overruleServer "base_url" (← Work.env? "OLLAMA_BASE_URL") v)
  let v ← Work.ofOutcome (overruleServer "model" (← Work.env? "OLLAMA_MODEL") v)
  Work.ofOutcome (overruleProvider (← Work.env? "DEFAULT_LLM_PROVIDER") v)

/-- Follow names into tables; what is nothing or no table gives the default. -/
def follow (default : Value) : List String → Value → Value
  | [], v => v
  | key :: rest, v =>
    match v with
    | map entries =>
      match (lookup (text key) entries).getD null with
      | null => default
      | inner => follow default rest inner
    | _ => default

/-- A setting by the names on the way to it, separated by points. -/
def get (settings : Value) (key : String) (default : Value) : Value :=
  follow default (Text.splitOn key ".") settings

def providerSettings (settings : Value) (provider : Value) : Outcome Value := do
  let providers ← settings.fieldOr "llm_providers" (map [])
  let entries ← providers.entriesFor "get"
  return (lookup (← provider.asKey) entries).getD (map [])

/-- The model provider to use unless another one is asked for. -/
def defaultProvider (settings : Value) : Outcome Value :=
  settings.fieldOr "default_llm_provider" (text "ollama")

def documentation (settings : Value) : Outcome Value := settings.fieldOr "documentation" (map [])

end CodeScribe.Config
