import CodeScribe.Text.Chars

/-!
# Command line options

* `CommandOption.all` — the options of the program;
* `CommandLine.help` — the explanation of all options.
-/

namespace CodeScribe

inductive Takes where
  | nothing
  | text
  | oneOf (names : List String)
deriving DecidableEq, Repr

structure CommandOption where
  long : String
  short : Option Char := none
  takes : Takes := .text
  /-- The value when the option is not given. -/
  usual : Option String := none
  purpose : String
deriving DecidableEq, Repr

namespace CommandOption

/-- The options of the program, without the one for help. -/
def own : List CommandOption := [
  { long := "--source", short := some 's'
    purpose := "Source path: file path, folder path, or git repository URL" },
  { long := "--type", short := some 't', takes := .oneOf ["file", "folder", "git"]
    usual := some "auto", purpose := "Source type (auto-detect if not specified)" },
  { long := "--output", short := some 'o'
    purpose := "Output file path (default: ./docs/technical_docs.md)" },
  { long := "--provider", short := some 'p', takes := .oneOf ["ollama", "mcp"]
    purpose := "LLM provider to use (default: from config)" },
  { long := "--config", short := some 'c', purpose := "Path to config.yaml file" },
  { long := "--branch", short := some 'b', purpose := "Git branch to use (for git sources)" },
  { long := "--verbose", short := some 'v', takes := .nothing, purpose := "Verbose output" },
  { long := "--dep-map", takes := .nothing, purpose := "Generate dependency map" },
  { long := "--dep-map-format", takes := .oneOf ["json", "dot", "mermaid", "markdown"]
    usual := some "json", purpose := "Dependency map output format (default: json)" },
  { long := "--dep-map-output", purpose := "Dependency map output file path" },
  { long := "--stream", takes := .nothing
    purpose := "Stream output to file (recommended for large repos)" },
  { long := "--domain", purpose := "Domain profile name from config.yaml" },
  { long := "--all-domains", takes := .nothing
    purpose := "Generate documentation for all domain profiles" },
  { long := "--doc-structure"
    purpose :=
      "Document structure for architecture-centric docs (e.g., dotnet-cqrs, generic)" },
  { long := "--list-structures", takes := .nothing
    purpose := "List available document structures" }]

def forHelp : CommandOption where
  long := "--help"
  takes := .nothing
  purpose := "Show this message and exit."

def all : List CommandOption := own ++ [forHelp]

def named? (name : String) : Option CommandOption := all.find? (·.long == name)

def lettered? (c : Char) : Option CommandOption := all.find? (·.short == some c)

def title (o : CommandOption) : String :=
  let short := match o.short with
    | some c => "-" ++ String.ofList [c] ++ ", "
    | none => ""
  let value := match o.takes with
    | .nothing => ""
    | .text => " TEXT"
    | .oneOf names => " [" ++ Text.join "|" names ++ "]"
  short ++ o.long ++ value

/-- The names of an option as messages give them. -/
def hint (o : CommandOption) : String :=
  "'" ++ o.long ++ "'" ++ match o.short with
    | some c => " / '-" ++ String.ofList [c] ++ "'"
    | none => ""

end CommandOption

namespace CommandLine

/-! ### Help -/

/-- Break words into lines of a width; a word too long for it stands alone. -/
def wrap (width : Nat) : String → List String → List String
  | line, [] => if line == "" then [] else [line]
  | line, w :: rest =>
    if line == "" then wrap width w rest
    else if line.length + 1 + w.length ≤ width then wrap width (line ++ " " ++ w) rest
    else line :: wrap width w rest

/-- The width of the names of options, of the space around them, and of the explanations. -/
def titleWidth : Nat := 30

def purposeWidth : Nat := 44

def blank (n : Nat) : String := String.ofList (List.replicate n ' ')

/-- The lines on an option: its names, and its explanation beside or below them. -/
def helpLines (o : CommandOption) : List String :=
  let start := blank (titleWidth + 4)
  let purpose := wrap purposeWidth "" (Text.splitOn o.purpose " ")
  if o.title.length ≤ titleWidth then
    match purpose with
    | first :: rest =>
      ("  " ++ o.title ++ blank (titleWidth + 2 - o.title.length) ++ first) :: rest.map (start ++ ·)
    | [] => ["  " ++ o.title]
  else ("  " ++ o.title) :: purpose.map (start ++ ·)

def usage : String := "Usage: techdocgen [OPTIONS]"

def help : List String :=
  [usage, "", "  Generate technical documentation from source code", "", "Options:"] ++
    CommandOption.all.flatMap helpLines

end CommandLine

end CodeScribe
