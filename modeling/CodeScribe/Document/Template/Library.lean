import CodeScribe.Document.Template.BuiltIn
import CodeScribe.Document.Template.Rendering
import CodeScribe.Workspace.World

/-!
# Where templates are kept

* `TemplateFolder.names`, `TemplateFolder.find?` — the templates in it;
* `TemplateFolder.fill` — fill a template, or else the default one.
-/

namespace CodeScribe.Document

/-- Where templates are kept: with the program, whose folder is given, or in a
folder of their own. -/
inductive TemplateFolder where
  | builtIn (program : String)
  | folder (path : String)
deriving DecidableEq, Repr

namespace TemplateFolder

def path : TemplateFolder → String
  | builtIn program => program ++ "/templates"
  | folder p => p

/-- The folder that a setting names, made if it is not there. -/
def ofSetting (setting : Value) : Work TemplateFolder := do
  if !setting.isPresent then return builtIn (← get).program
  match setting with
  | .text s =>
    let p := Path.normal s
    Work.changeDisk (·.makeFolders p)
    return folder p
  | v => throw (.notText v.kind)

def names (disk : Disk) : TemplateFolder → List String
  | builtIn _ => Text.sort (builtInTemplates.map (·.1))
  | folder p => (disk.namesIn p).filter (Text.endsWith · ".md")

/-- The text of a template; a name must not lead out of the folder. -/
def find? (disk : Disk) (name : String) (f : TemplateFolder) : Outcome (Option String) :=
  let pieces := Text.splitOn name "/"
  if pieces.contains ".." then .ok none
  else
    let inner := Text.join "/" (pieces.filter fun p => p != "" && p != ".")
    match f with
    | builtIn _ => .ok (builtInTemplates.lookup inner)
    | folder p =>
      match disk.read? (Path.below p inner) with
      | some c => do return some (← c.readStrictly)
      | none => .ok none

/-- The name of the template that stands in for those that are missing. -/
def defaultName : String := "default.md"

def fill (disk : Disk) (f : TemplateFolder) (name : String) (names : Table Value) :
    Outcome String := do
  match ← f.find? disk name with
  | some text => (← Template.ofString text).fill names
  | none =>
    match ← f.find? disk defaultName with
    | some text => (← Template.ofString text).fill names
    | none => .error (.templateNotFound defaultName f.path)

def ensureDefault (f : TemplateFolder) : Work String := do
  let file := Path.below f.path defaultName
  match f with
  | builtIn _ => return file
  | folder _ =>
    if !(← Work.disk).isThere file then
      Work.changeDisk (·.write file (.text defaultTemplate))
    return file

end TemplateFolder

end CodeScribe.Document
