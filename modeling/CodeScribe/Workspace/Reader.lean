import CodeScribe.Config
import CodeScribe.Source.File
import CodeScribe.Workspace.Glob

/-!
# Reading source files

* `Reader.file`, `Reader.folder` — the source files that a path leads to.
-/

namespace CodeScribe

/-- The largest size of a file that is read. -/
inductive SizeLimit where
  | whole (bytes : Int)
  | real (bytes : Float)
  /-- A limit that no size can be compared with. -/
  | unusable

namespace SizeLimit

/-- The limit that a number of megabytes stands for. -/
def ofMegabytes : Value → Outcome SizeLimit
  | .bool b => .ok (.whole (if b then 1048576 else 0))
  | .int n => .ok (.whole (n * 1048576))
  | .float x => .ok (.real (x * 1024 * 1024))
  | .text _ => .ok .unusable
  | .list _ => .ok .unusable
  | .bytes _ => .ok .unusable
  | v => .error (.noOperator "*" v.kind "int")

/-- Whether a number of bytes keeps to the limit. -/
def allows : SizeLimit → Nat → Bool
  | whole limit, size => decide ((size : Int) ≤ limit)
  | real limit, size => decide (Float.ofNat size ≤ limit)
  | unusable, _ => false

end SizeLimit

/-- Which files are taken. -/
structure Selection where
  config : Value
  exclude : Value
  included : Value
  limit : SizeLimit

namespace Selection

def ofConfig (config : Value) : Outcome Selection := do
  let config := config.orElse (.map [])
  let documentation ← config.fieldOr "documentation" (.map [])
  let exclude ← documentation.fieldOr "exclude_patterns" (.list [])
  let included ← documentation.fieldOr "include_patterns" (.list [])
  let limit ← SizeLimit.ofMegabytes (← documentation.fieldOr "max_file_size_mb" (.int 10))
  return ⟨config, exclude, included, limit⟩

/-- Whether a path fits a pattern, or holds what is left of it without double stars. -/
def covers (pattern path : String) : Bool :=
  let pattern := Text.replace pattern "\\" "/"
  Glob.fits pattern (Text.replace path "\\" "/") ||
    Text.contains path (Text.replace (Text.replace pattern "**/" "") "**" "")

/-- Whether a path is covered by one of several patterns, tried in order. -/
def coveredBy (path : String) : List Value → Outcome Bool
  | [] => .ok false
  | p :: rest => do
    if covers (← p.textFor "replace") path then return true else coveredBy path rest

def excludes (s : Selection) (path : String) : Outcome Bool := do
  coveredBy path (← s.exclude.each)

/-- Whether a path is taken; without patterns, every path is. -/
def includes (s : Selection) (path : String) : Outcome Bool := do
  if !s.included.isPresent then return true
  coveredBy path (← s.included.each)

def endings (s : Selection) (operation : String) : Outcome (List (Value × Value)) := do
  (← s.config.fieldOr "extensions" (.map [])).entriesFor operation

def endingOf (path : String) : String := Text.lower (Path.ofString path).suffix

def languageOf (s : Selection) (path : String) : Outcome Value := do
  let ending := endingOf path
  let rec first : List (Value × Value) → Outcome Value
    | [] => .ok (.text "unknown")
    | (language, endings) :: rest => do
      if ← endings.holds ending then return language else first rest
  first (← s.endings "items")

def allEndings (s : Selection) : Outcome (List Value) := do
  return (← (← s.endings "values").mapM fun e => e.2.each).flatten

end Selection

namespace Reader

/-- A source file that was read; a file read on its own has no relative path. -/
def sourceFile (s : Selection) (path : String) (relative : Option String) (c : Content) :
    Outcome SourceFile := do
  return { path := some (.text path), relativePath := relative.map .text,
           name := some (.text (Path.ofString path).name),
           language := some (← s.languageOf path), content := some (.text c.read) }

/-- Take a file in, unless it is too large; trouble with one file is told and passed over. -/
def takeIn (s : Selection) (path : String) (relative : Option String) (c : Content) :
    Work (List SourceFile) := do
  if !s.limit.allows c.size then
    Work.print ("Warning: File " ++ path ++ " exceeds size limit, skipping")
    return []
  match sourceFile s path relative c with
  | .ok f => return [f]
  | .error fault =>
    Work.print ("Error reading file " ++ path ++ ": " ++ fault.message)
    return []

def file (s : Selection) (path : String) : Work (List SourceFile) := do
  let path := Path.normal path
  let disk ← Work.disk
  match disk.read? path with
  | none => throw (if disk.isFolder path then .notAFile path else .fileNotFound path)
  | some c =>
    if ← Work.ofOutcome (s.excludes path) then return []
    if !(← Work.ofOutcome (s.includes path)) then return []
    takeIn s path none c

def below (s : Selection) (folder : String) : Work (List SourceFile) := do
  let endings ← Work.ofOutcome s.allEndings
  let folder := Path.normal folder
  let found ← ((← Work.disk).filesBelow folder).mapM fun (relative, c) => do
    let path := Path.below folder relative
    if !(endings.any (Value.same (.text (Selection.endingOf path)))) then return []
    if !(← Work.ofOutcome (s.includes path)) then return []
    if ← Work.ofOutcome (s.excludes path) then return []
    takeIn s path (some relative) c
  return found.flatten

def folder (s : Selection) (path : String) : Work (List SourceFile) := do
  let path := Path.normal path
  let disk ← Work.disk
  if !disk.isThere path then throw (.folderNotFound path)
  if !disk.isFolder path then throw (.notAFolder path)
  below s path

end Reader

end CodeScribe
