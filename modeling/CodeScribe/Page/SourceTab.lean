import CodeScribe.Page.Basic

/-!
# Choosing the source

* `Page.sourceTab` — the part of the page on which a source is chosen.
-/

namespace CodeScribe.Page

structure Chosen where
  kind : Value
  place : Value

def sourceKinds : List Value := [.text "Single File", .text "Folder", .text "Git Repository"]

def chooseKind : Page Value := do
  let label := "Source Type"
  call "radio" [.text label, .list sourceKinds] [("horizontal", .bool true),
    ("help", .text "Choose the type of source to document")]
  return (← entered? label []).getD (chosenAt sourceKinds 0)

/-- Put an uploaded file into a folder of its own, and give its path. -/
def storeUpload (name content : String) : Page String := do
  let s ← get
  let number := s.uploads + 1
  set { s with uploads := number }
  let folder := Path.below s.world.disk.home ("upload" ++ toString number)
  let path := Path.below folder name
  work do
    Work.changeDisk (·.makeFolders folder)
    Work.changeDisk (·.write path (.text content))
  return path

def chooseUpload : Page Value := do
  let label := "Upload a source file"
  call "file_uploader" [.text label] [
    ("type", .texts ["java", "cs", "vb", "fs", "fsx", "cshtml", "vbhtml", "php"]),
    ("help", .text "Upload a Java, .NET (C#, VB.NET, F#), or PHP file")]
  let upload := (← entered? label []).getD .null
  if !upload.isPresent then return .null
  let field (key : String) : String := ((upload.get? key).bind (·.text?)).getD ""
  let path ← storeUpload (field "name") (field "text")
  remember "temp_source_path" (.text path)
  success ("✅ File uploaded: " ++ field "name")
  return .text path

def chooseFolder : Page Value := do
  let place ← textInput "Folder Path" [("placeholder", .text "/path/to/your/project"),
    ("help", .text "Enter the path to your project folder")]
  if !place.isPresent then return .null
  let path ← ofOutcome place.asText
  if (← get).world.disk.isThere (Path.normal path) then
    success ("✅ Folder found: " ++ path)
    return place
  else
    failure ("❌ Folder not found: " ++ path)
    return .null

/-- A source that is a repository; the branch is remembered. -/
def chooseRepository : Page Value := do
  let address ← textInput "Git Repository URL" [
    ("placeholder", .text "https://github.com/user/repo.git"),
    ("help", .text "Enter Git repository URL or local path")]
  let branch ← textInput "Branch (optional)" [("placeholder", .text "main"),
    ("help", .text "Specify branch to use")]
  if !address.isPresent then return .null
  remember "git_branch" (branch.orElse .null)
  info ("📦 Repository: " ++ address.display)
  return address

def sourceTab : Page Chosen := do
  markdown "### Select Source Code"
  let kind ← chooseKind
  let place ← match kind with
    | .text "Single File" => chooseUpload
    | .text "Folder" => chooseFolder
    | .text "Git Repository" => chooseRepository
    | _ => pure .null
  return ⟨kind, place⟩

end CodeScribe.Page
