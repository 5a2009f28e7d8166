import CodeScribe.Data.Path
import CodeScribe.Data.Value

/-!
# Titles of projects

* `Page.projectTitle` — the title of a project, made from the place of its source.
-/

namespace CodeScribe.Page

open Text

def standardTitle : String := "Technical_Documentation"

/-- The name of the repository at an address: its last part, without letters of its ending. -/
def repositoryName (address : String) : String :=
  lastPiece (trimRightOf (".git".toList.contains ·) (trimRightOf (· == '/') address)) "/"

/-- The part of a place that names the project. -/
def titlePart (place : String) (kind : Value) : String :=
  match kind with
  | .text "Folder" => (Path.ofString place).name
  | .text "Git Repository" =>
    if startsWith place "http://" || startsWith place "https://" then repositoryName place
    else (Path.ofString place).name
  | _ => (Path.ofString place).stem

/-- A text without characters that file names do not have. -/
def fileNameOf (s : String) : String :=
  String.ofList (s.toList.map fun c => if "<>:\"/\\|?* ".toList.contains c then '_' else c)

def projectTitle (place kind : Value) : String :=
  match place with
  | .text p =>
    let title := fileNameOf (titlePart p kind)
    if p == "" || title == "" then standardTitle else title
  | _ => standardTitle

end CodeScribe.Page
