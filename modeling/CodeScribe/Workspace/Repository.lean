import CodeScribe.Text.Pattern
import CodeScribe.Workspace.Reader

/-!
# Repositories

A repository is given by a local folder or by an address.  What an address leads to is fetched
into a folder of its own and used again the next time.

* `Repository.folderFor` — the folder that an address is fetched into.
-/

namespace CodeScribe.Repository

open Text Pattern

/-! ### Addresses -/

def oneSlash (protocol : Pattern) : Pattern :=
  textStart ++ group 1 protocol ++ lit ":/" ++ group 2 (one (· != '/'))

/-- Put the second slash behind a protocol. -/
def mendSlash (protocol : Pattern) (cs : List Char) : List Char :=
  (oneSlash protocol).replaceAll
    (fun m => (m.chars? 1).getD [] ++ "://".toList ++ (m.chars? 2).getD []) cs

/-- An address with two slashes behind its protocol and, on the well-known hosts, with its
ending. -/
def fullAddress (url : String) : String :=
  let cs := mendSlash (lit "http" ++ opt (char 's')) url.toList
  let cs := mendSlash (lit "htt" ++ opt (char 'p')) cs
  let url := String.ofList cs
  if startsWith url "http" && !endsWith url ".git" && contains url "/" &&
      (contains url "github.com" || contains url "gitlab.com") && !endsWith url "/" then
    url ++ ".git"
  else url

def nameIn (url : String) : String :=
  let stem := (Path.ofString url).stem
  let stem := if endsWith stem ".git" then dropRight 4 stem else stem
  if stem != "" then stem
  else
    let rest := trimRightOf (".git".toList.contains ·) (trimRightOf (· == '/') url)
    let name := (Path.ofString rest).name
    if name == "" then "repo" else name

def folderFor (url : String) : String := Path.below "temp_repos" (nameIn url)

def isSecure (url : String) : Bool := startsWith url "git@" || startsWith url "ssh://"

/-- Whether a secure address has a web address beside it. -/
def hasWebAddress (url : String) : Bool :=
  contains url "github.com" || contains url "github.ibm.com"

/-- Put another character for the first of a kind. -/
def replaceFirst (old new : Char) (s : String) : String :=
  String.ofList (s.toList.takeWhile (· != old) ++
    match s.toList.dropWhile (· != old) with
    | [] => []
    | _ :: rest => new :: rest)

def webAddress (url : String) : String :=
  let web := replace (replace (replace url "git@" "https://") "ssh://git@" "https://") ":" "/"
  if startsWith web "http" then web else replaceFirst ':' '/' (replace url "git@" "https://")

/-! ### Opening and fetching -/

/-- Note what is about to be done, and in which state. -/
def note (deed : Deed) : Work Unit :=
  modify fun w => { w with repositories := { w.repositories with
    journal := w.repositories.journal ++ [⟨deed, w.disk, w.repositories.valid⟩] } }

def openAt (path : String) : Work Unit := do
  note (.opening path)
  if !(← get).repositories.valid.contains path then throw (.notARepository path)

/-- Bring the newest version into the open repository. -/
def update : Work Unit := do
  note .update
  if (← get).repositories.updateFails then throw (.failed "pull failed")

def switchTo (branch : String) : Work Unit := do
  note (.switch branch)
  if (← get).repositories.missingBranches.contains branch then
    throw (.failed ("no branch " ++ branch))

def fetch (url path : String) : Work Unit := do
  note (.fetch url path)
  let w ← get
  let next := w.repositories.fetches.head?.getD { failure := some "no clone scripted" }
  let files := next.files.map fun (name, c) => (Path.below path name, c)
  set { w with
    disk := w.disk.withFiles files
    repositories := { w.repositories with fetches := w.repositories.fetches.drop 1 } }
  match next.failure with
  | some reason =>
    modify fun w => { w with repositories :=
      { w.repositories with valid := next.remains.getD w.repositories.valid } }
    throw (.failed reason)
  | none =>
    Work.changeDisk (·.makeFolders path)
    modify fun w => { w with repositories :=
      { w.repositories with valid := w.repositories.valid ++ [path] } }
    openAt path

/-- Remove what stands in a folder to fetch into, unless it is a repository. -/
def clear (path : String) : Work Unit := do
  if (← Work.disk).isThere path then
    match ← Work.attempt (openAt path) with
    | .ok _ => return
    | .error _ =>
      note (.removal path)
      Work.changeDisk fun d => .ok (d.removeTree path)

/-- Use the repository in a folder if it is one, and clear the folder otherwise. -/
def reuse (path : String) : Work Bool := do
  if !(← Work.disk).isThere path then return false
  match ← Work.attempt (openAt path) with
  | .ok _ =>
    Work.print ("Using existing repository at " ++ path)
    match ← Work.attempt update with
    | .ok _ => Work.print "Updated repository with latest changes"
    | .error _ => Work.print "Warning: Could not update repository, using existing version"
    return true
  | .error _ =>
    Work.print ("Removing invalid existing directory at " ++ path)
    clear path
    return false

/-- Fetch an address; a secure one that cannot be fetched is tried again over the web. -/
def fetchAnyway (url path : String) : Work Unit := do
  Work.print ("Cloning repository from " ++ url ++ "...")
  if !isSecure url then fetch url path
  else
    match ← Work.attempt (fetch url path) with
    | .ok _ => return
    | .error secure =>
      if hasWebAddress url then
        let web := webAddress url
        Work.print ("SSH clone failed, trying HTTPS: " ++ web)
        match ← Work.attempt (do clear path; fetch web path) with
        | .ok _ => return
        | .error fault => throw (.cloneFailed secure.message fault.message)
      else throw (.secureCloneFailed secure.message)

def tryBranch (branch : Option String) : Work Unit := do
  match branch with
  | none => return
  | some b =>
    if b == "" then return
    match ← Work.attempt (switchTo b) with
    | .ok _ => return
    | .error _ =>
      Work.print ("Warning: Could not checkout branch " ++ b ++ ", using current branch")

/-- The folder of a repository: a local one, or the one that an address is fetched into. -/
def locate (source : String) (branch : Option String) : Work String := do
  if !(← get).repositories.supported then throw .repositorySupportMissing
  let source := Path.normal source
  if (← Work.disk).isThere source then
    openAt source
    tryBranch branch
    return source
  let url := fullAddress source
  let path := folderFor url
  Work.changeDisk (·.makeFolders (Path.ofString path).parent.text)
  if !(← reuse path) then fetchAnyway url path
  tryBranch branch
  return path

/-- The folder of a repository; whatever prevents it is put down to the repository. -/
def access (source : String) (branch : Option String) : Work String := do
  match ← Work.attempt (locate source branch) with
  | .ok path => return path
  | .error fault => throw (.repositoryUnavailable fault.message)

def each (s : Selection) (source : String) (branch : Option String) : Work (List SourceFile) := do
  let path ← access source branch
  let _ ← Work.ofOutcome s.allEndings
  Work.print "Scanning repository for source files..."
  Reader.below s path

/-- The source files of a repository; it is opened once more when they are gone through. -/
def read (s : Selection) (source : String) (branch : Option String) : Work (List SourceFile) := do
  let path ← access source branch
  each s path branch

end CodeScribe.Repository
