import CodeScribe.Data.Path
import CodeScribe.Fault
import CodeScribe.Workspace.Utf8

/-!
# Files and folders

The disk as a value: what stands at which place below the working folder.  A folder is there if
it was made or if something stands in it.

* `Disk.isFile`, `Disk.isFolder`, `Disk.read?`, `Disk.filesBelow` — looking;
* `Disk.write`, `Disk.makeFolders`, `Disk.removeTree` — changing.
-/

namespace CodeScribe

/-- What a file holds. -/
inductive Content where
  | text (s : String)
  | raw (bytes : List UInt8)
deriving DecidableEq, Repr

namespace Content

def size : Content → Nat
  | text s => s.utf8ByteSize
  | raw bs => bs.length

/-- The text of a file, without bytes that belong to no character and with plain newlines. -/
def read : Content → String
  | text s => Utf8.unixLines s
  | raw bs => Utf8.unixLines (Utf8.decode bs)

/-- The text of a file whose bytes must all belong to characters. -/
def readStrictly : Content → Outcome String
  | text s => .ok (Utf8.unixLines s)
  | raw bs => if Utf8.isClean bs then .ok (Utf8.unixLines (Utf8.decode bs)) else .error .notDecodable

def bytes : Content → List UInt8
  | text s => Utf8.encode s
  | raw bs => bs

def plain : Content → String
  | text s => s
  | raw bs => Utf8.decode bs

end Content

inductive Entry where
  | folder
  | file (content : Content)
deriving DecidableEq, Repr

/-- A place below the working folder: the names on the way to it. -/
abbrev Place := List String

/-- Files and folders below the working folder, whose own path is `home`. -/
structure Disk where
  home : String
  entries : List (Place × Entry) := []

namespace Disk

def entry? (d : Disk) (p : Place) : Option Entry := d.entries.lookup p

def hasFile (d : Disk) (p : Place) : Bool :=
  match d.entry? p with
  | some (.file _) => true
  | _ => false

/-- Whether a folder stands at a place: the working folder, one that was made, or one that holds
something. -/
def hasFolder (d : Disk) (p : Place) : Bool :=
  p.isEmpty || d.entry? p == some .folder ||
    d.entries.any fun e => p.isPrefixOf e.1 && p.length < e.1.length

/-- Follow the names of a path; two points lead back from a folder. -/
def follow (d : Disk) : Place → List String → Option Place
  | here, [] => some here
  | here, name :: rest =>
    if name == ".." then
      if here.isEmpty || !d.hasFolder here then none else follow d here.dropLast rest
    else follow d (here ++ [name]) rest

/-- The place that a path names, if it lies below the working folder. -/
def place? (d : Disk) (path : String) : Option Place :=
  let p := Path.ofString path
  match p.relativeTo? (Path.ofString d.home) with
  | some rest => d.follow [] rest.parts
  | none => if p.root == "" then d.follow [] p.parts else none

def isFile (d : Disk) (path : String) : Bool := (d.place? path).any d.hasFile

def isFolder (d : Disk) (path : String) : Bool := (d.place? path).any d.hasFolder

def isThere (d : Disk) (path : String) : Bool := d.isFile path || d.isFolder path

def read? (d : Disk) (path : String) : Option Content := do
  match ← d.entry? (← d.place? path) with
  | .file c => some c
  | .folder => none

/-- What the file at a path holds; no path can be read that is none. -/
def read (d : Disk) (path : String) : Outcome Content :=
  match d.read? path with
  | some c => .ok c
  | none => .error (if d.isFolder path then .isAFolder path else .noSuchPath path)

/-- The files below a place, with the names on the way from there. -/
def filesAt (d : Disk) (p : Place) : List (Place × Content) :=
  d.entries.filterMap fun (q, e) =>
    match e with
    | .file c => if p.isPrefixOf q && p.length < q.length then some (q.drop p.length, c) else none
    | .folder => none

def filesBelow (d : Disk) (folder : String) : List (String × Content) :=
  match d.place? folder with
  | some p => ((d.filesAt p).map fun (q, c) => (Text.join "/" q, c)).mergeSort
      fun a b => Text.atMost a.1 b.1
  | none => []

def namesIn (d : Disk) (folder : String) : List String :=
  match d.place? folder with
  | some p => Text.sortDistinct (d.entries.filterMap fun (q, _) =>
      if p.isPrefixOf q then q[p.length]? else none)
  | none => []

def put (d : Disk) (p : Place) (e : Entry) : Disk :=
  { d with entries := if d.entries.any (·.1 == p) then
      d.entries.map fun x => if x.1 == p then (p, e) else x
    else d.entries ++ [(p, e)] }

/-- Whether a file stands where a folder on the way to a place should be. -/
def blocked (d : Disk) (p : Place) : Bool :=
  (List.range p.length).any fun n => n != 0 && d.hasFile (p.take n)

/-- Write a file; its folder must be there. -/
def write (d : Disk) (path : String) (c : Content) : Outcome Disk :=
  match d.place? path with
  | none => .error (.noSuchPath path)
  | some p =>
    if d.hasFolder p then .error (.isAFolder path)
    else if d.blocked p then .error (.fileInTheWay path)
    else if !d.hasFolder p.dropLast then .error (.noSuchPath path)
    else .ok (d.put p (.file c))

def makeFolders (d : Disk) (path : String) : Outcome Disk :=
  match d.place? path with
  | none => .error (.noSuchPath path)
  | some p =>
    if d.hasFolder p then .ok d
    else if d.hasFile p then .error (.pathExists path)
    else if d.blocked p then .error (.fileInTheWay path)
    else .ok (d.put p .folder)

/-- Remove what stands at a place and below it; the folder around it stays. -/
def removeAt (d : Disk) (p : Place) : Disk :=
  let kept := { d with entries := d.entries.filter fun e => !p.isPrefixOf e.1 }
  if kept.hasFolder p.dropLast then kept else kept.put p.dropLast .folder

def removeTree (d : Disk) (path : String) : Disk :=
  match d.place? path with
  | some p => d.removeAt p
  | none => d

/-- Put down files, making the folders on the way. -/
def withFiles (d : Disk) (files : List (String × Content)) : Disk :=
  files.foldl (fun d (path, c) =>
    match d.place? path with
    | some p => d.put p (.file c)
    | none => d) d

/-- The files that are new or different since an earlier disk. -/
def changesSince (d old : Disk) : List (String × Content) :=
  (d.filesAt []).filterMap fun (p, c) =>
    if old.entry? p == some (.file c) then none else some (Text.join "/" p, c)

def tree (d : Disk) : List String := (d.filesBelow ".").map (·.1)

end Disk

end CodeScribe
