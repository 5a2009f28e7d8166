import CodeScribe.Data.Record
import CodeScribe.Data.Yaml.Load
import CodeScribe.Document.Structure.Cqrs
import CodeScribe.Document.Structure.CqrsOutline
import CodeScribe.Document.Structure.Generic
import CodeScribe.Document.Structure.Microservices
import CodeScribe.Workspace.Disk

/-!
# Document structures

A document structure says which parts a document has and what to ask for each of them.
-/

namespace CodeScribe.Document

/-- Where document structures are kept: with the program, whose folder is given, or
in a folder of their own. -/
inductive StructureFolder where
  | builtIn (program : String)
  | folder (path : String)
deriving DecidableEq, Repr

namespace StructureFolder

def builtInTexts : List (String × String) :=
  [("dot-net-cqrs-2.yaml", Structure.cqrsOutline), ("dotnet-cqrs.yaml", Structure.cqrs),
    ("generic.yaml", Structure.generic), ("microservices.yaml", Structure.microservices)]

def path : StructureFolder → String
  | builtIn program => program ++ "/doc_structures"
  | folder p => p

def fileNames (disk : Disk) : StructureFolder → List String
  | builtIn _ => builtInTexts.map (·.1)
  | folder p => (disk.namesIn p).filter (Text.endsWith · ".yaml")

def names (disk : Disk) (f : StructureFolder) : List String :=
  Text.sort ((f.fileNames disk).map fun n => (Path.ofString n).stem)

def find? (disk : Disk) (name : String) : StructureFolder → Option (Outcome String)
  | builtIn _ => (builtInTexts.lookup (Path.normal name)).map .ok
  | folder p => (disk.read? (Path.below p name)).map Content.readStrictly

def loadFile? (disk : Disk) (name : String) (f : StructureFolder) : Option (Outcome Value) :=
  (f.find? disk name).map fun text => do Yaml.loadFrom (Path.below f.path name) (← text)

/-- The first structure that gives itself a name; those that cannot be read are passed over. -/
def byOwnName? (disk : Disk) (name : String) (f : StructureFolder) : Option Value :=
  (f.fileNames disk).findSome? fun file =>
    match f.loadFile? disk file with
    | some (.ok v) => if (v.get? "name").any (Value.same (.text name)) then some v else none
    | _ => none

def load (disk : Disk) (f : StructureFolder) (name : String) : Outcome Value :=
  let file := if Text.endsWith name ".yaml" || Text.endsWith name ".yml" then name
    else name ++ ".yaml"
  match f.loadFile? disk file with
  | some v => v
  | none =>
    match f.byOwnName? disk (Text.replace file ".yaml" "") with
    | some v => .ok v
    | none => .error (.structureNotFound file f.path)

end StructureFolder

end CodeScribe.Document
