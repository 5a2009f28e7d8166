import CodeScribe.CommandLine.Run
import CodeScribe.Workspace.Clock
import Std.Time.DateTime.Timestamp

/-!
# The program

A run over real files.  The files that the run may look at are named on standard input, one path
a line, as seen from the working folder; what the run writes goes to disk when it is over.
-/

namespace CodeScribe.Program

/-- The files at some paths; those that cannot be read are left out. -/
def readFiles (paths : List String) : IO (List (String × Content)) :=
  paths.filterMapM fun (path : String) => do
    try
      let bytes ← IO.FS.readBinFile path
      return some (path, .raw bytes.toList)
    catch _ => return none

def writeFiles (files : List (String × Content)) : IO Unit :=
  files.forM fun (path, content) => do
    IO.FS.createDirAll (Path.ofString path).parent.text
    IO.FS.writeBinFile path (ByteArray.mk content.bytes.toArray)

/-- The variables of the environment that settings can depend on. -/
def readEnvironment : IO (Table String) :=
  ["OLLAMA_BASE_URL", "OLLAMA_MODEL", "DEFAULT_LLM_PROVIDER"].filterMapM fun name => do
    return (← IO.getEnv name).map ((name, ·))

def readClock : IO String := do
  let now ← Std.Time.Timestamp.now
  return (Moment.ofSeconds now.toSecondsSinceUnixEpoch.val.toNat).textWith " "

/-- The paths that a text names, one a line. -/
def pathsOf (text : String) : List String :=
  ((Text.lines text).map Text.trim).filter (· != "")

end CodeScribe.Program

open CodeScribe CodeScribe.Program in
def main (arguments : List String) : IO UInt32 := do
  let input ← (← IO.getStdin).readToEnd
  let files ← readFiles (pathsOf input)
  let home := toString (← IO.currentDir)
  let empty : Disk := { home }
  let disk := empty.withFiles files
  let world : World := { disk, program := home, now := ← readClock, environment := ← readEnvironment }
  let (status, after) := Work.runIn (CommandLine.run arguments) world
  writeFiles (after.disk.changesSince disk)
  after.printed.forM IO.println
  match status with
  | .ok n => return n.toUInt32
  | .error _ => return 1
