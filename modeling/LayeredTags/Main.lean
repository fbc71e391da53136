import LayeredTags.CommandLine
import Std.Time.DateTime.Timestamp

/-!
# The program

The outer layer of the command line: what a command may look at is copied from the file system to a
disk, the command runs beside that disk, and new directories and a new artifact are written back.
-/

namespace LayeredTags

def systemPath (path : Path) :=
  System.mkFilePath [path.text]

def currentTime : IO Instant := do
  let time ← Std.Time.Timestamp.now
  return ⟨time.toNanosecondsSinceUnixEpoch.val⟩

/-- Copies what is at a path to a disk, if something is there. -/
def copyEntry (disk : FileSystem) (path : Path) : IO FileSystem := do
  let file := systemPath path
  try
    let data ← file.metadata
    match data.type with
    | .dir => return disk.plant path .directory
    | _ =>
      let bytes ← IO.FS.readBinFile file
      let modified := Instant.ofParts data.modified.sec data.modified.nsec.toNat
      return disk.plant path (.file (.ofBytes bytes.toList) modified)
  catch _ => return disk

/-- Copies what is at a path and on the way to it. -/
def copyWay (disk : FileSystem) (path : Path) : IO FileSystem :=
  (FileSystem.ancestors path).reverse.foldlM copyEntry disk

def currentDisk (now : Instant) : IO FileSystem := do
  let here := (Path.mk (← IO.currentDir).toString).steps
  return ({ FileSystem.empty with here := here, clock := now } : FileSystem).plant ⟨"."⟩ .directory

/-- Makes the directories that a command has made. -/
def makeDirectories (before after : FileSystem) : IO Unit :=
  (after.newDirectories before).forM fun path =>
    try IO.FS.createDir (systemPath path) catch _ => return

/-- Writes a file that a command has changed back, by way of a temporary file that is then moved to
its name. -/
def writeBack (before after : FileSystem) (path : Path) : IO Unit := do
  match after.read path with
  | .error _ => return
  | .ok content =>
    if (before.read path).toOption = some content then return
    let target := systemPath path
    let temporary := systemPath ⟨path.text ++ "." ++ toString (← IO.monoNanosNow)⟩
    try
      IO.FS.writeBinFile temporary ⟨content.toBytes.toArray⟩
      IO.FS.rename temporary target
    catch _ => return

/-- Runs a command and prints what it leaves. -/
def runCommand (c : Command) : IO UInt32 := do
  let now ← currentTime
  let disk ← (c.arguments.settingsFile.toList ++ c.data.toList).foldlM copyWay (← currentDisk now)
  let files := ((Command.settings disk c.arguments).toOption.map c.filesNeeded).getD []
  let disk ← files.foldlM copyWay disk
  let (result, after) := c.run disk now
  makeDirectories disk after
  files.forM (writeBack disk after)
  result.errors.forM (← IO.getStderr).putStrLn
  (← IO.getStdout).putStr result.output
  return result.exit.toUInt32

end LayeredTags

/-- Runs the command that the arguments spell. -/
def main (arguments : List String) : IO UInt32 := do
  match LayeredTags.Command.parse? arguments with
  | some command => LayeredTags.runCommand command
  | none =>
    (← IO.getStderr).putStrLn LayeredTags.Command.usage
    return LayeredTags.Command.usageStatus.toUInt32
