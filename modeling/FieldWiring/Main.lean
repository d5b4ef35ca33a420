import FieldWiring.CommandLine.Call
import FieldWiring.Files.Change
import FieldWiring.Moment
import Std.Time.DateTime.Timestamp

/-!
# The program

The command line on the files of the machine. Standard input names the files and directories that a
call can see, one path on a line. What the call did to them is done to the machine when it is over.
-/

namespace FieldWiring

/-- The lines that are left in a stream, without their ends. -/
partial def linesOf (stream : IO.FS.Stream) : IO (List String) := do
  let line ← stream.getLine
  if line.isEmpty then return []
  return (if line.endsWith "\n" then (line.dropEnd 1).toString else line) :: (← linesOf stream)

/-- The bytes of the file at a path, unless no file is there. -/
def bytesAt (path : String) : IO (Option ByteArray) := do
  try
    return some (← IO.FS.readBinFile path)
  catch _ => return none

/-- Makes a change on the machine. -/
def FileChange.carryOut : FileChange → IO Unit
  | write l content => do
    IO.FS.createDirAll (Path.ofLocation l.dropLast).text
    IO.FS.writeBinFile (Path.ofLocation l).text content
  | makeDirectory l => IO.FS.createDirAll (Path.ofLocation l).text
  | remove l => IO.FS.removeFile (Path.ofLocation l).text

/-- What surrounds a call on the machine, and the time at which it begins. -/
def readSetting : IO Setting := do
  let here := (Path.ofText (toString (← IO.currentDir))).parts
  let accounts := (← bytesAt "/etc/passwd").bind Utf8.decode?
  let homes : Homes :=
    { own := (← IO.getEnv "HOME").getD "/", accounts := Homes.readAccounts (accounts.getD "") }
  let now ← Std.Time.Timestamp.now
  let moment : Moment := ⟨now.toNanosecondsSinceUnixEpoch.val.toNat⟩
  return { surroundings := { here, homes }, clock := moment.clock }

/-- A call with its arguments, which tells its exit code. -/
def callProgram (arguments : List String) : IO UInt32 := do
  let setting ← readSetting
  let here := Path.ofLocation setting.surroundings.here
  let names ← linesOf (← IO.getStdin)
  let before ← names.foldlM (fun (t : FileTree) name => do
    return t.including (here.joinText name) (← bytesAt name)) (FileTree.including {} here none)
  let (ending, after) := CommandLine.run setting arguments before
  (before.changesTo after).forM FileChange.carryOut
  (← IO.getStdout).putStr ending.out
  let errors ← IO.getStderr
  errors.putStr ending.err
  match ending.code with
  | .ok code => return .ofNat code
  | .error e => do
    errors.putStr (e.label ++ ": " ++ e.message ++ "\n")
    return 1

end FieldWiring

def main (arguments : List String) : IO UInt32 := FieldWiring.callProgram arguments
