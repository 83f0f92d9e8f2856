import Coursework.CommandLine.Run
import Coursework.Storage.Snapshot
import Std.Time.DateTime.Timestamp
/-!
The command line. A run takes its surroundings from the machine, its database from a file and its
new identifiers from a source of random bits; afterwards the file holds the new database. From
here no deck service can be reached.
-/
namespace Coursework.CommandLine

def identifierLimit : Nat := 32

def randomBits : IO Nat := do
  let bytes ← IO.getRandomBytes 16
  return bytes.foldl (fun bits byte => bits * 256 + byte.toNat) 0

def readEnvironment : IO Environment := do
  return { databaseUrl := ← IO.getEnv "COURSE_DB_URL", decksUrl := ← IO.getEnv "COURSE_DECKS_URL",
           directory := toString (← IO.currentDir) }

def presentInstant : IO Instant := do
  return Instant.ofNanos (← Std.Time.Timestamp.now).toNanosecondsSinceUnixEpoch.val

def readPlace (disk : Disk) (place : List String) : IO Disk := do
  let inTheWay := { disk with directories := disk.directories ++ [place] }
  try
    let text ← IO.FS.readFile (pathText place)
    return match DatabaseFile.ofText? text with
      | some file => disk.write place file
      | none => inTheWay
  catch
    | .noFileOrDirectory .. => return disk
    | _ => return inTheWay

def writeChanges (old new : Disk) : IO Unit := do
  for place in new.directories do
    unless old.directories.contains place do IO.FS.createDir (pathText place)
  for (place,file) in new.files do
    unless old.files.lookup place == some file do IO.FS.writeFile (pathText place) file.text

end Coursework.CommandLine

open Coursework CommandLine in
def main (argv : List String) : IO UInt32 := do
  let environment ← readEnvironment
  let disk ← (placesOfCall environment argv).foldlM readPlace {}
  let bits ← (List.range identifierLimit).mapM fun _ => randomBits
  let fresh (n : Nat) : Uuid := Uuid.ofRandom (bits[n]?.getD 0)
  let (report,after) :=
    CommandLine.run environment (fun _ => none) fresh (← presentInstant) argv disk
  let report ← try
      writeChanges disk after
      pure report
    catch _ => pure (.ofFailure LocationError.unopened.message)
  IO.print report.stdout
  IO.eprint report.stderr
  report.error.forM IO.eprintln
  return report.exitCode.toUInt32
