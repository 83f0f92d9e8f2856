import Coursework.CommandLine.Command
/-!
Opening databases. Before an address is opened its file is made if it is not there, with the
directories above it; an address of memory needs no file. A file that may be written gets its log
and its tables when it is opened; one that may not has to have them.
-/
namespace Coursework.CommandLine

structure Session where
  place : Option (List String)
  database : Database
  readOnly : Bool
  deriving DecidableEq, Repr

def filePath? (url : String) : Option (List Char) :=
  if fileScheme.isPrefixOf url.toList then
    some ((url.toList.drop fileScheme.length).takeWhile (· != '?'))
  else none

def prepareFile (directory url : String) (disk : Disk) : Except CommandError Unit × Disk :=
  match filePath? url with
  | none => (.ok (),disk)
  | some [] => (.error (.argument (.invalidDatabaseUrl url)),disk)
  | some path =>
    let (result,disk) := disk.prepare (Path.parse directory.toList path)
    (result.mapError .path,disk)

def longestPath : Nat := 504

def longestDetour : Nat := 511

/-- The place that steps lead to from another one. A step up takes back the one before it, but what
lies on the way may be no file that is gone through and have no name that is too long. -/
def Disk.resolve (disk : Disk) : (place : List String) → List Step →
    Except LocationError (List String)
  | place, [] =>
    if place = [] ∨ longestPath < (pathText place).utf8ByteSize then .error .unopened
    else .ok place
  | place, .up :: steps => disk.resolve place.dropLast steps
  | place, .into name :: steps =>
    let next := place ++ [name]
    if longestDetour < (pathText next).utf8ByteSize then .error .unopened
    else
      match disk.follow [] (next.map .into) with
      | .ok _ | .error .missing => disk.resolve next steps
      | .error _ => .error .unopened

def Disk.fileAt (disk : Disk) (place : List String) (access : FileAccess) :
    Except LocationError DatabaseFile :=
  match disk.files.lookup place with
  | some file => .ok file
  | none =>
    if disk.isDirectory place then
      .error (if access.isReadOnly then .unreadable else .unopened)
    else if access.mode = .create && disk.isDirectory place.dropLast then .ok {}
    else .error .unopened

def DatabaseFile.withLog (file : DatabaseFile) (access : FileAccess) :
    Except LocationError DatabaseFile :=
  if access.isImmutable || file.keepsLog == access.hasLog then .ok file
  else if file.keepsLog || access.isReadOnly then .error .unready
  else .ok { file with keepsLog := true }

def DatabaseFile.withTables (file : DatabaseFile) (access : FileAccess) :
    Except LocationError Database :=
  match file.tables with
  | some database => .ok database
  | none => if access.isReadOnly || access.isImmutable then .error .readOnly else .ok {}

def Disk.openFile (disk : Disk) (steps : List Step) (access : FileAccess) :
    Except LocationError (List String × DatabaseFile) := do
  let place ← disk.resolve [] steps
  if access.rightsOf.any (!disk.finds ·) then .error .unknownRights
  else return (place,← disk.fileAt place access)

def Disk.connect (disk : Disk) (location : Location) : Except LocationError Session × Disk :=
  match location with
  | .memory => (.ok { place := none, database := {}, readOnly := false },disk)
  | .file steps access =>
    match disk.openFile steps access with
    | .error e => (.error e,disk)
    | .ok (place,opened) =>
      let ready := do
        let file ← opened.withLog access
        return (file,← file.withTables access)
      match ready with
      | .error e => (.error e,disk.write place opened)
      | .ok (file,database) =>
        (.ok { place := some place, database,
               readOnly := access.isReadOnly || access.isImmutable },
         disk.write place { file with tables := some database })

def Disk.store (disk : Disk) (place : Option (List String)) (database : Database) : Disk :=
  match place with
  | none => disk
  | some place =>
    { disk with files := disk.files.map fun (other,file) =>
        (other,if other == place then { file with tables := some database } else file) }

def openDatabase (directory url : String) (disk : Disk) :
    Except CommandError Session × Disk :=
  match prepareFile directory url disk with
  | (.error e,disk) => (.error e,disk)
  | (.ok (),disk) =>
    match Location.ofUrl directory url with
    | .error e => (.error (.location e),disk)
    | .ok location =>
      let (session,disk) := disk.connect location
      (session.mapError .location,disk)

end Coursework.CommandLine
