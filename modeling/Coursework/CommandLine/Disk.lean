import Coursework.CommandLine.Path
import Coursework.Storage.Snapshot
/-!
Directories and the files that hold databases, and paths through them. A path is followed step by
step: each one starts from a directory, so `..` behind a missing name leads nowhere.
-/
namespace Coursework.CommandLine

structure DatabaseFile where
  tables : Option Database := none
  keepsLog : Bool := false
  deriving DecidableEq, Repr, Inhabited

namespace DatabaseFile

def text (file : DatabaseFile) : String :=
  match file.tables with
  | none => ""
  | some database => database.snapshot

def ofText? (s : String) : Option DatabaseFile :=
  if s.isEmpty then some {}
  else (Database.ofSnapshot? s).map fun database => { tables := some database, keepsLog := true }

end DatabaseFile

structure Disk where
  files : List (List String × DatabaseFile) := []
  directories : List (List String) := []
  deriving DecidableEq, Repr, Inhabited

namespace Disk

def isFile (d : Disk) (place : List String) : Bool := d.files.any (·.1 == place)

def isDirectory (d : Disk) (place : List String) : Bool :=
  place.isEmpty || d.directories.contains place

def isPresent (d : Disk) (place : List String) : Bool := d.isFile place || d.isDirectory place

def write (d : Disk) (place : List String) (file : DatabaseFile) : Disk :=
  { d with files := replaceOrAppend (·.1 == place) (place,file) d.files }

def longestName : Nat := 255

def step (place : List String) : Step → Except PathError (List String)
  | .up => .ok place.dropLast
  | .into name =>
    if longestName < name.utf8ByteSize then .error .longName else .ok (place ++ [name])

def follow (d : Disk) : (place : List String) → List Step → Except PathError (List String)
  | place, [] => .ok place
  | place, s :: steps =>
    if d.isDirectory place then do d.follow (← step place s) steps
    else if d.isFile place then .error .notDirectory
    else .error .missing

def locate (d : Disk) (strides : List Stride) (rest : Nat) : Except PathError (List String) :=
  match Path.fault? strides rest with
  | some e => .error e
  | none => d.follow [] (strides.map (·.step))

def finds (d : Disk) (path : Path) : Bool :=
  match d.locate path.strides path.rest with
  | .ok place => if path.ending = .nothing then d.isPresent place else d.isDirectory place
  | .error _ => false

def makeDirectory (d : Disk) (strides : List Stride) : Except PathError Disk := do
  let place ← d.locate strides 0
  if d.isPresent place then .error .taken
  else .ok { d with directories := d.directories ++ [place] }

def orPresent (d : Disk) (strides : List Stride) :
    Except PathError Disk → Except PathError Unit × Disk
  | .ok made => (.ok (),made)
  | .error e => (if d.finds ⟨strides,.slash,0⟩ then .ok () else .error e,d)

/-- Makes a directory with those above it, given its strides from the last one to the first. What
was made before a failure stays. -/
def makeDirectories (d : Disk) : (reversed : List Stride) → Except PathError Unit × Disk
  | [] => (.ok (),d)
  | s :: above =>
    let strides := (s :: above).reverse
    match d.makeDirectory strides with
    | .error .missing =>
      match d.makeDirectories above with
      | (.error e,d) => (.error e,d)
      | (.ok (),d) => d.orPresent strides (d.makeDirectory strides)
    | made => d.orPresent strides made

def makeFile (d : Disk) (path : Path) : Except PathError Disk := do
  let place ← d.locate path.strides path.rest
  match path.ending with
  | .nothing => .ok (d.write place {})
  | .slash => .error .isDirectory
  | .dot => .error (if d.isFile place then .notDirectory else .missing)

def prepare (d : Disk) (path : Path) : Except PathError Unit × Disk :=
  match d.makeDirectories path.strides.reverse.tail with
  | (.error e,d) => (.error e,d)
  | (.ok (),d) =>
    if d.finds path then (.ok (),d)
    else
      match d.makeFile path with
      | .ok d => (.ok (),d)
      | .error e => (.error e,d)

end Disk

end Coursework.CommandLine
