import Coursework.CommandLine.Uri
import Coursework.Text.Blank
import Coursework.Text.Quoted
/-!
Where a database is. A location is given as an address such as `sqlite:data/dev.sqlite3` or as a
plain path; both become an address with an absolute path. Addresses of databases in memory, and
those that say `sqlite://` already, stand as they are. Parameters behind a question mark say how
the database is opened; the first wrong one decides the error.
-/
namespace Coursework.CommandLine

open Text

def memoryUrl : String := "sqlite::memory:"

def fileScheme : List Char := "sqlite://".toList

def scheme : List Char := "sqlite:".toList

def isCompleteUrl (raw : String) : Bool :=
  raw == memoryUrl || fileScheme.isPrefixOf raw.toList || occursIn "mode=memory".toList raw.toList

def stripStart (word cs : List Char) : List Char :=
  if word.isPrefixOf cs then cs.drop word.length else cs

def normalizeUrl (directory raw : String) : String :=
  if isCompleteUrl raw then raw
  else
    let path := stripStart scheme (trimChars raw.toList)
    String.ofList (fileScheme ++ joinPath directory.toList path)

def stripAll (word : List Char) : (fuel : Nat) → List Char → List Char
  | 0, cs => cs
  | fuel + 1, cs => if word.isPrefixOf cs then stripAll word fuel (cs.drop word.length) else cs

def splitUrl (url : String) : List Char × List (List Char) :=
  let cs := url.toList
  let cs := stripAll fileScheme cs.length cs
  let cs := stripAll scheme cs.length cs
  (cs.takeWhile (· != '?'),(splitAt '&' ((cs.dropWhile (· != '?')).drop 1)).filter (· != []))

inductive LocationError where
  | unknownParameter (name : String)
  | unknownValue (parameter value : String)
  | undecodable (fault : Utf8Fault)
  | nullInName
  | otherMachine (authority : String)
  | unknownMode (kind value : String)
  | modeNotAllowed (value : String)
  | unknownFileSystem (name : String)
  | unopened
  | unreadable
  | unknownRights
  | unready
  | readOnly
  /-- Each connection has a database of its own, and only the first one has tables. -/
  | missingTable
  deriving DecidableEq, Repr

def numberedError (code : Nat) (message : String) : String :=
  "error returned from database: (code: " ++ toString code ++ ") " ++ message

def LocationError.message : LocationError → String
  | .unknownParameter name =>
    "error with configuration: unknown query parameter `" ++ name ++
      "` while parsing connection URL"
  | .unknownValue parameter value =>
    "error with configuration: unknown value " ++ quoted value ++ " for `" ++ parameter ++ "`"
  | .undecodable fault => "error with configuration: " ++ fault.message
  | .nullInName =>
    "error communicating with database: filename passed to SQLite must not contain nul bytes"
  | .otherMachine authority => numberedError 1 ("invalid uri authority: " ++ authority)
  | .unknownMode kind value => numberedError 1 ("no such " ++ kind ++ " mode: " ++ value)
  | .modeNotAllowed value => numberedError 3 ("access mode not allowed: " ++ value)
  | .unknownFileSystem name => numberedError 1 ("no such vfs: " ++ name)
  | .unopened => numberedError 14 "unable to open database file"
  | .unreadable => numberedError 266 "disk I/O error"
  | .unknownRights => numberedError 1802 "disk I/O error"
  | .unready => "pool timed out while waiting for an open connection"
  | .readOnly => numberedError 8 "attempt to write a readonly database"
  | .missingTable => numberedError 1 "no such table: schema_migrations"

inductive AccessMode where
  | readOnly
  | readWrite
  | create
  deriving DecidableEq, Repr

def AccessMode.ofValue? : String → Option AccessMode
  | "ro" => some .readOnly
  | "rw" => some .readWrite
  | "rwc" => some .create
  | _ => none

def AccessMode.isWithin : AccessMode → AccessMode → Bool
  | .readOnly, _ | .readWrite, .readWrite | _, .create => true
  | _, _ => false

structure OpenMode where
  access : AccessMode := .readWrite
  inMemory : Bool := false
  isShared : Bool := false
  deriving DecidableEq, Repr

def OpenMode.set (mode : OpenMode) (parameter : String × String) :
    Except LocationError OpenMode :=
  match parameter with
  | ("cache","shared") => .ok { mode with isShared := true }
  | ("cache","private") => .ok { mode with isShared := false }
  | ("cache",value) => .error (.unknownMode "cache" value)
  | ("mode","memory") => .ok { mode with access := .readWrite, inMemory := true }
  | ("mode",value) =>
    match AccessMode.ofValue? value with
    | none => .error (.unknownMode "access" value)
    | some access =>
      if mode.inMemory || access.isWithin mode.access then
        .ok { mode with access, inMemory := false }
      else .error (.modeNotAllowed value)
  | _ => .ok mode

structure LocationOptions extends OpenMode where
  isImmutable : Bool := false
  fileSystem : Option String := none
  deriving DecidableEq, Repr

namespace LocationOptions

def set (options : LocationOptions) (name value : String) :
    Except LocationError LocationOptions :=
  match name, value with
  | "mode", "ro" => .ok { options with access := .readOnly }
  | "mode", "rw" => .ok options
  | "mode", "rwc" =>
    .ok (if options.access = .readOnly then options else { options with access := .create })
  | "mode", "memory" => .ok { options with inMemory := true, isShared := true }
  | "cache", "private" => .ok { options with isShared := false }
  | "cache", "shared" => .ok { options with isShared := true }
  | "immutable", "true" | "immutable", "1" => .ok { options with isImmutable := true }
  | "immutable", "false" | "immutable", "0" => .ok { options with isImmutable := false }
  | "vfs", _ => .ok { options with fileSystem := some value }
  | _, _ =>
    if ["mode","cache","immutable"].contains name then .error (.unknownValue name value)
    else .error (.unknownParameter name)

def decodePart (cs : List Char) : String :=
  percentDecodeLossy (cs.map fun c => if c = '+' then ' ' else c)

def ofParameters : List (List Char) → LocationOptions → Except LocationError LocationOptions
  | [], options => .ok options
  | parameter :: parameters, options => do
    let name := parameter.takeWhile (· != '=')
    let value := parameter.drop (name.length + 1)
    ofParameters parameters (← options.set (decodePart name) (decodePart value))

def uriParameters (options : LocationOptions) : List (String × String) :=
  (if options.isImmutable then [("immutable","true")] else []) ++
    (options.fileSystem.map fun name => ("vfs",name)).toList

end LocationOptions

structure FileAccess where
  mode : AccessMode
  isImmutable : Bool := false
  hasLog : Bool := true
  rightsOf : Option Path := none
  deriving DecidableEq, Repr

def FileAccess.isReadOnly (access : FileAccess) : Bool := access.mode = .readOnly

inductive Location where
  | memory
  | file (steps : List Step) (access : FileAccess)
  deriving DecidableEq, Repr

inductive FileSystem where
  | files (hasLog : Bool)
  | memory
  deriving DecidableEq, Repr

def FileSystem.parse? : String → Option FileSystem
  | "unix" | "unix-excl" => some (.files true)
  | "unix-none" | "unix-dotfile" => some (.files false)
  | "memdb" => some .memory
  | _ => none

namespace Location

def nameOf (options : LocationOptions) (name : List Char) : Except LocationError DatabaseName :=
  let parameters := options.uriParameters
  if parameters != [] then .ok (.ofParts name parameters)
  else if name.any DatabaseName.isNull then .error .nullInName
  else (DatabaseName.parse name).mapError fun foreign => .otherMachine foreign.name

def inMemory (isShared isReadOnly : Bool) : Except LocationError Location :=
  if isReadOnly then .error .readOnly
  else if isShared then .ok .memory
  else .error .missingTable

def longestMemoryName : Nat := 1016

def isRooted (name : List Char) : Bool :=
  match name with
  | '/' :: _ :: _ | '\\' :: _ :: _ => true
  | _ => false

def memoryFile (mode : OpenMode) (name : DatabaseName) : Except LocationError Location :=
  if longestMemoryName < byteSize name.text then .error .unopened
  else
    inMemory (mode.isShared || isRooted name.text)
      (mode.access = .readOnly || name.isSwitchedOn "immutable")

def ofName (directory : String) (mode : OpenMode) (name : DatabaseName) :
    Except LocationError Location := do
  let mode ← name.parameters.foldlM OpenMode.set mode
  let system := (name.lastParameter? "vfs").getD "unix"
  match FileSystem.parse? system with
  | none => .error (.unknownFileSystem system)
  | some fileSystem =>
    if mode.inMemory || name.text = [] || name.text = ":memory:".toList then
      inMemory (name.isUri && mode.isShared && name.text != []) (mode.access = .readOnly)
    else
      match fileSystem with
      | .memory => memoryFile mode name
      | .files hasLog =>
        let path := Path.parse directory.toList
        let rightsOf := name.parameter? "modeof"
        if rightsOf = some "" then .error .unknownRights
        else
          .ok (.file (path name.text).steps
            { mode := mode.access, isImmutable := name.isSwitchedOn "immutable",
              hasLog := hasLog && !name.isSwitchedOn "nolock",
              rightsOf := rightsOf.map fun text => path text.toList })

def ofUrl (directory url : String) : Except LocationError Location := do
  let (name,parameters) := splitUrl url
  if name = ":memory:".toList then
    let options ← LocationOptions.ofParameters parameters { inMemory := true, isShared := true }
    ofName directory options.toOpenMode (← nameOf options "file:memory".toList)
  else
    match percentDecode name with
    | .error fault => .error (.undecodable fault)
    | .ok decoded =>
      let options ← LocationOptions.ofParameters parameters {}
      ofName directory options.toOpenMode (← nameOf options decoded.toList)

end Location

end Coursework.CommandLine
