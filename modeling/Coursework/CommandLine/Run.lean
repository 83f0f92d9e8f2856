import Coursework.CommandLine.Opening
import Coursework.Storage.Backend
import Coursework.Storage.ReadOnly
/-!
One run of the program: it reads its arguments, opens the database they name, carries out the
command and prints the document it ends with. Errors in the arguments are shown with the usage.
-/
namespace Coursework.CommandLine

structure Report where
  exitCode : Nat
  stdout : String := ""
  stderr : String := ""
  error : Option String := none
  deriving DecidableEq, Repr

def usage : String :=
  "Usage:\n" ++
  "  cargo run -p app -- seed    [--db <sqlite_url>]\n" ++
  "  cargo run -p app -- enroll  --user <id> --course <id>\n" ++
  "  cargo run -p app -- answer  --user <id> --course <id> --lesson <id> --deck <id> --answer <card>=<answer>...\n" ++
  "  cargo run -p app -- sync    --user <id> --course <id>\n" ++
  "  cargo run -p app -- lessons --course <id> [--user <id>] [--bodyless]\n" ++
  "  cargo run -p app -- show    --user <id> --course <id>\n" ++
  "\nDefaults:\n" ++
  "  --db " ++ defaultDatabaseUrl ++ "\n" ++
  "\nEnvironment:\n" ++
  "  COURSE_DB_URL, COURSE_DECKS_URL, RUST_LOG\n"

namespace Report

def ofHelp : Report := { exitCode := 0, stderr := usage }

def ofDocument (v : Json.Value) : Report := { exitCode := 0, stdout := v.indented ++ "\n" }

def ofFailure (message : String) : Report := { exitCode := 2, error := some message }

def ofMisuse (shown message : String) : Report :=
  { exitCode := 2, stderr := shown ++ "\n" ++ usage, error := some message }

end Report

def tablesOf (b : Backend) : Database :=
  match b.repository with
  | .tables d => d
  | .memory _ => {}

def Environment.deckService (environment : Environment) : Option Http.DeckClient :=
  (Http.DeckClientSettings.ofVariable? environment.decksUrl).map Http.DeckClient.ofSettings

def execute (environment : Environment) (exchange : Http.Exchange) (fresh : Nat → Uuid)
    (now : Instant) (command : Command) (args : Arguments) (disk : Disk) : Report × Disk :=
  match openDatabase environment.directory args.databaseUrl disk with
  | (.error e,disk) => (.ofFailure e.message,disk)
  | (.ok session,disk) =>
    let backend : Backend := ⟨.tables session.database,environment.deckService⟩
    let handle := Backend.perform exchange
    let (result,backend) := (command.script fresh now args).run
      (if session.readOnly then Handler.readOnly handle else handle) backend
    let disk := disk.store session.place (tablesOf backend)
    match result with
    | .ok document => (.ofDocument document,disk)
    | .error e => (.ofFailure e.message,disk)

def readCall (environment : Environment) : List String → Except Report (Command × Arguments)
  | [] => .error .ofHelp
  | first :: rest =>
    if first = "--help" ∨ first = "-h" then .error .ofHelp
    else
      match Command.parse? first with
      | none => .error (.ofMisuse ("unknown subcommand: " ++ first) "unknown subcommand")
      | some command =>
        match Arguments.parse environment rest with
        | .ok args => .ok (command,args)
        | .error .help => .error .ofHelp
        | .error (.error e) => .error (.ofMisuse e.message e.message)

def placesOfCall (environment : Environment) (argv : List String) : List (List String) :=
  match readCall environment argv with
  | .error _ => []
  | .ok (_,args) =>
    let prepared := match filePath? args.databaseUrl with
      | some path => (Path.parse environment.directory.toList path).places
      | none => []
    let opened := match Location.ofUrl environment.directory args.databaseUrl with
      | .ok (.file steps access) =>
        Step.places steps ++ (access.rightsOf.map Path.places).getD []
      | _ => []
    (prepared ++ opened).eraseDups

def run (environment : Environment) (exchange : Http.Exchange) (fresh : Nat → Uuid)
    (now : Instant) (argv : List String) (disk : Disk) : Report × Disk :=
  match readCall environment argv with
  | .error report => (report,disk)
  | .ok (command,args) => execute environment exchange fresh now command args disk

end Coursework.CommandLine
