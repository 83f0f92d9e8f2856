import Coursework.CommandLine.Location
import Coursework.Service.Answer
/-!
The flags of a command. They may come in any order; of a repeated flag the last one counts, except
that answers add up. The first argument that is wrong decides the error.
-/
namespace Coursework.CommandLine

open Text

inductive Flag where
  | db | user | course | lesson | deck | answer | bodyless
  deriving DecidableEq, Repr

namespace Flag

def text : Flag → String
  | .db => "--db"
  | .user => "--user"
  | .course => "--course"
  | .lesson => "--lesson"
  | .deck => "--deck"
  | .answer => "--answer"
  | .bodyless => "--bodyless"

def all : List Flag := [.db,.user,.course,.lesson,.deck,.answer,.bodyless]

def parse? (raw : String) : Option Flag := all.find? fun flag => flag.text == raw

theorem parsesText (flag : Flag) : parse? flag.text = some flag := by
  cases flag <;> decide

end Flag

inductive ArgumentError where
  | missingValue (flag : Flag)
  | missingFlag (flag : Flag)
  | unknownArgument (raw : String)
  | invalidId (flag : Flag) (raw : String)
  | invalidAnswer (raw : String)
  | invalidDatabaseUrl (raw : String)
  deriving DecidableEq, Repr

def ArgumentError.message : ArgumentError → String
  | .missingValue flag => flag.text ++ " requires a value"
  | .missingFlag flag => flag.text ++ " is required for this command"
  | .unknownArgument raw => "unknown argument: " ++ raw
  | .invalidId flag raw => "invalid " ++ flag.text ++ " value: " ++ raw
  | .invalidAnswer raw => "invalid --answer value (expected <card>=<answer>): " ++ raw
  | .invalidDatabaseUrl raw => "invalid --db value: " ++ raw

inductive Stop where
  | help
  | error (e : ArgumentError)
  deriving DecidableEq, Repr

structure Arguments where
  databaseUrl : String
  user : Option UserId := none
  course : Option CourseId := none
  lesson : Option LessonId := none
  deck : Option DeckId := none
  answers : List CardAnswer := []
  bodyless : Bool := false
  deriving DecidableEq, Repr

def defaultDatabaseUrl : String := "sqlite://dev.sqlite3"

structure Environment where
  databaseUrl : Option String := none
  decksUrl : Option String := none
  directory : String
  deriving DecidableEq, Repr

def readId {entity : Entity} (flag : Flag) (raw : String) :
    Except ArgumentError (Id entity) :=
  match Id.parse? (trim raw) with
  | some id => .ok id
  | none => .error (.invalidId flag raw)

def readAnswer (raw : String) : Except ArgumentError CardAnswer :=
  let card := raw.toList.takeWhile (· != '=')
  match raw.toList.dropWhile (· != '=') with
  | [] => .error (.invalidAnswer raw)
  | _ :: answer =>
    match Uuid.parseChars? (trimChars card), Uuid.parseChars? (trimChars answer) with
    | some card, some answer => .ok ⟨⟨card⟩,⟨answer⟩⟩
    | _, _ => .error (.invalidAnswer raw)

namespace Arguments

def initial (environment : Environment) : Arguments where
  databaseUrl := match environment.databaseUrl with
    | none => defaultDatabaseUrl
    | some raw => normalizeUrl environment.directory raw

def set (directory : String) (args : Arguments) (flag : Flag) (value : String) :
    Except ArgumentError Arguments :=
  match flag with
  | .db =>
    if isAllBlank value then .error (.invalidDatabaseUrl value)
    else .ok { args with databaseUrl := normalizeUrl directory value }
  | .user => do return { args with user := some (← readId flag value) }
  | .course => do return { args with course := some (← readId flag value) }
  | .lesson => do return { args with lesson := some (← readId flag value) }
  | .deck => do return { args with deck := some (← readId flag value) }
  | .answer => do return { args with answers := args.answers ++ [← readAnswer value] }
  | .bodyless => .ok { args with bodyless := true }

def parseFrom (directory : String) : List String → Arguments → Except Stop Arguments
  | [], args => .ok args
  | raw :: rest, args =>
    if raw = "--help" ∨ raw = "-h" then .error .help
    else
      match Flag.parse? raw with
      | none => .error (.error (.unknownArgument raw))
      | some .bodyless => parseFrom directory rest { args with bodyless := true }
      | some flag =>
        match rest with
        | [] => .error (.error (.missingValue flag))
        | value :: rest =>
          match args.set directory flag value with
          | .ok args => parseFrom directory rest args
          | .error e => .error (.error e)

def parse (environment : Environment) (argv : List String) : Except Stop Arguments :=
  parseFrom environment.directory argv (initial environment)

def require {α : Type} (flag : Flag) : Option α → Except ArgumentError α
  | some a => .ok a
  | none => .error (.missingFlag flag)

def requireUser (args : Arguments) : Except ArgumentError UserId := require .user args.user

def requireCourse (args : Arguments) : Except ArgumentError CourseId := require .course args.course

def requireLesson (args : Arguments) : Except ArgumentError LessonId := require .lesson args.lesson

def requireDeck (args : Arguments) : Except ArgumentError DeckId := require .deck args.deck

end Arguments

end Coursework.CommandLine
