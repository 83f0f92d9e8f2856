import Coursework.CommandLine.Arguments
import Coursework.CommandLine.Disk
import Coursework.Draft
import Coursework.Json.Outcome
import Coursework.Service.Enroll
/-!
The commands of the program, as scripts that end with the document to print. A command asks for
its flags one after the other before it does anything, so the first missing one is reported.
-/
namespace Coursework.CommandLine

inductive Command where
  | seed | enroll | answer | sync | lessons | display
  deriving DecidableEq, Repr

namespace Command

def text : Command → String
  | .seed => "seed"
  | .enroll => "enroll"
  | .answer => "answer"
  | .sync => "sync"
  | .lessons => "lessons"
  | .display => "show"

def describe : Command → String
  | .seed => "Seed"
  | .enroll => "Enroll"
  | .answer => "Answer"
  | .sync => "Sync"
  | .lessons => "Lessons"
  | .display => "Show"

def all : List Command := [.seed,.enroll,.answer,.sync,.lessons,.display]

def parse? (raw : String) : Option Command := all.find? fun command => command.text == raw

end Command

inductive CommandError where
  | argument (e : ArgumentError)
  | path (e : PathError)
  | location (e : LocationError)
  | draft (ps : DraftProblems)
  | enroll (e : EnrollError)
  | answer (e : AnswerError)
  | sync (e : SyncError)
  | browse (e : BrowseError)
  | storage (e : StorageError)
  deriving DecidableEq, Repr

def CommandError.message : CommandError → String
  | .argument e => e.message
  | .path e => e.message
  | .location e => e.message
  | .draft ps => ps.message
  | .enroll e => e.message
  | .answer e => e.message
  | .sync e => e.message
  | .browse e => e.message
  | .storage e => e.message

def needed {α : Type} (value : Except ArgumentError α) : Script CommandError α :=
  (Script.ofExcept value).mapError .argument

def demoCard (fresh : Nat → Uuid) (first : Nat) (title right : String) (wrong : List String) :
    Card where
  id := ⟨fresh first⟩
  title
  possibleAnswers := (right :: wrong).mapIdx fun i text => ⟨⟨fresh (first + 1 + i)⟩,text,i == 0⟩

def demoMoves (fresh : Nat → Uuid) : Deck where
  id := ⟨fresh 15⟩
  title := "Moves"
  description := "Ownership transfer"
  cards :=
    [demoCard fresh 1 "What happens to `a` after `let b = a;` for a String?" "It is moved"
      ["It is copied","It is cloned"],
     demoCard fresh 5 "Which trait makes assignment copy instead of move?" "Copy"
      ["Clone","Send"]]

def demoBorrows (fresh : Nat → Uuid) : Deck where
  id := ⟨fresh 16⟩
  title := "Borrows"
  cards :=
    [demoCard fresh 9 "How many `&mut` borrows may be live at once?" "One" ["Two","Unlimited"]]

def demoLifetimes (fresh : Nat → Uuid) : Deck where
  id := ⟨fresh 17⟩
  title := "Lifetimes"
  cards :=
    [{ demoCard fresh 13 "A reference must never outlive its ___" "referent" [] with
        kind := .fillInTheBlanks }]

def demoBody (title : String) (decks : List Deck) : String :=
  "# " ++ title ++ "\n\nWork through the decks below.\n" ++
    String.join (decks.map fun d => "\n" ++ DeckReference.mark d.id ++ "\n")

def storeDecks : List Deck → Script CommandError Unit
  | [] => .done ()
  | d :: ds => do
    Script.call .storage (.upsertDeck d)
    storeDecks ds

def storeLessons (fresh : Nat → Uuid) (now : Instant) (course : CourseId) :
    (order : Nat) → List (String × List Deck) → Script CommandError (List Json.Value)
  | _, [] => .done []
  | order, (title,decks) :: plan => do
    let draft : LessonDraft :=
      { courseId := course, order := .ofNat order, title,
        description := "Lesson " ++ toString order ++ " of the ownership course",
        body := demoBody title decks }
    let lesson ← (Script.ofExcept (draft.validate ⟨fresh (17 + order)⟩ now)).mapError .draft
    Script.call .storage (.upsertLesson lesson)
    let described : Json.Value := .record [("id",Json.encode lesson.id),
      ("title",Json.encode lesson.title),("decks",Json.encode decks)]
    let rest ← storeLessons fresh now course (order + 1) plan
    .done (described :: rest)

def seed (fresh : Nat → Uuid) (now : Instant) : Script CommandError Json.Value := do
  let draft : CourseDraft :=
    { order := 1, title := "Ownership in Rust",
      description := "Moves, borrows and lifetimes, one deck at a time." }
  let course ← (Script.ofExcept (draft.validate ⟨fresh 0⟩ now)).mapError .draft
  Script.call .storage (.upsertCourse course)
  let moves := demoMoves fresh
  let borrows := demoBorrows fresh
  let lifetimes := demoLifetimes fresh
  storeDecks [moves,borrows,lifetimes]
  let lessons ← storeLessons fresh now course.id 1
    [("Moves",[moves]),("Borrowing",[borrows,moves]),("Lifetimes",[lifetimes])]
  .done (Json.Value.sorted
    (.record [("course_id",Json.encode course.id),("lessons",.array lessons)]))

def Command.script (fresh : Nat → Uuid) (now : Instant) (args : Arguments) :
    Command → Script CommandError Json.Value
  | .seed => CommandLine.seed fresh now
  | .enroll => do
    let user ← needed args.requireUser
    let course ← needed args.requireCourse
    let enrollment ← (Coursework.enroll (fresh 0) now user course).mapError .enroll
    .done (Json.encode enrollment)
  | .answer => do
    let user ← needed args.requireUser
    let course ← needed args.requireCourse
    let lesson ← needed args.requireLesson
    let deck ← needed args.requireDeck
    let outcome ←
      (Coursework.answer now user course lesson deck args.answers).mapError .answer
    .done (Json.encodeOutcome outcome)
  | .sync => do
    let user ← needed args.requireUser
    let course ← needed args.requireCourse
    let enrollment ← (Coursework.sync now user course).mapError .sync
    .done (Json.encode enrollment)
  | .lessons => do
    let course ← needed args.requireCourse
    let listing ←
      (browse now course { user := args.user, bodyless := args.bodyless }).mapError .browse
    .done (Json.encodeListing listing)
  | .display => do
    let user ← needed args.requireUser
    let course ← needed args.requireCourse
    let enrollment ← Script.call .storage (.getProgress user course)
    .done (Json.encode enrollment)

end Coursework.CommandLine
