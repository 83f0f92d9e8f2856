import Coursework.Storage.Row
import Coursework.Storage.Table
/-!
A store of six tables. Identifiers are unique in their table, and so is a learner in a course; a
lesson needs its course, a card its deck and an answer its card. Updating a course or a lesson
keeps the time of creation, and a lesson its course. Storing a deck replaces its cards in one
transaction, which is undone on any violation. The store also keeps the versions of the tables.
-/
namespace Coursework

structure Database where
  courses : Table CourseRow := {}
  lessons : Table LessonRow := {}
  decks : Table DeckRow := {}
  cards : Table CardRow := {}
  answers : Table AnswerRow := {}
  progress : Table ProgressRow := {}
  versions : List Int := [1]
  deriving DecidableEq, Repr, Inhabited

namespace Database

def largestVariable : Nat := 32766

def refused {α : Type} : Stored α := .error (.connection .constraint)

def upsertCourse (d : Database) (row : CourseRow) : Database :=
  let update (old : CourseRow) : CourseRow := { row with createdAt := old.createdAt }
  { d with courses := d.courses.upsert (·.id == row.id) update row }

/-- Inserts a lesson of a stored course, or updates one without its course and time of creation. -/
def upsertLesson (d : Database) (row : LessonRow) : Stored Database :=
  let update (old : LessonRow) : LessonRow :=
    { row with courseId := old.courseId, createdAt := old.createdAt }
  if d.lessons.toList.any (·.id == row.id) || d.courses.toList.any (·.id == row.courseId) then
    .ok { d with lessons := d.lessons.upsert (·.id == row.id) update row }
  else refused

def lessonRows (d : Database) (course : CourseId) : List LessonRow :=
  sortOrdered LessonRow.precedes (d.lessons.toList.filter (·.courseId == course.key))

def insertAnswers (card : CardId) : (position : Nat) → List PossibleAnswer → Database →
    Stored Database
  | _, [], d => .ok d
  | position, a :: as, d =>
    if d.answers.toList.any (·.id == a.id.key) then refused
    else insertAnswers card (position + 1) as
      { d with answers := d.answers.insert (.ofAnswer card position a) }

def insertCards (deck : DeckId) : (position : Nat) → List Card → Database → Stored Database
  | _, [], d => .ok d
  | position, c :: cs, d =>
    if d.cards.toList.any (·.id == c.id.key) then refused
    else do
      let d := { d with cards := d.cards.insert (.ofCard deck position c) }
      let d ← insertAnswers c.id 0 c.possibleAnswers d
      insertCards deck (position + 1) cs d

def deleteCards (d : Database) (deck : DeckId) : Database :=
  let gone := (d.cards.toList.filter (·.deckId == deck.key)).map (·.id)
  { d with cards := d.cards.filter (·.deckId != deck.key),
           answers := d.answers.filter fun a => !gone.contains a.cardId }

def upsertDeck (d : Database) (deck : Deck) : Stored Database :=
  let row := DeckRow.ofDeck deck
  let decks := d.decks.upsert (·.id == row.id) (fun _ => row) row
  insertCards deck.id 0 deck.cards ({ d with decks }.deleteCards deck.id)

/-- Gives each card the answers of its identifier; of cards with one identifier the last takes
them all. -/
def attachAnswers (answers : List (CardId × PossibleAnswer)) : List Card → List Card
  | [] => []
  | c :: cs =>
    let rest := attachAnswers answers cs
    if cs.any (·.id == c.id) then c :: rest
    else { c with possibleAnswers := (answers.filter (·.1 == c.id)).map (·.2) } :: rest

def readCards (cards : List CardRow) (answers : List AnswerRow) : Stored (List Card) := do
  let cards ← cards.mapM CardRow.read
  let answers ← answers.mapM AnswerRow.read
  return attachAnswers answers cards

def cardRows (d : Database) (deck : DeckId) : List CardRow :=
  sortOrdered (fun a b => a.position.before b.position)
    (d.cards.toList.filter (·.deckId == deck.key))

def answerRows (d : Database) (card : String) : List AnswerRow :=
  sortOrdered (fun a b => a.position.before b.position)
    (d.answers.toList.filter (·.cardId == card))

def deckAnswerRows (d : Database) (deck : DeckId) : List AnswerRow :=
  let pairs := (d.cardRows deck).flatMap fun c => (d.answerRows c.id).map fun a => (c,a)
  let before (a b : CardRow × AnswerRow) : Bool :=
    a.1.position.before b.1.position ||
      (!b.1.position.before a.1.position && a.2.position.before b.2.position)
  (sortOrdered before pairs).map (·.2)

def getDeck (d : Database) (id : DeckId) : Stored Deck :=
  match d.decks.toList.find? (·.id == id.key) with
  | none => .error .notFound
  | some row => do
    let cards ← readCards (d.cardRows id) (d.deckAnswerRows id)
    return { id := ← Stored.id .deckId row.id, title := row.title,
             description := row.description, cards }

def getCards (d : Database) (ids : List CardId) : Stored (List Card) :=
  let ids := ids.eraseDups
  if ids.length ≤ largestVariable then do
    let keys := sortOrdered (fun a b : String => a < b) (ids.map Id.key)
    let rows := keys.flatMap fun key => d.cards.toList.filter (·.id == key)
    let cards ← readCards rows (keys.flatMap d.answerRows)
    return ids.filterMap fun id => cards.find? (·.id == id)
  else .error (.connection .statement)

def progressRow? (d : Database) (user : UserId) (course : CourseId) : Option ProgressRow :=
  d.progress.toList.find? fun r => r.userId == user.key && r.courseId == course.key

def createProgress (d : Database) (row : ProgressRow) : Stored Database :=
  let same (r : ProgressRow) : Bool :=
    r.id == row.id || r.userId == row.userId && r.courseId == row.courseId
  if d.progress.toList.any same then .error .conflict
  else .ok { d with progress := d.progress.insert row }

def saveProgress (d : Database) (row : ProgressRow) : Stored Database :=
  let same (r : ProgressRow) : Bool := r.userId == row.userId && r.courseId == row.courseId
  if d.progress.toList.any same then
    .ok { d with progress := d.progress.map fun r => if same r then r.overwrite row else r }
  else .error .notFound

def commit (d : Database) : Stored Database → Stored Unit × Database
  | .ok new => (.ok (),new)
  | .error e => (.error e,d)

def presentVersion : Int := 1

def reopen (d : Database) : Database :=
  if d.versions.contains presentVersion then d
  else { d with versions := d.versions ++ [presentVersion] }

def perform : Handler Database
  | .upsertCourse c, d => (.ok (),d.upsertCourse (.ofCourse c))
  | .getCourse id, d =>
    match d.courses.toList.find? (·.id == id.key) with
    | some row => (some <$> row.read,d)
    | none => (.ok none,d)
  | .upsertLesson l, d => d.commit (d.upsertLesson (.ofLesson l))
  | .listLessons course order, d =>
    ((order.arrange (d.lessonRows course)).mapM LessonRow.read,d)
  | .upsertDeck deck, d => d.commit (d.upsertDeck deck)
  | .getDeck id, d => (d.getDeck id,d)
  | .getCards ids, d => (d.getCards ids,d)
  | .createProgress e, d => d.commit (d.createProgress (.ofEnrollment e))
  | .getProgress user course, d =>
    match d.progressRow? user course with
    | some row => (row.read,d)
    | none => (.error .notFound,d)
  | .saveProgress e, d => d.commit (d.saveProgress (.ofEnrollment e))

end Database

end Coursework
