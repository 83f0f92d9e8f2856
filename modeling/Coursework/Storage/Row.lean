import Coursework.Deck
import Coursework.Json.Progress
import Coursework.Storage.Cell
import Coursework.Storage.Operation
/-!
The rows of the tables and the records that they are read as. Identifiers, instants and trees are
kept as texts, so a row may hold texts that cannot be read; reading reports the first of them in
the order of the fields. What is written from a record is read back as that record.
-/
namespace Coursework

structure CourseRow where
  id : String
  ord : Cell
  title : String
  description : String
  createdAt : String
  deriving DecidableEq, Repr

structure LessonRow where
  id : String
  courseId : String
  ord : Cell
  title : String
  description : String
  body : String
  createdAt : String
  deriving DecidableEq, Repr

structure DeckRow where
  id : String
  title : String
  description : String
  deriving DecidableEq, Repr

structure CardRow where
  id : String
  deckId : String
  position : Cell
  title : String
  explanation : String
  kind : String
  deriving DecidableEq, Repr

structure AnswerRow where
  id : String
  cardId : String
  position : Cell
  text : String
  isCorrect : Cell
  deriving DecidableEq, Repr

structure ProgressRow where
  id : String
  userId : String
  courseId : String
  currentLesson : Option String
  state : String
  createdAt : String
  updatedAt : String
  deriving DecidableEq, Repr

abbrev Stored (α : Type) : Type := Except StorageError α

namespace Stored

def readable {α : Type} : Option α → Stored α
  | some a => .ok a
  | none => .error (.serialization .malformed)

def id {entity : Entity} (field : StoredField) (raw : String) : Stored (Id entity) :=
  match Id.parse? raw with
  | some id => .ok id
  | none => .error (.serialization (.invalid field raw))

def kind (raw : String) : Stored CardKind :=
  match CardKind.parse? raw with
  | some kind => .ok kind
  | none => .error (.serialization (.invalid .cardKind raw))

def order (c : Cell) : Stored Int64 := readable (c.integer?.map Int64.ofInt)

def instant (raw : String) : Stored Instant := readable (Instant.parseStored? raw)

end Stored

namespace CourseRow

def ofCourse (c : Course) : CourseRow :=
  { id := c.id.key, ord := .integer c.order.toInt, title := c.title, description := c.description,
    createdAt := c.createdAt.storedText }

def read (r : CourseRow) : Stored Course := do
  return { id := ← Stored.id .courseId r.id, order := ← Stored.order r.ord, title := r.title,
           description := r.description, createdAt := ← Stored.instant r.createdAt }

end CourseRow

namespace LessonRow

def ofLesson (l : Lesson) : LessonRow :=
  { id := l.id.key, courseId := l.courseId.key, ord := .integer l.order.toInt, title := l.title,
    description := l.description, body := l.body, createdAt := l.createdAt.storedText }

def read (r : LessonRow) : Stored Lesson := do
  return { id := ← Stored.id .lessonId r.id, courseId := ← Stored.id .courseId r.courseId,
           order := ← Stored.order r.ord, title := r.title, description := r.description,
           body := r.body, createdAt := ← Stored.instant r.createdAt }

def precedes (a b : LessonRow) : Bool :=
  a.ord.before b.ord || (!b.ord.before a.ord &&
    (a.createdAt < b.createdAt || (a.createdAt == b.createdAt && a.id < b.id)))

end LessonRow

def DeckRow.ofDeck (d : Deck) : DeckRow :=
  { id := d.id.key, title := d.title, description := d.description }

namespace CardRow

def ofCard (deck : DeckId) (position : Nat) (c : Card) : CardRow :=
  { id := c.id.key, deckId := deck.key, position := .integer position, title := c.title,
    explanation := c.explanation, kind := c.kind.text }

def read (r : CardRow) : Stored Card := do
  return { id := ← Stored.id .cardId r.id, title := r.title, explanation := r.explanation,
           kind := ← Stored.kind r.kind }

end CardRow

namespace AnswerRow

def ofAnswer (card : CardId) (position : Nat) (a : PossibleAnswer) : AnswerRow :=
  { id := a.id.key, cardId := card.key, position := .integer position, text := a.text,
    isCorrect := .integer (if a.isCorrect then 1 else 0) }

def read (r : AnswerRow) : Stored (CardId × PossibleAnswer) := do
  let card ← Stored.id .cardId r.cardId
  let id ← Stored.id .answerId r.id
  let isCorrect ← Stored.readable r.isCorrect.integer?
  return (card,{ id, text := r.text, isCorrect := isCorrect != 0 })

end AnswerRow

namespace ProgressRow

def ofEnrollment (e : Enrollment) : ProgressRow :=
  { id := e.id.text, userId := e.userId.key, courseId := e.courseId.key,
    currentLesson := e.currentLessonId.map Id.key, state := Json.write e.state,
    createdAt := e.createdAt.storedText, updatedAt := e.updatedAt.storedText }

def readCurrent : Option String → Stored (Option LessonId)
  | none => .ok none
  | some raw => some <$> Stored.id .currentLesson raw

def read (r : ProgressRow) : Stored Enrollment := do
  let currentLessonId ← readCurrent r.currentLesson
  let state ← Stored.readable (Json.read? r.state)
  return { id := ← Stored.readable (Uuid.parse? r.id), userId := ← Stored.id .userId r.userId,
           courseId := ← Stored.id .courseId r.courseId, currentLessonId, state,
           createdAt := ← Stored.instant r.createdAt, updatedAt := ← Stored.instant r.updatedAt }

def overwrite (old new : ProgressRow) : ProgressRow :=
  { old with currentLesson := new.currentLesson, state := new.state, updatedAt := new.updatedAt }

end ProgressRow

end Coursework
