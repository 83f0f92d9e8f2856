import Coursework.Course
import Coursework.Proofs.Reconcile

/-! The tree that a sync should leave, told apart from how a sync gets there: from the old tree and
the outline of the course alone, one path at a time. Cards keep their records, marks are kept or
cleared, and then what is finished is marked. No key diff, no cache and no order of edits. -/
namespace Coursework

structure LessonOutline where
  id : LessonId
  decks : List (DeckId × List CardId)
  deriving DecidableEq, Repr

def Lesson.outline (cards : DeckId → List CardId) (l : Lesson) : LessonOutline :=
  ⟨l.id,l.deckReferences.map fun deck => (deck,cards deck)⟩

namespace Merge

def finished (m : Mark) (done : Bool) (now : Instant) : Mark :=
  if !m.isCompleted && done then ⟨true,some now⟩ else m

def card (old : Option DeckProgress) (id : CardId) : CardProgress :=
  (old.bind fun d => d.cards.get? id.key).getD {}

def reopensDeck (old : Option DeckProgress) (cards : List CardId) : Bool :=
  old.isNone || cards.isEmpty ||
    cards.any fun id => (old.bind fun d => d.cards.get? id.key).isNone

def deckMark (old : Option DeckProgress) (cards : List CardId) : Mark :=
  if reopensDeck old cards then {} else (old.map DeckProgress.mark).getD {}

def deckDone (old : Option DeckProgress) (cards : List CardId) : Bool :=
  !cards.isEmpty && cards.all fun id => (card old id).isCompleted

def deck (now : Instant) (old : Option DeckProgress) (cards : List CardId) : DeckProgress :=
  let mark := finished (deckMark old cards) (deckDone old cards) now
  { cards := .ofList (cards.map fun id => (id.key,card old id)),
    isCompleted := mark.isCompleted, completedAt := mark.completedAt }

def oldDeck (old : Option LessonProgress) (id : DeckId) : Option DeckProgress :=
  old.bind fun l => l.decks.get? id.key

def reopensLesson (old : Option LessonProgress) (decks : List (DeckId × List CardId)) : Bool :=
  old.isNone || decks.isEmpty || decks.any fun (id,cards) => reopensDeck (oldDeck old id) cards

def lessonMark (old : Option LessonProgress) (decks : List (DeckId × List CardId)) : Mark :=
  if reopensLesson old decks then {} else (old.map LessonProgress.mark).getD {}

def lessonDone (now : Instant) (old : Option LessonProgress)
    (decks : List (DeckId × List CardId)) : Bool :=
  !decks.isEmpty && decks.all fun (id,cards) => (deck now (oldDeck old id) cards).isCompleted

def lesson (now : Instant) (old : Option LessonProgress) (decks : List (DeckId × List CardId)) :
    LessonProgress :=
  let mark := finished (lessonMark old decks) (lessonDone now old decks) now
  { decks := .ofList (decks.map fun (id,cards) => (id.key,deck now (oldDeck old id) cards)),
    isCompleted := mark.isCompleted, completedAt := mark.completedAt }

def courseLesson (now : Instant) (old : CourseProgress) (l : LessonOutline) : LessonProgress :=
  lesson now (old.lesson? l.id.key) l.decks

def current (now : Instant) (old : CourseProgress) (outline : List LessonOutline) :
    Option LessonId :=
  match outline.find? fun l => !(courseLesson now old l).isCompleted with
  | some l => some l.id
  | none => outline.getLast?.map (·.id)

def course (now : Instant) (old : CourseProgress) (outline : List LessonOutline) :
    CourseProgress :=
  { lessons := .ofList (outline.map fun l => (l.id.key,courseLesson now old l)),
    currentLessonId := current now old outline }

theorem deckCards (now : Instant) (old : Option DeckProgress) (cards : List CardId)
    (key : String) :
    (deck now old cards).cards.get? key =
      if key ∈ cards.map Id.key then some ((old.bind fun d => d.cards.get? key).getD {})
      else none := by
  have tabulated := KeyMap.getTabulated
    (fun k => (old.bind fun d => d.cards.get? k).getD ({} : CardProgress)) (cards.map Id.key) key
  rw [List.map_map] at tabulated
  exact tabulated

theorem deckMarkFinished (now : Instant) (old : Option DeckProgress) (cards : List CardId) :
    (deck now old cards).mark = finished (deckMark old cards) (deckDone old cards) now :=
  rfl

theorem lessonMarkFinished (now : Instant) (old : Option LessonProgress)
    (decks : List (DeckId × List CardId)) :
    (lesson now old decks).mark =
      finished (lessonMark old decks) (lessonDone now old decks) now :=
  rfl

end Merge

end Coursework
