import Coursework.Listing
import Coursework.Progress.Lesson
/-!
Progress of one learner in one course: a tree of lessons, decks and cards, and the lesson to go on
with.
-/
namespace Coursework

structure CourseProgress where
  lessons : KeyMap LessonProgress := .empty
  currentLessonId : Option LessonId := none
  deriving DecidableEq, Repr, Inhabited

structure AnswerEffect where
  correct : Bool
  cardCompleted : Bool
  deckCompleted : Bool
  lessonCompleted : Bool
  deriving DecidableEq, Repr

namespace CourseProgress

def lesson? (p : CourseProgress) (lesson : String) : Option LessonProgress := p.lessons.get? lesson

def deck? (p : CourseProgress) (lesson deck : String) : Option DeckProgress :=
  (p.lesson? lesson).bind fun l => l.decks.get? deck

def card? (p : CourseProgress) (lesson deck card : String) : Option CardProgress :=
  (p.deck? lesson deck).bind fun d => d.cards.get? card

def isCardCompleted (p : CourseProgress) (lesson deck card : String) : Bool :=
  (p.card? lesson deck card).any (·.isCompleted)

def isDeckCompleted (p : CourseProgress) (lesson deck : String) : Bool :=
  (p.deck? lesson deck).any (·.allCardsCompleted)

def isLessonCompleted (p : CourseProgress) (lesson : String) : Bool :=
  (p.lesson? lesson).any fun l => l.isCompleted || l.allDecksCompleted

def isCurrent (p : CourseProgress) (lesson : LessonId) : Bool := p.currentLessonId == some lesson

def setLesson (p : CourseProgress) (key : String) (l : LessonProgress) : CourseProgress :=
  { p with lessons := p.lessons.insert key l }

/-- Records an answer and carries a completion up through deck and lesson. Of the keys that are
not tracked the outermost is reported. -/
def answerCard (p : CourseProgress) (lesson deck card : String) (correct : Bool) (now : Instant) :
    Except ProgressError (CourseProgress × AnswerEffect) :=
  match p.lessons.get? lesson with
  | none => .error (.lessonNotFound lesson)
  | some l =>
    match l.decks.get? deck with
    | none => .error (.deckNotFound lesson deck)
    | some d =>
      match d.cards.get? card with
      | none => .error (.cardNotFound deck card)
      | some c =>
        let answered := c.recordAnswer correct now
        let d := d.setCard card answered
        let d := if c.isCompletedBy correct then d.promote now else d
        let l := l.setDeck deck d
        let l := if c.isCompletedBy correct then l.promote now else l
        .ok (p.setLesson lesson l,⟨correct,answered.isCompleted,d.isCompleted,l.isCompleted⟩)

def rollUp (p : CourseProgress) (now : Instant) : CourseProgress :=
  { p with lessons := p.lessons.map (·.rollUp now) }

def promotions (p : CourseProgress) (now : Instant) : Nat :=
  total (p.lessons.values.map (·.promotions now))

def lessonDiff (p : CourseProgress) (live : List String) : KeyDiff := p.lessons.diff live

def retainLessons (p : CourseProgress) (live : List String) : CourseProgress :=
  { p with lessons := p.lessons.prune (p.lessonDiff live).extra }

/-- The first tracked lesson that is not marked complete, else the last tracked one, of a list;
`last` is the last tracked one so far. -/
def nextLesson (p : CourseProgress) : (last : Option LessonId) → List LessonId → Option LessonId
  | last, [] => last
  | last, lesson :: ordered =>
    match p.lesson? lesson.key with
    | none => p.nextLesson last ordered
    | some l => if l.isCompleted then p.nextLesson (some lesson) ordered else some lesson

def recomputeCurrentLesson (p : CourseProgress) (ordered : List LessonId) : CourseProgress :=
  { p with currentLessonId := p.nextLesson none ordered }

end CourseProgress

end Coursework
