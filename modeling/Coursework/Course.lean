import Coursework.DeckReference
import Coursework.Instant
/-!
Courses and their lessons. The lessons of a course are listed by their order, then by the time of
their creation, then by identifier. The text of a lesson embeds the decks to work through.
-/
namespace Coursework

structure Course where
  id : CourseId
  order : Int64
  title : String
  description : String
  createdAt : Instant
  deriving DecidableEq

structure Lesson where
  id : LessonId
  courseId : CourseId
  order : Int64
  title : String
  description : String
  body : String
  createdAt : Instant
  deriving DecidableEq

namespace Lesson

def deckReferences (l : Lesson) : List DeckId := DeckReference.all l.body

def withoutBody (l : Lesson) : Lesson := { l with body := "" }

def precedes (a b : Lesson) : Bool :=
  a.order < b.order || (a.order == b.order &&
    (a.createdAt < b.createdAt || (a.createdAt == b.createdAt && a.id < b.id)))

end Lesson

inductive LessonOrder where
  | ascending | descending
  deriving DecidableEq, Repr, Inhabited

def LessonOrder.arrange {α : Type} (items : List α) : LessonOrder → List α
  | .ascending => items
  | .descending => items.reverse

end Coursework
