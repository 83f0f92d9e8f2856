import Coursework.Deck
import Coursework.Enrollment
import Coursework.Storage.Error
/-!
The operations on a store of courses, decks and enrollments, each with the type of its reply, and
handlers that carry them out over some state.
-/
namespace Coursework

inductive Operation where
  | upsertCourse (course : Course)
  | getCourse (id : CourseId)
  | upsertLesson (lesson : Lesson)
  | listLessons (course : CourseId) (order : LessonOrder)
  | upsertDeck (deck : Deck)
  | getDeck (id : DeckId)
  | getCards (ids : List CardId)
  | createProgress (enrollment : Enrollment)
  | getProgress (user : UserId) (course : CourseId)
  | saveProgress (enrollment : Enrollment)
  deriving DecidableEq

namespace Operation

abbrev Reply : Operation → Type
  | .getCourse _ => Option Course
  | .listLessons _ _ => List Lesson
  | .getDeck _ => Deck
  | .getCards _ => List Card
  | .getProgress _ _ => Enrollment
  | .upsertCourse _ | .upsertLesson _ | .upsertDeck _ | .createProgress _ | .saveProgress _ => Unit

abbrev Outcome (op : Operation) : Type := Except StorageError op.Reply

end Operation

abbrev Handler (σ : Type) : Type := (op : Operation) → σ → op.Outcome × σ

end Coursework
