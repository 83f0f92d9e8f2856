import Coursework.Service.Materialize
/-!
Enrolling a learner in a course. Every lesson is materialized from the present contents of its
decks, and the first lesson becomes the current one. Nothing is stored unless all lessons and
decks are there.
-/
namespace Coursework

inductive EnrollError where
  | noLessons
  | noDecksReferenced (lesson : LessonId)
  | alreadyEnrolled
  | storage (e : StorageError)
  deriving DecidableEq, Repr

def EnrollError.message : EnrollError → String
  | .noLessons => "course has no lessons"
  | .noDecksReferenced lesson => "lesson " ++ lesson.key ++ " does not reference any deck"
  | .alreadyEnrolled => "user is already enrolled in this course"
  | .storage e => e.message

def MaterializeError.toEnrollError : MaterializeError → EnrollError
  | .noDecksReferenced lesson => .noDecksReferenced lesson
  | .storage e => .storage e

def EnrollError.ofCreation : StorageError → EnrollError
  | .conflict => .alreadyEnrolled
  | e => .storage e

def materializeLessons (cache : DeckCache) (state : CourseProgress) :
    List Lesson → Script MaterializeError CourseProgress
  | [] => .done state
  | lesson :: lessons => do
    let (progress,cache) ← materialize lesson cache
    materializeLessons cache (state.setLesson lesson.id.key progress) lessons

def enroll (newId : Uuid) (now : Instant) (user : UserId) (course : CourseId) :
    Script EnrollError Enrollment := do
  let lessons ← Script.call .storage (.listLessons course .ascending)
  match lessons with
  | [] => .fail .noLessons
  | first :: _ =>
    let state ← (materializeLessons {} {} lessons).mapError MaterializeError.toEnrollError
    let enrollment :=
      Enrollment.start newId user course { state with currentLessonId := some first.id } now
    Script.call .ofCreation (.createProgress enrollment)
    .done enrollment

end Coursework
