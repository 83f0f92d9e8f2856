import Coursework.Course
import Coursework.Progress.Course
/-!
The enrollment of a learner in a course, with the learner's progress. The record repeats the
current lesson of the tree.
-/
namespace Coursework

structure Enrollment where
  id : Uuid
  userId : UserId
  courseId : CourseId
  currentLessonId : Option LessonId
  state : CourseProgress
  createdAt : Instant
  updatedAt : Instant
  deriving DecidableEq, Repr

namespace Enrollment

def start (id : Uuid) (user : UserId) (course : CourseId) (state : CourseProgress)
    (now : Instant) : Enrollment :=
  { id, userId := user, courseId := course, currentLessonId := state.currentLessonId, state,
    createdAt := now, updatedAt := now }

def withState (e : Enrollment) (state : CourseProgress) (now : Instant) : Enrollment :=
  { e with state, currentLessonId := state.currentLessonId, updatedAt := now }

end Enrollment

end Coursework
