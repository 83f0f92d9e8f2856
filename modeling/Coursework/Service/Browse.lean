import Coursework.Service.Sync
/-!
Listing the lessons of a course. For a learner the tree is synced first, so that what is shown as
complete and as current fits the present contents.
-/
namespace Coursework

structure BrowseOptions where
  user : Option UserId := none
  bodyless : Bool := false
  deriving DecidableEq, Repr

structure LessonWithProgress where
  lesson : Lesson
  isCompleted : Bool
  isCurrent : Bool
  deriving DecidableEq

inductive LessonListing where
  | plain (lessons : List Lesson)
  | withProgress (lessons : List LessonWithProgress)
  deriving DecidableEq

inductive BrowseError where
  | sync (e : SyncError)
  | storage (e : StorageError)
  deriving DecidableEq, Repr

def BrowseError.message : BrowseError → String
  | .sync e => e.message
  | .storage e => e.message

def BrowseOptions.present (options : BrowseOptions) (lesson : Lesson) : Lesson :=
  if options.bodyless then lesson.withoutBody else lesson

def LessonWithProgress.of (options : BrowseOptions) (state : CourseProgress) (lesson : Lesson) :
    LessonWithProgress :=
  ⟨options.present lesson,state.isLessonCompleted lesson.id.key,state.isCurrent lesson.id⟩

def browse (now : Instant) (course : CourseId) (options : BrowseOptions) :
    Script BrowseError LessonListing :=
  match options.user with
  | none => do
    let lessons ← Script.call .storage (.listLessons course .ascending)
    .done (.plain (lessons.map options.present))
  | some user => do
    let (enrollment,lessons) ← (syncWithLessons now user course).mapError .sync
    .done (.withProgress (lessons.map (.of options enrollment.state)))

end Coursework
