import Coursework.Service.Materialize
/-!
Bringing a learner's tree in line with the present contents of a course. New lessons are
materialized, new decks and cards are tracked and reopen what holds them, and what is no longer
referred to is dropped; the progress on everything else stays. Afterwards finished decks and
lessons are promoted and the current lesson is the first incomplete one, or the last. Nothing is
stored when an error is returned.
-/
namespace Coursework

inductive SyncError where
  | progressNotInitialized
  | noDecksReferenced (lesson : LessonId)
  | progress (e : ProgressError)
  | storage (e : StorageError)
  deriving DecidableEq, Repr

def SyncError.message : SyncError → String
  | .progressNotInitialized => "progress not initialized for this course"
  | .noDecksReferenced lesson => "lesson " ++ lesson.key ++ " does not reference any deck"
  | .progress e => e.message
  | .storage e => e.message

def MaterializeError.toSyncError : MaterializeError → SyncError
  | .noDecksReferenced lesson => .noDecksReferenced lesson
  | .storage e => .storage e

def SyncError.ofLoading : StorageError → SyncError
  | .notFound => .progressNotInitialized
  | e => .storage e

def reconcileDeckCards (lesson : String) (cache : DeckCache) (progress : LessonProgress) :
    List DeckId → Script SyncError (LessonProgress × DeckCache)
  | [] => .done (progress,cache)
  | deckId :: deckIds => do
    let (deck,cache) ← (cache.fetch deckId).mapError .storage
    let (progress,_) ← (Script.ofExcept
      (progress.reconcileCards lesson deckId.key deck.cardKeys)).mapError .progress
    reconcileDeckCards lesson cache progress deckIds

def reconcileLesson (lesson : Lesson) (cache : DeckCache) (state : CourseProgress) :
    Script SyncError (CourseProgress × DeckCache) :=
  match state.lesson? lesson.id.key with
  | none => do
    let (progress,cache) ← (materialize lesson cache).mapError MaterializeError.toSyncError
    .done (state.setLesson lesson.id.key progress,cache)
  | some progress => do
    let references := lesson.deckReferences
    let progress := progress.reconcileDecks (references.map Id.key)
    let (progress,cache) ← reconcileDeckCards lesson.id.key cache progress references
    .done (state.setLesson lesson.id.key progress,cache)

def reconcileLessons (cache : DeckCache) (state : CourseProgress) :
    List Lesson → Script SyncError CourseProgress
  | [] => .done state
  | lesson :: lessons => do
    let (state,cache) ← reconcileLesson lesson cache state
    reconcileLessons cache state lessons

/-- What follows once all lessons of a listing are reconciled: other lessons go, finished decks
and lessons are promoted, and the current lesson is found anew. -/
def CourseProgress.settle (state : CourseProgress) (lessons : List Lesson) (now : Instant) :
    CourseProgress :=
  ((state.retainLessons (lessons.map (·.id.key))).rollUp now).recomputeCurrentLesson
    (lessons.map (·.id))

def syncWithLessons (now : Instant) (user : UserId) (course : CourseId) :
    Script SyncError (Enrollment × List Lesson) := do
  let enrollment ← Script.call .ofLoading (.getProgress user course)
  let lessons ← Script.call .storage (.listLessons course .ascending)
  let state ← reconcileLessons {} enrollment.state lessons
  let synced := enrollment.withState (state.settle lessons now) now
  Script.call .storage (.saveProgress synced)
  .done (synced,lessons)

def sync (now : Instant) (user : UserId) (course : CourseId) : Script SyncError Enrollment := do
  let (enrollment,_) ← syncWithLessons now user course
  .done enrollment

end Coursework
