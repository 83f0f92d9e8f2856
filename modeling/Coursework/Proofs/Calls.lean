import Coursework.Proofs.Answered
import Coursework.Proofs.MergePaths
import Coursework.Proofs.Stores

/-! The calls that a learner can make in a course, and all that one of them can do to what is stored
for the two: nothing, an enrollment with a fresh tree, a batch of answers, or a merge. -/
namespace Coursework

inductive Request where
  | enroll (newId : Uuid)
  | answer (lesson : LessonId) (deck : DeckId) (answers : List CardAnswer)
  | sync
  | browse (bodyless : Bool)

inductive Reply where
  | enrolled (result : Except EnrollError Enrollment)
  | answered (result : Except AnswerError AnswerOutcome)
  | synced (result : Except SyncError Enrollment)
  | browsed (result : Except BrowseError LessonListing)

namespace Setting

def serve (setting : Setting) (user : UserId) (course : CourseId) (b : Backend) :
    Request → Reply × Backend
  | .enroll newId =>
    ((enroll newId setting.now user course).run setting.handler b).map .enrolled id
  | .answer lesson deck answers =>
    ((answer setting.now user course lesson deck answers).run setting.handler b).map .answered id
  | .sync => ((sync setting.now user course).run setting.handler b).map .synced id
  | .browse bodyless =>
    ((browse setting.now course { user := some user, bodyless }).run setting.handler b).map
      .browsed id

theorem syncedIff {setting : Setting} {user : UserId} {course : CourseId} {b after : Backend}
    {new : Enrollment} :
    setting.serve user course b .sync = (.synced (.ok new),after) ↔
      (sync setting.now user course).run setting.handler b = (.ok new,after) := by
  rw [serve]
  cases (sync setting.now user course).run setting.handler b with
  | mk result reached => simp [Prod.map]

theorem answeredIff {setting : Setting} {user : UserId} {course : CourseId} {b after : Backend}
    {lesson : LessonId} {deck : DeckId} {answers : List CardAnswer} {outcome : AnswerOutcome} :
    setting.serve user course b (.answer lesson deck answers) = (.answered (.ok outcome),after) ↔
      (answer setting.now user course lesson deck answers).run setting.handler b =
        (.ok outcome,after) := by
  rw [serve]
  cases (answer setting.now user course lesson deck answers).run setting.handler b with
  | mk result reached => simp [Prod.map]

/- The trials that a call was served with: the answers of a batch, each as the catalog grades it.
Only a batch that was served counts. -/
def graded (setting : Setting) (b : Backend) : Request → Reply → CardPath → List Trial
  | .answer lesson deck answers,.answered (.ok _),path =>
    gradedTrials lesson.key deck.key ((setting.handler.answers b).answerKey answers) setting.now
      answers path
  | _,_,_ => []

end Setting

inductive Effect (user : UserId) (course : CourseId) (setting : Setting) (b after : Backend)
    (graded : CardPath → List Trial) : Prop where
  | still (same : after = b) (none : ∀ path, graded path = [])
  | enrolled (newId : Uuid) (outline : List LessonOutline) (apart : Merge.Apart outline)
      (free : b.repository.stored user course = .error .notFound)
      (kept : b.repository.Keeps (.start newId user course
        (Merge.course setting.now {} outline) setting.now) after.repository)
      (none : ∀ path, graded path = [])
  | answered (old : Enrollment) (lesson : LessonId) (deck : DeckId) (key : AnswerKey)
      (answers : List CardAnswer) (state : CourseProgress) (results : List CardAnswerResult)
      (loaded : b.repository.stored user course = .ok old)
      (recorded : old.state.answerCards lesson.key deck.key key setting.now answers =
        .ok (state,results))
      (kept : b.repository.Keeps (old.withState (state.resumeAt lesson) setting.now)
        after.repository)
      (same : ∀ path, graded path = gradedTrials lesson.key deck.key key setting.now answers path)
  | merged (old : Enrollment) (outline : List LessonOutline) (apart : Merge.Apart outline)
      (loaded : b.repository.stored user course = .ok old)
      (kept : b.repository.Keeps (old.withState
        (Merge.course setting.now old.state outline) setting.now) after.repository)
      (none : ∀ path, graded path = [])

theorem outlinesApart {lessons : List Lesson} (cards : DeckId → List CardId)
    (distinct : (lessons.map (·.id)).Nodup) : Merge.Apart (lessons.map (·.outline cards)) := by
  constructor
  · rw [outlinesKeys]
    exact lessonKeysDistinct distinct
  · intro o member
    obtain ⟨l,_,rfl⟩ := List.mem_map.mp member
    exact outlineDistinct l cards

section Effects

variable {user : UserId} {course : CourseId} {setting : Setting} {b after : Backend}
  {graded : CardPath → List Trial}

theorem enrollEffect {newId : Uuid} {result : Except EnrollError Enrollment}
    (apart : b.repository.ListsApart course)
    (ran : (enroll newId setting.now user course).run setting.handler b = (result,after))
    (none : ∀ path, graded path = []) : Effect user course setting b after graded := by
  cases result with
  | error e => exact .still (enrollFailed setting.transactional ran) none
  | ok e =>
    have served := enrollServed setting.transactional (Setting.listsApart apart) ran
    obtain ⟨lessons,_,listed,rfl⟩ := served.merged
    obtain ⟨free,kept⟩ := Setting.creates served.created
    exact .enrolled newId _ (outlinesApart _ (Setting.listsApart apart _ listed)) free kept none

theorem syncEffect {result : Except SyncError (Enrollment × List Lesson)}
    (apart : b.repository.ListsApart course)
    (ran : (syncWithLessons setting.now user course).run setting.handler b = (result,after))
    (none : ∀ path, graded path = []) : Effect user course setting b after graded := by
  cases result with
  | error e => exact .still (syncFailed setting.transactional ran) none
  | ok p =>
    have served := syncServed setting.transactional (Setting.listsApart apart) ran
    obtain ⟨old,loaded,same⟩ := served.merged
    have kept := Setting.saves served.saved
    rw [same] at kept
    exact .merged old _ (outlinesApart _ (Setting.listsApart apart _ served.listed))
      (Setting.loads loaded) kept none

theorem answerEffect {lesson : LessonId} {deck : DeckId} {answers : List CardAnswer}
    {result : Except AnswerError AnswerOutcome}
    (ran : (answer setting.now user course lesson deck answers).run setting.handler b =
      (result,after)) :
    Effect user course setting b after
      (setting.graded b (.answer lesson deck answers) (.answered result)) := by
  cases result with
  | error e => exact .still (answerFailed setting.transactional ran) fun _ => rfl
  | ok outcome =>
    by_cases given : answers = []
    · subst given
      exact .still (emptyAnswerServed setting.transactional ran) fun _ => rfl
    · obtain ⟨old,state,loaded,recorded,saved⟩ :=
        (answerServed setting.transactional given ran).loaded
      exact .answered old lesson deck _ answers state outcome.results (Setting.loads loaded)
        recorded (Setting.saves saved) fun _ => rfl

theorem effectOf {request : Request} {reply : Reply} (apart : b.repository.ListsApart course)
    (served : setting.serve user course b request = (reply,after)) :
    Effect user course setting b after (setting.graded b request reply) := by
  cases request with
  | enroll newId =>
    cases ran : (enroll newId setting.now user course).run setting.handler b with
    | mk result reached =>
      rw [Setting.serve,ran] at served
      cases served
      exact enrollEffect apart ran fun _ => rfl
  | answer lesson deck answers =>
    cases ran : (answer setting.now user course lesson deck answers).run setting.handler b with
    | mk result reached =>
      rw [Setting.serve,ran] at served
      cases served
      exact answerEffect ran
  | sync =>
    cases ran : (syncWithLessons setting.now user course).run setting.handler b with
    | mk result reached =>
      rw [Setting.serve,syncRuns,ran] at served
      cases served
      exact syncEffect apart ran fun _ => rfl
  | browse bodyless =>
    cases ran : (syncWithLessons setting.now user course).run setting.handler b with
    | mk result reached =>
      rw [Setting.serve,browseRuns rfl,ran] at served
      cases served
      exact syncEffect apart ran fun _ => rfl

end Effects

end Coursework
