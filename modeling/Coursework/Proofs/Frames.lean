import Coursework.Proofs.Calls
import Coursework.Proofs.Writes

/-! What a call leaves alone. A call that fails leaves everything as it was. One that succeeds
changes no course, no lesson, no deck and no enrollment but that of its pair, and of that neither
whose it is nor when it began. -/
namespace Coursework

namespace Backend

def without (user : UserId) (course : CourseId) (b : Backend) : Backend :=
  { b with repository := b.repository.without user course }

structure Framed (user : UserId) (course : CourseId) (b after : Backend) : Prop where
  others : after.without user course = b.without user course
  origins : b.repository.holds user course = true → b.repository.SameOrigins after.repository
  origin : ∀ old new, b.repository.stored user course = .ok old →
    after.repository.stored user course = .ok new → new.origin = old.origin

theorem framed (user : UserId) (course : CourseId) (b : Backend) : b.Framed user course b := by
  refine ⟨rfl,fun _ => b.repository.sameOrigins,fun old new before found => ?_⟩
  cases Except.ok.inj (before.symm.trans found)
  rfl

theorem contentPerformed {op : Operation} (content : op.readsContent = true)
    (exchange : Http.Exchange) (user : UserId) (course : CourseId) (b : Backend) :
    (perform exchange op (b.without user course)).1 = (perform exchange op b).1 := by
  obtain ⟨repository,service⟩ := b
  have stored := Repository.contentPerformed content user course repository
  cases service with
  | none => exact stored
  | some client =>
    cases op with
    | getDeck id => rfl
    | getCards ids => rfl
    | _ => exact stored

theorem framedByStore {user : UserId} {course : CourseId} {b : Backend} {r : Repository}
    (kept : b.repository.Framed user course r) :
    b.Framed user course { b with repository := r } := by
  refine ⟨?_,kept.origins,fun old new before found => ?_⟩
  · exact congrArg (fun r => { b with repository := r }) kept.others
  · exact Repository.originRead (kept.origins (Repository.holdsStored before)) before found

end Backend

namespace Setting

variable {setting : Setting} {user : UserId} {course : CourseId} {b after : Backend}

theorem createFramed {e : Enrollment}
    (ok : setting.handler (.createProgress e) b = (.ok (),after)) :
    b.Framed e.userId e.courseId after := by
  rw [servedByStore (by simp) (by simp) (congrArg Prod.fst ok)] at ok
  obtain ⟨made,rfl⟩ := Prod.mk.inj ok
  exact Backend.framedByStore (Repository.createFramed (Prod.ext made rfl))

theorem saveFramed {e : Enrollment}
    (ok : setting.handler (.saveProgress e) b = (.ok (),after)) :
    b.Framed e.userId e.courseId after := by
  rw [servedByStore (by simp) (by simp) (congrArg Prod.fst ok)] at ok
  obtain ⟨made,rfl⟩ := Prod.mk.inj ok
  exact Backend.framedByStore (Repository.saveFramed (Prod.ext made rfl))

theorem contentAnswered {op : Operation} (content : op.readsContent = true) (user : UserId)
    (course : CourseId) (b : Backend) :
    setting.handler.answers (b.without user course) op = setting.handler.answers b op := by
  have performed : ∀ op : Operation, op.readsContent = true →
      (Backend.perform setting.exchange op (b.without user course)).1 =
        (Backend.perform setting.exchange op b).1 :=
    fun op content => Backend.contentPerformed content setting.exchange user course b
  simp only [Handler.answers,handler,Faults.perform]
  cases setting.faults.of? op with
  | some e => rfl
  | none =>
    cases op with
    | getDeck id => exact performed _ rfl
    | _ => exact performed _ content

theorem contentAlike (same : after.without user course = b.without user course) {op : Operation}
    (content : op.readsContent = true) :
    setting.handler.answers after op = setting.handler.answers b op := by
  rw [← contentAnswered content user course after,same,contentAnswered content]

theorem withStateFramed {old : Enrollment} {state : CourseProgress} {now : Instant}
    (loaded : setting.handler.answers b (.getProgress user course) = .ok old)
    (ok : setting.handler (.saveProgress (old.withState state now)) b = (.ok (),after)) :
    b.Framed user course after := by
  obtain ⟨rfl,rfl⟩ := Repository.storedBelongs (loads loaded)
  exact saveFramed (e := old.withState state now) ok

end Setting

section Calls

variable {setting : Setting} {user : UserId} {course : CourseId} {b after : Backend}

theorem enrollFramed {newId : Uuid} {e : Enrollment}
    (ok : (enroll newId setting.now user course).run setting.handler b = (.ok e,after)) :
    b.Framed user course after := by
  obtain ⟨_,_,_,_,_,rfl,written⟩ := enrollRan setting.transactional ok
  exact Setting.createFramed written

theorem syncFramed {new : Enrollment} {lessons : List Lesson}
    (ok : (syncWithLessons setting.now user course).run setting.handler b =
      (.ok (new,lessons),after)) : b.Framed user course after := by
  obtain ⟨_,_,loaded,_,_,rfl,written⟩ := syncRan setting.transactional ok
  exact Setting.withStateFramed loaded written

theorem answerFramed {lesson : LessonId} {deck : DeckId} {answers : List CardAnswer}
    {outcome : AnswerOutcome}
    (ok : (answer setting.now user course lesson deck answers).run setting.handler b =
      (.ok outcome,after)) : b.Framed user course after := by
  by_cases given : answers = []
  · subst given
    cases emptyAnswerServed setting.transactional ok
    exact b.framed user course
  · obtain ⟨old,state,loaded,_,written⟩ :=
      (answerServed setting.transactional given ok).loaded
    exact Setting.withStateFramed loaded written

def Reply.failed : Reply → Bool
  | .enrolled result => !result.isOk
  | .answered result => !result.isOk
  | .synced result => !result.isOk
  | .browsed result => !result.isOk

structure CallFramed (user : UserId) (course : CourseId) (b : Backend) (served : Reply × Backend) :
    Prop where
  frame : b.Framed user course served.2
  failed : served.1.failed = true → served.2 = b

theorem syncCallFramed {result : Except SyncError (Enrollment × List Lesson)} {reply : Reply}
    (ran : (syncWithLessons setting.now user course).run setting.handler b = (result,after))
    (same : reply.failed = !result.isOk) : CallFramed user course b (reply,after) := by
  cases result with
  | error e =>
    cases syncFailed setting.transactional ran
    exact ⟨b.framed user course,fun _ => rfl⟩
  | ok p =>
    refine ⟨syncFramed ran,fun failed => ?_⟩
    rw [same] at failed
    cases failed

theorem callFramed (setting : Setting) (user : UserId) (course : CourseId) (b : Backend)
    (request : Request) : CallFramed user course b (setting.serve user course b request) := by
  cases request with
  | enroll newId =>
    cases ran : (enroll newId setting.now user course).run setting.handler b with
    | mk result after =>
      rw [Setting.serve,ran]
      cases result with
      | error e =>
        cases enrollFailed setting.transactional ran
        exact ⟨b.framed user course,fun _ => rfl⟩
      | ok e => exact ⟨enrollFramed ran,fun failed => by cases failed⟩
  | answer lesson deck answers =>
    cases ran : (answer setting.now user course lesson deck answers).run setting.handler b with
    | mk result after =>
      rw [Setting.serve,ran]
      cases result with
      | error e =>
        cases answerFailed setting.transactional ran
        exact ⟨b.framed user course,fun _ => rfl⟩
      | ok outcome => exact ⟨answerFramed ran,fun failed => by cases failed⟩
  | sync =>
    cases ran : (syncWithLessons setting.now user course).run setting.handler b with
    | mk result after =>
      rw [Setting.serve,syncRuns,ran]
      exact syncCallFramed ran (by cases result <;> rfl)
  | browse bodyless =>
    cases ran : (syncWithLessons setting.now user course).run setting.handler b with
    | mk result after =>
      rw [Setting.serve,browseRuns rfl,ran]
      exact syncCallFramed ran (by cases result <;> rfl)

theorem emptyAnswerStill (setting : Setting) (user : UserId) (course : CourseId) (b : Backend)
    (lesson : LessonId) (deck : DeckId) :
    (setting.serve user course b (.answer lesson deck [])).2 = b := by
  have reads := emptyAnswerReads setting.now user course lesson deck
  rw [Setting.serve,Script.runReading setting.transactional.quiet reads]
  rfl

theorem publicBrowseReads (now : Instant) (course : CourseId) (bodyless : Bool) :
    (browse now course { bodyless }).ReadsOnly :=
  Script.readsBind (Script.readsCall rfl) fun _ => trivial

/-- A call changes at most the enrollment of its pair, and a call that fails changes nothing. -/
theorem callsLeaveTheRest (setting : Setting) (user : UserId) (course : CourseId) (b : Backend) :
    (∀ request, CallFramed user course b (setting.serve user course b request)) ∧
      (∀ lesson deck, (setting.serve user course b (.answer lesson deck [])).2 = b) ∧
      ∀ bodyless, ((browse setting.now course { bodyless }).run setting.handler b).2 = b := by
  refine ⟨callFramed setting user course b,emptyAnswerStill setting user course b,?_⟩
  intro bodyless
  rw [Script.runReading setting.transactional.quiet (publicBrowseReads _ _ _)]

end Calls

end Coursework
