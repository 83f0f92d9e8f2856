import Coursework.Proofs.Calls

/-! What a served answer and a served sync leave behind: the enrollment that they wrote last, and how
it came from the one that was stored before. -/
namespace Coursework

theorem CourseProgress.resumedLessons (p : CourseProgress) (lesson : LessonId) :
    (p.resumeAt lesson).lessons = p.lessons := by
  unfold resumeAt
  split <;> rfl

section LeftBehind

variable {setting : Setting} {user : UserId} {course : CourseId} {b after : Backend}
  {lesson : LessonId} {deck : DeckId} {answers : List CardAnswer} {outcome : AnswerOutcome}

structure LeftWith (setting : Setting) (user : UserId) (course : CourseId) (after : Backend)
    (e : Enrollment) : Prop where
  written : ∃ before, setting.handler (.saveProgress e) before = (.ok (),after)
  owned : e.userId = user ∧ e.courseId = course
  shown : ∀ found, after.repository.stored user course = .ok found → found.Shows e

theorem leftWith {old : Enrollment} {state : CourseProgress} {now : Instant}
    (stored : b.repository.stored user course = .ok old)
    (written : setting.handler (.saveProgress (old.withState state now)) b = (.ok (),after)) :
    LeftWith setting user course after (old.withState state now) := by
  obtain ⟨rfl,rfl⟩ := Repository.storedBelongs stored
  exact ⟨⟨b,written⟩,⟨rfl,rfl⟩,(Setting.saves written).shown⟩

structure AnswerLeft (setting : Setting) (user : UserId) (course : CourseId) (lesson : LessonId)
    (deck : DeckId) (answers : List CardAnswer) (b : Backend) (outcome : AnswerOutcome)
    (after : Backend) (old : Enrollment) (state : CourseProgress) : Prop where
  stored : b.repository.stored user course = .ok old
  recorded : old.state.answerCards lesson.key deck.key
    ((setting.handler.answers b).answerKey answers) setting.now answers =
      .ok (state,outcome.results)
  lessons : ∀ found, after.repository.stored user course = .ok found →
    found.state.lessons = state.lessons
  written : answers ≠ [] →
    LeftWith setting user course after (old.withState (state.resumeAt lesson) setting.now)
  still : answers = [] → after = b

theorem answerLeft
    (ok : (answer setting.now user course lesson deck answers).run setting.handler b =
      (.ok outcome,after)) :
    ∃ old state, AnswerLeft setting user course lesson deck answers b outcome after old state := by
  by_cases given : answers = []
  · subst given
    rw [Script.runReading setting.transactional.quiet
      (emptyAnswerReads setting.now user course lesson deck)] at ok
    obtain ⟨served,rfl⟩ := Prod.mk.inj ok
    obtain ⟨old,loaded,rest⟩ := Script.evalBindOk.mp served
    obtain ⟨_,_,last⟩ := Script.evalBindOk.mp rest
    cases Script.evalDoneOk.mp last
    have stored := Setting.loads (Script.evalCallOk.mp loaded)
    refine ⟨old,old.state,stored,rfl,fun found read => ?_,fun some => absurd rfl some,fun _ => rfl⟩
    cases Except.ok.inj (stored.symm.trans read)
    rfl
  · obtain ⟨old,state,loaded,recorded,written⟩ :=
      (answerServed setting.transactional given ok).loaded
    have stored := Setting.loads loaded
    have left := leftWith stored written
    refine ⟨old,state,stored,recorded,fun found read => ?_,fun _ => left,
      fun none => absurd none given⟩
    rw [(left.shown found read).state]
    exact state.resumedLessons lesson

theorem syncLeft {new : Enrollment} {lessons : List Lesson}
    (apart : (setting.handler.answers b).ListsApart course)
    (ok : (syncWithLessons setting.now user course).run setting.handler b =
      (.ok (new,lessons),after)) :
    setting.handler.answers b (.listLessons course .ascending) = .ok lessons ∧
      ∃ old, b.repository.stored user course = .ok old ∧
        new = old.withState (Merge.course setting.now old.state
          (lessons.map (·.outline (setting.handler.answers b).deckCards))) setting.now ∧
        LeftWith setting user course after new := by
  have served := syncServed setting.transactional apart ok
  obtain ⟨old,loaded,same⟩ := served.merged
  have stored := Setting.loads loaded
  have written := served.saved
  rw [same] at written ⊢
  exact ⟨served.listed,old,stored,rfl,leftWith stored written⟩

end LeftBehind

end Coursework
