import Coursework.Proofs.Asked
import Coursework.Proofs.ServiceRuns

/-! The calls that enrolling and syncing make: what their plans read, in order, and then the one write
of each. -/
namespace Coursework

section Plans

variable {answers : Answers} {user : UserId} {course : CourseId} {now : Instant}

theorem enrollPlanListed {newId : Uuid} {first : Lesson} {rest : List Lesson}
    (listed : answers (.listLessons course .ascending) = .ok (first :: rest)) :
    (enrollPlan newId now user course).eval answers =
        (((materializeLessons {} {} (first :: rest)).eval answers).mapError
          MaterializeError.toEnrollError >>= fun state => .ok (.start newId user course
            { state with currentLessonId := some first.id } now)) ∧
      (enrollPlan newId now user course).asked answers = .listLessons course .ascending ::
        (materializeLessons {} {} (first :: rest)).asked answers := by
  rw [enrollPlan,(Script.called listed _).1,(Script.called listed _).2]
  constructor
  · exact (Script.evalBind _ _).trans (by rw [Script.evalMapError]; rfl)
  · exact congrArg _ ((Script.askedThenDone _ _).trans (Script.askedMapError _ _))

theorem syncPlanLoaded {e : Enrollment} {lessons : List Lesson}
    (loaded : answers (.getProgress user course) = .ok e)
    (listed : answers (.listLessons course .ascending) = .ok lessons) :
    (syncPlan now user course).eval answers =
        ((reconcileLessons {} e.state lessons).eval answers >>= fun state =>
          .ok (e.withState (state.settle lessons now) now,lessons)) ∧
      (syncPlan now user course).asked answers = .getProgress user course ::
        .listLessons course .ascending :: (reconcileLessons {} e.state lessons).asked answers := by
  rw [syncPlan,(Script.called loaded _).1,(Script.called loaded _).2,(Script.called listed _).1,
    (Script.called listed _).2,Script.evalBind,Script.askedThenDone]
  exact ⟨rfl,rfl⟩

theorem syncPlanUnlisted {e : Enrollment} {why : StorageError}
    (loaded : answers (.getProgress user course) = .ok e)
    (failed : answers (.listLessons course .ascending) = .error why) :
    (syncPlan now user course).eval answers = .error (.storage why) ∧
      (syncPlan now user course).asked answers =
        [.getProgress user course,.listLessons course .ascending] := by
  rw [syncPlan,(Script.called loaded _).1,(Script.called loaded _).2,(Script.refused failed _).1,
    (Script.refused failed _).2]
  exact ⟨rfl,rfl⟩

theorem syncPlanUnloaded {why : StorageError}
    (failed : answers (.getProgress user course) = .error why) :
    (syncPlan now user course).eval answers = .error (.ofLoading why) ∧
      (syncPlan now user course).asked answers = [.getProgress user course] := by
  rw [syncPlan,(Script.refused failed _).1,(Script.refused failed _).2]
  exact ⟨rfl,rfl⟩

end Plans

section Recorded

variable {σ : Type} {handle : Handler σ} {user : UserId} {course : CourseId} {now : Instant}

theorem enrollRecorded (quiet : handle.Quiet) (newId : Uuid) (s : σ) :
    (enroll newId now user course).runRecorded handle s =
      match (enrollPlan newId now user course).eval (handle.answers s) with
      | .ok e => (((handle (.createProgress e) s).1.map fun _ => e).mapError .ofCreation,
          (handle (.createProgress e) s).2,
          (enrollPlan newId now user course).asked (handle.answers s) ++ [.createProgress e])
      | .error e => (.error e,s,(enrollPlan newId now user course).asked (handle.answers s)) := by
  rw [enrollSplit]
  refine (Script.recordedPlanThenWrite quiet (enrollPlanReads newId now user course)
    EnrollError.ofCreation .createProgress id s).trans ?_
  cases (enrollPlan newId now user course).eval (handle.answers s) <;> rfl

theorem syncRecorded (quiet : handle.Quiet) (s : σ) :
    (sync now user course).runRecorded handle s =
      match (syncPlan now user course).eval (handle.answers s) with
      | .ok p => (((handle (.saveProgress p.1) s).1.map fun _ => p.1).mapError .storage,
          (handle (.saveProgress p.1) s).2,
          (syncPlan now user course).asked (handle.answers s) ++ [.saveProgress p.1])
      | .error e => (.error e,s,(syncPlan now user course).asked (handle.answers s)) := by
  have split : sync now user course = (syncPlan now user course).bind fun p =>
      (Script.call .storage (.saveProgress p.1)).bind fun _ => .done p.1 := by
    rw [sync,syncSplit]
    exact (Script.bindAssoc (syncPlan now user course) _ _).trans
      (congrArg _ (funext fun _ => Script.bindAssoc _ _ _))
  rw [split]
  refine (Script.recordedPlanThenWrite quiet (syncPlanReads now user course) SyncError.storage
    (fun p => .saveProgress p.1) Prod.fst s).trans ?_
  cases (syncPlan now user course).eval (handle.answers s) <;> rfl

end Recorded

end Coursework
