import Coursework.Proofs.Frames
import Coursework.Proofs.Stamps
import Coursework.Proofs.StoredText
import Coursework.Proofs.UpToDate
import Mathlib.Data.List.Chain

/-! Times along a run. A call that writes leaves its own instant on the enrollment, and tables give
out the instants that were written. So if the clock never goes back, every enrollment that is stored
along a run is dated, they follow one another in time, and what stays complete keeps its instant. -/
namespace Coursework

namespace Stored

variable {α β : Type}

def There (x : Stored α) : Prop := x ≠ .error .notFound

theorem thereOk (a : α) : There (.ok a) := fun missing => nomatch missing

theorem thereBind {x : Stored α} {f : α → Stored β} (first : There x)
    (rest : ∀ a, There (f a)) : There (x >>= f) := by
  cases x with
  | error e => exact fun missing => first (by rw [Except.error.inj missing])
  | ok a => exact rest a

theorem thereReadable (o : Option α) : There (readable o) := by
  cases o with
  | none => exact fun missing => nomatch missing
  | some a => exact thereOk a

theorem thereId {entity : Entity} (field : StoredField) (raw : String) :
    There (Stored.id field raw : Stored (Id entity)) := by
  unfold Stored.id
  split
  · exact thereOk _
  · exact fun missing => nomatch missing

end Stored

namespace ProgressRow

theorem readThere (row : ProgressRow) : Stored.There row.read := by
  have current : Stored.There (readCurrent row.currentLesson) := by
    cases row.currentLesson with
    | none => exact Stored.thereOk none
    | some raw => exact Stored.thereBind (Stored.thereId .currentLesson raw) fun _ => Stored.thereOk _
  unfold ProgressRow.read
  refine Stored.thereBind current fun _ => Stored.thereBind (Stored.thereReadable _) fun _ => ?_
  refine Stored.thereBind (Stored.thereReadable _) fun _ => ?_
  refine Stored.thereBind (Stored.thereId _ _) fun _ => ?_
  refine Stored.thereBind (Stored.thereId _ _) fun _ => ?_
  refine Stored.thereBind (Stored.thereReadable _) fun _ => ?_
  exact Stored.thereBind (Stored.thereReadable _) fun _ => Stored.thereOk _

theorem readTimes {row : ProgressRow} {found : Enrollment} (read : row.read = .ok found) :
    Instant.parseStored? row.createdAt = some found.createdAt ∧
      Instant.parseStored? row.updatedAt = some found.updatedAt := by
  unfold ProgressRow.read at read
  obtain ⟨_,_,read⟩ := exceptBindOk.mp read
  obtain ⟨_,_,read⟩ := exceptBindOk.mp read
  obtain ⟨_,_,read⟩ := exceptBindOk.mp read
  obtain ⟨_,_,read⟩ := exceptBindOk.mp read
  obtain ⟨_,_,read⟩ := exceptBindOk.mp read
  obtain ⟨_,created,read⟩ := exceptBindOk.mp read
  obtain ⟨_,updated,read⟩ := exceptBindOk.mp read
  cases Except.ok.inj read
  exact ⟨readableOk.mp created,readableOk.mp updated⟩

end ProgressRow

namespace Repository

structure Stamped (r : Repository) (user : UserId) (course : CourseId) (now : Instant) : Prop where
  there : Stored.There (r.stored user course)
  updated : ∀ found, r.stored user course = .ok found → found.updatedAt = now

theorem createStamped {r after : Repository} {e : Enrollment}
    (ok : r.perform (.createProgress e) = (.ok (),after)) :
    after.Stamped e.userId e.courseId e.updatedAt ∧
      ∀ found, after.stored e.userId e.courseId = .ok found → found.createdAt = e.createdAt := by
  cases r with
  | memory m =>
    obtain ⟨n,ran,rfl⟩ := memoryPerforms ok
    obtain ⟨free,rfl⟩ := Memory.created ran
    have here : (memory { m with enrollments := m.enrollments ++ [e] }).stored e.userId
        e.courseId = .ok e := by
      unfold Memory.enrollment? at free
      rw [Memory.storedOf,Memory.enrollment?]
      simp [List.find?_append,free]
    rw [here]
    exact ⟨⟨here ▸ Stored.thereOk e,fun found read => Except.ok.inj (read.symm.trans here) ▸ rfl⟩,
      fun found read => Except.ok.inj read ▸ rfl⟩
  | tables d =>
    obtain ⟨n,ran,rfl⟩ := tablesPerform ok
    obtain ⟨free,rfl⟩ := Database.created ran
    have none : d.progress.toList.find? (·.isOf e.userId e.courseId) = none := by
      rw [List.find?_eq_none]
      exact fun row member fits => absurd (List.any_eq_true.mpr ⟨row,member,fits⟩) (by simp [free])
    have here : (tables { d with progress := d.progress.insert (.ofEnrollment e) }).stored e.userId
        e.courseId = (ProgressRow.ofEnrollment e).read := by
      have found : Database.progressRow? { d with
          progress := d.progress.insert (.ofEnrollment e) } e.userId e.courseId =
            some (.ofEnrollment e) := by
        unfold ProgressRow.isOf at none
        unfold Database.progressRow?
        simp [List.find?_append,none,ProgressRow.ofEnrollment]
      rw [Database.storedOf,found]
    refine ⟨⟨here ▸ ProgressRow.readThere _,fun found read => ?_⟩,fun found read => ?_⟩
    · exact Instant.storedFaithful (ProgressRow.readTimes (here.symm.trans read)).2
    · exact Instant.storedFaithful (ProgressRow.readTimes (here.symm.trans read)).1

theorem saveStamped {r after : Repository} {old e : Enrollment}
    (was : r.stored e.userId e.courseId = .ok old)
    (ok : r.perform (.saveProgress e) = (.ok (),after)) :
    after.Stamped e.userId e.courseId e.updatedAt := by
  have gives := saveGives was ok
  cases r with
  | memory m =>
    refine ⟨gives ▸ Stored.thereOk _,fun found read => ?_⟩
    cases Except.ok.inj (gives.symm.trans read)
    rfl
  | tables d =>
    constructor
    · rw [gives]
      exact Stored.thereBind (Stored.thereReadable _) fun _ =>
        Stored.thereBind (Stored.thereReadable _) fun _ => Stored.thereOk _
    · intro found read
      obtain ⟨state,_,read⟩ := exceptBindOk.mp (gives.symm.trans read)
      obtain ⟨updated,parsed,last⟩ := exceptBindOk.mp read
      cases Except.ok.inj last
      exact Instant.storedFaithful (readableOk.mp parsed)

end Repository

section Calls

variable {setting : Setting} {user : UserId} {course : CourseId} {b after : Backend}

theorem Setting.createStamped {e : Enrollment}
    (ok : setting.handler (.createProgress e) b = (.ok (),after)) :
    after.repository.Stamped e.userId e.courseId e.updatedAt ∧
      ∀ found, after.repository.stored e.userId e.courseId = .ok found →
        found.createdAt = e.createdAt := by
  rw [servedByStore (by simp) (by simp) (congrArg Prod.fst ok)] at ok
  obtain ⟨made,rfl⟩ := Prod.mk.inj ok
  exact Repository.createStamped (Prod.ext made rfl)

theorem Setting.saveStamped {old e : Enrollment}
    (was : b.repository.stored e.userId e.courseId = .ok old)
    (ok : setting.handler (.saveProgress e) b = (.ok (),after)) :
    after.repository.Stamped e.userId e.courseId e.updatedAt := by
  rw [servedByStore (by simp) (by simp) (congrArg Prod.fst ok)] at ok
  obtain ⟨made,rfl⟩ := Prod.mk.inj ok
  exact Repository.saveStamped was (Prod.ext made rfl)

inductive Timed (user : UserId) (course : CourseId) (now : Instant) (b after : Backend) : Prop
  | still (same : after = b)
  | created (stamped : after.repository.Stamped user course now)
      (begun : ∀ found, after.repository.stored user course = .ok found → found.createdAt = now)
  | saved (old : Enrollment) (was : b.repository.stored user course = .ok old)
      (stamped : after.repository.Stamped user course now)

theorem savedTimed {old : Enrollment} {state : CourseProgress} {now : Instant}
    (loaded : setting.handler.answers b (.getProgress user course) = .ok old)
    (ok : setting.handler (.saveProgress (old.withState state now)) b = (.ok (),after)) :
    Timed user course now b after := by
  have was := Setting.loads loaded
  obtain ⟨rfl,rfl⟩ := Repository.storedBelongs was
  exact .saved old was (Setting.saveStamped (e := old.withState state now) was ok)

theorem syncTimed {result : Except SyncError (Enrollment × List Lesson)}
    (ran : (syncWithLessons setting.now user course).run setting.handler b = (result,after)) :
    Timed user course setting.now b after := by
  cases result with
  | error e => exact .still (syncFailed setting.transactional ran)
  | ok p =>
    obtain ⟨_,_,loaded,_,_,same,written⟩ := syncRan setting.transactional ran
    rw [same] at written
    exact savedTimed loaded written

theorem timed (setting : Setting) (user : UserId) (course : CourseId) (b : Backend)
    (request : Request) : Timed user course setting.now b (setting.serve user course b request).2 := by
  cases request with
  | enroll newId =>
    cases ran : (enroll newId setting.now user course).run setting.handler b with
    | mk result after =>
      rw [Setting.serve,ran]
      cases result with
      | error e => exact .still (enrollFailed setting.transactional ran)
      | ok e =>
        obtain ⟨_,_,_,_,_,rfl,written⟩ := enrollRan setting.transactional ran
        obtain ⟨stamped,begun⟩ := Setting.createStamped written
        exact .created stamped begun
  | answer lesson deck answers =>
    cases ran : (answer setting.now user course lesson deck answers).run setting.handler b with
    | mk result after =>
      rw [Setting.serve,ran]
      cases result with
      | error e => exact .still (answerFailed setting.transactional ran)
      | ok outcome =>
        by_cases given : answers = []
        · subst given
          exact .still (emptyAnswerServed setting.transactional ran)
        · obtain ⟨old,state,loaded,_,written⟩ :=
            (answerServed setting.transactional given ran).loaded
          exact savedTimed loaded written
  | sync =>
    cases ran : (syncWithLessons setting.now user course).run setting.handler b with
    | mk result after =>
      rw [Setting.serve,syncRuns,ran]
      exact syncTimed ran
  | browse bodyless =>
    cases ran : (syncWithLessons setting.now user course).run setting.handler b with
    | mk result after =>
      rw [Setting.serve,browseRuns rfl,ran]
      exact syncTimed ran

end Calls

structure Enrollment.Dated (e : Enrollment) : Prop where
  ordered : e.createdAt ≤ e.updatedAt
  state : e.state.Dated e.createdAt e.updatedAt

structure Enrollment.Follows (later earlier : Enrollment) : Prop where
  updated : earlier.updatedAt ≤ later.updatedAt
  marks : earlier.state.SameMarks later.state

theorem Enrollment.follows (e : Enrollment) : e.Follows e :=
  ⟨le_refl _,fun _ _ _ => rfl⟩

def Backend.enrollments (user : UserId) (course : CourseId) (b : Backend) : List Enrollment :=
  (b.repository.stored user course).toOption.toList

def history (user : UserId) (course : CourseId) : List Record → Backend → List Enrollment
  | [],b => b.enrollments user course
  | r :: earlier,b => b.enrollments user course ++ history user course earlier r.before

def ClockAdvances (records : List Record) : Prop :=
  records.Pairwise fun later earlier => earlier.setting.now ≤ later.setting.now

/- What is complete all the time is so since one instant. -/
def KeepsMarks (stored : List Enrollment) : Prop :=
  ∀ place, (∀ e ∈ stored, e.state.CompleteAt place) → ∀ e ∈ stored, ∀ f ∈ stored,
    f.state.markAt place = e.state.markAt place

structure Coherent (stored : List Enrollment) : Prop where
  dated : ∀ e ∈ stored, e.Dated
  advance : stored.Pairwise fun later earlier => earlier.updatedAt ≤ later.updatedAt
  keep : ∀ stretch, stretch <:+: stored → KeepsMarks stretch

theorem keepsMarks {stored : List Enrollment} (chain : stored.IsChain Enrollment.Follows) :
    KeepsMarks stored := by
  intro place complete e first f last
  have same : (stored.map fun e => e.state.markAt place).IsChain Eq := by
    rw [List.isChain_map]
    refine chain.imp_of_mem_imp fun later earlier here there follows => ?_
    exact follows.marks place (complete earlier there) (complete later here)
  by_cases already : f.state.markAt place = e.state.markAt place
  · exact already
  · exact same.pairwise.forall (List.mem_map.mpr ⟨f,last,rfl⟩) (List.mem_map.mpr ⟨e,first,rfl⟩)
      already

theorem coherent {stored : List Enrollment} (dated : ∀ e ∈ stored, e.Dated)
    (chain : stored.IsChain Enrollment.Follows) : Coherent stored := by
  refine ⟨dated,?_,fun stretch inside => ?_⟩
  · have advance : (stored.map (·.updatedAt)).IsChain (· ≥ ·) := by
      rw [List.isChain_map]
      exact chain.imp fun _ _ follows => follows.updated
    have all := advance.pairwise
    rwa [List.pairwise_map] at all
  · have part := List.IsChain.infix chain inside
    exact keepsMarks part

section Timely

variable {user : UserId} {course : CourseId} {b after : Backend} {records : List Record}

theorem enrollmentsOk {e : Enrollment} (stored : b.repository.stored user course = .ok e) :
    b.enrollments user course = [e] := by
  rw [Backend.enrollments,stored]
  rfl

theorem enrollmentsError {why : StorageError}
    (stored : b.repository.stored user course = .error why) : b.enrollments user course = [] := by
  rw [Backend.enrollments,stored]
  rfl

theorem historyStarts (user : UserId) (course : CourseId) (records : List Record) (b : Backend) :
    ∃ past, history user course records b = b.enrollments user course ++ past := by
  cases records with
  | nil => exact ⟨[],(List.append_nil _).symm⟩
  | cons r earlier => exact ⟨_,rfl⟩

theorem historyAlike
    (kept : after.repository.stored user course = b.repository.stored user course)
    (records : List Record) : history user course records after = history user course records b := by
  have same : after.enrollments user course = b.enrollments user course := by
    rw [Backend.enrollments,kept,Backend.enrollments]
  cases records with
  | nil => exact same
  | cons r earlier => rw [history,same,history]

/- The invariant of a run. Every update was made by one of the calls, and before the first enrollment
there is nothing. -/
structure Timely (user : UserId) (course : CourseId) (records : List Record) (b : Backend) :
    Prop where
  clocked : ∀ e ∈ history user course records b, ∃ r ∈ records, e.updatedAt = r.setting.now
  dated : ∀ e ∈ history user course records b, e.Dated
  chained : (history user course records b).IsChain Enrollment.Follows
  unborn : b.repository.stored user course = .error .notFound → history user course records b = []

theorem historyHead {e : Enrollment} (stored : b.repository.stored user course = .ok e)
    (records : List Record) : ∃ past, history user course records b = e :: past := by
  obtain ⟨past,split⟩ := historyStarts user course records b
  rw [enrollmentsOk stored] at split
  exact ⟨past,split⟩

theorem timelyStart (free : b.repository.stored user course = .error .notFound) :
    Timely user course [] b := by
  have empty : history user course [] b = [] := enrollmentsError free
  refine ⟨?_,?_,?_,fun _ => empty⟩
  · simp [empty]
  · simp [empty]
  · rw [empty]
    exact .nil

theorem timelyAlike (times : Timely user course records b)
    (kept : after.repository.stored user course = b.repository.stored user course) :
    Timely user course records after := by
  have same := historyAlike kept records
  refine ⟨?_,?_,?_,fun missing => ?_⟩
  · rw [same]
    exact times.clocked
  · rw [same]
    exact times.dated
  · rw [same]
    exact times.chained
  · rw [same]
    exact times.unborn (kept.symm.trans missing)

theorem timelyNext {r : Record} (times : Timely user course records r.before)
    (missing : after.repository.stored user course = .error .notFound →
      r.before.repository.stored user course = .error .notFound)
    (next : ∀ f, after.repository.stored user course = .ok f →
      (∃ r' ∈ r :: records, f.updatedAt = r'.setting.now) ∧ f.Dated ∧
        ∀ e ∈ (history user course records r.before).head?, f.Follows e) :
    Timely user course (r :: records) after := by
  cases stored : after.repository.stored user course with
  | error why =>
    have same : history user course (r :: records) after = history user course records r.before := by
      rw [history,enrollmentsError stored]
      rfl
    refine ⟨fun e member => ?_,?_,?_,fun gone => ?_⟩
    · rw [same] at member
      obtain ⟨r',inside,clocked⟩ := times.clocked e member
      exact ⟨r',List.mem_cons_of_mem r inside,clocked⟩
    · rw [same]
      exact times.dated
    · rw [same]
      exact times.chained
    · rw [same]
      exact times.unborn (missing gone)
  | ok f =>
    obtain ⟨clocked,dated,follows⟩ := next f stored
    have split : history user course (r :: records) after =
        f :: history user course records r.before := by
      rw [history,enrollmentsOk stored]
      rfl
    refine ⟨?_,?_,?_,fun gone => ?_⟩
    · rw [split,List.forall_mem_cons]
      refine ⟨clocked,fun e member => ?_⟩
      obtain ⟨r',inside,clocked⟩ := times.clocked e member
      exact ⟨r',List.mem_cons_of_mem r inside,clocked⟩
    · rw [split,List.forall_mem_cons]
      exact ⟨dated,times.dated⟩
    · rw [split]
      exact times.chained.cons follows
    · cases stored.symm.trans gone

theorem timelyStill {r : Record} (times : Timely user course records r.before) :
    Timely user course (r :: records) r.before := by
  refine timelyNext times id fun f stored => ?_
  obtain ⟨past,split⟩ := historyHead stored records
  have member : f ∈ history user course records r.before := by
    rw [split]
    exact List.mem_cons_self
  obtain ⟨r',inside,clocked⟩ := times.clocked f member
  refine ⟨⟨r',List.mem_cons_of_mem r inside,clocked⟩,times.dated f member,fun e first => ?_⟩
  rw [split] at first
  cases Option.some.inj first
  exact f.follows

theorem timelyEnrolled {r : Record} {outline : List LessonOutline}
    (times : Timely user course records r.before) (apart : Merge.Apart outline)
    (free : r.before.repository.stored user course = .error .notFound)
    (stamped : after.repository.Stamped user course r.setting.now)
    (begun : ∀ found, after.repository.stored user course = .ok found →
      found.createdAt = r.setting.now)
    (state : ∀ found, after.repository.stored user course = .ok found →
      found.state = Merge.course r.setting.now {} outline) :
    Timely user course (r :: records) after := by
  refine timelyNext times (fun gone => absurd gone stamped.there) fun f stored => ?_
  have updated := stamped.updated f stored
  refine ⟨⟨r,List.mem_cons_self,updated⟩,⟨?_,?_⟩,fun e first => ?_⟩
  · rw [begun f stored,updated]
  · rw [begun f stored,updated,state f stored]
    have fresh : ({} : CourseProgress).Dated r.setting.now r.setting.now :=
      fun _ _ found => nomatch found
    exact Merge.courseDated emptyConsistent apart fresh (le_refl _) (le_refl _)
  · rw [times.unborn free] at first
    cases first

theorem timelySaved {r : Record} {old : Enrollment} (new : CourseProgress)
    (times : Timely user course records r.before)
    (clock : ∀ earlier ∈ records, earlier.setting.now ≤ r.setting.now)
    (loaded : r.before.repository.stored user course = .ok old)
    (framed : r.before.Framed user course after)
    (stamped : after.repository.Stamped user course r.setting.now)
    (state : ∀ found, after.repository.stored user course = .ok found → found.state = new)
    (dated : old.state.Dated old.createdAt old.updatedAt → old.createdAt ≤ r.setting.now →
      old.updatedAt ≤ r.setting.now → new.Dated old.createdAt r.setting.now)
    (marks : old.state.SameMarks new) : Timely user course (r :: records) after := by
  refine timelyNext times (fun gone => absurd gone stamped.there) fun f stored => ?_
  obtain ⟨past,split⟩ := historyHead loaded records
  have member : old ∈ history user course records r.before := by
    rw [split]
    exact List.mem_cons_self
  obtain ⟨r',inside,clocked⟩ := times.clocked old member
  have later : old.updatedAt ≤ r.setting.now := clocked ▸ clock r' inside
  have before := times.dated old member
  have born := before.ordered.trans later
  have updated := stamped.updated f stored
  have created : f.createdAt = old.createdAt := by
    have origin := framed.origin old f loaded stored
    simp only [Enrollment.origin,Prod.mk.injEq] at origin
    exact origin.2.2.2
  refine ⟨⟨r,List.mem_cons_self,updated⟩,⟨?_,?_⟩,fun e first => ?_⟩
  · rw [created,updated]
    exact born
  · rw [created,updated,state f stored]
    exact dated before.state born later
  · rw [split] at first
    cases Option.some.inj first
    exact ⟨updated ▸ later,state f stored ▸ marks⟩

theorem timelyCall {r : Record} (known : Accounted user course records r.before)
    (times : Timely user course records r.before)
    (clock : ∀ earlier ∈ records, earlier.setting.now ≤ r.setting.now)
    (effect : Effect user course r.setting r.before after r.graded)
    (framed : r.before.Framed user course after)
    (timed : Timed user course r.setting.now r.before after) :
    Timely user course (r :: records) after := by
  have stamped : after = r.before ∨ after.repository.Stamped user course r.setting.now := by
    cases timed with
    | still same => exact .inl same
    | created stamped _ => exact .inr stamped
    | saved _ _ stamped => exact .inr stamped
  rcases stamped with rfl | stamped
  · exact timelyStill times
  cases effect with
  | still same _ =>
    subst same
    exact timelyStill times
  | enrolled newId outline apart free kept _ =>
    cases timed with
    | still same =>
      subst same
      exact timelyStill times
    | created _ begun =>
      exact timelyEnrolled times apart free stamped begun fun found read =>
        (kept.shown found read).state
    | saved old was _ => cases free.symm.trans was
  | answered old lesson deck key answers state results loaded recorded kept _ =>
    have consistent := (known.consistent old loaded).state
    obtain ⟨rfl,rfl⟩ := Repository.storedBelongs loaded
    refine timelySaved (state.resumeAt lesson) times clock loaded framed stamped
      (fun found read => (kept.shown found read).state) (fun dated born later => ?_) ?_
    · have answered := CourseProgress.answerCardsDated consistent recorded dated born later
      intro key l found
      rw [CourseProgress.resumedLessons] at found
      exact answered key l found
    · have same := CourseProgress.sameLessons (state.resumedLessons lesson)
      have kept := (CourseProgress.answerCardsPreserve consistent recorded).then same
      exact fun place complete _ => kept place complete
  | merged old outline apart loaded kept _ =>
    have consistent := (known.consistent old loaded).state
    obtain ⟨rfl,rfl⟩ := Repository.storedBelongs loaded
    exact timelySaved _ times clock loaded framed stamped
      (fun found read => (kept.shown found read).state)
      (Merge.courseDated consistent apart) (Merge.courseKeepsMarks consistent apart)

theorem timely (run : Run user course records b) (clock : ClockAdvances records) :
    Timely user course records b := by
  induction run with
  | start free apart => exact timelyStart free
  | @call records b run setting request ih =>
    obtain ⟨latest,earlier⟩ := List.pairwise_cons.mp clock
    have known := accounted run
    exact timelyCall (r := ⟨b,setting,request,_⟩) known (ih earlier) latest
      (effectOf known.apart rfl) (callFramed setting user course b request).frame
      (timed setting user course b request)
  | elsewhere run kept apart ih => exact timelyAlike (ih clock) kept

end Timely

/-- Along a run whose clock never goes back, nothing is completed before what it consists of, before
the enrollment or after its last update. Updates go forward, and what stays complete does so since
one instant. -/
theorem runsAreCoherent {user : UserId} {course : CourseId} {records : List Record} {b : Backend}
    (run : Run user course records b) (clock : ClockAdvances records) :
    Coherent (history user course records b) := by
  have times := timely run clock
  exact coherent times.dated times.chained

namespace Sample

def answeredLater : Backend := (later.serve user course enrolled answering).2

def laterRecords : List Record :=
  [⟨answeredLater,later,.sync,(later.serve user course answeredLater .sync).1⟩,
   ⟨enrolled,later,answering,(later.serve user course enrolled answering).1⟩,
   ⟨opened,setting,enrolling,(setting.serve user course opened enrolling).1⟩]

def synced : Backend := (later.serve user course answeredLater .sync).2

theorem ranLater : Run user course laterRecords synced := by
  have start : Run user course [] opened :=
    .start (by decide +kernel) (Repository.keyedApart openedKeyed course)
  exact .call (.call (.call start setting enrolling) later answering) later .sync

end Sample

theorem sampleRunsAreCoherent :
    ClockAdvances Sample.laterRecords ∧
      (history Sample.user Sample.course Sample.laterRecords Sample.synced).length = 3 ∧
      Coherent (history Sample.user Sample.course Sample.laterRecords Sample.synced) := by
  have clock : ClockAdvances Sample.laterRecords := by
    have first : Sample.setting.now ≤ Sample.later.now := by
      change ¬Sample.later.now < Sample.setting.now
      decide
    simp [ClockAdvances,Sample.laterRecords,first]
  exact ⟨clock,by decide +kernel,runsAreCoherent Sample.ranLater clock⟩

end Coursework
