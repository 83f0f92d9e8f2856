import Coursework.Proofs.Rereading
import Coursework.Proofs.Sessions

/-! What enrolling and syncing return is what is stored. A reconciled tree has no instants but those of
the old tree and of the clock, so a tree that could be read stays readable, and the store gives it back
as it was returned, to the last field. -/
namespace Coursework

section Timed

variable {P : Instant → Prop} {now : Instant}

def Mark.TimesAre (P : Instant → Prop) (m : Mark) : Prop := ∀ t, m.completedAt = some t → P t

theorem Mark.TimesAre.cleared {m : Mark} (times : m.TimesAre P) (clears : Bool) :
    (if clears then {} else m : Mark).TimesAre P := by
  cases clears with
  | true => exact fun t set => nomatch set
  | false => exact times

theorem Mark.TimesAre.finished {m : Mark} (times : m.TimesAre P) (this : P now) (done : Bool) :
    (Merge.finished m done now).TimesAre P := by
  unfold Merge.finished
  split
  · intro t set
    cases Option.some.inj set
    exact this
  · exact times

theorem DeckProgress.TimesAre.reconciled {d : DeckProgress} (times : d.TimesAre P)
    (live : List String) : (d.reconcileCards live).TimesAre P := by
  constructor
  · intro key c found
    rw [DeckProgress.cardsReconciled] at found
    split at found
    · cases Option.some.inj found
      cases held : d.cards.get? key with
      | none => exact fun t set => nomatch set
      | some c => exact times.cards key c held
    · cases found
  · change (d.reconcileCards live).mark.TimesAre P
    rw [DeckProgress.markReconciled]
    exact Mark.TimesAre.cleared (m := d.mark) times.own _

theorem DeckProgress.TimesAre.promoted {d : DeckProgress} (times : d.TimesAre P) (this : P now) :
    (d.promote now).TimesAre P := by
  refine ⟨DeckProgress.promotedCards d now ▸ times.cards,?_⟩
  change (d.promote now).mark.TimesAre P
  rw [DeckProgress.promotedMark]
  exact Mark.TimesAre.finished (m := d.mark) times.own this _

theorem LessonProgress.TimesAre.rolledUp {l : LessonProgress} (times : l.TimesAre P) (this : P now) :
    (l.rollUp now).TimesAre P := by
  constructor
  · intro key d found
    rw [LessonProgress.rollUp,LessonProgress.promotedDecks,KeyMap.getMap] at found
    obtain ⟨old,held,rfl⟩ := Option.map_eq_some_iff.mp found
    exact (times.decks key old held).promoted this
  · change (l.rollUp now).mark.TimesAre P
    rw [LessonProgress.rollUp,LessonProgress.promotedMark]
    exact Mark.TimesAre.finished (m := l.mark) times.own this _

theorem Merge.reconciledTimed {old : Option LessonProgress} {decks : List (DeckId × List CardId)}
    {l : LessonProgress} (reconciled : Reconciled old decks l)
    (times : ∀ held, old = some held → held.TimesAre P) : l.TimesAre P := by
  constructor
  · intro key d found
    by_cases inside : key ∈ decks.map fun p => p.1.key
    · obtain ⟨p,member,rfl⟩ := List.mem_map.mp inside
      cases Option.some.inj ((reconciled.tracked p member).symm.trans found)
      refine DeckProgress.TimesAre.reconciled ?_ _
      cases held : oldDeck old p.1 with
      | none => exact ⟨fun key c none => (nomatch none),fun t set => (nomatch set)⟩
      | some before =>
        obtain ⟨own,there,inside⟩ := Option.bind_eq_some_iff.mp held
        exact (times own there).decks _ before inside
    · rw [reconciled.others key inside] at found
      cases found
  · change l.mark.TimesAre P
    rw [reconciled.mark]
    refine Mark.TimesAre.cleared ?_ _
    cases old with
    | none => exact fun t set => nomatch set
    | some held => exact (times held rfl).own

namespace CourseProgress

theorem TimesAre.set {p : CourseProgress} {l : LessonProgress} (times : p.TimesAre P) (key : String)
    (own : l.TimesAre P) : (p.setLesson key l).TimesAre P := by
  intro other held found
  have there := lessonAfterSet p key other l
  rw [lesson?,found] at there
  split at there
  · cases Option.some.inj there
    exact own
  · exact times other held there.symm

theorem TimesAre.settled {p : CourseProgress} (times : p.TimesAre P) (this : P now)
    (lessons : List Lesson) : (p.settle lessons now).TimesAre P := by
  intro key l found
  rw [settle,recomputeCurrentLesson,rollUp,KeyMap.getMap] at found
  obtain ⟨old,held,rfl⟩ := Option.map_eq_some_iff.mp found
  rw [retainLessons,KeyMap.getPruned] at held
  split at held
  · cases held
  · exact (times key old held).rolledUp this

end CourseProgress

variable {answers : Answers}

theorem reconcileLessonsTimed {cache : DeckCache} {lessons : List Lesson}
    {before after : CourseProgress} (agrees : cache.Agrees answers) (times : before.TimesAre P)
    (ok : (reconcileLessons cache before lessons).eval answers = .ok after) : after.TimesAre P := by
  induction lessons generalizing cache before with
  | nil =>
    cases Script.evalDoneOk.mp ok
    exact times
  | cons l lessons ih =>
    obtain ⟨⟨middle,next⟩,first,rest⟩ := Script.evalBindOk.mp ok
    obtain ⟨progress,rfl,_,reconciled,nextAgrees⟩ := reconcileLessonOk agrees first
    have own := Merge.reconciledTimed reconciled fun held there => times _ held there
    exact ih nextAgrees (times.set _ own) rest

theorem materializeLessonsTimed {cache : DeckCache} {lessons : List Lesson}
    {before after : CourseProgress} (agrees : cache.Agrees answers) (times : before.TimesAre P)
    (ok : (materializeLessons cache before lessons).eval answers = .ok after) : after.TimesAre P := by
  induction lessons generalizing cache before with
  | nil =>
    cases Script.evalDoneOk.mp ok
    exact times
  | cons l lessons ih =>
    obtain ⟨⟨progress,next⟩,first,rest⟩ := Script.evalBindOk.mp ok
    obtain ⟨_,_,reconciled,nextAgrees⟩ := materializeOk agrees first
    have own : progress.TimesAre P := Merge.reconciledTimed reconciled fun held none => nomatch none
    exact ih nextAgrees (times.set _ own) rest

end Timed

theorem replacedItself {α : Type} {same : α → Bool} {a : α} {as : List α}
    (found : as.find? same = some a) : replaceOrAppend same a as = as := by
  induction as with
  | nil => cases found
  | cons b bs ih =>
    unfold replaceOrAppend
    split
    · rename_i here
      rw [List.find?_cons_of_pos here] at found
      rw [Option.some.inj found]
    · rename_i other
      rw [List.find?_cons_of_neg other] at found
      rw [ih found]

namespace Memory

theorem createdFound {m : Memory} {e : Enrollment} (free : m.enrollment? e.userId e.courseId = none) :
    Memory.enrollment? { m with enrollments := m.enrollments ++ [e] } e.userId e.courseId = some e := by
  unfold enrollment? at free ⊢
  simp [List.find?_append,free]

theorem savedFound {m : Memory} {e : Enrollment} (found : m.enrollment? e.userId e.courseId = some e) :
    m.perform (.saveProgress e) = (.ok (),m) := by
  have same : replaceOrAppend (fun o => o.userId == e.userId && o.courseId == e.courseId)
      (overwrite e e) m.enrollments = m.enrollments := replacedItself found
  simp only [perform,found,same]

end Memory

namespace Database

variable {d : Database} {e : Enrollment}

theorem createdFound (free : d.progress.toList.any (·.isOf e.userId e.courseId) = false) :
    Database.progressRow? { d with progress := d.progress.insert (.ofEnrollment e) } e.userId
      e.courseId = some (.ofEnrollment e) := by
  have none : d.progress.toList.find? (·.isOf e.userId e.courseId) = none := by
    rw [List.find?_eq_none]
    exact List.any_eq_false.mp free
  have here : (ProgressRow.ofEnrollment e).isOf e.userId e.courseId = true := by
    simp [ProgressRow.isOf,ProgressRow.ofEnrollment]
  change (d.progress.insert (.ofEnrollment e)).toList.find? (·.isOf e.userId e.courseId) = _
  rw [Table.insertRows,List.find?_append,none,Option.none_or,List.find?_cons_of_pos here]

theorem createdSaved (free : d.progress.toList.any (·.isOf e.userId e.courseId) = false) :
    (d.progress.insert (.ofEnrollment e)).map (rowSaved e) = d.progress.insert (.ofEnrollment e) := by
  have others : d.progress.entries.map (fun entry => (entry.1,rowSaved e entry.2)) =
      d.progress.entries := by
    refine (List.map_congr_left fun entry member => ?_).trans (List.map_id _)
    have apart : entry.2.isOf e.userId e.courseId = false :=
      Bool.eq_false_iff.mpr (List.any_eq_false.mp free _ (List.mem_map_of_mem member))
    rw [rowSaved,apart]
    rfl
  have new : rowSaved e (.ofEnrollment e) = .ofEnrollment e := by
    unfold rowSaved
    split <;> rfl
  simp only [Table.map,Table.insert,List.map_append,List.map_cons,List.map_nil,others,new]

theorem reopenIs (d : Database) : ∃ versions, d.reopen = { d with versions } := by
  unfold reopen
  split
  · exact ⟨_,rfl⟩
  · exact ⟨_,rfl⟩

theorem savedApart (d : Database) (versions : List Int) (row : ProgressRow) :
    saveProgress { d with versions } row =
      (d.saveProgress row).map fun n => { n with versions } := by
  simp only [saveProgress]
  split <;> rfl

end Database

namespace Repository

/- Opened again: only tables are, and their rows are what they were. -/
def reopen : Repository → Repository
  | .memory m => .memory m
  | .tables d => .tables d.reopen

structure GivesBackNow (user : UserId) (course : CourseId) (e : Enrollment) (r : Repository) :
    Prop where
  loads : r.perform (.getProgress user course) = (.ok e,r)
  saves : r.perform (.saveProgress e) = (.ok (),r)

variable {r after : Repository} {user : UserId} {course : CourseId} {e : Enrollment}

theorem loadsStored (stored : r.stored user course = .ok e) :
    r.perform (.getProgress user course) = (.ok e,r) :=
  Prod.ext stored (transactional.quiet (.getProgress user course) r rfl)

theorem createdGivesBack (ok : r.perform (.createProgress e) = (.ok (),after))
    (named : e.TimesAre (·.isNamed = true)) : after.GivesBackNow e.userId e.courseId e := by
  cases r with
  | memory m =>
    obtain ⟨n,ran,rfl⟩ := memoryPerforms ok
    obtain ⟨free,rfl⟩ := Memory.created ran
    have found := Memory.createdFound free
    refine ⟨loadsStored ?_,?_⟩
    · rw [Memory.storedOf,found]
    · exact congrArg (fun made : Stored Unit × Memory => (made.1,memory made.2))
        (Memory.savedFound found)
  | tables d =>
    obtain ⟨n,ran,rfl⟩ := tablesPerform ok
    obtain ⟨free,rfl⟩ := Database.created ran
    have found := Database.createdFound free
    refine ⟨loadsStored ?_,?_⟩
    · rw [Database.storedOf,found]
      exact ProgressRow.readBack named
    · have held : (d.progress.insert (.ofEnrollment e)).toList.any
          (·.isOf e.userId e.courseId) = true :=
        List.any_eq_true.mpr ⟨_,List.mem_of_find?_eq_some found,List.find?_some found⟩
      have made : Database.saveProgress { d with progress := d.progress.insert (.ofEnrollment e) }
          (.ofEnrollment e) = .ok { d with
            progress := (d.progress.insert (.ofEnrollment e)).map (Database.rowSaved e) } :=
        if_pos held
      rw [Database.createdSaved free] at made
      simp only [perform,Database.perform,made]
      rfl

theorem savedGivesBack (ok : r.perform (.saveProgress e) = (.ok (),after))
    (stored : after.stored user course = .ok e) : after.GivesBackNow user course e :=
  ⟨loadsStored stored,(savedOver ok rfl rfl).trans ok⟩

theorem GivesBackNow.reopened (gives : r.GivesBackNow user course e) :
    r.reopen.GivesBackNow user course e := by
  cases r with
  | memory m => exact gives
  | tables d =>
    obtain ⟨versions,same⟩ := d.reopenIs
    have stored : (tables d).stored user course = .ok e := congrArg Prod.fst gives.loads
    rw [Database.storedOf] at stored
    obtain ⟨n,ran,still⟩ := tablesPerform gives.saves
    cases still
    have saved := Database.savedApart d versions (.ofEnrollment e)
    rw [Database.committed ran] at saved
    rw [reopen,same]
    refine ⟨loadsStored ((Database.storedOf _ _ _).trans stored),?_⟩
    simp only [perform,Database.perform,saved]
    rfl

end Repository

section Services

variable {setting : Setting} {user : UserId} {course : CourseId} {b after : Backend} {e : Enrollment}

theorem enrollGivesBack {newId : Uuid} (named : setting.now.isNamed = true)
    (ok : (enroll newId setting.now user course).run setting.handler b = (.ok e,after)) :
    after.repository.GivesBackNow user course e := by
  obtain ⟨_,_,state,_,materialized,rfl,written⟩ := enrollRan setting.transactional ok
  have times : state.TimesAre (·.isNamed = true) :=
    materializeLessonsTimed emptyCacheAgrees (fun _ _ none => by cases none) materialized
  rw [Setting.servedByStore (by simp) (by simp) (congrArg Prod.fst written)] at written
  obtain ⟨made,rfl⟩ := Prod.mk.inj written
  exact Repository.createdGivesBack (Prod.ext made rfl) ⟨named,named,times⟩

theorem syncGivesBack (named : setting.now.isNamed = true)
    (ok : (sync setting.now user course).run setting.handler b = (.ok e,after)) :
    after.repository.GivesBackNow user course e := by
  obtain ⟨lessons,ran⟩ := syncOk ok
  obtain ⟨old,state,loaded,_,reconciled,rfl,written⟩ := syncRan setting.transactional ran
  have stored := Setting.loads loaded
  have reread := Setting.savedReread stored named
    (fun times => (reconcileLessonsTimed emptyCacheAgrees times reconciled).settled named lessons)
    written
  rw [Setting.servedByStore (by simp) (by simp) (congrArg Prod.fst written)] at written
  obtain ⟨made,rfl⟩ := Prod.mk.inj written
  exact Repository.savedGivesBack (Prod.ext made rfl) reread

end Services

/-- What enrolling and syncing return is what is stored. Whatever was stored before and whatever the
contents are, the store gives the returned enrollment back in every field, and saving it again changes
nothing; and so it is when the store is opened again. -/
theorem returnedIsStored {setting : Setting} {user : UserId} {course : CourseId} {b after : Backend}
    {e : Enrollment} (short : setting.now.HasShortYear)
    (ok : (∃ newId, (enroll newId setting.now user course).run setting.handler b = (.ok e,after)) ∨
      (sync setting.now user course).run setting.handler b = (.ok e,after)) :
    after.repository.GivesBackNow user course e ∧
      after.repository.reopen.GivesBackNow user course e := by
  have named := short.named
  rcases ok with ⟨newId,enrolled⟩ | synced
  · have gives := enrollGivesBack named enrolled
    exact ⟨gives,gives.reopened⟩
  · have gives := syncGivesBack named synced
    exact ⟨gives,gives.reopened⟩

namespace Sample

def filed : Database :=
  [Operation.upsertCourse greetings,.upsertLesson lesson,.upsertDeck deck].foldl
    (fun d op => (d.perform op).2) {}

def oddTree : CourseProgress :=
  { lessons := .ofList [("",{ completedAt := some (.ofNanos (-1)) })] }

def filedOdd : Database :=
  (filed.perform (.createProgress (.start (.ofNat 8) user course oddTree (.ofNanos 7)))).2

def precise : Setting := { setting with now := .ofNanos 1700000000123456789 }

end Sample

theorem sampleReturnedIsStored :
    Sample.precise.now.HasShortYear ∧
      (∃ e after, (enroll (.ofNat 9) Sample.precise.now Sample.user Sample.course).run
          Sample.precise.handler { repository := .tables Sample.filed } = (.ok e,after) ∧
        after.repository.GivesBackNow Sample.user Sample.course e ∧
        after.repository.reopen.GivesBackNow Sample.user Sample.course e) ∧
      ∃ e after, (sync Sample.precise.now Sample.user Sample.course).run Sample.precise.handler
          { repository := .tables Sample.filedOdd } = (.ok e,after) ∧
        after.repository.GivesBackNow Sample.user Sample.course e ∧
        after.repository.reopen.GivesBackNow Sample.user Sample.course e := by
  have short : Sample.precise.now.HasShortYear := by decide +kernel
  obtain ⟨e,after,enrolled⟩ := Sample.outcomeOf
    (r := (enroll (.ofNat 9) Sample.precise.now Sample.user Sample.course).run
      Sample.precise.handler { repository := .tables Sample.filed }) (by decide +kernel)
  obtain ⟨new,reached,synced⟩ := Sample.outcomeOf
    (r := (sync Sample.precise.now Sample.user Sample.course).run Sample.precise.handler
      { repository := .tables Sample.filedOdd }) (by decide +kernel)
  exact ⟨short,⟨e,after,enrolled,returnedIsStored short (.inl ⟨_,enrolled⟩)⟩,
    new,reached,synced,returnedIsStored short (.inr synced)⟩

end Coursework
