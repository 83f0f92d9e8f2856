import Coursework.Proofs.Recorded
import Coursework.Proofs.Frames
import Coursework.Proofs.SyncMerges

/-! The two ways in which new content enters a tree. A lesson that is not tracked is materialized deck
by deck; an empty tracked lesson is reconciled by key diffs, and reopened by each of them. Both ask for
the same decks, fail alike and end in the same progress. -/
namespace Coursework

structure Beside (tracked : KeyMap DeckProgress) (progress : LessonProgress) (ids : List DeckId) :
    Prop where
  waiting : ∀ id ∈ ids, progress.decks.get? id.key = some {}
  others : ∀ key, key ∉ ids.map Id.key → progress.decks.get? key = tracked.get? key
  mark : progress.mark = {}

theorem besideStep {tracked : KeyMap DeckProgress} {progress after : LessonProgress} {id : DeckId}
    {ids : List DeckId} {deck : Deck} (beside : Beside tracked progress (id :: ids))
    (fresh : id.key ∉ ids.map Id.key)
    (step : LessonProgress.CardsReconciled progress id.key deck.cardKeys {} after) :
    Beside (tracked.insert id.key (.ofDeck deck)) after ids := by
  have keys : deck.cardKeys = (deck.cards.map (·.id)).map Id.key := by
    rw [List.map_map]
    rfl
  constructor
  · intro other member
    have apart : id.key ≠ other.key := fun same => fresh (List.mem_map.mpr ⟨other,member,same.symm⟩)
    rw [step.decks,KeyMap.getInsert,if_neg apart]
    exact beside.waiting other (List.mem_cons_of_mem _ member)
  · intro key other
    rw [step.decks,KeyMap.getInsert,KeyMap.getInsert,Merge.freshDeck,keys]
    by_cases here : id.key = key
    · rw [if_pos here,if_pos here]
    · rw [if_neg here,if_neg here]
      refine beside.others key fun member => ?_
      rcases List.mem_cons.mp member with same | later
      · exact here same.symm
      · exact other later
  · rw [step.mark,beside.mark]
    split <;> rfl

theorem tracksBeside (lesson : String) (cache : DeckCache) {tracked : KeyMap DeckProgress}
    {progress : LessonProgress} {ids : List DeckId} (distinct : (ids.map Id.key).Nodup)
    (beside : Beside tracked progress ids) :
    ((trackDecks cache tracked ids).mapError SyncError.storage >>= fun p =>
        (.done ({ decks := p.1 },p.2) : Script SyncError (LessonProgress × DeckCache))) =
      reconcileDeckCards lesson cache progress ids := by
  induction ids generalizing cache tracked progress with
  | nil =>
    have same : ({ decks := tracked } : LessonProgress) = progress :=
      LessonProgress.sameLesson (fun key => (beside.others key (by simp)).symm) beside.mark.symm
    exact congrArg (fun l => Script.done (l,cache)) same
  | cons id ids ih =>
    obtain ⟨fresh,distinct⟩ := List.nodup_cons.mp distinct
    rw [trackDecks,Script.mapErrorBind,reconcileDeckCards]
    refine (Script.bindAssoc _ _ _).trans (Script.bindCongr fun p => ?_)
    obtain ⟨deck,next⟩ := p
    obtain ⟨after,computed,step⟩ := LessonProgress.reconcileCardsTracked lesson deck.cardKeys
      (beside.waiting id List.mem_cons_self)
    simp only [computed]
    exact ih next distinct (besideStep beside fresh step)

def progressFor (lesson : Lesson) (cache : DeckCache) :
    Option LessonProgress → Script SyncError (LessonProgress × DeckCache)
  | none => (materialize lesson cache).mapError MaterializeError.toSyncError
  | some progress => reconcileDeckCards lesson.id.key cache
      (progress.reconcileDecks (lesson.deckReferences.map Id.key)) lesson.deckReferences

theorem reconcileLessonIs (lesson : Lesson) (cache : DeckCache) (state : CourseProgress) :
    reconcileLesson lesson cache state =
      progressFor lesson cache (state.lesson? lesson.id.key) >>= fun p =>
        .done (state.setLesson lesson.id.key p.1,p.2) := by
  unfold reconcileLesson
  split
  · rename_i untracked
    rw [untracked]
    rfl
  · rename_i progress tracked
    rw [tracked]
    rfl

theorem absentIsDefault {lesson : Lesson} (refers : lesson.deckReferences ≠ [])
    (cache : DeckCache) : progressFor lesson cache none = progressFor lesson cache (some {}) := by
  have beside : Beside .empty
      (({} : LessonProgress).reconcileDecks (lesson.deckReferences.map Id.key))
      lesson.deckReferences := by
    refine ⟨fun id member => ?_,fun key other => ?_,?_⟩
    · rw [LessonProgress.decksReconciled,if_pos (List.mem_map.mpr ⟨id,member,rfl⟩)]
      rfl
    · rw [LessonProgress.decksReconciled,if_neg other]
      rfl
    · rw [LessonProgress.markReconciled]
      split <;> rfl
  have same := tracksBeside lesson.id.key cache (referencesDistinct lesson) beside
  rw [progressFor,progressFor,← same,materialize]
  split
  · rename_i none
    exact absurd none refers
  · rw [Script.mapErrorBind,Script.mapErrorTwice]
    rfl

theorem untrackedMaterialized {lessons : List Lesson} (cache : DeckCache) {state : CourseProgress}
    (distinct : (lessons.map (·.id.key)).Nodup)
    (untracked : ∀ l ∈ lessons, state.lesson? l.id.key = none) :
    reconcileLessons cache state lessons =
      (materializeLessons cache state lessons).mapError MaterializeError.toSyncError := by
  induction lessons generalizing cache state with
  | nil => rfl
  | cons l lessons ih =>
    obtain ⟨fresh,distinct⟩ := List.nodup_cons.mp distinct
    rw [reconcileLessons,materializeLessons,Script.mapErrorBind,reconcileLessonIs,
      untracked l List.mem_cons_self]
    refine (Script.bindAssoc _ _ _).trans (Script.bindCongr fun p => ?_)
    refine ih p.2 distinct fun other member => ?_
    have apart : l.id.key ≠ other.id.key := fun same =>
      fresh (List.mem_map.mpr ⟨other,member,same.symm⟩)
    rw [lessonAfterSet,if_neg apart]
    exact untracked other (List.mem_cons_of_mem l member)

namespace CourseProgress

theorem setTwice (p : CourseProgress) (key : String) (first second : LessonProgress) :
    (p.setLesson key first).setLesson key second = p.setLesson key second := by
  have lessons : (p.lessons.insert key first).insert key second = p.lessons.insert key second := by
    refine KeyMap.ext fun other => ?_
    simp only [KeyMap.getInsert]
    split <;> rfl
  simp only [setLesson,lessons]

theorem setApart (p : CourseProgress) {key other : String} (apart : key ≠ other)
    (first second : LessonProgress) :
    (p.setLesson key first).setLesson other second =
      (p.setLesson other second).setLesson key first := by
  have lessons : (p.lessons.insert key first).insert other second =
      (p.lessons.insert other second).insert key first := by
    refine KeyMap.ext fun k => ?_
    simp only [KeyMap.getInsert]
    by_cases here : other = k
    · rw [if_pos here,if_neg fun same => apart (same.trans here.symm),if_pos here]
    · simp only [if_neg here]
  simp only [setLesson,lessons]

end CourseProgress

theorem defaultUnnoticed {lessons : List Lesson} (cache : DeckCache) {state : CourseProgress}
    {key : String} (listed : key ∈ lessons.map (·.id.key))
    (refers : ∀ l ∈ lessons, l.id.key = key → l.deckReferences ≠ [])
    (untracked : state.lesson? key = none) :
    reconcileLessons cache (state.setLesson key {}) lessons =
      reconcileLessons cache state lessons := by
  induction lessons generalizing cache state with
  | nil => cases listed
  | cons l lessons ih =>
    rw [reconcileLessons,reconcileLessons,reconcileLessonIs,reconcileLessonIs,lessonAfterSet]
    refine (Script.bindAssoc _ _ _).trans (.trans ?_ (Script.bindAssoc _ _ _).symm)
    by_cases here : key = l.id.key
    · rw [if_pos here,← here,untracked,
        absentIsDefault (refers l List.mem_cons_self here.symm)]
      refine Script.bindCongr fun p => ?_
      rw [CourseProgress.setTwice]
    · rw [if_neg here]
      refine Script.bindCongr fun p => ?_
      have later : key ∈ lessons.map (·.id.key) := by
        rcases List.mem_cons.mp listed with same | later
        · exact absurd same here
        · exact later
      have still : (state.setLesson l.id.key p.1).lesson? key = none := by
        rw [lessonAfterSet,if_neg fun same => here same.symm]
        exact untracked
      have rest := ih p.2 later (fun other member => refers other (List.mem_cons_of_mem l member))
        still
      rw [← CourseProgress.setApart state here] at rest
      exact rest

def Enrollment.around (id : Uuid) (user : UserId) (course : CourseId) (now : Instant)
    (state : CourseProgress) : Enrollment where
  id := id
  userId := user
  courseId := course
  currentLessonId := state.currentLessonId
  state := state
  createdAt := now
  updatedAt := now

def Enrollment.again (old : Enrollment) (now : Instant) (state : CourseProgress) : Enrollment where
  id := old.id
  userId := old.userId
  courseId := old.courseId
  currentLessonId := state.currentLessonId
  state := state
  createdAt := old.createdAt
  updatedAt := now

structure FreshStart (first second : Setting) (newId : Uuid) (user learner : UserId)
    (course : CourseId) (b c : Backend) (lessons : List Lesson) (old : Enrollment) : Prop where
  apart : (lessons.map (·.id)).Nodup
  nonempty : lessons ≠ []
  listed : first.handler.answers b (.listLessons course .ascending) = .ok lessons
  listedToo : second.handler.answers c (.listLessons course .ascending) = .ok lessons
  decks : ∀ id, second.handler.answers c (.getDeck id) = first.handler.answers b (.getDeck id)
  loaded : second.handler.answers c (.getProgress learner course) = .ok old
  empty : old.state = {}
  creates : ∀ state, (first.handler
    (.createProgress (.around newId user course first.now state)) b).1 = .ok ()
  saves : ∀ state, (second.handler (.saveProgress (old.again second.now state)) c).1 = .ok ()

/- Enrolling and syncing ask for the same decks, and then fail with the same error or write and return
the same tree. -/
structure PathsMeet (first second : Setting) (newId : Uuid) (user learner : UserId)
    (course : CourseId) (old : Enrollment)
    (enrolled : Except EnrollError Enrollment × Backend × List Operation)
    (synced : Except SyncError Enrollment × Backend × List Operation) (lookUps : List Operation)
    (outcome : Except MaterializeError CourseProgress) : Prop where
  decks : ∀ op ∈ lookUps, ∃ id, op = .getDeck id
  enrolls : enrolled.1 = match outcome with
    | .ok state => .ok (.around newId user course first.now state)
    | .error (.noDecksReferenced lesson) => .error (.noDecksReferenced lesson)
    | .error (.storage why) => .error (.storage why)
  syncs : synced.1 = match outcome with
    | .ok state => .ok (old.again second.now state)
    | .error (.noDecksReferenced lesson) => .error (.noDecksReferenced lesson)
    | .error (.storage why) => .error (.storage why)
  enrollCalls : enrolled.2.2 = .listLessons course .ascending :: lookUps ++
    outcome.toOption.toList.map fun state =>
      .createProgress (.around newId user course first.now state)
  syncCalls : synced.2.2 =
    .getProgress learner course :: .listLessons course .ascending :: lookUps ++
      outcome.toOption.toList.map fun state => .saveProgress (old.again second.now state)

section Start

variable {first second : Setting} {newId : Uuid} {user learner : UserId} {course : CourseId}
  {b c : Backend} {lessons : List Lesson} {old : Enrollment}
  (start : FreshStart first second newId user learner course b c lessons old)

include start

theorem FreshStart.reconciles : reconcileLessons {} old.state lessons =
    (materializeLessons {} {} lessons).mapError MaterializeError.toSyncError := by
  rw [start.empty]
  exact untrackedMaterialized {} (lessonKeysDistinct start.apart) fun _ _ => rfl

theorem FreshStart.alike (op : Operation) (looks : op.looksUpDeck = true) :
    second.handler.answers c op = first.handler.answers b op := by
  obtain ⟨id,rfl⟩ := deckLookedUp looks
  exact start.decks id

/- Both trees are the merge of the contents into the empty tree. -/
theorem FreshStart.oneTree {head : Lesson} {rest : List Lesson} (are : lessons = head :: rest)
    {state : CourseProgress}
    (made : (materializeLessons {} {} lessons).eval (first.handler.answers b) = .ok state) :
    { state with currentLessonId := some head.id } = state.settle lessons second.now := by
  have merged : (reconcileLessons {} {} lessons).eval (first.handler.answers b) = .ok state := by
    rw [← start.empty,start.reconciles,Script.evalMapError,made]
    rfl
  rw [settledIsMerge second.now start.apart merged]
  subst are
  exact materializedIsMerge second.now start.apart made

theorem pathsMeet : ∃ lookUps outcome, PathsMeet first second newId user learner course old
    ((enroll newId first.now user course).runRecorded first.handler b)
    ((sync second.now learner course).runRecorded second.handler c) lookUps outcome := by
  obtain ⟨head,rest,are⟩ := List.exists_cons_of_ne_nil start.nonempty
  have asks := materializeLessonsAsks {} {} lessons
  have decks : ∀ op ∈ (materializeLessons {} {} lessons).asked (first.handler.answers b),
      ∃ id, op = .getDeck id := fun op member => deckLookedUp (asks.each op member)
  obtain ⟨evals,calls⟩ := asks.alike start.alike
  obtain ⟨enrollEvals,enrollAsks⟩ :=
    @enrollPlanListed _ user course first.now newId head rest (are ▸ start.listed)
  obtain ⟨syncEvals,syncAsks⟩ := @syncPlanLoaded _ _ _ second.now _ _ start.loaded start.listedToo
  rw [← are] at enrollEvals enrollAsks
  rw [start.reconciles,Script.evalMapError,evals] at syncEvals
  rw [start.reconciles,Script.askedMapError,calls] at syncAsks
  rw [enrollRecorded first.transactional.quiet,syncRecorded second.transactional.quiet,enrollEvals,
    syncEvals,enrollAsks,syncAsks]
  refine ⟨(materializeLessons {} {} lessons).asked (first.handler.answers b),?_⟩
  cases made : (materializeLessons {} {} lessons).eval (first.handler.answers b) with
  | error why =>
    refine ⟨.error why,decks,?_,?_,(List.append_nil _).symm,(List.append_nil _).symm⟩
    · cases why <;> rfl
    · cases why <;> rfl
  | ok state =>
    have enrolls : (Except.mapError MaterializeError.toEnrollError (.ok state) >>= fun state =>
        .ok (Enrollment.start newId user course { state with currentLessonId := some head.id }
          first.now)) =
        .ok (.around newId user course first.now (state.settle lessons second.now)) := by
      rw [← start.oneTree are made]
      rfl
    have syncs : (Except.mapError MaterializeError.toSyncError (.ok state) >>= fun state =>
        .ok (old.withState (state.settle lessons second.now) second.now,lessons)) =
        .ok (old.again second.now (state.settle lessons second.now),lessons) := rfl
    rw [enrolls,syncs]
    refine ⟨.ok (state.settle lessons second.now),decks,?_,?_,rfl,rfl⟩
    · simp only [start.creates]
      rfl
    · simp only [start.saves]
      rfl

end Start

structure AbsentOrEmpty (user : UserId) (course : CourseId) (b c : Backend) (lessons : List Lesson)
    (l : Lesson) (e : Enrollment) : Prop where
  apart : (lessons.map (·.id)).Nodup
  listed : b.repository.listing course = .ok lessons
  member : l ∈ lessons
  refers : l.deckReferences ≠ []
  absent : b.repository.stored user course = .ok e
  untracked : e.state.lesson? l.id.key = none
  present : c.repository.stored user course =
    .ok { e with state := e.state.setLesson l.id.key {} }
  same : c.without user course = b.without user course

structure SyncsAlike (user : UserId) (course : CourseId)
    (left right : Except SyncError Enrollment × Backend × List Operation) : Prop where
  outcome : right.1 = left.1
  calls : right.2.2 = left.2.2
  saved : left.1.isOk = true →
    right.2.1.repository.stored user course = left.2.1.repository.stored user course

section Alike

variable {setting : Setting} {user : UserId} {course : CourseId} {b c : Backend}
  {lessons : List Lesson} {l : Lesson} {e : Enrollment}

theorem Setting.progressAnswered (setting : Setting) (user : UserId) (course : CourseId)
    (b : Backend) :
    setting.handler.answers b (.getProgress user course) =
      match setting.faults.getProgress with
      | some why => .error why
      | none => b.repository.stored user course := by
  rw [Handler.answers,storeActs (by simp) (by simp),Faults.of?]
  cases setting.faults.getProgress <;> rfl

theorem Setting.saveAnswered (setting : Setting) {old : Enrollment} (new : Enrollment)
    (stored : b.repository.stored new.userId new.courseId = .ok old) :
    (setting.handler (.saveProgress new) b).1 =
      match setting.faults.saveProgress with
      | some why => .error why
      | none => .ok () := by
  rw [storeActs (by simp) (by simp),Faults.of?]
  cases setting.faults.saveProgress with
  | some why => rfl
  | none => exact Repository.saveServed stored

theorem Setting.saveGives {old new : Enrollment}
    (ok : (setting.handler (.saveProgress new) b).1 = .ok ())
    (stored : b.repository.stored new.userId new.courseId = .ok old) :
    (setting.handler (.saveProgress new) b).2.repository.stored new.userId new.courseId =
      b.repository.givesBack (Memory.overwrite old new) := by
  have served := servedByStore (by simp) (by simp) ok
  rw [served] at ok ⊢
  exact Repository.saveGives stored (Prod.ext ok rfl)

theorem plansAlike (start : AbsentOrEmpty user course b c lessons l e) (setting : Setting) :
    (syncPlan setting.now user course).eval (setting.handler.answers c) =
        (syncPlan setting.now user course).eval (setting.handler.answers b) ∧
      (syncPlan setting.now user course).asked (setting.handler.answers c) =
        (syncPlan setting.now user course).asked (setting.handler.answers b) := by
  have before := setting.progressAnswered user course b
  have after := setting.progressAnswered user course c
  rw [start.absent] at before
  rw [start.present] at after
  have listing : setting.handler.answers c (.listLessons course .ascending) =
      setting.handler.answers b (.listLessons course .ascending) :=
    Setting.contentAlike start.same rfl
  cases fault : setting.faults.getProgress with
  | some why =>
    rw [fault] at before after
    rw [(syncPlanUnloaded before).1,(syncPlanUnloaded before).2,(syncPlanUnloaded after).1,
      (syncPlanUnloaded after).2]
    exact ⟨rfl,rfl⟩
  | none =>
    rw [fault] at before after
    cases listed : setting.handler.answers b (.listLessons course .ascending) with
    | error why =>
      have listedToo := listing.trans listed
      rw [(syncPlanUnlisted before listed).1,(syncPlanUnlisted before listed).2,
        (syncPlanUnlisted after listedToo).1,(syncPlanUnlisted after listedToo).2]
      exact ⟨rfl,rfl⟩
    | ok live =>
      have listedToo := listing.trans listed
      cases Except.ok.inj (start.listed.symm.trans (Setting.lists listed))
      rw [(syncPlanLoaded before listed).1,(syncPlanLoaded before listed).2,
        (syncPlanLoaded after listedToo).1,(syncPlanLoaded after listedToo).2]
      have unnoticed : reconcileLessons {} (e.state.setLesson l.id.key {}) lessons =
          reconcileLessons {} e.state lessons := by
        refine defaultUnnoticed {} (List.mem_map.mpr ⟨l,start.member,rfl⟩) ?_ start.untracked
        intro other member same
        have keys := lessonKeysDistinct start.apart
        rw [List.inj_on_of_nodup_map keys member start.member same]
        exact start.refers
      have agree : ∀ op : Operation, op.looksUpDeck = true →
          setting.handler.answers c op = setting.handler.answers b op := by
        intro op looks
        obtain ⟨id,rfl⟩ := deckLookedUp looks
        exact Setting.contentAlike start.same rfl
      obtain ⟨evals,calls⟩ := (reconcileLessonsAsks {} e.state lessons).alike agree
      rw [unnoticed,evals,calls]
      exact ⟨rfl,rfl⟩

theorem syncsAlike (start : AbsentOrEmpty user course b c lessons l e) (setting : Setting) :
    SyncsAlike user course ((sync setting.now user course).runRecorded setting.handler b)
      ((sync setting.now user course).runRecorded setting.handler c) := by
  obtain ⟨evals,calls⟩ := plansAlike start setting
  rw [syncRecorded setting.transactional.quiet,syncRecorded setting.transactional.quiet,evals,calls]
  cases planned : (syncPlan setting.now user course).eval (setting.handler.answers b) with
  | error why => exact ⟨rfl,rfl,fun ok => nomatch ok⟩
  | ok p =>
    obtain ⟨new,live⟩ := p
    obtain ⟨old,state,loaded,_,_,rfl⟩ := syncPlanned planned
    cases Except.ok.inj (start.absent.symm.trans (Setting.loads loaded))
    obtain ⟨rfl,rfl⟩ := Repository.storedBelongs start.absent
    have first := setting.saveAnswered (e.withState (state.settle live setting.now) setting.now)
      start.absent
    have second := setting.saveAnswered (e.withState (state.settle live setting.now) setting.now)
      start.present
    have same := second.trans first.symm
    refine ⟨?_,rfl,fun ok => ?_⟩
    · exact congrArg (fun r : Except StorageError Unit => (r.map fun _ =>
        e.withState (state.settle live setting.now) setting.now).mapError SyncError.storage) same
    · cases fault : setting.faults.saveProgress with
      | some why =>
        rw [fault] at first
        simp only [first] at ok
        cases ok
      | none =>
        rw [fault] at first second
        have given := Repository.givesBackAlike (congrArg Backend.repository start.same)
        exact ((Setting.saveGives second start.present).trans (by rw [given]; rfl)).trans
          (Setting.saveGives first start.absent).symm

end Alike

/-- New content enters a tree alike on either path. Enrolling and syncing an empty tree make the same
look-ups and come to the same error or the same tree; and a sync treats a listed lesson that refers to
a deck the same whether the tree lacks it or has it empty. -/
theorem newContentPathsAgree :
    (∀ (first second : Setting) (newId : Uuid) (user learner : UserId) (course : CourseId)
      (b c : Backend) (lessons : List Lesson) (old : Enrollment),
      FreshStart first second newId user learner course b c lessons old →
      ∃ lookUps outcome, PathsMeet first second newId user learner course old
        ((enroll newId first.now user course).runRecorded first.handler b)
        ((sync second.now learner course).runRecorded second.handler c) lookUps outcome) ∧
    ∀ (setting : Setting) (user : UserId) (course : CourseId) (b c : Backend)
      (lessons : List Lesson) (l : Lesson) (e : Enrollment),
      AbsentOrEmpty user course b c lessons l e →
      SyncsAlike user course ((sync setting.now user course).runRecorded setting.handler b)
        ((sync setting.now user course).runRecorded setting.handler c) := by
  constructor
  · intro first second newId user learner course b c lessons old start
    exact pathsMeet start
  · intro setting user course b c lessons l e start
    exact syncsAlike start setting

namespace Sample

def holding (state : CourseProgress) : Backend :=
  { repository := .memory
      { lessons := [lesson], decks := [deck],
        enrollments := [.start (.ofNat 9) user course state setting.now] } }

theorem freshStart : FreshStart setting setting (.ofNat 8) user user course opened (holding {})
    [lesson] (.start (.ofNat 9) user course {} setting.now) where
  apart := by decide
  nonempty := List.cons_ne_nil _ _
  listed := by decide +kernel
  listedToo := by decide +kernel
  decks _ := Setting.contentAlike
    (by decide +kernel : (holding {}).without user course = opened.without user course) rfl
  loaded := by decide +kernel
  empty := rfl
  creates _ := rfl
  saves _ := rfl

theorem absentOrEmpty : AbsentOrEmpty user course (holding {})
    (holding (CourseProgress.setLesson {} lesson.id.key {})) [lesson] lesson
    (.start (.ofNat 9) user course {} setting.now) where
  apart := by decide
  listed := by decide +kernel
  member := List.mem_singleton.mpr rfl
  refers := by decide +kernel
  absent := by decide +kernel
  untracked := rfl
  present := by decide +kernel
  same := by decide +kernel

end Sample

theorem sampleNewContentPathsAgree :
    (∃ lookUps outcome, PathsMeet Sample.setting Sample.setting (.ofNat 8) Sample.user Sample.user
      Sample.course (.start (.ofNat 9) Sample.user Sample.course {} Sample.setting.now)
      ((enroll (.ofNat 8) Sample.setting.now Sample.user Sample.course).runRecorded
        Sample.setting.handler Sample.opened)
      ((sync Sample.setting.now Sample.user Sample.course).runRecorded Sample.setting.handler
        (Sample.holding {})) lookUps outcome) ∧
    SyncsAlike Sample.user Sample.course
      ((sync Sample.setting.now Sample.user Sample.course).runRecorded Sample.setting.handler
        (Sample.holding {}))
      ((sync Sample.setting.now Sample.user Sample.course).runRecorded Sample.setting.handler
        (Sample.holding (CourseProgress.setLesson {} Sample.lesson.id.key {}))) :=
  ⟨newContentPathsAgree.1 _ _ _ _ _ _ _ _ _ _ Sample.freshStart,
    newContentPathsAgree.2 _ _ _ _ _ _ _ _ Sample.absentOrEmpty⟩

end Coursework
