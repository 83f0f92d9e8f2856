import Coursework.Proofs.Contents
import Coursework.Service.Answer
import Coursework.Service.Browse

/-! Each service reads, computes and then writes at most once. Its plan is what it computes from the
answers of the store; a run that fails has no effect, and a run that succeeds leaves exactly what
the one write of its plan leaves. -/
namespace Coursework

structure Handler.Transactional {σ : Type} (handle : Handler σ) : Prop where
  quiet : handle.Quiet
  atomic : ∀ op s e, (handle op s).1 = .error e → (handle op s).2 = s

namespace Script

variable {ε α β σ : Type}

theorem runWrite {handle : Handler σ} (rename : StorageError → ε) (op : Operation) (a : α) (s : σ) :
    ((call rename op).bind fun _ => (done a : Script ε α)).run handle s =
      match handle op s with
      | (.ok _,after) => (.ok a,after)
      | (.error e,after) => (.error (rename e),after) := by
  simp only [call,Script.bind,run]
  cases handle op s with
  | mk outcome after => cases outcome <;> rfl

theorem planThenWriteOk {handle : Handler σ} (sound : handle.Transactional)
    {plan : Script ε α} (reads : plan.ReadsOnly) {rename : StorageError → ε}
    {write : α → Operation} {result : α → β} {s after : σ} {b : β}
    (ok : (plan.bind fun a => (call rename (write a)).bind fun _ => done (result a)).run handle s =
      (.ok b,after)) :
    ∃ a reply, plan.eval (handle.answers s) = .ok a ∧ handle (write a) s = (.ok reply,after) ∧
      result a = b := by
  rw [runAfterReading sound.quiet reads] at ok
  cases planned : plan.eval (handle.answers s) with
  | error e =>
    rw [planned] at ok
    cases ok
  | ok a =>
    simp only [planned,runWrite] at ok
    split at ok
    · rename_i reply reached written
      cases ok
      exact ⟨a,reply,rfl,written,rfl⟩
    · cases ok

theorem planThenWrite {handle : Handler σ} (quiet : handle.Quiet) {plan : Script ε α}
    (reads : plan.ReadsOnly) (rename : StorageError → ε) {write : α → Operation} (result : α → β)
    {s after : σ} {a : α} {reply : (write a).Reply} (planned : plan.eval (handle.answers s) = .ok a)
    (written : handle (write a) s = (.ok reply,after)) :
    (plan.bind fun a => (call rename (write a)).bind fun _ => done (result a)).run handle s =
      (.ok (result a),after) := by
  rw [runAfterReading quiet reads,planned]
  exact (runWrite rename (write a) (result a) s).trans (by rw [written])

theorem planThenWriteFailed {handle : Handler σ} (sound : handle.Transactional)
    {plan : Script ε α} (reads : plan.ReadsOnly) {rename : StorageError → ε}
    {write : α → Operation} {result : α → β} {s after : σ} {e : ε}
    (failed : (plan.bind fun a => (call rename (write a)).bind fun _ => done (result a)).run handle s =
      (.error e,after)) : after = s := by
  rw [runAfterReading sound.quiet reads] at failed
  cases planned : plan.eval (handle.answers s) with
  | error e' =>
    rw [planned] at failed
    cases failed
    rfl
  | ok a =>
    simp only [planned,runWrite] at failed
    split at failed
    · cases failed
    · rename_i why reached written
      cases failed
      have still := sound.atomic (write a) s why (by rw [written])
      rw [written] at still
      exact still

end Script

/- Between its first reads and its write a service only looks up decks. -/
def Operation.looksUpDeck : Operation → Bool
  | .getDeck _ => true
  | _ => false

theorem deckLookedUp {op : Operation} (looks : op.looksUpDeck = true) : ∃ id, op = .getDeck id := by
  cases op with
  | getDeck id => exact ⟨id,rfl⟩
  | _ => cases looks

theorem lookUpReads (op : Operation) (looks : op.looksUpDeck = true) : op.isWrite = false := by
  cases op <;> first | rfl | cases looks

theorem fetchAsks (cache : DeckCache) (id : DeckId) :
    (cache.fetch id).AsksOnly (·.looksUpDeck) := by
  unfold DeckCache.fetch
  split
  · trivial
  · exact Script.asksBind (Script.asksCall rfl) fun _ => trivial

theorem trackDecksAsks (cache : DeckCache) (tracked : KeyMap DeckProgress) (ids : List DeckId) :
    (trackDecks cache tracked ids).AsksOnly (·.looksUpDeck) := by
  induction ids generalizing cache tracked with
  | nil => trivial
  | cons id ids ih => exact Script.asksBind (fetchAsks cache id) fun _ => ih _ _

theorem materializeAsks (l : Lesson) (cache : DeckCache) :
    (materialize l cache).AsksOnly (·.looksUpDeck) := by
  unfold materialize
  split
  · trivial
  · exact Script.asksBind (Script.asksMapError (trackDecksAsks _ _ _)) fun _ => trivial

theorem materializeLessonsAsks (cache : DeckCache) (state : CourseProgress)
    (lessons : List Lesson) :
    (materializeLessons cache state lessons).AsksOnly (·.looksUpDeck) := by
  induction lessons generalizing cache state with
  | nil => trivial
  | cons l lessons ih => exact Script.asksBind (materializeAsks l cache) fun _ => ih _ _

theorem reconcileDeckCardsAsks (lesson : String) (cache : DeckCache) (progress : LessonProgress)
    (ids : List DeckId) :
    (reconcileDeckCards lesson cache progress ids).AsksOnly (·.looksUpDeck) := by
  induction ids generalizing cache progress with
  | nil => trivial
  | cons id ids ih =>
    refine Script.asksBind (Script.asksMapError (fetchAsks cache id)) fun _ => ?_
    exact Script.asksBind (Script.asksMapError (Script.asksOfExcept _)) fun _ => ih _ _

theorem reconcileLessonsAsks (cache : DeckCache) (state : CourseProgress) (lessons : List Lesson) :
    (reconcileLessons cache state lessons).AsksOnly (·.looksUpDeck) := by
  induction lessons generalizing cache state with
  | nil => trivial
  | cons l lessons ih =>
    refine Script.asksBind ?_ fun _ => ih _ _
    unfold reconcileLesson
    split
    · exact Script.asksBind (Script.asksMapError (materializeAsks l cache)) fun _ => trivial
    · exact Script.asksBind (reconcileDeckCardsAsks _ _ _ _) fun _ => trivial

def enrollPlan (newId : Uuid) (now : Instant) (user : UserId) (course : CourseId) :
    Script EnrollError Enrollment := do
  let lessons ← Script.call .storage (.listLessons course .ascending)
  match lessons with
  | [] => .fail .noLessons
  | first :: _ =>
    let state ← (materializeLessons {} {} lessons).mapError MaterializeError.toEnrollError
    .done (Enrollment.start newId user course { state with currentLessonId := some first.id } now)

theorem enrollSplit (newId : Uuid) (now : Instant) (user : UserId) (course : CourseId) :
    enroll newId now user course = (enrollPlan newId now user course).bind fun e =>
      (Script.call .ofCreation (.createProgress e)).bind fun _ => .done e := by
  simp only [enroll,enrollPlan,bind,Script.bindAssoc]
  refine congrArg _ (funext fun lessons => ?_)
  cases lessons with
  | nil => rfl
  | cons first rest => simp only [Script.bindAssoc]; rfl

theorem enrollPlanReads (newId : Uuid) (now : Instant) (user : UserId) (course : CourseId) :
    (enrollPlan newId now user course).ReadsOnly := by
  refine Script.readsBind (Script.readsCall rfl) fun lessons => ?_
  cases lessons with
  | nil => trivial
  | cons first rest =>
    exact Script.readsBind (Script.readsMapError ((materializeLessonsAsks _ _ _).reads lookUpReads))
      fun _ => trivial

def answerPlan (now : Instant) (user : UserId) (course : CourseId) (lesson : LessonId)
    (deck : DeckId) (answers : List CardAnswer) : Script AnswerError (Enrollment × AnswerOutcome) := do
  let enrollment ← Script.call .ofLoading (.getProgress user course)
  (Script.ofExcept (enrollment.state.requireDeck lesson.key deck.key)).mapError .progress
  let cards ← Script.call .storage (.getCards (answers.map (·.cardId)).eraseDups)
  let (state,results) ← (Script.ofExcept
    (enrollment.state.answerCards lesson.key deck.key ⟨cards⟩ now answers)).mapError .progress
  .done (enrollment.withState (state.resumeAt lesson) now,state.outcome lesson.key deck.key results)

theorem answerSplit (now : Instant) (user : UserId) (course : CourseId) (lesson : LessonId)
    (deck : DeckId) {answers : List CardAnswer} (some : answers ≠ []) :
    answer now user course lesson deck answers =
      (answerPlan now user course lesson deck answers).bind fun planned =>
        (Script.call .storage (.saveProgress planned.1)).bind fun _ => .done planned.2 := by
  have nonempty : answers.isEmpty = false := by simpa using some
  simp only [answer,answerPlan,bind,Script.bindAssoc,nonempty]
  rfl

theorem answerPlanReads (now : Instant) (user : UserId) (course : CourseId) (lesson : LessonId)
    (deck : DeckId) (answers : List CardAnswer) :
    (answerPlan now user course lesson deck answers).ReadsOnly := by
  refine Script.readsBind (Script.readsCall rfl) fun _ => ?_
  refine Script.readsBind (Script.readsMapError (Script.readsOfExcept _)) fun _ => ?_
  refine Script.readsBind (Script.readsCall rfl) fun _ => ?_
  exact Script.readsBind (Script.readsMapError (Script.readsOfExcept _)) fun _ => trivial

theorem emptyAnswerReads (now : Instant) (user : UserId) (course : CourseId) (lesson : LessonId)
    (deck : DeckId) : (answer now user course lesson deck []).ReadsOnly := by
  refine Script.readsBind (Script.readsCall rfl) fun _ => ?_
  exact Script.readsBind (Script.readsMapError (Script.readsOfExcept _)) fun _ => trivial

def syncPlan (now : Instant) (user : UserId) (course : CourseId) :
    Script SyncError (Enrollment × List Lesson) := do
  let enrollment ← Script.call .ofLoading (.getProgress user course)
  let lessons ← Script.call .storage (.listLessons course .ascending)
  let state ← reconcileLessons {} enrollment.state lessons
  .done (enrollment.withState (state.settle lessons now) now,lessons)

theorem syncSplit (now : Instant) (user : UserId) (course : CourseId) :
    syncWithLessons now user course = (syncPlan now user course).bind fun planned =>
      (Script.call .storage (.saveProgress planned.1)).bind fun _ => .done planned := by
  simp only [syncWithLessons,syncPlan,bind,Script.bindAssoc]
  rfl

theorem syncPlanReads (now : Instant) (user : UserId) (course : CourseId) :
    (syncPlan now user course).ReadsOnly := by
  refine Script.readsBind (Script.readsCall rfl) fun _ => ?_
  refine Script.readsBind (Script.readsCall rfl) fun _ => ?_
  exact Script.readsBind ((reconcileLessonsAsks _ _ _).reads lookUpReads) fun _ => trivial

section Served

variable {σ : Type} {handle : Handler σ} {s after : σ} {user : UserId} {course : CourseId}
  {now : Instant}

def Answers.ListsApart (answers : Answers) (course : CourseId) : Prop :=
  ∀ lessons, answers (.listLessons course .ascending) = .ok lessons → (lessons.map (·.id)).Nodup

theorem enrollRan {newId : Uuid} {e : Enrollment} (sound : handle.Transactional)
    (ok : (enroll newId now user course).run handle s = (.ok e,after)) :
    ∃ first rest state,
      handle.answers s (.listLessons course .ascending) = .ok (first :: rest) ∧
      (materializeLessons {} {} (first :: rest)).eval (handle.answers s) = .ok state ∧
      e = .start newId user course { state with currentLessonId := some first.id } now ∧
      handle (.createProgress e) s = (.ok (),after) := by
  rw [enrollSplit] at ok
  obtain ⟨planned,reply,plan,written,rfl⟩ :=
    Script.planThenWriteOk sound (enrollPlanReads newId now user course) ok
  obtain ⟨lessons,listed,rest⟩ := Script.evalBindOk.mp plan
  cases lessons with
  | nil => cases rest
  | cons first others =>
    obtain ⟨state,materialized,last⟩ := Script.evalBindOk.mp rest
    exact ⟨first,others,state,Script.evalCallOk.mp listed,Script.evalMapErrorOk.mp materialized,
      (Script.evalDoneOk.mp last).symm,written⟩

theorem syncPlanned {answers : Answers} {new : Enrollment} {lessons : List Lesson}
    (ok : (syncPlan now user course).eval answers = .ok (new,lessons)) :
    ∃ old state, answers (.getProgress user course) = .ok old ∧
      answers (.listLessons course .ascending) = .ok lessons ∧
      (reconcileLessons {} old.state lessons).eval answers = .ok state ∧
      new = old.withState (state.settle lessons now) now := by
  obtain ⟨old,loaded,rest⟩ := Script.evalBindOk.mp ok
  obtain ⟨live,listed,rest⟩ := Script.evalBindOk.mp rest
  obtain ⟨state,reconciled,last⟩ := Script.evalBindOk.mp rest
  cases Script.evalDoneOk.mp last
  exact ⟨old,state,Script.evalCallOk.mp loaded,Script.evalCallOk.mp listed,reconciled,rfl⟩

theorem syncRan {new : Enrollment} {lessons : List Lesson} (sound : handle.Transactional)
    (ok : (syncWithLessons now user course).run handle s = (.ok (new,lessons),after)) :
    ∃ old state, handle.answers s (.getProgress user course) = .ok old ∧
      handle.answers s (.listLessons course .ascending) = .ok lessons ∧
      (reconcileLessons {} old.state lessons).eval (handle.answers s) = .ok state ∧
      new = old.withState (state.settle lessons now) now ∧
      handle (.saveProgress new) s = (.ok (),after) := by
  rw [syncSplit] at ok
  obtain ⟨planned,reply,plan,written,rfl⟩ :=
    Script.planThenWriteOk sound (syncPlanReads now user course) ok
  obtain ⟨old,state,loaded,listed,reconciled,same⟩ := syncPlanned plan
  exact ⟨old,state,loaded,listed,reconciled,same,written⟩

structure EnrollServed (handle : Handler σ) (newId : Uuid) (now : Instant) (user : UserId)
    (course : CourseId) (s : σ) (e : Enrollment) (after : σ) : Prop where
  merged : ∃ lessons, lessons ≠ [] ∧
    handle.answers s (.listLessons course .ascending) = .ok lessons ∧
    e = .start newId user course
      (Merge.course now {} (lessons.map (·.outline (handle.answers s).deckCards))) now
  created : handle (.createProgress e) s = (.ok (),after)

theorem enrollServed {newId : Uuid} {e : Enrollment} (sound : handle.Transactional)
    (apart : (handle.answers s).ListsApart course)
    (ok : (enroll newId now user course).run handle s = (.ok e,after)) :
    EnrollServed handle newId now user course s e after := by
  obtain ⟨first,rest,state,listed,materialized,same,written⟩ := enrollRan sound ok
  refine ⟨⟨first :: rest,List.cons_ne_nil _ _,listed,?_⟩,written⟩
  rw [same,materializedIsMerge now (apart _ listed) materialized]

theorem enrollFailed {newId : Uuid} {e : EnrollError} (sound : handle.Transactional)
    (failed : (enroll newId now user course).run handle s = (.error e,after)) : after = s := by
  rw [enrollSplit] at failed
  exact Script.planThenWriteFailed sound (enrollPlanReads newId now user course) failed

structure SyncServed (handle : Handler σ) (now : Instant) (user : UserId) (course : CourseId)
    (s : σ) (new : Enrollment) (lessons : List Lesson) (after : σ) : Prop where
  listed : handle.answers s (.listLessons course .ascending) = .ok lessons
  found : ∀ l ∈ lessons, ∀ id ∈ l.deckReferences, (handle.answers s).HasDeck id
  merged : ∃ old, handle.answers s (.getProgress user course) = .ok old ∧
    new = old.withState
      (Merge.course now old.state (lessons.map (·.outline (handle.answers s).deckCards))) now
  saved : handle (.saveProgress new) s = (.ok (),after)

theorem syncServed {new : Enrollment} {lessons : List Lesson} (sound : handle.Transactional)
    (apart : (handle.answers s).ListsApart course)
    (ok : (syncWithLessons now user course).run handle s = (.ok (new,lessons),after)) :
    SyncServed handle now user course s new lessons after := by
  obtain ⟨old,state,loaded,listed,reconciled,same,written⟩ := syncRan sound ok
  have distinct := apart _ listed
  have merged := reconcileLessonsOk emptyCacheAgrees (lessonKeysDistinct distinct) reconciled
  refine ⟨listed,merged.found,⟨old,loaded,?_⟩,written⟩
  rw [same,settledIsMerge now distinct reconciled]

theorem syncFailed {e : SyncError} (sound : handle.Transactional)
    (failed : (syncWithLessons now user course).run handle s = (.error e,after)) : after = s := by
  rw [syncSplit] at failed
  exact Script.planThenWriteFailed sound (syncPlanReads now user course) failed

def Answers.answerKey (answers : Answers) (batch : List CardAnswer) : AnswerKey :=
  ⟨match answers (.getCards (batch.map (·.cardId)).eraseDups) with
    | .ok cards => cards
    | .error _ => []⟩

structure AnswerSteps (handle : Handler σ) (now : Instant) (user : UserId) (course : CourseId)
    (lesson : LessonId) (deck : DeckId) (answers : List CardAnswer) (s : σ)
    (outcome : AnswerOutcome) (after : σ) (old : Enrollment) (cards : List Card)
    (state : CourseProgress) : Prop where
  loaded : handle.answers s (.getProgress user course) = .ok old
  tracked : old.state.requireDeck lesson.key deck.key = .ok ()
  fetched : handle.answers s (.getCards (answers.map (·.cardId)).eraseDups) = .ok cards
  recorded : old.state.answerCards lesson.key deck.key ⟨cards⟩ now answers =
    .ok (state,outcome.results)
  told : outcome = state.outcome lesson.key deck.key outcome.results
  saved : handle (.saveProgress (old.withState (state.resumeAt lesson) now)) s = (.ok (),after)

theorem answerStepsIff {lesson : LessonId} {deck : DeckId} {answers : List CardAnswer}
    {outcome : AnswerOutcome} (sound : handle.Transactional) (given : answers ≠ []) :
    (answer now user course lesson deck answers).run handle s = (.ok outcome,after) ↔
      ∃ old cards state,
        AnswerSteps handle now user course lesson deck answers s outcome after old cards state := by
  have reads := answerPlanReads now user course lesson deck answers
  rw [answerSplit _ _ _ _ _ given]
  constructor
  · intro ok
    obtain ⟨planned,reply,plan,written,rfl⟩ := Script.planThenWriteOk sound reads ok
    obtain ⟨old,loaded,rest⟩ := Script.evalBindOk.mp plan
    obtain ⟨_,tracked,rest⟩ := Script.evalBindOk.mp rest
    obtain ⟨cards,fetched,rest⟩ := Script.evalBindOk.mp rest
    obtain ⟨⟨state,results⟩,recorded,last⟩ := Script.evalBindOk.mp rest
    cases Script.evalDoneOk.mp last
    exact ⟨old,cards,state,Script.evalCallOk.mp loaded,
      Script.evalOfExceptOk.mp (Script.evalMapErrorOk.mp tracked),Script.evalCallOk.mp fetched,
      Script.evalOfExceptOk.mp (Script.evalMapErrorOk.mp recorded),rfl,written⟩
  · rintro ⟨old,cards,state,steps⟩
    have plan : (answerPlan now user course lesson deck answers).eval (handle.answers s) =
        .ok (old.withState (state.resumeAt lesson) now,outcome) := by
      refine Script.evalBindOk.mpr ⟨old,Script.evalCallOk.mpr steps.loaded,?_⟩
      refine Script.evalBindOk.mpr ⟨(),?_,?_⟩
      · exact Script.evalMapErrorOk.mpr (Script.evalOfExceptOk.mpr steps.tracked)
      refine Script.evalBindOk.mpr ⟨cards,Script.evalCallOk.mpr steps.fetched,?_⟩
      refine Script.evalBindOk.mpr ⟨(state,outcome.results),?_,?_⟩
      · exact Script.evalMapErrorOk.mpr (Script.evalOfExceptOk.mpr steps.recorded)
      · exact Script.evalDoneOk.mpr (congrArg _ steps.told.symm)
    exact Script.planThenWrite sound.quiet reads .storage Prod.snd plan steps.saved

structure AnswerServed (handle : Handler σ) (now : Instant) (user : UserId) (course : CourseId)
    (lesson : LessonId) (deck : DeckId) (answers : List CardAnswer) (s : σ)
    (outcome : AnswerOutcome) (after : σ) : Prop where
  loaded : ∃ old state, handle.answers s (.getProgress user course) = .ok old ∧
    old.state.answerCards lesson.key deck.key ((handle.answers s).answerKey answers) now answers =
      .ok (state,outcome.results) ∧
    handle (.saveProgress (old.withState (state.resumeAt lesson) now)) s = (.ok (),after)

theorem answerServed {lesson : LessonId} {deck : DeckId} {answers : List CardAnswer}
    {outcome : AnswerOutcome} (sound : handle.Transactional) (given : answers ≠ [])
    (ok : (answer now user course lesson deck answers).run handle s = (.ok outcome,after)) :
    AnswerServed handle now user course lesson deck answers s outcome after := by
  obtain ⟨old,cards,state,steps⟩ := (answerStepsIff sound given).mp ok
  have key : (handle.answers s).answerKey answers = ⟨cards⟩ := by
    rw [Answers.answerKey,steps.fetched]
  refine ⟨old,state,steps.loaded,?_,steps.saved⟩
  rw [key]
  exact steps.recorded

theorem answerFailed {lesson : LessonId} {deck : DeckId} {answers : List CardAnswer}
    {e : AnswerError} (sound : handle.Transactional)
    (failed : (answer now user course lesson deck answers).run handle s = (.error e,after)) :
    after = s := by
  by_cases given : answers = []
  · subst given
    rw [Script.runReading sound.quiet (emptyAnswerReads now user course lesson deck)] at failed
    exact (congrArg Prod.snd failed).symm
  · rw [answerSplit _ _ _ _ _ given] at failed
    exact Script.planThenWriteFailed sound
      (answerPlanReads now user course lesson deck answers) failed

theorem emptyAnswerIff {lesson : LessonId} {deck : DeckId} {outcome : AnswerOutcome}
    (quiet : handle.Quiet) :
    (answer now user course lesson deck []).run handle s = (.ok outcome,after) ↔
      ∃ old, handle.answers s (.getProgress user course) = .ok old ∧
        old.state.requireDeck lesson.key deck.key = .ok () ∧
        old.state.outcome lesson.key deck.key [] = outcome ∧ s = after := by
  rw [Script.runReading quiet (emptyAnswerReads now user course lesson deck),Prod.mk.injEq]
  constructor
  · rintro ⟨ok,rfl⟩
    obtain ⟨old,loaded,rest⟩ := Script.evalBindOk.mp ok
    obtain ⟨_,tracked,last⟩ := Script.evalBindOk.mp rest
    exact ⟨old,Script.evalCallOk.mp loaded,
      Script.evalOfExceptOk.mp (Script.evalMapErrorOk.mp tracked),Script.evalDoneOk.mp last,rfl⟩
  · rintro ⟨old,loaded,tracked,told,rfl⟩
    refine ⟨Script.evalBindOk.mpr ⟨old,Script.evalCallOk.mpr loaded,?_⟩,rfl⟩
    refine Script.evalBindOk.mpr ⟨(),?_,Script.evalDoneOk.mpr told⟩
    exact Script.evalMapErrorOk.mpr (Script.evalOfExceptOk.mpr tracked)

theorem emptyAnswerServed {lesson : LessonId} {deck : DeckId} {outcome : AnswerOutcome}
    (sound : handle.Transactional)
    (ok : (answer now user course lesson deck []).run handle s = (.ok outcome,after)) :
    after = s := by
  obtain ⟨_,_,_,_,same⟩ := (emptyAnswerIff sound.quiet).mp ok
  exact same.symm

theorem runMapError {ε ε' α : Type} (f : ε → ε') (script : Script ε α) :
    (script.mapError f).run handle s =
      ((script.run handle s).1.mapError f,(script.run handle s).2) := by
  induction script generalizing s with
  | done a => rfl
  | fail e => rfl
  | ask op resume ih => exact ih _

theorem syncRuns :
    (sync now user course).run handle s =
      ((((syncWithLessons now user course).run handle s).1.map Prod.fst),
        ((syncWithLessons now user course).run handle s).2) := by
  have split := Script.runBind handle (syncWithLessons now user course)
    (fun p => (.done p.1 : Script SyncError Enrollment)) s
  rw [sync]
  refine split.trans ?_
  cases (syncWithLessons now user course).run handle s with
  | mk outcome reached => cases outcome <;> rfl

theorem browseRuns {options : BrowseOptions} (shown : options.user = some user) :
    (browse now course options).run handle s =
      ((((syncWithLessons now user course).run handle s).1.map fun p =>
          LessonListing.withProgress (p.2.map (.of options p.1.state))).mapError .sync,
        ((syncWithLessons now user course).run handle s).2) := by
  have split := Script.runBind handle ((syncWithLessons now user course).mapError .sync)
    (fun p => (.done (.withProgress (p.2.map (.of options p.1.state))) :
      Script BrowseError LessonListing)) s
  rw [browse,shown]
  refine split.trans ?_
  rw [runMapError]
  cases (syncWithLessons now user course).run handle s with
  | mk outcome reached => cases outcome <;> rfl

theorem syncOk {new : Enrollment} (ok : (sync now user course).run handle s = (.ok new,after)) :
    ∃ lessons, (syncWithLessons now user course).run handle s = (.ok (new,lessons),after) := by
  rw [syncRuns] at ok
  cases ran : (syncWithLessons now user course).run handle s with
  | mk outcome reached =>
    rw [ran] at ok
    cases outcome with
    | error e => cases ok
    | ok p =>
      cases ok
      exact ⟨p.2,rfl⟩

theorem browseOk {options : BrowseOptions} {listing : LessonListing}
    (shown : options.user = some user)
    (ok : (browse now course options).run handle s = (.ok listing,after)) :
    ∃ new lessons, (syncWithLessons now user course).run handle s = (.ok (new,lessons),after) ∧
      listing = .withProgress (lessons.map (.of options new.state)) := by
  rw [browseRuns shown] at ok
  cases ran : (syncWithLessons now user course).run handle s with
  | mk outcome reached =>
    rw [ran] at ok
    cases outcome with
    | error e => cases ok
    | ok p =>
      cases ok
      exact ⟨p.1,p.2,rfl,rfl⟩

end Served

end Coursework
