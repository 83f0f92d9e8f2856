import Coursework.Proofs.Frames
import Coursework.Proofs.LeftBehind
import Coursework.Proofs.MergeAgain
import Coursework.Proofs.Runs

/-! Syncing what is up to date. After an enrollment or a sync the learner may answer as often as
wanted and the clock may move: as long as the lessons and decks are the same, a further sync finds
nothing to do. -/
namespace Coursework

structure Answers.SameContents (course : CourseId) (answers later : Answers) : Prop where
  listing : later (.listLessons course .ascending) = answers (.listLessons course .ascending)
  decks : ∀ lessons, answers (.listLessons course .ascending) = .ok lessons → ∀ l ∈ lessons,
    ∀ id ∈ l.deckReferences, later (.getDeck id) = answers (.getDeck id)

namespace Answers

variable {course : CourseId} {answers later : Answers}

theorem SameContents.listsApart (same : SameContents course answers later)
    (apart : answers.ListsApart course) : later.ListsApart course := by
  intro lessons listed
  rw [same.listing] at listed
  exact apart lessons listed

theorem SameContents.outlines (same : SameContents course answers later) {lessons : List Lesson}
    (listed : answers (.listLessons course .ascending) = .ok lessons) :
    lessons.map (·.outline later.deckCards) = lessons.map (·.outline answers.deckCards) := by
  refine List.map_congr_left fun l member => ?_
  have decks : l.deckReferences.map (fun id => (id,later.deckCards id)) =
      l.deckReferences.map fun id => (id,answers.deckCards id) := by
    refine List.map_congr_left fun id referred => ?_
    rw [deckCards,same.decks lessons listed l member id referred,deckCards]
  rw [Lesson.outline,decks,Lesson.outline]

end Answers

theorem Setting.sameContents {setting : Setting} {user : UserId} {course : CourseId}
    {b after : Backend} (same : after.without user course = b.without user course) :
    Answers.SameContents course (setting.handler.answers b) (setting.handler.answers after) :=
  ⟨contentAlike same rfl,fun _ _ _ _ _ _ => contentAlike same rfl⟩

def Reply.refreshed : Reply → Bool
  | .enrolled (.ok _) | .synced (.ok _) | .browsed (.ok _) => true
  | _ => false

def Setting.records (setting : Setting) (user : UserId) (course : CourseId) (b : Backend)
    (lesson : LessonId) (deck : DeckId) (answers : List CardAnswer) : Bool :=
  !answers.isEmpty && !(setting.serve user course b (.answer lesson deck answers)).1.failed

inductive Answering (user : UserId) (course : CourseId) (b : Backend) : Bool → Backend → Prop
  | none : Answering user course b false b
  | answer {saved : Bool} {reached : Backend} (earlier : Answering user course b saved reached)
      (setting : Setting) (lesson : LessonId) (deck : DeckId) (answers : List CardAnswer) :
      Answering user course b (saved || setting.records user course reached lesson deck answers)
        (setting.serve user course reached (.answer lesson deck answers)).2
  | elsewhere {saved : Bool} {reached after : Backend}
      (earlier : Answering user course b saved reached)
      (kept : after.repository.stored user course = reached.repository.stored user course) :
      Answering user course b saved after

section Refreshed

variable {user : UserId} {course : CourseId} {b after reached : Backend} {setting : Setting}
  {outline : List LessonOutline} {merged : CourseProgress} {saved : Bool}

structure StillMerged (user : UserId) (course : CourseId) (outline : List LessonOutline)
    (merged : CourseProgress) (saved : Bool) (b : Backend) : Prop where
  lessons : ∀ e, b.repository.stored user course = .ok e → Merge.Merged outline e.state
  untouched : saved = false → ∀ e, b.repository.stored user course = .ok e → e.state = merged

theorem stillMergedShown {now : Instant} {old : CourseProgress} {e : Enrollment}
    (shown : ∀ found, after.repository.stored user course = .ok found → found.Shows e)
    (state : e.state = Merge.course now old outline) :
    StillMerged user course outline (Merge.course now old outline) false after := by
  have states : ∀ found, after.repository.stored user course = .ok found →
      found.state = Merge.course now old outline :=
    fun found read => (shown found read).state.trans state
  refine ⟨fun found read => ⟨now,old,?_⟩,fun _ => states⟩
  rw [states found read]

theorem syncRefreshes {new : Enrollment} {lessons : List Lesson}
    (apart : b.repository.ListsApart course)
    (ok : (syncWithLessons setting.now user course).run setting.handler b =
      (.ok (new,lessons),after)) :
    setting.handler.answers b (.listLessons course .ascending) = .ok lessons ∧
      ∃ old, StillMerged user course
        (lessons.map (·.outline (setting.handler.answers b).deckCards))
        (Merge.course setting.now old
          (lessons.map (·.outline (setting.handler.answers b).deckCards))) false after := by
  obtain ⟨listed,old,_,rfl,left⟩ := syncLeft (Setting.listsApart apart) ok
  exact ⟨listed,old.state,stillMergedShown left.shown rfl⟩

theorem refreshes {request : Request} (apart : b.repository.ListsApart course)
    (refreshed : (setting.serve user course b request).1.refreshed = true) :
    ∃ lessons old, setting.handler.answers b (.listLessons course .ascending) = .ok lessons ∧
      StillMerged user course (lessons.map (·.outline (setting.handler.answers b).deckCards))
        (Merge.course setting.now old
          (lessons.map (·.outline (setting.handler.answers b).deckCards))) false
        (setting.serve user course b request).2 := by
  cases request with
  | answer lesson deck answers => cases refreshed
  | enroll newId =>
    cases ran : (enroll newId setting.now user course).run setting.handler b with
    | mk result after =>
      rw [Setting.serve,ran] at refreshed ⊢
      cases result with
      | error e => cases refreshed
      | ok e =>
        have served := enrollServed setting.transactional (Setting.listsApart apart) ran
        obtain ⟨lessons,_,listed,rfl⟩ := served.merged
        exact ⟨lessons,{},listed,
          stillMergedShown (Setting.creates served.created).2.shown rfl⟩
  | sync =>
    cases ran : (syncWithLessons setting.now user course).run setting.handler b with
    | mk result after =>
      rw [Setting.serve,syncRuns,ran] at refreshed ⊢
      cases result with
      | error e => cases refreshed
      | ok p =>
        obtain ⟨listed,old,still⟩ := syncRefreshes apart ran
        exact ⟨p.2,old,listed,still⟩
  | browse bodyless =>
    cases ran : (syncWithLessons setting.now user course).run setting.handler b with
    | mk result after =>
      rw [Setting.serve,browseRuns rfl,ran] at refreshed ⊢
      cases result with
      | error e => cases refreshed
      | ok p =>
        obtain ⟨listed,old,still⟩ := syncRefreshes apart ran
        exact ⟨p.2,old,listed,still⟩

theorem answerLeaves (setting : Setting) (user : UserId) (course : CourseId) (b : Backend)
    (lesson : LessonId) (deck : DeckId) (answers : List CardAnswer) :
    (setting.records user course b lesson deck answers = false ∧
      (setting.serve user course b (.answer lesson deck answers)).2 = b) ∨
    (setting.records user course b lesson deck answers = true ∧ ∃ outcome old state,
      AnswerLeft setting user course lesson deck answers b outcome
        (setting.serve user course b (.answer lesson deck answers)).2 old state) := by
  cases ran : (answer setting.now user course lesson deck answers).run setting.handler b with
  | mk result after =>
    rw [Setting.records,Setting.serve,ran]
    cases result with
    | error e =>
      cases answerFailed setting.transactional ran
      exact .inl ⟨Bool.and_false _,rfl⟩
    | ok outcome =>
      obtain ⟨old,state,left⟩ := answerLeft ran
      cases answers with
      | nil => exact .inl ⟨rfl,left.still rfl⟩
      | cons a answers => exact .inr ⟨rfl,outcome,old,state,left⟩

theorem answerKeepsMerged (apart : Merge.Apart outline)
    (still : StillMerged user course outline merged saved b) (setting : Setting)
    (lesson : LessonId) (deck : DeckId) (answers : List CardAnswer) :
    StillMerged user course outline merged
      (saved || setting.records user course b lesson deck answers)
      (setting.serve user course b (.answer lesson deck answers)).2 := by
  rcases answerLeaves setting user course b lesson deck answers with
    ⟨none,same⟩ | ⟨some,_,old,state,left⟩
  · rw [none,same,Bool.or_false]
    exact still
  · rw [some,Bool.or_true]
    refine ⟨fun e read => ?_,fun untouched => nomatch untouched⟩
    obtain ⟨now,before,same⟩ :=
      Merge.answersKeepMerged apart (still.lessons old left.stored) left.recorded
    exact ⟨now,before,(left.lessons e read).trans same⟩

theorem answeringKeepsMerged (apart : Merge.Apart outline)
    (still : StillMerged user course outline merged false b)
    (answering : Answering user course b saved reached) :
    StillMerged user course outline merged saved reached := by
  induction answering with
  | none => exact still
  | answer earlier setting lesson deck answers ih =>
    exact answerKeepsMerged apart ih setting lesson deck answers
  | elsewhere earlier kept ih =>
    exact ⟨fun e read => ih.lessons e (kept ▸ read),
      fun untouched e read => ih.untouched untouched e (kept ▸ read)⟩

/- A sync that found nothing to do: its rollup promotes nothing and the lessons stay as they are, and
so does the whole tree with its text if no answers were saved. -/
structure SyncIdle (setting : Setting) (course : CourseId) (saved : Bool) (b : Backend)
    (old new : Enrollment) : Prop where
  lessons : new.state.lessons = old.state.lessons
  promotes : ∃ lessons state,
    setting.handler.answers b (.listLessons course .ascending) = .ok lessons ∧
    (reconcileLessons {} old.state lessons).eval (setting.handler.answers b) = .ok state ∧
    new = old.withState (state.settle lessons setting.now) setting.now ∧
    (state.retainLessons (lessons.map (·.id.key))).promotions setting.now = 0
  whole : saved = false → new.state = old.state ∧ Json.write new.state = Json.write old.state

theorem reconciledIdle {lessons : List Lesson} {answers : Answers} {old state : CourseProgress}
    (distinct : (lessons.map (·.id)).Nodup)
    (merged : Merge.Merged (lessons.map (·.outline answers.deckCards)) old)
    (ok : (reconcileLessons {} old lessons).eval answers = .ok state) (now : Instant) :
    (state.retainLessons (lessons.map (·.id.key))).promotions now = 0 := by
  have apart := outlinesApart answers.deckCards distinct
  have reconciled := reconcileLessonsOk emptyCacheAgrees (lessonKeysDistinct distinct) ok
  have ready : Merge.LessonsReconciled old (lessons.map (·.outline answers.deckCards)) state := by
    intro o member
    obtain ⟨l,inside,rfl⟩ := List.mem_map.mp member
    exact reconciled.merged l inside
  have same := Merge.retainedUnchanged merged apart ready
  rw [outlinesKeys] at same
  refine CourseProgress.promotionsSettled (fun key l found => ?_) now
  rw [same] at found
  exact merged.settled apart key l found

/-- A sync of what is up to date, however much was answered since, leaves the lessons as it found
them; without a saved answer it leaves the whole tree. -/
theorem syncIsIdle {first second : Setting} {request : Request} {opened : Backend}
    {new : Enrollment} (apart : opened.repository.ListsApart course)
    (refreshed : (first.serve user course opened request).1.refreshed = true)
    (answering : Answering user course (first.serve user course opened request).2 saved reached)
    (same : Answers.SameContents course (first.handler.answers opened)
      (second.handler.answers reached))
    (synced : second.serve user course reached .sync = (.synced (.ok new),after)) :
    ∃ old, reached.repository.stored user course = .ok old ∧
      SyncIdle second course saved reached old new ∧
      ∀ found, after.repository.stored user course = .ok found → found.state = new.state := by
  obtain ⟨lessons,ran⟩ := syncOk (Setting.syncedIff.mp synced)
  rw [syncSplit] at ran
  obtain ⟨planned,_,plan,written,rfl⟩ := Script.planThenWriteOk second.transactional
    (syncPlanReads second.now user course) ran
  obtain ⟨old,state,loaded,listed,reconciled,newIs⟩ := syncPlanned plan
  obtain ⟨others,before,read,fresh⟩ := refreshes apart refreshed
  cases Except.ok.inj ((same.listing.trans read).symm.trans listed)
  rw [← same.outlines read] at fresh
  have distinct := same.listsApart (Setting.listsApart apart) lessons listed
  have outlined := outlinesApart (second.handler.answers reached).deckCards distinct
  have still := answeringKeepsMerged outlined fresh answering
  have stored := Setting.loads loaded
  have merged := still.lessons old stored
  have settled := settledIsMerge second.now distinct reconciled
  have newState : new.state = Merge.course second.now old.state
      (lessons.map (·.outline (second.handler.answers reached).deckCards)) := by
    rw [newIs,← settled]
    rfl
  have left := leftWith stored (newIs ▸ written)
  rw [← newIs] at left
  refine ⟨old,stored,⟨?_,⟨lessons,state,listed,reconciled,newIs,?_⟩,fun untouched => ?_⟩,
    fun found read => (left.shown found read).state⟩
  · rw [newState]
    exact Merge.lessonsAgain merged outlined second.now
  · exact reconciledIdle distinct merged reconciled second.now
  · have whole : new.state = old.state := by
      rw [newState,still.untouched untouched old stored]
      exact Merge.mergeAgain first.now second.now before outlined
    exact ⟨whole,congrArg Json.write whole⟩

end Refreshed

namespace Sample

def later : Setting := { setting with now := .ofNanos 9000000000 }

theorem taughtAlike : Answers.SameContents course (setting.handler.answers opened)
    (later.handler.answers answered) := by
  have enroll := (callFramed setting user course opened enrolling).frame.others
  have answer := (callFramed setting user course enrolled answering).frame.others
  exact @Setting.sameContents setting _ _ _ _ (answer.trans enroll)

theorem answeredOnce : Answering user course enrolled true answered := by
  have saves : (false || setting.records user course enrolled lesson.id deck.id
      [⟨card.id,right.id⟩]) = true := by decide +kernel
  rw [← saves]
  exact .answer .none setting lesson.id deck.id _

end Sample

theorem sampleSyncIsIdle :
    ∃ new after, Sample.later.serve Sample.user Sample.course Sample.answered .sync =
        (.synced (.ok new),after) ∧
      ∃ old, Sample.answered.repository.stored Sample.user Sample.course = .ok old ∧
        SyncIdle Sample.later Sample.course true Sample.answered old new := by
  obtain ⟨new,after,ran⟩ := Sample.outcomeOf
    (r := (sync Sample.later.now Sample.user Sample.course).run Sample.later.handler Sample.answered)
    (by decide +kernel)
  have refreshed : (Sample.setting.serve Sample.user Sample.course Sample.opened
      Sample.enrolling).1.refreshed = true := by decide +kernel
  have synced := Setting.syncedIff.mpr ran
  obtain ⟨old,stored,idle,_⟩ := syncIsIdle (Repository.keyedApart Sample.openedKeyed Sample.course)
    refreshed Sample.answeredOnce Sample.taughtAlike synced
  exact ⟨new,after,synced,old,stored,idle⟩

end Coursework
