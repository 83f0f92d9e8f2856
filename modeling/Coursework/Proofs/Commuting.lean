import Coursework.Proofs.UpToDate

/-! An answer and a sync at one instant, in either order. Both orders leave the same lessons and grade
the batch alike; only the current lesson may be another one. -/
namespace Coursework

structure Enrollment.Agrees (e f : Enrollment) : Prop where
  origin : e.origin = f.origin
  updatedAt : e.updatedAt = f.updatedAt
  lessons : e.state.lessons = f.state.lessons

/-- An answer and a sync at one instant commute up to the current lesson, wherever a run of calls has
led. -/
theorem answerAndSyncCommute {setting : Setting} {user : UserId} {course : CourseId}
    {records : List Record} {b answered left synced right : Backend} {lesson : LessonId}
    {deck : DeckId} {answers : List CardAnswer} {first second : AnswerOutcome}
    {new fresh : Enrollment} (run : Run user course records b)
    (answeredFirst : setting.serve user course b (.answer lesson deck answers) =
      (.answered (.ok first),answered))
    (thenSynced : setting.serve user course answered .sync = (.synced (.ok new),left))
    (syncedFirst : setting.serve user course b .sync = (.synced (.ok fresh),synced))
    (thenAnswered : setting.serve user course synced (.answer lesson deck answers) =
      (.answered (.ok second),right)) :
    ∃ e f, LeftWith setting user course left e ∧ LeftWith setting user course right f ∧
      e.Agrees f ∧ first.results = second.results := by
  have known := accounted run
  have apart : (setting.handler.answers b).ListsApart course := Setting.listsApart known.apart
  have firstRan := Setting.answeredIff.mp answeredFirst
  have secondRan := Setting.answeredIff.mp thenAnswered
  obtain ⟨lessons,firstSync⟩ := syncOk (Setting.syncedIff.mp syncedFirst)
  obtain ⟨again,secondSync⟩ := syncOk (Setting.syncedIff.mp thenSynced)
  -- neither call touches what is taught, so all four read the same contents
  have alike : Answers.SameContents course (setting.handler.answers b)
      (setting.handler.answers answered) := Setting.sameContents (answerFramed firstRan).others
  have key : (setting.handler.answers synced).answerKey answers =
      (setting.handler.answers b).answerKey answers := by
    rw [Answers.answerKey,Answers.answerKey,
      Setting.contentAlike (syncFramed firstSync).others rfl]
  obtain ⟨listed,old,stored,freshIs,syncedWith⟩ := syncLeft apart firstSync
  obtain ⟨listedAgain,before,storedBefore,newIs,leftWithNew⟩ :=
    syncLeft (alike.listsApart apart) secondSync
  cases Except.ok.inj (listed.symm.trans (alike.listing.symm.trans listedAgain))
  rw [alike.outlines listed] at newIs
  obtain ⟨same,state,firstLeft⟩ := answerLeft firstRan
  cases Except.ok.inj (stored.symm.trans firstLeft.stored)
  obtain ⟨merged,reached,secondLeft⟩ := answerLeft secondRan
  have mergedIs := (syncedWith.shown merged secondLeft.stored).state
  have recorded := secondLeft.recorded
  rw [key] at recorded
  have freshState : fresh.state = Merge.course setting.now old.state
      (lessons.map (·.outline (setting.handler.answers b).deckCards)) := by rw [freshIs]; rfl
  have outlined := outlinesApart (setting.handler.answers b).deckCards (apart lessons listed)
  obtain ⟨reachedLessons,results⟩ := Merge.batchCommutes outlined
    (known.consistent old stored).state (by rw [mergedIs,freshState]) firstLeft.recorded recorded
  have newLessons : new.state.lessons = reached.lessons := by
    rw [reachedLessons,← Merge.courseCongr setting.now (firstLeft.lessons before storedBefore),newIs]
    rfl
  have newOrigin : new.origin = old.origin := by
    rw [newIs]
    exact (answerFramed firstRan).origin old before stored storedBefore
  by_cases given : answers = []
  · cases secondLeft.still given
    have freshLessons : fresh.state.lessons = reached.lessons := by
      rw [← mergedIs]
      exact secondLeft.lessons merged secondLeft.stored
    refine ⟨new,fresh,leftWithNew,syncedWith,⟨?_,?_,?_⟩,results.symm⟩
    · rw [newOrigin,freshIs]
      rfl
    · rw [newIs,freshIs]
      rfl
    · rw [newLessons,freshLessons]
  · refine ⟨new,_,leftWithNew,secondLeft.written given,⟨?_,?_,?_⟩,results.symm⟩
    · rw [newOrigin]
      exact ((syncFramed firstSync).origin old merged stored secondLeft.stored).symm
    · rw [newIs]
      rfl
    · rw [newLessons]
      exact (reached.resumedLessons lesson).symm

namespace Sample

def widened : Backend := (enrolled.onStore (.upsertDeck grown)).2
def answeredWide : Backend := (setting.serve user course widened answering).2
def syncedWide : Backend := (setting.serve user course widened .sync).2

theorem ranWide : Run user course
    [⟨opened,setting,enrolling,(setting.serve user course opened enrolling).1⟩] widened := by
  have start : Run user course [] opened :=
    .start (by decide +kernel) (Repository.keyedApart openedKeyed course)
  exact (Run.call start setting enrolling).edited
    (setting.keyedServe openedKeyed user course enrolling) rfl

theorem answersAt {b : Backend}
    (ok : ((answer setting.now user course lesson.id deck.id [⟨card.id,right.id⟩]).run
      setting.handler b).1.isOk = true) :
    ∃ outcome, setting.serve user course b answering =
      (.answered (.ok outcome),(setting.serve user course b answering).2) := by
  obtain ⟨outcome,after,ran⟩ := outcomeOf ok
  have served := Setting.answeredIff.mpr ran
  exact ⟨outcome,served.trans (by rw [answering,served])⟩

theorem syncsAt {b : Backend}
    (ok : ((sync setting.now user course).run setting.handler b).1.isOk = true) :
    ∃ new, setting.serve user course b .sync =
      (.synced (.ok new),(setting.serve user course b .sync).2) := by
  obtain ⟨new,after,ran⟩ := outcomeOf ok
  have served := Setting.syncedIff.mpr ran
  exact ⟨new,served.trans (by rw [served])⟩

end Sample

theorem sampleAnswerAndSyncCommute :
    ∃ e f, LeftWith Sample.setting Sample.user Sample.course
        (Sample.setting.serve Sample.user Sample.course Sample.answeredWide .sync).2 e ∧
      LeftWith Sample.setting Sample.user Sample.course
        (Sample.setting.serve Sample.user Sample.course Sample.syncedWide Sample.answering).2 f ∧
      e.Agrees f := by
  obtain ⟨first,answeredFirst⟩ := Sample.answersAt (b := Sample.widened) (by decide +kernel)
  obtain ⟨new,thenSynced⟩ := Sample.syncsAt (b := Sample.answeredWide) (by decide +kernel)
  obtain ⟨fresh,syncedFirst⟩ := Sample.syncsAt (b := Sample.widened) (by decide +kernel)
  obtain ⟨second,thenAnswered⟩ := Sample.answersAt (b := Sample.syncedWide) (by decide +kernel)
  obtain ⟨e,f,left,right,agrees,_⟩ :=
    answerAndSyncCommute Sample.ranWide answeredFirst thenSynced syncedFirst thenAnswered
  exact ⟨e,f,left,right,agrees⟩

end Coursework
