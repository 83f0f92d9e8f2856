import Coursework.Proofs.Consistent
import Coursework.Proofs.LessonsApart
import Coursework.Proofs.SyncMerges

/-! Runs of calls for one learner in one course, from before the enrollment on. Between two calls the
contents may change in any way, by other calls or from outside. The records of the calls are the
history against which the stored tree is held. -/
namespace Coursework

structure Record where
  before : Backend
  setting : Setting
  request : Request
  reply : Reply

namespace Record

def graded (r : Record) (path : CardPath) : List Trial :=
  r.setting.graded r.before r.request r.reply path

def tracks (user : UserId) (course : CourseId) (r : Record) (path : CardPath) : Bool :=
  match r.before.repository.stored user course with
  | .ok e => (e.state.at? path).isSome
  | .error _ => false

end Record

/- A run with its records, the latest first. Whatever happens elsewhere leaves the enrollment of the
two as it is; lessons are listed under identifiers of their own, as both stores keep them. -/
inductive Run (user : UserId) (course : CourseId) : List Record → Backend → Prop
  | start {b : Backend} (free : b.repository.stored user course = .error .notFound)
      (apart : b.repository.ListsApart course) : Run user course [] b
  | call {records : List Record} {b : Backend} (run : Run user course records b)
      (setting : Setting) (request : Request) :
      Run user course (⟨b,setting,request,(setting.serve user course b request).1⟩ :: records)
        (setting.serve user course b request).2
  | elsewhere {records : List Record} {b after : Backend} (run : Run user course records b)
      (kept : after.repository.stored user course = b.repository.stored user course)
      (apart : after.repository.ListsApart course) : Run user course records after

theorem Run.edited {user : UserId} {course : CourseId} {records : List Record} {b : Backend}
    (run : Run user course records b) (keyed : b.repository.Keyed) {op : Operation}
    (content : op.isContent = true) : Run user course records (b.onStore op).2 :=
  .elsewhere run (Repository.contentStored content b.repository user course)
    (Repository.keyedApart (Repository.keyedPerform keyed op) course)

/- The trials on a path since it last entered the tree, the earliest first. -/
def submissions (user : UserId) (course : CourseId) (path : CardPath) : List Record → List Trial
  | [] => []
  | r :: earlier =>
    if r.tracks user course path then submissions user course path earlier ++ r.graded path else []

section Accounts

variable {user : UserId} {course : CourseId} {b after : Backend} {records : List Record}

theorem submissionsFresh {r : Record} {path : CardPath} (earlier : List Record)
    (fresh : r.tracks user course path = false) :
    submissions user course path (r :: earlier) = [] := by
  rw [submissions,fresh]
  rfl

theorem submissionsTracked {r : Record} {path : CardPath} (earlier : List Record)
    (tracked : r.tracks user course path = true) :
    submissions user course path (r :: earlier) =
      submissions user course path earlier ++ r.graded path :=
  if_pos tracked

theorem tracksLoaded {r : Record} {e : Enrollment} {path : CardPath}
    (loaded : r.before.repository.stored user course = .ok e) :
    r.tracks user course path = (e.state.at? path).isSome := by
  rw [Record.tracks,loaded]

structure Accounted (user : UserId) (course : CourseId) (records : List Record) (b : Backend) :
    Prop where
  apart : b.repository.ListsApart course
  consistent : ∀ e, b.repository.stored user course = .ok e → e.Consistent
  replayed : ∀ e, b.repository.stored user course = .ok e → ∀ path c,
    e.state.at? path = some c →
      c = ({} : CardProgress).replay (submissions user course path records)

theorem accountedWritten {written : Enrollment} (apart : b.repository.ListsApart course)
    (kept : b.repository.Keeps written after.repository)
    (owned : written.userId = user ∧ written.courseId = course)
    (consistent : written.Consistent)
    (replayed : ∀ path c, written.state.at? path = some c →
      c = ({} : CardProgress).replay (submissions user course path records)) :
    Accounted user course records after := by
  obtain ⟨rfl,rfl⟩ := owned
  constructor
  · intro lessons listed
    rw [kept.lists] at listed
    exact apart lessons listed
  · intro e read
    have shown := kept.shown e read
    refine ⟨?_,?_⟩
    · rw [shown.state]
      exact consistent.state
    · rw [shown.state,shown.current]
      exact consistent.current
  · intro e read path c found
    rw [(kept.shown e read).state] at found
    exact replayed path c found

theorem startConsistent {state : CourseProgress} (newId : Uuid) (now : Instant)
    (consistent : state.Consistent) : (Enrollment.start newId user course state now).Consistent :=
  ⟨consistent,rfl⟩

theorem withStateConsistent {e : Enrollment} {state : CourseProgress} (now : Instant)
    (consistent : state.Consistent) : (e.withState state now).Consistent :=
  ⟨consistent,rfl⟩

theorem accountedStill {r : Record} (known : Accounted user course records r.before)
    (none : ∀ path, r.graded path = []) : Accounted user course (r :: records) r.before := by
  refine ⟨known.apart,known.consistent,fun e read path c found => ?_⟩
  have tracked : r.tracks user course path = true := by
    rw [tracksLoaded read,found]
    rfl
  rw [submissionsTracked records tracked,none,List.append_nil]
  exact known.replayed e read path c found

theorem accountedEnrolled {r : Record} {newId : Uuid} {now : Instant} {outline : List LessonOutline}
    (known : Accounted user course records r.before) (apart : Merge.Apart outline)
    (free : r.before.repository.stored user course = .error .notFound)
    (kept : r.before.repository.Keeps
      (.start newId user course (Merge.course now {} outline) now) after.repository) :
    Accounted user course (r :: records) after := by
  refine accountedWritten known.apart kept ⟨rfl,rfl⟩
    (startConsistent newId _ (Merge.courseConsistent emptyConsistent apart)) ?_
  intro path c found
  have fresh : r.tracks user course path = false := by
    rw [Record.tracks,free]
  rw [submissionsFresh records fresh]
  rw [Enrollment.start,Merge.atMerged apart] at found
  split at found
  · exact (Option.some.inj found).symm
  · cases found

theorem accountedAnswered {r : Record} {old : Enrollment} {lesson : LessonId} {deck : DeckId}
    {key : AnswerKey} {now : Instant} {answers : List CardAnswer} {state : CourseProgress}
    {results : List CardAnswerResult} (known : Accounted user course records r.before)
    (loaded : r.before.repository.stored user course = .ok old)
    (recorded : old.state.answerCards lesson.key deck.key key now answers = .ok (state,results))
    (kept : r.before.repository.Keeps (old.withState (state.resumeAt lesson) now) after.repository)
    (same : ∀ path, r.graded path = gradedTrials lesson.key deck.key key now answers path) :
    Accounted user course (r :: records) after := by
  have owned := Repository.storedBelongs loaded
  have before := known.consistent old loaded
  refine accountedWritten known.apart kept owned (withStateConsistent _
    (CourseProgress.resumeConsistent
      (CourseProgress.answerCardsConsistent before.state recorded) lesson)) ?_
  intro path c found
  rw [Enrollment.withState,CourseProgress.atResumed,
    CourseProgress.atAnsweredBatch recorded] at found
  obtain ⟨was,held,rfl⟩ := Option.map_eq_some_iff.mp found
  have tracked : r.tracks user course path = true := by
    rw [tracksLoaded loaded,held]
    rfl
  rw [submissionsTracked records tracked,same,CardProgress.replayAppend,
    ← known.replayed old loaded path was held]

theorem accountedMerged {r : Record} {old : Enrollment} {now : Instant}
    {outline : List LessonOutline} (known : Accounted user course records r.before)
    (apart : Merge.Apart outline) (loaded : r.before.repository.stored user course = .ok old)
    (kept : r.before.repository.Keeps (old.withState (Merge.course now old.state outline) now)
      after.repository)
    (none : ∀ path, r.graded path = []) : Accounted user course (r :: records) after := by
  have owned := Repository.storedBelongs loaded
  have before := known.consistent old loaded
  refine accountedWritten known.apart kept owned
    (withStateConsistent _ (Merge.courseConsistent before.state apart)) ?_
  intro path c found
  rw [Enrollment.withState,Merge.atMerged apart] at found
  split at found
  · have same := Option.some.inj found
    cases held : old.state.at? path with
    | none =>
      have fresh : r.tracks user course path = false := by
        rw [tracksLoaded loaded,held]
        rfl
      rw [submissionsFresh records fresh,← same,held]
      rfl
    | some was =>
      have tracked : r.tracks user course path = true := by
        rw [tracksLoaded loaded,held]
        rfl
      rw [submissionsTracked records tracked,none,List.append_nil,← same,held]
      exact known.replayed old loaded path was held
  · cases found

theorem accountedCall {r : Record} (known : Accounted user course records r.before)
    (effect : Effect user course r.setting r.before after r.graded) :
    Accounted user course (r :: records) after := by
  cases effect with
  | still same none =>
    subst same
    exact accountedStill known none
  | enrolled newId outline apart free kept none => exact accountedEnrolled known apart free kept
  | answered old lesson deck key answers state results loaded recorded kept same =>
    exact accountedAnswered known loaded recorded kept same
  | merged old outline apart loaded kept none => exact accountedMerged known apart loaded kept none

theorem accounted (run : Run user course records b) : Accounted user course records b := by
  induction run with
  | start free apart =>
    refine ⟨apart,fun e read => ?_,fun e read => ?_⟩
    · rw [free] at read
      cases read
    · rw [free] at read
      cases read
  | call run setting request ih => exact accountedCall ih (effectOf ih.apart rfl)
  | elsewhere run kept apart ih =>
    exact ⟨apart,fun e read => ih.consistent e (kept ▸ read),
      fun e read => ih.replayed e (kept ▸ read)⟩

end Accounts

/-- Every tree that is stored along a run is consistent. -/
theorem storedConsistent {user : UserId} {course : CourseId} {records : List Record} {b : Backend}
    {e : Enrollment} (run : Run user course records b)
    (stored : b.repository.stored user course = .ok e) : e.Consistent :=
  (accounted run).consistent e stored

namespace Sample

def path : CardPath := ⟨lesson.id.key,deck.id.key,card.id.key⟩

def records : List Record :=
  [⟨enrolled,setting,answering,(setting.serve user course enrolled answering).1⟩,
   ⟨opened,setting,enrolling,(setting.serve user course opened enrolling).1⟩]

theorem openedKeyed : opened.repository.Keyed := by
  constructor
  · exact List.nodup_singleton _
  · intro key member
    exact ⟨lesson.id,List.mem_singleton.mp member⟩

theorem ran : Run user course records answered := by
  have start : Run user course [] opened :=
    .start (by decide +kernel) (Repository.keyedApart openedKeyed course)
  exact .call (.call start setting enrolling) setting answering

theorem ranOn : Run user course records extended := by
  have enrolledKeyed := setting.keyedServe openedKeyed user course enrolling
  exact ran.edited (setting.keyedServe enrolledKeyed user course answering) rfl

theorem stored : ∃ e, extended.repository.stored user course = .ok e := by
  have found : (extended.repository.stored user course).isOk = true := by decide +kernel
  cases read : extended.repository.stored user course with
  | error e =>
    rw [read] at found
    cases found
  | ok e => exact ⟨e,rfl⟩

end Sample

theorem sampleStoredConsistent :
    ∃ e, Sample.extended.repository.stored Sample.user Sample.course = .ok e ∧ e.Consistent := by
  obtain ⟨e,stored⟩ := Sample.stored
  exact ⟨e,stored,storedConsistent Sample.ranOn stored⟩

/-- Every card of a tree that is stored along a run counts the trials on its path since it entered
the tree, and no others. -/
theorem trialsCountOnce {user : UserId} {course : CourseId} {records : List Record} {b : Backend}
    {e : Enrollment} {path : CardPath} {c : CardProgress} (run : Run user course records b)
    (stored : b.repository.stored user course = .ok e) (tracked : e.state.at? path = some c) :
    c.Counts (submissions user course path records) := by
  rw [(accounted run).replayed e stored path c tracked]
  exact CardProgress.replayCounts _

theorem sampleTrialsCountOnce :
    ∃ e c, Sample.extended.repository.stored Sample.user Sample.course = .ok e ∧
      e.state.at? Sample.path = some c ∧
      c.Counts (submissions Sample.user Sample.course Sample.path Sample.records) := by
  obtain ⟨e,stored⟩ := Sample.stored
  have found : ((Sample.extended.repository.stored Sample.user Sample.course).toOption.bind
      fun e => e.state.at? Sample.path).isSome = true := by decide +kernel
  rw [stored] at found
  obtain ⟨c,tracked⟩ := Option.isSome_iff_exists.mp found
  exact ⟨e,c,stored,tracked,trialsCountOnce Sample.ranOn stored tracked⟩

end Coursework
