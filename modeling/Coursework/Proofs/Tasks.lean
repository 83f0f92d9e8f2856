import Coursework.Proofs.Locks
import Coursework.Proofs.PairViews

/-! Calls as scripts that can be stopped at any operation. All that a call asks for is permitted to
its pair, so what a script comes to depends on the pair's part of the store alone. -/
namespace Coursework

def Operation.Answered : (op : Operation) → op.Outcome → Prop
  | .getProgress user course,outcome => ∀ e, outcome = .ok e → e.userId = user ∧ e.courseId = course
  | _,_ => True

namespace Script

variable {ε ε' α β ρ σ : Type} {request : Request} {user : UserId} {course : CourseId}

def Within (request : Request) (user : UserId) (course : CourseId) (good : α → Prop) :
    Script ε α → Prop
  | .done a => good a
  | .fail _ => True
  | .ask op resume => request.Permits user course op ∧
      ∀ outcome, op.Answered outcome → (resume outcome).Within request user course good

theorem withinBind {good : α → Prop} {better : β → Prop} {script : Script ε α}
    {f : α → Script ε β} (first : script.Within request user course good)
    (second : ∀ a, good a → (f a).Within request user course better) :
    (script >>= f).Within request user course better := by
  induction script with
  | done a => exact second a first
  | fail e => trivial
  | ask op resume ih =>
    exact ⟨first.1,fun outcome answered => ih outcome (first.2 outcome answered)⟩

theorem withinCall {rename : StorageError → ε} {op : Operation} {good : op.Reply → Prop}
    (permitted : request.Permits user course op)
    (answers : ∀ reply, op.Answered (.ok reply) → good reply) :
    (call rename op).Within request user course good := by
  refine ⟨permitted,fun outcome answered => ?_⟩
  cases outcome with
  | ok reply => exact answers reply answered
  | error e => trivial

theorem withinMapError {good : α → Prop} {script : Script ε α} {f : ε → ε'}
    (within : script.Within request user course good) :
    (script.mapError f).Within request user course good := by
  induction script with
  | done a => exact within
  | fail e => trivial
  | ask op resume ih =>
    exact ⟨within.1,fun outcome answered => ih outcome (within.2 outcome answered)⟩

theorem withinOfExcept (result : Except ε α) :
    (ofExcept result).Within request user course fun _ => True := by
  cases result <;> trivial

theorem withinAsks {p : Operation → Bool} {script : Script ε α} (asks : script.AsksOnly p)
    (permitted : ∀ op, p op = true → request.Permits user course op) :
    script.Within request user course fun _ => True := by
  induction script with
  | done a => trivial
  | fail e => trivial
  | ask op resume ih =>
    exact ⟨permitted op asks.1,fun outcome _ => ih outcome (asks.2 outcome)⟩

def reply (f : Except ε α → ρ) : Script ε α → Script Empty ρ
  | .done a => .done (f (.ok a))
  | .fail e => .done (f (.error e))
  | .ask op resume => .ask op fun outcome => (resume outcome).reply f

def finish (handle : Handler σ) : Script Empty ρ → σ → ρ × σ
  | .done reply,s => (reply,s)
  | .fail e,_ => e.elim
  | .ask op resume,s => (resume (handle op s).1).finish handle (handle op s).2

theorem replyFinished (handle : Handler σ) (f : Except ε α → ρ) (script : Script ε α) (s : σ) :
    (script.reply f).finish handle s = (script.run handle s).map f id := by
  induction script generalizing s with
  | done a => rfl
  | fail e => rfl
  | ask op resume ih => exact ih _ _

theorem withinReply {f : Except ε α → ρ} {script : Script ε α}
    (within : script.Within request user course fun _ => True) :
    (script.reply f).Within request user course fun _ => True := by
  induction script with
  | done a => trivial
  | fail e => trivial
  | ask op resume ih =>
    exact ⟨within.1,fun outcome answered => ih outcome (within.2 outcome answered)⟩

end Script

section Services

variable {request : Request} {user : UserId} {course : CourseId} (now : Instant)

theorem lookUpPermitted (op : Operation) (looks : op.looksUpDeck = true) :
    request.Permits user course op := by
  cases op <;> first | rfl | cases looks

theorem enrollWithin (newId : Uuid) : (enroll newId now user course).Within (.enroll newId) user
    course fun _ => True := by
  refine Script.withinBind (Script.withinCall rfl fun _ _ => trivial) fun lessons _ => ?_
  cases lessons with
  | nil => trivial
  | cons first rest =>
    refine Script.withinBind (Script.withinMapError
      (Script.withinAsks (materializeLessonsAsks _ _ _) lookUpPermitted)) fun state _ => ?_
    exact Script.withinBind (Script.withinCall ⟨rfl,rfl,rfl⟩ fun _ _ => trivial) fun _ _ => trivial

theorem answerWithin (lesson : LessonId) (deck : DeckId) (answers : List CardAnswer) :
    (answer now user course lesson deck answers).Within request user course fun _ => True := by
  refine Script.withinBind (Script.withinCall ⟨rfl,rfl⟩ fun _ answered => answered _ rfl)
    fun enrollment own => ?_
  refine Script.withinBind (Script.withinMapError (Script.withinOfExcept _)) fun _ _ => ?_
  by_cases empty : answers.isEmpty = true
  · rw [if_pos empty]
    trivial
  · rw [if_neg empty]
    refine Script.withinBind (Script.withinCall rfl fun _ _ => trivial) fun cards _ => ?_
    refine Script.withinBind (Script.withinMapError (Script.withinOfExcept _)) fun _ _ => ?_
    exact Script.withinBind (Script.withinCall own fun _ _ => trivial) fun _ _ => trivial

theorem syncWithLessonsWithin :
    (syncWithLessons now user course).Within request user course fun _ => True := by
  refine Script.withinBind (Script.withinCall ⟨rfl,rfl⟩ fun _ answered => answered _ rfl)
    fun enrollment own => ?_
  refine Script.withinBind (Script.withinCall rfl fun _ _ => trivial) fun lessons _ => ?_
  refine Script.withinBind (Script.withinAsks (reconcileLessonsAsks _ _ _) lookUpPermitted)
    fun state _ => ?_
  exact Script.withinBind (Script.withinCall own fun _ _ => trivial) fun _ _ => trivial

end Services

structure Task where
  user : UserId
  course : CourseId
  request : Request

namespace Task

def pair (t : Task) : UserId × CourseId := (t.user,t.course)

def script (now : Instant) : Task → Script Empty Reply
  | ⟨user,course,.enroll newId⟩ => (enroll newId now user course).reply .enrolled
  | ⟨user,course,.answer lesson deck answers⟩ =>
    (answer now user course lesson deck answers).reply .answered
  | ⟨user,course,.sync⟩ => (sync now user course).reply .synced
  | ⟨user,course,.browse bodyless⟩ =>
    (browse now course { user := some user, bodyless }).reply .browsed

def serve (setting : Setting) (t : Task) (b : Backend) : Reply × Backend :=
  setting.serve t.user t.course b t.request

theorem scriptServes (setting : Setting) (t : Task) (b : Backend) :
    (t.script setting.now).finish setting.handler b = t.serve setting b := by
  obtain ⟨user,course,request⟩ := t
  cases request <;> exact Script.replyFinished _ _ _ _

abbrev Within (t : Task) (script : Script Empty Reply) : Prop :=
  script.Within t.request t.user t.course fun _ => True

theorem scriptWithin (now : Instant) (t : Task) : t.Within (t.script now) := by
  obtain ⟨user,course,request⟩ := t
  cases request with
  | enroll newId => exact Script.withinReply (enrollWithin now newId)
  | answer lesson deck answers => exact Script.withinReply (answerWithin now lesson deck answers)
  | sync =>
    exact Script.withinReply (Script.withinBind (syncWithLessonsWithin now) fun _ _ => trivial)
  | browse bodyless =>
    exact Script.withinReply (Script.withinBind
      (Script.withinMapError (syncWithLessonsWithin now)) fun _ _ => trivial)

end Task

section Finished

variable {setting : Setting} {request : Request} {user otherUser : UserId}
  {course otherCourse : CourseId} {script : Script Empty Reply} {b c : Backend}

theorem Setting.answered (setting : Setting) (op : Operation) (b : Backend) :
    op.Answered (setting.handler op b).1 := by
  cases op with
  | getProgress user course => exact fun e ok => Repository.storedBelongs (loads ok)
  | _ => trivial

theorem finishKeeps (keeps : Backend → Prop)
    (step : ∀ op b, request.Permits user course op → keeps b → keeps (setting.handler op b).2)
    (within : script.Within request user course fun _ => True) (before : keeps b) :
    keeps (script.finish setting.handler b).2 := by
  induction script generalizing b with
  | done reply => exact before
  | fail e => exact e.elim
  | ask op resume ih =>
    exact ih _ (within.2 _ (setting.answered op b)) (step op b within.1 before)

theorem finishElsewhere (within : script.Within request otherUser otherCourse fun _ => True)
    (other : (otherUser,otherCourse) ≠ (user,course)) (b : Backend) :
    (script.finish setting.handler b).2.only user course = b.only user course :=
  finishKeeps (fun a => a.only user course = b.only user course)
    (fun _ _ permitted same => (Setting.handledElsewhere permitted other _).trans same) within rfl

theorem finishReserves {id : Uuid}
    (within : script.Within request otherUser otherCourse fun _ => True)
    (own : request = .enroll id → otherUser = user ∧ otherCourse = course)
    (reserved : b.repository.Reserved id user course) :
    (script.finish setting.handler b).2.repository.Reserved id user course :=
  finishKeeps (fun a => a.repository.Reserved id user course)
    (fun _ _ permitted kept => Setting.handledReserves permitted own kept) within reserved

theorem finishAlike (setting : Setting) (within : script.Within request user course fun _ => True)
    (reserved : request.Reserved user course b.repository)
    (reservedToo : request.Reserved user course c.repository)
    (alike : b.only user course = c.only user course) :
    (script.finish setting.handler b).1 = (script.finish setting.handler c).1 ∧
      (script.finish setting.handler b).2.only user course =
        (script.finish setting.handler c).2.only user course := by
  induction script generalizing b c with
  | done reply => exact ⟨rfl,alike⟩
  | fail e => exact e.elim
  | ask op resume ih =>
    obtain ⟨outcome,after⟩ := setting.handledAlike within.1 reserved reservedToo alike
    have keeps : ∀ b : Backend, request.Reserved user course b.repository →
        request.Reserved user course (setting.handler op b).2.repository :=
      fun b held id own => Setting.handledReserves within.1 (fun _ => ⟨rfl,rfl⟩) (held id own)
    simp only [Script.finish]
    rw [← outcome]
    exact ih _ (within.2 _ (setting.answered op b)) (keeps b reserved) (keeps c reservedToo) after

end Finished

end Coursework
