import Coursework.Service.Script
import Coursework.Storage.ReadOnly

/-! Scripts that only read. Over a handler whose reads have no effect such a script is a function
of the answers it gets, so what a service finds out can be told apart from what it writes. -/
namespace Coursework

theorem exceptBindOk {ε α β : Type} {x : Except ε α} {f : α → Except ε β} {b : β} :
    (x >>= f) = .ok b ↔ ∃ a, x = .ok a ∧ f a = .ok b := by
  cases x with
  | error e => simp [bind,Except.bind]
  | ok a => simp [bind,Except.bind]

abbrev Answers : Type := (op : Operation) → op.Outcome

def Handler.answers {σ : Type} (handle : Handler σ) (s : σ) : Answers := fun op => (handle op s).1

def Handler.Quiet {σ : Type} (handle : Handler σ) : Prop :=
  ∀ op s, op.isWrite = false → (handle op s).2 = s

namespace Script

variable {ε ε' α β σ : Type} {answers : Answers}

def eval (answers : Answers) : Script ε α → Except ε α
  | .done a => .ok a
  | .fail e => .error e
  | .ask op resume => (resume (answers op)).eval answers

def ReadsOnly : Script ε α → Prop
  | .done _ => True
  | .fail _ => True
  | .ask op resume => op.isWrite = false ∧ ∀ outcome, (resume outcome).ReadsOnly

def AsksOnly (p : Operation → Bool) : Script ε α → Prop
  | .done _ => True
  | .fail _ => True
  | .ask op resume => p op = true ∧ ∀ outcome, (resume outcome).AsksOnly p

section Asking

variable {p : Operation → Bool}

theorem asksBind {script : Script ε α} {f : α → Script ε β} (first : script.AsksOnly p)
    (second : ∀ a, (f a).AsksOnly p) : (script >>= f).AsksOnly p := by
  induction script with
  | done a => exact second a
  | fail e => trivial
  | ask op resume ih => exact ⟨first.1,fun outcome => ih outcome (first.2 outcome)⟩

theorem asksMapError {script : Script ε α} {f : ε → ε'} (asks : script.AsksOnly p) :
    (script.mapError f).AsksOnly p := by
  induction script with
  | done a => trivial
  | fail e => trivial
  | ask op resume ih => exact ⟨asks.1,fun outcome => ih outcome (asks.2 outcome)⟩

theorem asksCall {rename : StorageError → ε} {op : Operation} (asks : p op = true) :
    (call rename op).AsksOnly p :=
  ⟨asks,fun outcome => by cases outcome <;> trivial⟩

theorem asksOfExcept (result : Except ε α) : (ofExcept result).AsksOnly p := by
  cases result <;> trivial

theorem AsksOnly.reads {script : Script ε α} (asks : script.AsksOnly p)
    (only : ∀ op, p op = true → op.isWrite = false) : script.ReadsOnly := by
  induction script with
  | done a => trivial
  | fail e => trivial
  | ask op resume ih => exact ⟨only op asks.1,fun outcome => ih outcome (asks.2 outcome)⟩

end Asking

theorem ReadsOnly.asks {script : Script ε α} (reads : script.ReadsOnly) :
    script.AsksOnly fun op => !op.isWrite := by
  induction script with
  | done a => trivial
  | fail e => trivial
  | ask op resume ih =>
    exact ⟨(Bool.not_eq_true' _).mpr reads.1,fun outcome => ih outcome (reads.2 outcome)⟩

theorem readsOf {script : Script ε α} (asks : script.AsksOnly fun op => !op.isWrite) :
    script.ReadsOnly :=
  asks.reads fun _ read => (Bool.not_eq_true' _).mp read

theorem readsBind {script : Script ε α} {f : α → Script ε β} (first : script.ReadsOnly)
    (second : ∀ a, (f a).ReadsOnly) : (script >>= f).ReadsOnly :=
  readsOf (asksBind first.asks fun a => (second a).asks)

theorem readsMapError {script : Script ε α} {f : ε → ε'} (reads : script.ReadsOnly) :
    (script.mapError f).ReadsOnly :=
  readsOf (asksMapError reads.asks)

theorem readsCall {rename : StorageError → ε} {op : Operation} (read : op.isWrite = false) :
    (call rename op).ReadsOnly :=
  readsOf (asksCall ((Bool.not_eq_true' _).mpr read))

theorem readsOfExcept (result : Except ε α) : (ofExcept result).ReadsOnly :=
  readsOf (asksOfExcept result)

theorem runReading {handle : Handler σ} (quiet : handle.Quiet) {script : Script ε α}
    (reads : script.ReadsOnly) (s : σ) :
    script.run handle s = (script.eval (handle.answers s),s) := by
  induction script with
  | done a => rfl
  | fail e => rfl
  | ask op resume ih =>
    have still := quiet op s reads.1
    simp only [run,eval]
    rw [still]
    exact ih _ (reads.2 _)

theorem runAfterReading {handle : Handler σ} (quiet : handle.Quiet) {script : Script ε α}
    (reads : script.ReadsOnly) (f : α → Script ε β) (s : σ) :
    (script.bind f).run handle s =
      match script.eval (handle.answers s) with
      | .ok a => (f a).run handle s
      | .error e => (.error e,s) := by
  rw [runBind,runReading quiet reads]
  cases script.eval (handle.answers s) <;> rfl

theorem evalBindOk {script : Script ε α} {f : α → Script ε β} {b : β} :
    (script >>= f).eval answers = .ok b ↔
      ∃ a, script.eval answers = .ok a ∧ (f a).eval answers = .ok b := by
  induction script with
  | done a =>
    constructor
    · intro ok
      exact ⟨a,rfl,ok⟩
    · rintro ⟨_,same,ok⟩
      cases same
      exact ok
  | fail e =>
    constructor
    · intro ok
      cases ok
    · rintro ⟨_,failed,_⟩
      cases failed
  | ask op resume ih => exact ih _

theorem evalMapErrorOk {script : Script ε α} {f : ε → ε'} {a : α} :
    (script.mapError f).eval answers = .ok a ↔ script.eval answers = .ok a := by
  induction script with
  | done b => simp [mapError,eval]
  | fail e => simp [mapError,eval]
  | ask op resume ih => exact ih _

theorem evalCallOk {rename : StorageError → ε} {op : Operation} {reply : op.Reply} :
    (call rename op).eval answers = .ok reply ↔ answers op = .ok reply := by
  simp only [call,eval]
  cases answers op <;> simp [eval]

theorem evalOfExceptOk {result : Except ε α} {a : α} :
    (ofExcept result).eval answers = .ok a ↔ result = .ok a := by
  cases result <;> simp [ofExcept,eval]

theorem evalDoneOk {a b : α} : (done a : Script ε α).eval answers = .ok b ↔ a = b := by
  simp [eval]

end Script

end Coursework
