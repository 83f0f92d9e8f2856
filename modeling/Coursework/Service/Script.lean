import Coursework.Storage.Operation
/-!
Scripts: what a service does, told as the operations it asks for and how it goes on with their
outcomes. A handler runs a script over its state. Because a script holds no state of its own, the
same service runs over any store, with any failures put in between, and alone or in turn with
others.
-/
namespace Coursework

inductive Script (ε α : Type) where
  | done (a : α)
  | fail (e : ε)
  | ask (op : Operation) (resume : op.Outcome → Script ε α)

namespace Script

variable {ε ε' α β σ : Type}

def bind : Script ε α → (α → Script ε β) → Script ε β
  | .done a, f => f a
  | .fail e, _ => .fail e
  | .ask op resume, f => .ask op fun outcome => (resume outcome).bind f

instance : Monad (Script ε) where
  pure := .done
  bind := Script.bind

def mapError (f : ε → ε') : Script ε α → Script ε' α
  | .done a => .done a
  | .fail e => .fail (f e)
  | .ask op resume => .ask op fun outcome => (resume outcome).mapError f

def ofExcept : Except ε α → Script ε α
  | .ok a => .done a
  | .error e => .fail e

def call (rename : StorageError → ε) (op : Operation) : Script ε op.Reply :=
  .ask op fun
    | .ok reply => .done reply
    | .error e => .fail (rename e)

def run (handle : Handler σ) : Script ε α → σ → Except ε α × σ
  | .done a, s => (.ok a,s)
  | .fail e, s => (.error e,s)
  | .ask op resume, s =>
    let (outcome,s) := handle op s
    (resume outcome).run handle s

def recorded (handle : Handler σ) : Handler (σ × List Operation) :=
  fun op (s,calls) =>
    let (outcome,s) := handle op s
    (outcome,s,op :: calls)

def runRecorded (handle : Handler σ) (script : Script ε α) (s : σ) :
    Except ε α × σ × List Operation :=
  let (result,s,calls) := script.run (recorded handle) (s,[])
  (result,s,calls.reverse)

theorem bindAssoc {γ : Type} (script : Script ε α) (f : α → Script ε β) (g : β → Script ε γ) :
    (script.bind f).bind g = script.bind fun a => (f a).bind g := by
  induction script with
  | done a => rfl
  | fail e => rfl
  | ask op resume ih => simp only [bind]; exact congrArg _ (funext ih)

theorem runBind (handle : Handler σ) (script : Script ε α) (f : α → Script ε β) (s : σ) :
    (script.bind f).run handle s =
      match script.run handle s with
      | (.ok a,s) => (f a).run handle s
      | (.error e,s) => (.error e,s) := by
  induction script generalizing s with
  | done a => rfl
  | fail e => rfl
  | ask op resume ih => exact ih _ _

end Script

end Coursework
