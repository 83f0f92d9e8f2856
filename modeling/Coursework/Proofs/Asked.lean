import Coursework.Proofs.Reading

/-! What a script asks for. Against fixed answers it asks for a list of operations; a run that keeps
its calls keeps that list, followed by the one write of a service that plans first. -/
namespace Coursework.Script

variable {ε ε' ε'' α β σ : Type} {answers : Answers}

def asked (answers : Answers) : Script ε α → List Operation
  | .done _ => []
  | .fail _ => []
  | .ask op resume => op :: (resume (answers op)).asked answers

theorem AsksOnly.each {p : Operation → Bool} {script : Script ε α} (asks : script.AsksOnly p) :
    ∀ op ∈ script.asked answers, p op = true := by
  induction script with
  | done a => simp [asked]
  | fail e => simp [asked]
  | ask op resume ih =>
    intro other member
    rcases List.mem_cons.mp member with rfl | later
    · exact asks.1
    · exact ih (answers op) (asks.2 _) other later

theorem AsksOnly.alike {p : Operation → Bool} {other : Answers} {script : Script ε α}
    (asks : script.AsksOnly p)
    (same : ∀ op, p op = true → other op = answers op) :
    script.eval other = script.eval answers ∧ script.asked other = script.asked answers := by
  induction script with
  | done a => exact ⟨rfl,rfl⟩
  | fail e => exact ⟨rfl,rfl⟩
  | ask op resume ih =>
    obtain ⟨evals,calls⟩ := ih (answers op) (asks.2 _)
    simp only [eval,asked,same op asks.1]
    exact ⟨evals,congrArg _ calls⟩

theorem mapErrorBind (g : ε → ε') (script : Script ε α) (f : α → Script ε β) :
    (script >>= f).mapError g = script.mapError g >>= fun a => (f a).mapError g := by
  induction script with
  | done a => rfl
  | fail e => rfl
  | ask op resume ih => exact congrArg (Script.ask op) (funext ih)

theorem mapErrorTwice (f : ε → ε') (g : ε' → ε'') (script : Script ε α) :
    (script.mapError f).mapError g = script.mapError fun e => g (f e) := by
  induction script with
  | done a => rfl
  | fail e => rfl
  | ask op resume ih => exact congrArg (Script.ask op) (funext ih)

theorem bindCongr {script : Script ε α} {f g : α → Script ε β} (same : ∀ a, f a = g a) :
    script >>= f = script >>= g :=
  congrArg _ (funext same)

theorem evalBind (script : Script ε α) (f : α → Script ε β) :
    (script >>= f).eval answers = script.eval answers >>= fun a => (f a).eval answers := by
  induction script with
  | done a => rfl
  | fail e => rfl
  | ask op resume ih => exact ih _

theorem evalMapError (f : ε → ε') (script : Script ε α) :
    (script.mapError f).eval answers = (script.eval answers).mapError f := by
  induction script with
  | done a => rfl
  | fail e => rfl
  | ask op resume ih => exact ih _

theorem askedBind (script : Script ε α) (f : α → Script ε β) :
    (script >>= f).asked answers = script.asked answers ++
      match script.eval answers with
      | .ok a => (f a).asked answers
      | .error _ => [] := by
  induction script with
  | done a => rfl
  | fail e => rfl
  | ask op resume ih => exact congrArg (op :: ·) (ih _)

theorem askedMapError (f : ε → ε') (script : Script ε α) :
    (script.mapError f).asked answers = script.asked answers := by
  induction script with
  | done a => rfl
  | fail e => rfl
  | ask op resume ih => exact congrArg (op :: ·) (ih _)

section Calls

variable {rename : StorageError → ε} {op : Operation} {reply : op.Reply} {e : StorageError}

theorem callThen (rename : StorageError → ε) (op : Operation) (f : op.Reply → Script ε β) :
    (call rename op >>= f) = .ask op fun
      | .ok reply => f reply
      | .error e => .fail (rename e) := by
  refine congrArg (Script.ask op) (funext fun outcome => ?_)
  cases outcome <;> rfl

theorem called (found : answers op = .ok reply) (f : op.Reply → Script ε β) :
    (call rename op >>= f).eval answers = (f reply).eval answers ∧
      (call rename op >>= f).asked answers = op :: (f reply).asked answers := by
  rw [callThen,eval,asked,found]
  exact ⟨rfl,rfl⟩

theorem refused (failed : answers op = .error e) (f : op.Reply → Script ε β) :
    (call rename op >>= f).eval answers = .error (rename e) ∧
      (call rename op >>= f).asked answers = [op] := by
  rw [callThen,eval,asked,failed]
  exact ⟨rfl,rfl⟩

end Calls

theorem askedThenDone (script : Script ε α) (f : α → β) :
    (script >>= fun a => (done (f a) : Script ε β)).asked answers = script.asked answers := by
  rw [askedBind]
  split <;> exact List.append_nil _

theorem recordedReading {handle : Handler σ} (quiet : handle.Quiet) {script : Script ε α}
    (reads : script.ReadsOnly) (s : σ) (calls : List Operation) :
    script.run (recorded handle) (s,calls) =
      (script.eval (handle.answers s),s,(script.asked (handle.answers s)).reverse ++ calls) := by
  induction script generalizing calls with
  | done a => rfl
  | fail e => rfl
  | ask op resume ih =>
    have still := quiet op s reads.1
    simp only [run,recorded,eval,asked,List.reverse_cons,List.append_assoc,List.singleton_append]
    rw [still]
    exact ih _ (reads.2 _) _

theorem recordedPlanThenWrite {handle : Handler σ} (quiet : handle.Quiet) {plan : Script ε α}
    (reads : plan.ReadsOnly) (rename : StorageError → ε) (write : α → Operation) (result : α → β)
    (s : σ) :
    (plan.bind fun a => (call rename (write a)).bind fun _ => done (result a)).runRecorded handle s =
      match plan.eval (handle.answers s) with
      | .ok a => (((handle (write a) s).1.map fun _ => result a).mapError rename,
          (handle (write a) s).2,plan.asked (handle.answers s) ++ [write a])
      | .error e => (.error e,s,plan.asked (handle.answers s)) := by
  rw [runRecorded,runBind,recordedReading quiet reads]
  cases plan.eval (handle.answers s) with
  | error e => simp
  | ok a =>
    simp only [call,Script.bind,run,recorded,List.append_nil]
    cases handle (write a) s with
    | mk outcome after =>
      have calls : (write a :: (plan.asked (handle.answers s)).reverse).reverse =
          plan.asked (handle.answers s) ++ [write a] := by simp
      cases outcome <;> exact congrArg _ (congrArg _ calls)

end Coursework.Script
