import Coursework.Instant
/-!
Progress on one card: how often it was answered correctly and incorrectly, and when it was
completed. A card is completed by its first correct answer and stays so.
-/
namespace Coursework

def largestCount : Nat := 4294967295

structure Counter where
  value : Nat
  valueSmall : value ≤ largestCount
  deriving DecidableEq, Repr

namespace Counter

def zero : Counter := ⟨0,by decide⟩

instance : Inhabited Counter := ⟨zero⟩

def succ (c : Counter) : Counter :=
  if h : c.value + 1 ≤ largestCount then ⟨c.value + 1,h⟩ else c

def ofNat? (n : Nat) : Option Counter :=
  if h : n ≤ largestCount then some ⟨n,h⟩ else none

theorem ext {a b : Counter} (h : a.value = b.value) : a = b := by
  cases a; cases b; cases h; rfl

theorem succValue (c : Counter) : c.succ.value = min largestCount (c.value + 1) := by
  unfold succ
  have bound := c.valueSmall
  split
  · next fits => simp only; omega
  · next full => omega

theorem ofOwnValue (c : Counter) : ofNat? c.value = some c := dif_pos c.valueSmall

end Counter

structure CardProgress where
  correctAnswers : Counter := .zero
  incorrectAnswers : Counter := .zero
  isCompleted : Bool := false
  completedAt : Option Instant := none
  deriving DecidableEq, Repr, Inhabited

namespace CardProgress

/-- The card after an answer given at an instant. Only the first correct answer completes it;
the counters go on. -/
def recordAnswer (c : CardProgress) (correct : Bool) (now : Instant) : CardProgress :=
  if correct then
    let counted := { c with correctAnswers := c.correctAnswers.succ }
    if c.isCompleted then counted
    else { counted with isCompleted := true, completedAt := some now }
  else { c with incorrectAnswers := c.incorrectAnswers.succ }

def isCompletedBy (c : CardProgress) (correct : Bool) : Bool := correct && !c.isCompleted

theorem recordedCompletion (c : CardProgress) (correct : Bool) (now : Instant) :
    (c.recordAnswer correct now).isCompleted = (c.isCompleted || correct) := by
  cases correct <;> cases h : c.isCompleted <;> simp [recordAnswer,h]

end CardProgress

end Coursework
