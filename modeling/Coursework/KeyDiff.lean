import Coursework.KeyMap
/-!
The difference between the keys of a map and a list of live keys, and its application. A live key
counts once, at its first appearance. Applying a difference gives every missing key a new value
and drops every extra key; the values of matching keys stay.
-/
namespace Coursework

structure KeyDiff where
  missing : List String
  matching : List String
  extra : List String
  deriving DecidableEq, Repr

def KeyDiff.isUnchanged (d : KeyDiff) : Bool := d.missing.isEmpty && d.extra.isEmpty

namespace KeyMap

variable {V : Type}

def diff (m : KeyMap V) (live : List String) : KeyDiff where
  missing := live.eraseDups.filter fun key => !m.contains key
  matching := live.eraseDups.filter fun key => m.contains key
  extra := m.keys.filter fun key => !live.contains key

def track (make : Nat → V) : (n : Nat) → List String → KeyMap V → KeyMap V
  | _, [], m => m
  | n, key :: keys, m => track make (n + 1) keys (m.insert key (make n))

def prune (m : KeyMap V) (keys : List String) : KeyMap V := keys.foldl erase m

def applyDiff (m : KeyMap V) (d : KeyDiff) (make : Nat → V) : KeyMap V :=
  (track make 0 d.missing m).prune d.extra

theorem getPruned (m : KeyMap V) (keys : List String) (k : String) :
    (m.prune keys).get? k = if k ∈ keys then none else m.get? k := by
  induction keys generalizing m with
  | nil => rfl
  | cons key keys ih =>
    rw [prune,List.foldl_cons,← prune,ih,getErase]
    by_cases here : key = k
    · subst here; simp
    · have apart : k ≠ key := fun same => here same.symm
      by_cases later : k ∈ keys <;> simp [here,apart,later]

theorem getTrackOther (make : Nat → V) (n : Nat) (keys : List String) (m : KeyMap V)
    {k : String} (h : k ∉ keys) : (track make n keys m).get? k = m.get? k := by
  induction keys generalizing n m with
  | nil => rfl
  | cons key keys ih =>
    simp only [List.mem_cons,not_or] at h
    rw [track,ih _ _ h.2,getInsert,if_neg fun same => h.1 same.symm]

end KeyMap

end Coursework
