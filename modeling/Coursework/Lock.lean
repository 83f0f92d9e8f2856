/-!
Locks on keys, given out in the order in which they are asked for. A table keeps a slot for every
key that was asked for. Whoever holds a lock or waits for one refers to the slot and not to the
key, and two slots know nothing of each other, even if they were made for one key. A slot that
only the table refers to is idle; idle slots go when the next lock is asked for. After each step
every waiter is tried, the oldest first. A name may wait for several slots, but holds only the
last one that it got.
-/
namespace Coursework

/-- A slot that was made for a key; the number tells it from all others that were ever made. -/
structure Slot (Key : Type) where
  key : Key
  number : Nat
  deriving DecidableEq, Repr

structure LockTable (Name Key : Type) where
  slots : List (Slot Key) := []
  made : Nat := 0
  held : List (Name × Slot Key) := []
  waiting : List (Name × Slot Key) := []
  deriving DecidableEq, Repr, Inhabited

namespace LockTable

variable {Name Key : Type} [DecidableEq Name] [DecidableEq Key]

def references (t : LockTable Name Key) (slot : Slot Key) : Nat :=
  t.slots.count slot + (t.held ++ t.waiting).countP (·.2 == slot)

def isShared (t : LockTable Name Key) (slot : Slot Key) : Bool := 1 < t.references slot

def active (t : LockTable Name Key) : Nat := t.slots.countP t.isShared

def grant (held : List (Name × Slot Key)) (w : Name × Slot Key) : List (Name × Slot Key) :=
  held.filter (·.1 != w.1) ++ [w]

/-- Tries the waiters from first to last: who waits for a free slot gets it, unless one of those
who were tried before waits for it too. -/
def settle (held passed : List (Name × Slot Key)) :
    List (Name × Slot Key) → List (Name × Slot Key) × List (Name × Slot Key)
  | [] => (held,passed)
  | w :: waiting =>
    if held.any (·.2 == w.2) || passed.any (·.2 == w.2) then settle held (passed ++ [w]) waiting
    else settle (grant held w) passed waiting

def poll (t : LockTable Name Key) : LockTable Name Key :=
  let (held,waiting) := settle t.held [] t.waiting
  { t with held, waiting }

def prune (t : LockTable Name Key) : LockTable Name Key :=
  { t with slots := t.slots.filter t.isShared }

def slotFor (t : LockTable Name Key) (key : Key) : Slot Key × LockTable Name Key :=
  match t.slots.find? (·.key == key) with
  | some slot => (slot,t)
  | none =>
    let slot := ⟨key,t.made⟩
    (slot,{ t with slots := t.slots ++ [slot], made := t.made + 1 })

def lock (t : LockTable Name Key) (name : Name) (key : Key) : LockTable Name Key :=
  let (slot,t) := t.prune.slotFor key
  poll { t with waiting := t.waiting ++ [(name,slot)] }

def drop (t : LockTable Name Key) (name : Name) : LockTable Name Key :=
  poll { t with held := t.held.filter (·.1 != name), waiting := t.waiting.filter (·.1 != name) }

end LockTable

end Coursework
