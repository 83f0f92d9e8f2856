import Coursework.Calendar
/-!
Instants of coordinated universal time at nanosecond precision. A leap second is the last second
of a minute with a thousand million or more nanoseconds. Instants are ordered by second and then
by nanosecond.
-/
namespace Coursework

def nanosPerSecond : Nat := 1000000000

structure Instant where
  seconds : Int
  /-- Nanoseconds within the second; a leap second has a second thousand million of them. -/
  nanos : Nat
  nanosBelow : nanos < 2 * nanosPerSecond
  leapEndsMinute : nanosPerSecond ≤ nanos → seconds % 60 = 59
  deriving DecidableEq, Repr

namespace Instant

theorem ext {a b : Instant} (hs : a.seconds = b.seconds) (hn : a.nanos = b.nanos) : a = b := by
  cases a; cases b; cases hs; cases hn; rfl

instance : LT Instant :=
  ⟨fun a b => a.seconds < b.seconds ∨ a.seconds = b.seconds ∧ a.nanos < b.nanos⟩

instance (a b : Instant) : Decidable (a < b) :=
  inferInstanceAs (Decidable (a.seconds < b.seconds ∨ a.seconds = b.seconds ∧ a.nanos < b.nanos))

def of? (seconds : Int) (nanos : Nat) : Option Instant :=
  if h : nanos < 2 * nanosPerSecond ∧ (nanosPerSecond ≤ nanos → seconds % 60 = 59) then
    some ⟨seconds,nanos,h.1,h.2⟩
  else none

def ofNanos (total : Int) : Instant where
  seconds := total / nanosPerSecond
  nanos := (total % nanosPerSecond).toNat
  nanosBelow := by simp only [nanosPerSecond]; omega
  leapEndsMinute := by simp only [nanosPerSecond]; omega

def isLeap (t : Instant) : Bool := nanosPerSecond ≤ t.nanos

/-- Moves an instant by milliseconds. A move that stays within a leap second, or goes back less
than a second from it, keeps counting there; a move out of it takes the leap second as the second
that follows when going back and as the one before when going forward. -/
def advance (t : Instant) (milliseconds : Int) : Instant :=
  let whole := milliseconds.tdiv 1000
  let part := milliseconds.tmod 1000 * 1000000
  if stays : t.isLeap = true ∧ whole = 0 ∧ t.nanos + part < 2 * nanosPerSecond ∧ 0 ≤ t.nanos + part
  then
    ⟨t.seconds,(t.nanos + part).toNat,by omega,fun _ => t.leapEndsMinute (by
      simpa [isLeap] using stays.1)⟩
  else
    let start : Int :=
      if t.isLeap then
        if whole < 0 then (t.seconds + 1) * nanosPerSecond + (t.nanos - nanosPerSecond)
        else t.seconds * nanosPerSecond + (t.nanos - nanosPerSecond)
      else t.seconds * nanosPerSecond + t.nanos
    ofNanos (start + whole * nanosPerSecond + part)

end Instant

inductive Clock where
  | system
  | fixed (instant : Instant)
  deriving DecidableEq, Repr

namespace Clock

def now (machine : Instant) : Clock → Instant
  | .system => machine
  | .fixed t => t

def advance (milliseconds : Int) : Clock → Clock
  | .system => .system
  | .fixed t => .fixed (t.advance milliseconds)

end Clock

end Coursework
