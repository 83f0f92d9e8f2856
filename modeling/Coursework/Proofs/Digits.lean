import Coursework.Text.Blank
import Coursework.Text.Decimal

/-! Digit runs as they are written: what they are made of, and that a reader takes all of a run and
nothing behind it. -/
namespace Coursework.Text

theorem digitCharIsDigit {n : Nat} (small : n < 10) : isDigit (digitChar n) = true := by
  rw [isDigit,digitOfChar small]
  rfl

theorem digitsWithinAreDigits {limit n : Nat} {c : Char} (member : c ∈ digitsWithin limit n) :
    isDigit c = true := by
  induction limit generalizing n with
  | zero => cases member
  | succ limit ih =>
    unfold digitsWithin at member
    split at member
    · rename_i small
      cases List.mem_singleton.mp member
      exact digitCharIsDigit small
    · rcases List.mem_append.mp member with front | last
      · exact ih front
      · cases List.mem_singleton.mp last
        exact digitCharIsDigit (Nat.mod_lt _ (by decide))

theorem decimalAreDigits {n : Nat} {c : Char} (member : c ∈ decimal n) : isDigit c = true :=
  digitsWithinAreDigits member

theorem digitsWithinNonempty (limit n : Nat) : digitsWithin (limit + 1) n ≠ [] := by
  unfold digitsWithin
  split <;> simp

theorem decimalNonempty (n : Nat) : decimal n ≠ [] := digitsWithinNonempty n n

theorem digitsWithinHead {limit n : Nat} (positive : 0 < n) (enough : n < limit) :
    (digitsWithin limit n).head? ≠ some '0' := by
  induction limit generalizing n with
  | zero => omega
  | succ limit ih =>
    unfold digitsWithin
    split
    · rename_i small
      have table : ∀ d, d < 10 → 0 < d → (some (digitChar d) : Option Char) ≠ some '0' := by decide
      exact table n small positive
    · rename_i large
      have front := ih (n := n / 10) (by omega) (by omega)
      have nonempty : digitsWithin limit (n / 10) ≠ [] := by
        cases limit with
        | zero => omega
        | succ limit => exact digitsWithinNonempty _ _
      cases front_eq : digitsWithin limit (n / 10) with
      | nil => exact absurd front_eq nonempty
      | cons d ds =>
        rw [front_eq] at front
        exact front

theorem leadingDigitsOf {digits rest : List Char} {limit : Nat}
    (all : ∀ c ∈ digits, isDigit c = true) (stops : ∀ c ∈ rest.head?, isDigit c = false)
    (enough : digits.length ≤ limit) : leadingDigits limit (digits ++ rest) = (digits,rest) := by
  induction digits generalizing limit with
  | nil =>
    cases limit with
    | zero => rfl
    | succ limit =>
      cases rest with
      | nil => rfl
      | cons c rest => simp [leadingDigits,stops c rfl]
  | cons d digits ih =>
    cases limit with
    | zero => cases enough
    | succ limit =>
      have later := ih (fun c member => all c (List.mem_cons_of_mem _ member))
        (Nat.le_of_succ_le_succ enough)
      simp [leadingDigits,all d List.mem_cons_self,later]

theorem fixedAreDigits {width n : Nat} {c : Char} (member : c ∈ fixed width n) :
    isDigit c = true := by
  induction width generalizing n with
  | zero => cases member
  | succ width ih =>
    rcases List.mem_append.mp member with front | last
    · exact ih front
    · cases List.mem_singleton.mp last
      exact digitCharIsDigit (Nat.mod_lt _ (by decide))

theorem numberOf {digits rest : List Char} {least most : Nat}
    (all : ∀ c ∈ digits, isDigit c = true) (stops : ∀ c ∈ rest.head?, isDigit c = false)
    (enough : least ≤ digits.length) (fits : digits.length ≤ most) :
    number? least most (digits ++ rest) = some (digitsValue digits,rest) := by
  simp only [number?,leadingDigitsOf all stops fits]
  exact if_pos enough

theorem fixedRead {width least most n : Nat} {rest : List Char} (small : n < powerOfTen width)
    (stops : ∀ c ∈ rest.head?, isDigit c = false) (enough : least ≤ width) (fits : width ≤ most) :
    number? least most (fixed width n ++ rest) = some (n,rest) := by
  rw [numberOf (fun _ => fixedAreDigits) stops (by simpa using enough) (by simpa using fits),
    valueOfFixed,Nat.mod_eq_of_lt small]

theorem digitIsNotBlank {c : Char} (digit : isDigit c = true) : isBlank c = false := by
  simp only [isDigit,digit?] at digit
  split at digit
  · rename_i range
    simp only [isBlank,Bool.or_eq_false_iff,Bool.and_eq_false_iff,decide_eq_false_iff_not,
      beq_eq_false_iff_ne]
    omega
  · cases digit

theorem valuePadded (zeros : Nat) (digits : List Char) :
    digitsValue (List.replicate zeros '0' ++ digits) = digitsValue digits := by
  induction zeros with
  | zero => rfl
  | succ zeros ih =>
    have zero : 10 * 0 + (digit? '0').getD 0 = 0 := by decide
    simp only [digitsValue,List.replicate_succ,List.cons_append,List.foldl_cons,zero]
    exact ih

end Coursework.Text
