/-!
Decimal digits: numbers written without leading zeros or with a fixed width, and digit runs
read back from the front of a text. `valueOfFixed` ties the two together.
-/
namespace Coursework.Text

def digit? (c : Char) : Option Nat :=
  if 48 ≤ c.toNat ∧ c.toNat ≤ 57 then some (c.toNat - 48) else none

def isDigit (c : Char) : Bool := (digit? c).isSome

def digitChar : Nat → Char
  | 0 => '0' | 1 => '1' | 2 => '2' | 3 => '3' | 4 => '4'
  | 5 => '5' | 6 => '6' | 7 => '7' | 8 => '8' | _ => '9'

theorem digitOfChar {n : Nat} (h : n < 10) : digit? (digitChar n) = some n := by
  match n, h with
  | 0, _ | 1, _ | 2, _ | 3, _ | 4, _ | 5, _ | 6, _ | 7, _ | 8, _ | 9, _ => decide

def powerOfTen : Nat → Nat
  | 0 => 1
  | n + 1 => 10 * powerOfTen n

def fixed : (width : Nat) → Nat → List Char
  | 0, _ => []
  | width + 1, n => fixed width (n / 10) ++ [digitChar (n % 10)]

@[simp] theorem fixedLength (width n : Nat) : (fixed width n).length = width := by
  induction width generalizing n with
  | zero => rfl
  | succ width ih => simp [fixed,ih]

def digitsWithin : (limit : Nat) → Nat → List Char
  | 0, _ => []
  | limit + 1, n =>
    if n < 10 then [digitChar n] else digitsWithin limit (n / 10) ++ [digitChar (n % 10)]

def decimal (n : Nat) : List Char := digitsWithin (n + 1) n

def digitsValue (cs : List Char) : Nat :=
  cs.foldl (fun value c => 10 * value + (digit? c).getD 0) 0

@[simp] theorem valueOfAppended (cs : List Char) (c : Char) :
    digitsValue (cs ++ [c]) = 10 * digitsValue cs + (digit? c).getD 0 := by
  simp [digitsValue]

theorem valueOfFixed (width n : Nat) : digitsValue (fixed width n) = n % powerOfTen width := by
  induction width generalizing n with
  | zero => simp [fixed,digitsValue,powerOfTen,Nat.mod_one]
  | succ width ih =>
    rw [fixed,valueOfAppended,ih,digitOfChar (Nat.mod_lt _ (by decide)),
      Option.getD_some,powerOfTen,Nat.mod_mul,Nat.add_comm]

theorem valueWithin (limit n : Nat) (h : n < limit) :
    digitsValue (digitsWithin limit n) = n := by
  induction limit generalizing n with
  | zero => omega
  | succ limit ih =>
    unfold digitsWithin
    split
    · next small => simp [digitsValue,digitOfChar small]
    · next large =>
      rw [valueOfAppended,ih _ (by omega),
        digitOfChar (Nat.mod_lt _ (by decide)),Option.getD_some]
      omega

theorem valueOfDecimal (n : Nat) : digitsValue (decimal n) = n :=
  valueWithin (n + 1) n (by omega)

def leadingDigits : (limit : Nat) → List Char → List Char × List Char
  | 0, cs => ([],cs)
  | _, [] => ([],[])
  | limit + 1, c :: cs =>
    if isDigit c then
      let (digits,rest) := leadingDigits limit cs
      (c :: digits,rest)
    else ([],c :: cs)

def number? (least most : Nat) (cs : List Char) : Option (Nat × List Char) :=
  let (digits,rest) := leadingDigits most cs
  if least ≤ digits.length then some (digitsValue digits,rest) else none

def signed : Int → List Char
  | .ofNat n => decimal n
  | .negSucc n => '-' :: decimal (n + 1)

end Coursework.Text
