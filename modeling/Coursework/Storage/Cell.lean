import Coursework.Storage.Magnitude
/-!
Cells of integer columns. Such a column takes any text: one that spells a number is stored as that
number, as an integer if its value is one of 64 bits, and any other text as it is. Only a run of
digits keeps its value in full; other numerals are rounded first. Numbers come before texts.
-/
namespace Coursework

open Text

inductive Cell where
  | integer (n : Int)
  /-- The number `mantissa * 2 ^ exponent`, which is no integer of 64 bits. -/
  | real (mantissa exponent : Int)
  | infinite (isNegative : Bool)
  | text (s : String)
  deriving DecidableEq, Repr

namespace Cell

def integerLimit : Int := 9223372036854775808

def withSign (isNegative : Bool) (size : Nat) : Int := if isNegative then -size else size

def ofNumeral (n : Numeral) : Cell :=
  if n.isPlain ∧ -integerLimit ≤ n.toInt ∧ n.toInt < integerLimit then .integer n.toInt
  else
    match Magnitude.ofNumeral? n with
    | none => .infinite n.isNegative
    | some m =>
      match m.toNat?.filter fun n : Nat => n < integerLimit with
      | some size => .integer (withSign n.isNegative size)
      | none => .real (withSign n.isNegative m.mantissa) m.exponent

def ofText (s : String) : Cell :=
  match Numeral.parse? s with
  | some n => ofNumeral n
  | none => .text s

def integer? : Cell → Option Int
  | .integer n => some n
  | _ => none

def scaledBefore (m e n f : Int) : Bool :=
  let low := min e f
  m * (1 <<< (e - low).toNat : Nat) < n * (1 <<< (f - low).toNat : Nat)

def before : Cell → Cell → Bool
  | .integer a, .integer b => a < b
  | .integer a, .real n f => scaledBefore a 0 n f
  | .real m e, .integer b => scaledBefore m e b 0
  | .real m e, .real n f => scaledBefore m e n f
  | .text a, .text b => a < b
  | .text _, _ => false
  | _, .text _ => true
  | .infinite a, .infinite b => a && !b
  | .infinite a, _ => a
  | _, .infinite b => !b

def isNotNegative : Cell → Bool
  | .integer n => 0 ≤ n
  | .real m _ => 0 ≤ m
  | .infinite isNegative => !isNegative
  | .text _ => true

def isTruthValue (c : Cell) : Bool := c == .integer 0 || c == .integer 1

end Cell

end Coursework
