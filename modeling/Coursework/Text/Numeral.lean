import Coursework.Text.Decimal
/-!
Numerals: a sign, digits, digits behind a point, and an exponent of ten, each of them if it is
there, with ASCII blanks around the whole.
-/
namespace Coursework.Text

structure Numeral where
  isNegative : Bool
  whole : List Char
  decimals : List Char
  exponent : Int
  isPlain : Bool
  deriving DecidableEq, Repr

namespace Numeral

def isSpace (c : Char) : Bool := c == ' ' || (9 ≤ c.toNat && c.toNat ≤ 13)

def scanSign : List Char → Bool × List Char
  | '-' :: cs => (true,cs)
  | '+' :: cs => (false,cs)
  | cs => (false,cs)

def scanDigits (cs : List Char) : List Char × List Char := leadingDigits cs.length cs

def scanDecimals : List Char → Bool × List Char × List Char
  | '.' :: cs => let (digits,rest) := scanDigits cs; (true,digits,rest)
  | cs => (false,[],cs)

def largestExponent : Nat := 10000

def exponentSize (digits : List Char) : Nat :=
  digits.foldl (fun size c =>
    if size < largestExponent then 10 * size + (digit? c).getD 0 else largestExponent) 0

def scanExponent? : List Char → Option (Bool × Int × List Char)
  | c :: cs =>
    if c = 'e' ∨ c = 'E' then
      let (negative,cs) := scanSign cs
      let (digits,rest) := scanDigits cs
      let n : Int := exponentSize digits
      if digits.isEmpty then none else some (true,if negative then -n else n,rest)
    else some (false,0,c :: cs)
  | [] => some (false,0,[])

def parse? (s : String) : Option Numeral := do
  let (isNegative,cs) := scanSign (s.toList.dropWhile isSpace)
  let (whole,cs) := scanDigits cs
  let (hasPoint,decimals,cs) := scanDecimals cs
  if whole.isEmpty && decimals.isEmpty then none
  else
    let (hasExponent,exponent,cs) ← scanExponent? cs
    if cs.all isSpace then
      some { isNegative, whole, decimals, exponent, isPlain := !hasPoint && !hasExponent }
    else none

def toInt (n : Numeral) : Int :=
  let size : Int := digitsValue n.whole
  if n.isNegative then -size else size

end Numeral

end Coursework.Text
