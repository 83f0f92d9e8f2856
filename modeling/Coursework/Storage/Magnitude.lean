import Coursework.Text.Numeral
/-!
Magnitudes, numbers of the form `mantissa * 2 ^ exponent`, and the one that stands for a numeral in
a text that is put into a column of integers. The first digits of a numeral count, about nineteen of
them. Powers of ten are multiplied in with 64 bits, one after the other, each product rounded; the
last product is rounded to 53 bits. Rounding goes to the nearest, at a tie to the even neighbour.
-/
namespace Coursework

open Text

structure Magnitude where
  mantissa : Nat
  exponent : Int
  deriving DecidableEq, Repr

namespace Magnitude

def dropBits (bits n : Nat) : Nat :=
  let quotient := n >>> bits
  let twice := 2 * (n - quotient <<< bits)
  let unit := 1 <<< bits
  if twice < unit ∨ twice = unit ∧ quotient % 2 = 0 then quotient else quotient + 1

def drop (bits : Nat) (m : Magnitude) : Magnitude :=
  ⟨dropBits bits m.mantissa,m.exponent + bits⟩

def excess (limit : Nat) (m : Magnitude) : Nat := m.mantissa.log2 + 1 - limit

def times (a b : Magnitude) : Magnitude :=
  let product : Magnitude := ⟨a.mantissa * b.mantissa,a.exponent + b.exponent⟩
  product.drop (product.excess 64)

def leastExponent : Int := -1074

def greatest : Magnitude := ⟨0x1FFFFFFFFFFFFF,971⟩

def toDouble (m : Magnitude) : Magnitude :=
  m.drop (max (m.excess 53) (leastExponent - m.exponent).toNat)

def below (a b : Magnitude) : Bool :=
  let low := min a.exponent b.exponent
  a.mantissa <<< (a.exponent - low).toNat < b.mantissa <<< (b.exponent - low).toNat

def toNat? (m : Magnitude) : Option Nat :=
  let bits := (-m.exponent).toNat
  let quotient := m.mantissa >>> bits
  if quotient <<< bits = m.mantissa then some (quotient <<< m.exponent.toNat) else none

structure Powers where
  one : Magnitude
  ten : Magnitude
  hundred : Magnitude

def tens : Powers where
  one := ⟨0xA000000000000000,-60⟩
  ten := ⟨0x9502F90000000000,-30⟩
  hundred := ⟨0x924D692CA61BE758,269⟩

def tenths : Powers where
  one := ⟨0xCCCCCCCCCCCCCCCD,-67⟩
  ten := ⟨0xDBE6FECEBDEDD5BF,-97⟩
  hundred := ⟨0xDFF9772470297EBD,-396⟩

def scaleBy (powers : Powers) (n : Nat) (m : Magnitude) : Magnitude :=
  let m := Nat.repeat (times powers.hundred) (n / 100) m
  let m := Nat.repeat (times powers.ten) (n % 100 / 10) m
  Nat.repeat (times powers.one) (n % 10) m

def scale (exponent : Int) (m : Magnitude) : Magnitude :=
  if 0 ≤ exponent then scaleBy tens exponent.toNat m else scaleBy tenths (-exponent).toNat m

def significandLimit : Nat := 1844674407370955160

def takeWhole : List Char → Nat × Int → Nat × Int
  | [], r => r
  | c :: cs, (s,e) =>
    takeWhole cs (if s < significandLimit then (10 * s + (digit? c).getD 0,e) else (s,e + 1))

def takeDecimals : List Char → Nat × Int → Nat × Int
  | [], r => r
  | c :: cs, (s,e) =>
    takeDecimals cs (if s < significandLimit then (10 * s + (digit? c).getD 0,e - 1) else (s,e))

/-- Moves powers of ten between a significand and its exponent so that the exponent comes closer
to zero, as far as 64 bits allow; the fuel bounds the steps. -/
def settle : (fuel : Nat) → Nat × Int → Nat × Int
  | 0, r => r
  | fuel + 1, (s,e) =>
    if 0 < e ∧ s ≤ significandLimit then settle fuel (10 * s,e - 1)
    else if e < 0 ∧ s % 10 = 0 then settle fuel (s / 10,e + 1)
    else (s,e)

def significandDigits : Nat := 20

def ofNumeral? (n : Numeral) : Option Magnitude :=
  let (s,e) := takeDecimals n.decimals (takeWhole n.whole (0,n.exponent))
  if s = 0 then some ⟨0,0⟩
  else
    let (s,e) := settle significandDigits (s,e)
    let m := scale e ⟨s,0⟩
    if greatest.below m then none else some m.toDouble

end Magnitude

end Coursework
