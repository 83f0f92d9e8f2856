import Coursework.Text.Blank
import Coursework.Text.Decimal
/-!
Readers that take a value from the front of a text and leave the rest, or fail.
-/
namespace Coursework.Text

abbrev Scan := StateT (List Char) Option

namespace Scan

def blanks : Scan Unit := fun cs => some ((),trimStart cs)

def char (c : Char) : Scan Unit
  | d :: cs => if d = c then some ((),cs) else none
  | [] => none

def oneOf (choices : List Char) : Scan Unit
  | d :: cs => if choices.contains d then some ((),cs) else none
  | [] => none

def number (least most : Nat) : Scan Nat := fun cs => number? least most cs

def longNumber : Scan Nat := fun cs => number? 1 cs.length cs

def skip (p : Char → Bool) : Scan Unit := fun cs => some ((),cs.dropWhile p)

def peek : Scan (Option Char) := fun cs => some (cs.head?,cs)

def drop : Scan Unit := fun cs => some ((),cs.drop 1)

def check (condition : Bool) : Scan Unit := if condition then pure () else failure

def whole {α : Type} (scan : Scan α) (s : String) : Option α :=
  match scan s.toList with
  | some (a,[]) => some a
  | _ => none

end Scan

end Coursework.Text
