import Coursework.Json.Value
import Coursework.Text.Decimal
import Coursework.Uuid
/-!
Reading JSON as RFC 8259 has it: blanks are space, tab, line feed and carriage return, strings
hold no raw control characters, numbers have no leading zeros, and nothing but blanks may follow
the value.
-/
namespace Coursework.Json

open Text

def isSpace (c : Char) : Bool := c == ' ' || c == '\n' || c == '\t' || c == '\r'

def skipSpace (cs : List Char) : List Char := cs.dropWhile isSpace

inductive StringState where
  | plain
  | escaped
  | hex (left value : Nat)
  deriving DecidableEq, Repr

def simpleEscape? : Char → Option Char
  | '"' => some '"'
  | '\\' => some '\\'
  | '/' => some '/'
  | 'b' => some '\x08'
  | 'f' => some '\x0c'
  | 'n' => some '\n'
  | 'r' => some '\r'
  | 't' => some '\t'
  | _ => none

/-- The code points of a string literal up to its closing quote, halves of surrogate pairs
included, and the text behind the quote. -/
def scanString : StringState → List Char → Option (List Nat × List Char)
  | _, [] => none
  | .plain, c :: cs =>
    if c = '"' then some ([],cs)
    else if c = '\\' then scanString .escaped cs
    else if c.toNat < 0x20 then none
    else (scanString .plain cs).map fun (units,rest) => (c.toNat :: units,rest)
  | .escaped, c :: cs =>
    if c = 'u' then scanString (.hex 4 0) cs
    else do
      let e ← simpleEscape? c
      let (units,rest) ← scanString .plain cs
      some (e.toNat :: units,rest)
  | .hex left value, c :: cs => do
    let d ← HexDigit.ofChar? c
    let value := value * 16 + d.val
    if left ≤ 1 then
      let (units,rest) ← scanString .plain cs
      some (value :: units,rest)
    else scanString (.hex (left - 1) value) cs

def isHighSurrogate (n : Nat) : Bool := 0xD800 ≤ n && n < 0xDC00

def isLowSurrogate (n : Nat) : Bool := 0xDC00 ≤ n && n < 0xE000

def joinSurrogates : List Nat → Option (List Char)
  | [] => some []
  | u :: us =>
    if isHighSurrogate u then
      match us with
      | [] => none
      | l :: us =>
        if isLowSurrogate l then
          (joinSurrogates us).map
            (Char.ofNat (0x10000 + (u - 0xD800) * 0x400 + (l - 0xDC00)) :: ·)
        else none
    else if isLowSurrogate u then none
    else (joinSurrogates us).map (Char.ofNat u :: ·)

def scanLiteral (cs : List Char) : Option (Literal × List Char) :=
  (scanString .plain cs).map fun (units,rest) =>
    ((joinSurrogates units).map String.ofList,rest)

def scanDigits (cs : List Char) : Option (List Char × List Char) :=
  let (digits,rest) := leadingDigits cs.length cs
  if digits.isEmpty then none else some (digits,rest)

def scanFractionPart : List Char → Option (Bool × List Char)
  | '.' :: cs => (scanDigits cs).map fun (_,rest) => (true,rest)
  | cs => some (false,cs)

def scanExponent : List Char → Option (Bool × List Char)
  | c :: cs =>
    if c = 'e' ∨ c = 'E' then
      let cs := match cs with
        | '+' :: rest | '-' :: rest => rest
        | _ => cs
      (scanDigits cs).map fun (_,rest) => (true,rest)
    else some (false,c :: cs)
  | [] => some (false,[])

def scanMagnitude (negative : Bool) (cs : List Char) : Option (Value × List Char) := do
  let (digits,rest) ← scanDigits cs
  if digits.head? = some '0' ∧ digits.length ≠ 1 then none
  else
    let (hasFraction,rest) ← scanFractionPart rest
    let (hasExponent,rest) ← scanExponent rest
    let n : Int := digitsValue digits
    if hasFraction || hasExponent || (negative && n == 0) then some (.fraction,rest)
    else some (.integer (if negative then -n else n),rest)

def scanNumber : List Char → Option (Value × List Char)
  | '-' :: cs => scanMagnitude true cs
  | cs => scanMagnitude false cs

def behind? (word : List Char) (cs : List Char) : Option (List Char) :=
  if word.isPrefixOf cs then some (cs.drop word.length) else none

mutual
def scanValue : (fuel : Nat) → List Char → Option (Value × List Char)
  | 0, _ => none
  | fuel + 1, cs =>
    match skipSpace cs with
    | [] => none
    | '"' :: cs => (scanLiteral cs).map fun (s,rest) => (.string s,rest)
    | '[' :: cs =>
      match skipSpace cs with
      | ']' :: rest => some (.array [],rest)
      | cs => (scanItems fuel cs).map fun (items,rest) => (.array items,rest)
    | '{' :: cs =>
      match skipSpace cs with
      | '}' :: rest => some (.object [],rest)
      | cs => (scanMembers fuel cs).map fun (members,rest) => (.object members,rest)
    | 'n' :: cs => (behind? ['u','l','l'] cs).map fun rest => (.null,rest)
    | 't' :: cs => (behind? ['r','u','e'] cs).map fun rest => (.bool true,rest)
    | 'f' :: cs => (behind? ['a','l','s','e'] cs).map fun rest => (.bool false,rest)
    | cs => scanNumber cs

def scanItems : (fuel : Nat) → List Char → Option (List Value × List Char)
  | 0, _ => none
  | fuel + 1, cs => do
    let (v,rest) ← scanValue fuel cs
    match skipSpace rest with
    | ']' :: rest => some ([v],rest)
    | ',' :: rest =>
      let (items,rest) ← scanItems fuel rest
      some (v :: items,rest)
    | _ => none

def scanMembers : (fuel : Nat) → List Char → Option (List (Literal × Value) × List Char)
  | 0, _ => none
  | fuel + 1, cs => do
    let rest ← behind? ['"'] (skipSpace cs)
    let (key,rest) ← scanLiteral rest
    let rest ← behind? [':'] (skipSpace rest)
    let (v,rest) ← scanValue fuel rest
    match skipSpace rest with
    | '}' :: rest => some ([(key,v)],rest)
    | ',' :: rest =>
      let (members,rest) ← scanMembers fuel rest
      some ((key,v) :: members,rest)
    | _ => none
end

def Value.parseChars? (cs : List Char) : Option Value :=
  match scanValue (2 * cs.length + 2) cs with
  | some (v,rest) => if (skipSpace rest).isEmpty then some v else none
  | none => none

def Value.parse? (s : String) : Option Value := Value.parseChars? s.toList

end Coursework.Json
