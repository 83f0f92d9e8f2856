import Coursework.Listing
/-!
Universally unique identifiers: thirty-two hexadecimal digits. The written form has lower-case
digits in groups of 8, 4, 4, 4 and 12 with hyphens between them. Reading accepts that form, the
plain run of digits, the grouped form in braces and the grouped form after `urn:uuid:`, with
letters of either case; `parsesText` says that it reads back what is written.
-/
namespace Coursework

abbrev HexDigit := Fin 16

def HexDigit.char (d : HexDigit) : Char :=
  match d.val with
  | 0 => '0' | 1 => '1' | 2 => '2' | 3 => '3' | 4 => '4' | 5 => '5' | 6 => '6' | 7 => '7'
  | 8 => '8' | 9 => '9' | 10 => 'a' | 11 => 'b' | 12 => 'c' | 13 => 'd' | 14 => 'e' | _ => 'f'

def HexDigit.ofChar? (c : Char) : Option HexDigit :=
  let n := c.toNat
  if h : 48 ≤ n ∧ n ≤ 57 then some ⟨n - 48,by omega⟩
  else if h : 97 ≤ n ∧ n ≤ 102 then some ⟨n - 87,by omega⟩
  else if h : 65 ≤ n ∧ n ≤ 70 then some ⟨n - 55,by omega⟩
  else none

theorem HexDigit.ofOwnChar (d : HexDigit) : ofChar? d.char = some d := by
  revert d; decide

structure Uuid where
  digits : List HexDigit
  digitsLength : digits.length = 32
  deriving DecidableEq, Repr

namespace Uuid

theorem ext {a b : Uuid} (h : a.digits = b.digits) : a = b := by
  cases a; cases b; cases h; rfl

instance : LT Uuid := ⟨fun a b => a.digits < b.digits⟩

instance (a b : Uuid) : Decidable (a < b) := inferInstanceAs (Decidable (a.digits < b.digits))

def groups : List Nat := [8,4,4,4,12]

def grouped : List Nat → List HexDigit → List Char
  | [], _ => []
  | [size], ds => (ds.take size).map HexDigit.char
  | size :: sizes, ds =>
    (ds.take size).map HexDigit.char ++ '-' :: grouped sizes (ds.drop size)

def chars (u : Uuid) : List Char := grouped groups u.digits

def text (u : Uuid) : String := String.ofList u.chars

def takeDigits? : (count : Nat) → List Char → Option (List HexDigit × List Char)
  | 0, cs => some ([],cs)
  | _ + 1, [] => none
  | count + 1, c :: cs => do
    let d ← HexDigit.ofChar? c
    let (ds,rest) ← takeDigits? count cs
    some (d :: ds,rest)

def takeGroups? : List Nat → List Char → Option (List HexDigit)
  | [], cs => if cs.isEmpty then some [] else none
  | [size], cs => do
    let (ds,rest) ← takeDigits? size cs
    if rest.isEmpty then some ds else none
  | size :: sizes, cs => do
    let (ds,rest) ← takeDigits? size cs
    match rest with
    | '-' :: rest => (takeGroups? sizes rest).map (ds ++ ·)
    | _ => none

def ofDigits? (ds : List HexDigit) : Option Uuid :=
  if h : ds.length = 32 then some ⟨ds,h⟩ else none

def parsePlain? (cs : List Char) : Option Uuid := takeGroups? [32] cs >>= ofDigits?

def parseGrouped? (cs : List Char) : Option Uuid := takeGroups? groups cs >>= ofDigits?

def parseBraced? : List Char → Option Uuid
  | '{' :: cs => if cs.getLast? = some '}' then parseGrouped? cs.dropLast else none
  | _ => none

def parseUrn? (cs : List Char) : Option Uuid :=
  if (cs.take 9).map Char.toLower = "urn:uuid:".toList then parseGrouped? (cs.drop 9) else none

def parseChars? (cs : List Char) : Option Uuid :=
  parseGrouped? cs <|> parsePlain? cs <|> parseBraced? cs <|> parseUrn? cs

def parse? (s : String) : Option Uuid := parseChars? s.toList

theorem ownDigitsTaken (ds : List HexDigit) (rest : List Char) :
    takeDigits? ds.length (ds.map HexDigit.char ++ rest) = some (ds,rest) := by
  induction ds with
  | nil => rfl
  | cons d ds ih => simp [takeDigits?,HexDigit.ofOwnChar,ih]

theorem ownGroupsTaken (sizes : List Nat) (ds : List HexDigit)
    (h : ds.length = total sizes) : takeGroups? sizes (grouped sizes ds) = some ds := by
  induction sizes generalizing ds with
  | nil => simp_all [takeGroups?,grouped,total]
  | cons size sizes ih =>
    have front : (ds.take size).length = size := by simp_all [total]
    cases sizes with
    | nil =>
      have digits := ownDigitsTaken (ds.take size) []
      rw [front,List.append_nil] at digits
      simp_all [takeGroups?,grouped,total,List.take_of_length_le]
    | cons next sizes =>
      have digits := ownDigitsTaken (ds.take size)
        ('-' :: grouped (next :: sizes) (ds.drop size))
      rw [front] at digits
      have back := ih (ds.drop size) (by simp_all [total])
      rw [grouped,takeGroups?,digits]
      · simp [back]
      · simp
      · simp

theorem parsesChars (u : Uuid) : parseGrouped? u.chars = some u := by
  have read := ownGroupsTaken groups u.digits (by rw [u.digitsLength]; rfl)
  simp [parseGrouped?,chars,read,ofDigits?,u.digitsLength]

theorem parsesText (u : Uuid) : parse? u.text = some u := by
  simp [parse?,text,parseChars?,parsesChars]

theorem textInjective {a b : Uuid} (h : a.text = b.text) : a = b := by
  have read := parsesText a
  rw [h,parsesText] at read
  exact (Option.some.inj read).symm

def digitsOfNat : (count : Nat) → Nat → List HexDigit
  | 0, _ => []
  | count + 1, n =>
    digitsOfNat count (n / 16) ++ [⟨n % 16,Nat.mod_lt _ (by decide)⟩]

theorem digitsOfNatLength (count n : Nat) : (digitsOfNat count n).length = count := by
  induction count generalizing n with
  | zero => rfl
  | succ count ih => simp [digitsOfNat,ih]

def ofNat (n : Nat) : Uuid := ⟨digitsOfNat 32 n,digitsOfNatLength 32 n⟩

def ofRandom (bits : Nat) : Uuid :=
  let ds := digitsOfNat 32 bits
  let variant : HexDigit := ⟨8 + (ds[16]?.getD 0).val % 4,by omega⟩
  ⟨(ds.set 12 4).set 16 variant,by simp [ds,digitsOfNatLength]⟩

end Uuid

end Coursework
