/-!
Texts from bytes of UTF-8. Bytes that are no text have a first fault, with the number of sound
bytes before it; or each fault becomes a replacement character.
-/
namespace Coursework.Text

structure Utf8Fault where
  index : Nat
  length : Option Nat
  deriving DecidableEq, Repr

def Utf8Fault.message (fault : Utf8Fault) : String :=
  match fault.length with
  | some n =>
    "invalid utf-8 sequence of " ++ toString n ++ " bytes from index " ++ toString fault.index
  | none => "incomplete utf-8 byte sequence from index " ++ toString fault.index

def utf8Lead? (byte : Nat) : Option (Nat × Nat × Nat × Nat) :=
  if byte ≤ 0x7F then some (byte,0,0x80,0xBF)
  else if 0xC2 ≤ byte ∧ byte ≤ 0xDF then some (byte % 32,1,0x80,0xBF)
  else if byte = 0xE0 then some (0,2,0xA0,0xBF)
  else if byte = 0xED then some (byte % 16,2,0x80,0x9F)
  else if 0xE1 ≤ byte ∧ byte ≤ 0xEF then some (byte % 16,2,0x80,0xBF)
  else if byte = 0xF0 then some (0,3,0x90,0xBF)
  else if 0xF1 ≤ byte ∧ byte ≤ 0xF3 then some (byte % 8,3,0x80,0xBF)
  else if byte = 0xF4 then some (4,3,0x80,0x8F)
  else none

/-- Takes the bytes of a character behind its first one. Gives the character, or the number of
wrong bytes; `taken` of the bytes are sound so far. -/
def utf8Tail (code taken : Nat) :
    (missing low high : Nat) → List UInt8 → Except (Option Nat) Char
  | 0, _, _, _ => .ok (Char.ofNat code)
  | _ + 1, _, _, [] => .error none
  | missing + 1, low, high, byte :: bytes =>
    if low ≤ byte.toNat ∧ byte.toNat ≤ high then
      utf8Tail (64 * code + byte.toNat % 64) (taken + 1) missing 0x80 0xBF bytes
    else .error (some taken)

def utf8Char (byte : UInt8) (bytes : List UInt8) : Except (Option Nat) Char :=
  match utf8Lead? byte.toNat with
  | some (code,missing,low,high) => utf8Tail code 1 missing low high bytes
  | none => .error (some 1)

def utf8Pieces (index : Nat) : (fuel : Nat) → List UInt8 → List (Except Utf8Fault Char)
  | 0, _ => []
  | _, [] => []
  | fuel + 1, byte :: bytes =>
    match utf8Char byte bytes with
    | .ok c => .ok c :: utf8Pieces (index + c.utf8Size) fuel (bytes.drop (c.utf8Size - 1))
    | .error (some n) =>
      .error ⟨index,some n⟩ :: utf8Pieces (index + n) fuel (bytes.drop (n - 1))
    | .error none => [.error ⟨index,none⟩]

def utf8Decode (bytes : List UInt8) : Except Utf8Fault String :=
  String.ofList <$> (utf8Pieces 0 bytes.length bytes).mapM id

def utf8DecodeLossy (bytes : List UInt8) : String :=
  String.ofList ((utf8Pieces 0 bytes.length bytes).map fun
    | .ok c => c
    | .error _ => '\uFFFD')

end Coursework.Text
