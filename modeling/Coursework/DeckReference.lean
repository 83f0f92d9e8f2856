import Coursework.Id
/-!
Deck references in the text of a lesson: `![deck](` followed by an identifier of 36 lower-case
hexadecimal digits and hyphens and `)`. The text is searched from the left; behind a mark the
search goes on after its closing parenthesis. Marks whose inside is no identifier are skipped and
repeated decks are dropped.
-/
namespace Coursework.DeckReference

def opening : List Char := ['!','[','d','e','c','k',']','(']

def payloadLength : Nat := 36

def isPayloadChar (c : Char) : Bool :=
  (48 ≤ c.toNat && c.toNat ≤ 57) || (97 ≤ c.toNat && c.toNat ≤ 102) || c == '-'

def payloadAtStart? (cs : List Char) : Option (List Char) :=
  if opening.isPrefixOf cs then
    let payload := (cs.drop opening.length).take payloadLength
    if payload.length = payloadLength ∧ payload.all isPayloadChar ∧
        (cs.drop (opening.length + payloadLength)).head? = some ')' then
      some payload
    else none
  else none

/-- The insides of all marks from left to right; the first `skip` characters belong to a mark
that was taken. -/
def payloadsFrom : (skip : Nat) → List Char → List (List Char)
  | _, [] => []
  | skip + 1, _ :: cs => payloadsFrom skip cs
  | 0, c :: cs =>
    match payloadAtStart? (c :: cs) with
    | some payload => payload :: payloadsFrom (opening.length + payloadLength) cs
    | none => payloadsFrom 0 cs

def payloads (cs : List Char) : List (List Char) := payloadsFrom 0 cs

def all (body : String) : List DeckId :=
  (((payloads body.toList).filterMap Uuid.parseChars?).map Id.mk).eraseDups

def keys (body : String) : List String := (all body).map Id.key

def mark (deck : DeckId) : String := "![deck](" ++ deck.key ++ ")"

end Coursework.DeckReference
