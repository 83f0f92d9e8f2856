/-!
JSON documents as values. Members of an object keep their order and their repetitions; what a
repetition means is left to the reader of the value.
-/
namespace Coursework.Json

/-- The text of a string literal. The grammar allows escapes that leave half of a surrogate pair
alone; such a literal has no text. -/
abbrev Literal := Option String

inductive Value where
  | null
  | bool (b : Bool)
  | integer (n : Int)
  | fraction
  | string (s : Literal)
  | array (items : List Value)
  | object (members : List (Literal × Value))
  deriving Repr

def Value.text (s : String) : Value := .string (some s)

def Value.record (members : List (String × Value)) : Value :=
  .object (members.map fun m => (some m.1,m.2))

def Value.insertMember (m : Literal × Value) : List (Literal × Value) → List (Literal × Value)
  | [] => [m]
  | n :: members =>
    if n.1.getD "" < m.1.getD "" then n :: insertMember m members else m :: n :: members

mutual
def Value.sorted : Value → Value
  | .array items => .array (sortedItems items)
  | .object members => .object (sortedMembers members)
  | v => v

def Value.sortedItems : List Value → List Value
  | [] => []
  | v :: items => v.sorted :: sortedItems items

def Value.sortedMembers : List (Literal × Value) → List (Literal × Value)
  | [] => []
  | (key,v) :: members => insertMember (key,v.sorted) (sortedMembers members)
end

end Coursework.Json
