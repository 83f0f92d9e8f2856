import Coursework.Id
import Coursework.Instant.Read
import Coursework.Json.Reader
import Coursework.Json.Writer
import Coursework.KeyMap
/-!
The JSON form of a type: how a value is written and which documents are read. A record is read
from an object, where a known member may not be repeated and unknown ones are ignored, or from an
array of its fields in order, where the last ones may be missing if they can be missing at all.
-/
namespace Coursework.Json

class Form (α : Type) where
  encode : α → Value
  decode? : Value → Option α

export Form (encode decode?)

class LawfulForm (α : Type) [Form α] : Prop where
  decodesBack : ∀ a : α, decode? (encode a) = some a

export LawfulForm (decodesBack)

def write {α : Type} [Form α] (a : α) : String := (encode a).compact

def read? {α : Type} [Form α] (s : String) : Option α := (Value.parse? s).bind decode?

def member? (members : List (Literal × Value)) (name : String) : Option (Option Value) :=
  match members.filter fun m => m.1 == some name with
  | [] => some none
  | [m] => some (some m.2)
  | _ => none

def fields? (names : List String) : Value → Option (List (Option Value))
  | .object members =>
    if members.all fun m => m.1.isSome then names.mapM (member? members) else none
  | .array items =>
    if items.length ≤ names.length then
      some (items.map some ++ List.replicate (names.length - items.length) none)
    else none
  | _ => none

def required? {α : Type} [Form α] (field : Option Value) : Option α := field.bind decode?

def optional? {α : Type} [Form α] (default : α) : Option Value → Option α
  | none => some default
  | some v => decode? v

instance : Form String where
  encode := .text
  decode?
    | .string s => s
    | _ => none

instance : Form Bool where
  encode := .bool
  decode?
    | .bool b => some b
    | _ => none

instance : Form Int where
  encode := .integer
  decode?
    | .integer n => some n
    | _ => none

instance : Form Int64 where
  encode n := .integer n.toInt
  decode?
    | .integer n =>
      if Int64.minValue.toInt ≤ n ∧ n ≤ Int64.maxValue.toInt then some (Int64.ofInt n) else none
    | _ => none

instance : Form Uuid where
  encode u := .text u.text
  decode?
    | .string s => s.bind Uuid.parse?
    | _ => none

instance {entity : Entity} : Form (Id entity) where
  encode id := .text id.key
  decode?
    | .string s => s.bind Id.parse?
    | _ => none

instance : Form Instant where
  encode t := .text t.text
  decode?
    | .string s => s.bind Instant.parse?
    | _ => none

instance {α : Type} [Form α] : Form (Option α) where
  encode
    | some a => encode a
    | none => .null
  decode?
    | .null => some none
    | v => (decode? v).map some

instance {α : Type} [Form α] : Form (List α) where
  encode as := .array (as.map encode)
  decode?
    | .array items => items.mapM decode?
    | _ => none

def decodeMember? {V : Type} [Form V] (m : Literal × Value) : Option (String × V) := do
  let key ← m.1
  let v ← decode? m.2
  some (key,v)

instance {V : Type} [Form V] : Form (KeyMap V) where
  encode m := .record (m.entries.map fun e => (e.1,encode e.2))
  decode?
    | .object members => (members.mapM decodeMember?).map KeyMap.ofList
    | _ => none

instance : LawfulForm String := ⟨fun _ => rfl⟩
instance : LawfulForm Bool := ⟨fun _ => rfl⟩
instance : LawfulForm Int := ⟨fun _ => rfl⟩
instance : LawfulForm Uuid := ⟨Uuid.parsesText⟩
instance {entity : Entity} : LawfulForm (Id entity) := ⟨Id.parsesKey⟩

theorem itemsDecodeBack {α : Type} [Form α] [LawfulForm α] (as : List α) :
    (as.map encode).mapM (decode? : Value → Option α) = some as := by
  induction as with
  | nil => rfl
  | cons a as ih => simp [List.mapM_cons,decodesBack,ih]

instance {α : Type} [Form α] [LawfulForm α] : LawfulForm (List α) := ⟨itemsDecodeBack⟩

end Coursework.Json
