import Coursework.Uuid
/-!
Identifiers of the things that a course is made of. Each kind of thing has its own type of
identifier, so a card cannot stand where a deck is meant; all share the form of a UUID. The
written form doubles as the key under which progress is kept.
-/
namespace Coursework

inductive Entity where
  | user | course | lesson | deck | card | answer
  deriving DecidableEq, Repr

def Entity.idName : Entity → String
  | .user => "UserId"
  | .course => "CourseId"
  | .lesson => "LessonId"
  | .deck => "DeckId"
  | .card => "CardId"
  | .answer => "AnswerId"

structure Id (entity : Entity) where
  uuid : Uuid
  deriving DecidableEq, Repr

abbrev UserId := Id .user
abbrev CourseId := Id .course
abbrev LessonId := Id .lesson
abbrev DeckId := Id .deck
abbrev CardId := Id .card
abbrev AnswerId := Id .answer

namespace Id

variable {entity : Entity}

theorem ext {a b : Id entity} (h : a.uuid = b.uuid) : a = b := by
  cases a; cases b; cases h; rfl

instance : LT (Id entity) := ⟨fun a b => a.uuid < b.uuid⟩

instance (a b : Id entity) : Decidable (a < b) := inferInstanceAs (Decidable (a.uuid < b.uuid))

def key (id : Id entity) : String := id.uuid.text

def describe (id : Id entity) : String := entity.idName ++ "(" ++ id.key ++ ")"

def parse? (raw : String) : Option (Id entity) := (Uuid.parse? raw).map Id.mk

theorem parsesKey (id : Id entity) : parse? id.key = some id := by
  simp [parse?,key,Uuid.parsesText]

theorem keyInjective {a b : Id entity} (h : a.key = b.key) : a = b :=
  ext (Uuid.textInjective h)

end Id

structure IdError where
  entity : Entity
  deriving DecidableEq, Repr

def IdError.message (e : IdError) : String :=
  "failed to parse " ++ e.entity.idName ++ " from string"

def Id.parse {entity : Entity} (raw : String) : Except IdError (Id entity) :=
  match Id.parse? raw with
  | some id => .ok id
  | none => .error ⟨entity⟩

end Coursework
