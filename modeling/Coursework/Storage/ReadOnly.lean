import Coursework.Storage.Operation
/-!
Stores that may only be read: a write is refused before it is looked at, and all else is done as
it would be otherwise.
-/
namespace Coursework

def Operation.isWrite : Operation → Bool
  | .upsertCourse _ | .upsertLesson _ | .upsertDeck _ | .createProgress _ | .saveProgress _ => true
  | .getCourse _ | .listLessons _ _ | .getDeck _ | .getCards _ | .getProgress _ _ => false

def Handler.readOnly {σ : Type} (handle : Handler σ) : Handler σ :=
  fun op s => if op.isWrite then (.error (.connection .readOnly),s) else handle op s

end Coursework
