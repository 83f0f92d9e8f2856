import Coursework.Storage.Operation
/-!
Failures for rehearsals. They stand in front of a handler: an operation with a failure fails
without effect, and a look-up of a deck can be sent to another deck.
-/
namespace Coursework

structure Faults where
  listLessons : Option StorageError := none
  getProgress : Option StorageError := none
  createProgress : Option StorageError := none
  saveProgress : Option StorageError := none
  getCards : Option StorageError := none
  getDeck : List (DeckId × StorageError) := []
  aliases : List (DeckId × DeckId) := []
  deriving DecidableEq, Repr, Inhabited

namespace Faults

def of? (f : Faults) : Operation → Option StorageError
  | .listLessons _ _ => f.listLessons
  | .getProgress _ _ => f.getProgress
  | .createProgress _ => f.createProgress
  | .saveProgress _ => f.saveProgress
  | .getCards _ => f.getCards
  | .getDeck id => f.getDeck.lookup id
  | .upsertCourse _ | .getCourse _ | .upsertLesson _ | .upsertDeck _ => none

def substitute (f : Faults) (id : DeckId) : DeckId := (f.aliases.lookup id).getD id

def perform {σ : Type} (f : Faults) (handle : Handler σ) : Handler σ :=
  fun op s =>
    match f.of? op with
    | some e => (.error e,s)
    | none =>
      match op with
      | .getDeck id => handle (.getDeck (f.substitute id)) s
      | op => handle op s

end Faults

end Coursework
