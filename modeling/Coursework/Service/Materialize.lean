import Coursework.Service.Script
/-!
Fresh progress for a lesson, built from the decks its text refers to. One operation of a service
looks up a deck at most once; what it got stays in a cache.
-/
namespace Coursework

structure DeckCache where
  decks : List (DeckId × Deck) := []
  deriving DecidableEq, Repr, Inhabited

def DeckCache.fetch (cache : DeckCache) (deckId : DeckId) :
    Script StorageError (Deck × DeckCache) :=
  match cache.decks.lookup deckId with
  | some deck => .done (deck,cache)
  | none => do
    let deck ← Script.call id (.getDeck deckId)
    .done (deck,⟨(deckId,deck) :: cache.decks⟩)

inductive MaterializeError where
  | noDecksReferenced (lesson : LessonId)
  | storage (e : StorageError)
  deriving DecidableEq, Repr

def trackDecks (cache : DeckCache) (tracked : KeyMap DeckProgress) :
    List DeckId → Script StorageError (KeyMap DeckProgress × DeckCache)
  | [] => .done (tracked,cache)
  | deckId :: deckIds => do
    let (deck,cache) ← cache.fetch deckId
    trackDecks cache (tracked.insert deckId.key (.ofDeck deck)) deckIds

def materialize (lesson : Lesson) (cache : DeckCache) :
    Script MaterializeError (LessonProgress × DeckCache) :=
  match lesson.deckReferences with
  | [] => .fail (.noDecksReferenced lesson.id)
  | references => do
    let (decks,cache) ← (trackDecks cache .empty references).mapError .storage
    .done ({ decks },cache)

end Coursework
