import Coursework.Progress.Deck
/-!
Progress on one lesson: its decks under their keys, and when it was completed. A lesson can be
completed when it tracks at least one deck and all of them are marked complete. New decks and new
cards reopen it, and so does the loss of its last deck or of the last card of a deck.
-/
namespace Coursework

inductive ProgressError where
  | lessonNotFound (lesson : String)
  | deckNotFound (lesson deck : String)
  | cardNotFound (deck card : String)
  deriving DecidableEq, Repr

def ProgressError.message : ProgressError → String
  | .lessonNotFound lesson => "lesson " ++ lesson ++ " not found in progress state"
  | .deckNotFound lesson deck => "deck " ++ deck ++ " not found in lesson " ++ lesson
  | .cardNotFound deck card => "card " ++ card ++ " not found in deck " ++ deck

structure LessonProgress where
  decks : KeyMap DeckProgress := .empty
  isCompleted : Bool := false
  completedAt : Option Instant := none
  deriving DecidableEq, Repr, Inhabited

namespace LessonProgress

def ofDecks (decks : List Deck) : LessonProgress where
  decks := .ofList (decks.map fun d => (d.id.key,.ofDeck d))

def allDecksCompleted (l : LessonProgress) : Bool :=
  !l.decks.isEmpty && l.decks.values.all (·.isCompleted)

def isPromotable (l : LessonProgress) : Bool := !l.isCompleted && l.allDecksCompleted

def promote (l : LessonProgress) (now : Instant) : LessonProgress :=
  if l.isPromotable then { l with isCompleted := true, completedAt := some now } else l

def reopen (l : LessonProgress) : LessonProgress :=
  { l with isCompleted := false, completedAt := none }

def deckDiff (l : LessonProgress) (live : List String) : KeyDiff := l.decks.diff live

def reconcileDecks (l : LessonProgress) (live : List String) : LessonProgress :=
  let diff := l.deckDiff live
  let reconciled := { l with decks := l.decks.applyDiff diff fun _ => default }
  if !diff.missing.isEmpty || reconciled.decks.isEmpty then reconciled.reopen else reconciled

def setDeck (l : LessonProgress) (key : String) (d : DeckProgress) : LessonProgress :=
  { l with decks := l.decks.insert key d }

def reconcileCards (l : LessonProgress) (lesson deck : String) (live : List String) :
    Except ProgressError (LessonProgress × KeyDiff) :=
  match l.decks.get? deck with
  | none => .error (.deckNotFound lesson deck)
  | some d =>
    let diff := d.cardDiff live
    let reconciled := l.setDeck deck (d.reconcileCards live)
    if !diff.missing.isEmpty || (d.reconcileCards live).cards.isEmpty then
      .ok (reconciled.reopen,diff)
    else .ok (reconciled,diff)

def rollUp (l : LessonProgress) (now : Instant) : LessonProgress :=
  promote { l with decks := l.decks.map (·.promote now) } now

def promotions (l : LessonProgress) (now : Instant) : Nat :=
  l.decks.values.countP (·.isPromotable) +
    (isPromotable { l with decks := l.decks.map (·.promote now) }).toNat

end LessonProgress

end Coursework
