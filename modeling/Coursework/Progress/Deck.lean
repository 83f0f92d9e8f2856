import Coursework.Deck
import Coursework.KeyDiff
import Coursework.Progress.Card
/-!
Progress on one deck: its cards under their keys, and when it was completed. A deck can be
completed when it tracks at least one card and all of them are complete. New cards reopen it, and
so does the loss of its last card.
-/
namespace Coursework

structure DeckProgress where
  cards : KeyMap CardProgress := .empty
  isCompleted : Bool := false
  completedAt : Option Instant := none
  deriving DecidableEq, Repr, Inhabited

namespace DeckProgress

def ofDeck (d : Deck) : DeckProgress where
  cards := .ofList (d.cardKeys.map fun key => (key,default))

def allCardsCompleted (d : DeckProgress) : Bool :=
  !d.cards.isEmpty && d.cards.values.all (·.isCompleted)

def isPromotable (d : DeckProgress) : Bool := !d.isCompleted && d.allCardsCompleted

def promote (d : DeckProgress) (now : Instant) : DeckProgress :=
  if d.isPromotable then { d with isCompleted := true, completedAt := some now } else d

def reopen (d : DeckProgress) : DeckProgress :=
  { d with isCompleted := false, completedAt := none }

def cardDiff (d : DeckProgress) (live : List String) : KeyDiff := d.cards.diff live

def reconcileCards (d : DeckProgress) (live : List String) : DeckProgress :=
  let diff := d.cardDiff live
  let reconciled := { d with cards := d.cards.applyDiff diff fun _ => default }
  if !diff.missing.isEmpty || reconciled.cards.isEmpty then reconciled.reopen else reconciled

def setCard (d : DeckProgress) (key : String) (c : CardProgress) : DeckProgress :=
  { d with cards := d.cards.insert key c }

end DeckProgress

end Coursework
