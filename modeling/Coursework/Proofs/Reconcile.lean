import Coursework.Progress.Course
import Coursework.Proofs.Keys

/-! What reconciling does to look-ups and marks. A mark is the completion of a deck or a lesson
with its instant; reconciling keeps it or clears it, and never sets it. -/
namespace Coursework

structure Mark where
  isCompleted : Bool := false
  completedAt : Option Instant := none
  deriving DecidableEq, Repr

namespace DeckProgress

def mark (d : DeckProgress) : Mark := ⟨d.isCompleted,d.completedAt⟩

theorem sameDeck {a b : DeckProgress} (cards : ∀ key, a.cards.get? key = b.cards.get? key)
    (marks : a.mark = b.mark) : a = b := by
  have sameCards := KeyMap.ext cards
  cases a
  cases b
  cases sameCards
  cases marks
  rfl

def reopensFor (d : DeckProgress) (live : List String) : Bool :=
  d.cards.lacks live || live.isEmpty

theorem reopensForEq (d : DeckProgress) (live : List String) :
    (!(d.cardDiff live).missing.isEmpty ||
      (d.cards.applyDiff (d.cardDiff live) fun _ => default).isEmpty) = d.reopensFor live := by
  rw [cardDiff,KeyMap.missingNonempty,KeyMap.reconciledIsEmpty]
  rfl

theorem cardsReconciled (d : DeckProgress) (live : List String) (key : String) :
    (d.reconcileCards live).cards.get? key =
      if key ∈ live then some ((d.cards.get? key).getD default) else none := by
  unfold reconcileCards
  simp only
  split <;> exact KeyMap.getReconciled _ _ _ _

theorem markReconciled (d : DeckProgress) (live : List String) :
    (d.reconcileCards live).mark = if d.reopensFor live then {} else d.mark := by
  unfold reconcileCards
  simp only [reopensForEq]
  split <;> rfl

end DeckProgress

namespace LessonProgress

def mark (l : LessonProgress) : Mark := ⟨l.isCompleted,l.completedAt⟩

theorem sameLesson {a b : LessonProgress} (decks : ∀ key, a.decks.get? key = b.decks.get? key)
    (marks : a.mark = b.mark) : a = b := by
  have sameDecks := KeyMap.ext decks
  cases a
  cases b
  cases sameDecks
  cases marks
  rfl

def reopensFor (l : LessonProgress) (live : List String) : Bool :=
  l.decks.lacks live || live.isEmpty

theorem reopensForEq (l : LessonProgress) (live : List String) :
    (!(l.deckDiff live).missing.isEmpty ||
      (l.decks.applyDiff (l.deckDiff live) fun _ => default).isEmpty) = l.reopensFor live := by
  rw [deckDiff,KeyMap.missingNonempty,KeyMap.reconciledIsEmpty]
  rfl

theorem decksReconciled (l : LessonProgress) (live : List String) (key : String) :
    (l.reconcileDecks live).decks.get? key =
      if key ∈ live then some ((l.decks.get? key).getD default) else none := by
  unfold reconcileDecks
  simp only
  split <;> exact KeyMap.getReconciled _ _ _ _

theorem markReconciled (l : LessonProgress) (live : List String) :
    (l.reconcileDecks live).mark = if l.reopensFor live then {} else l.mark := by
  unfold reconcileDecks
  simp only [reopensForEq]
  split <;> rfl

structure CardsReconciled (l : LessonProgress) (deck : String) (live : List String)
    (d : DeckProgress) (after : LessonProgress) : Prop where
  decks : after.decks = l.decks.insert deck (d.reconcileCards live)
  mark : after.mark = if d.reopensFor live then {} else l.mark

theorem reconcileCardsTracked {l : LessonProgress} (lesson : String) {deck : String}
    (live : List String) {d : DeckProgress} (tracked : l.decks.get? deck = some d) :
    ∃ after, l.reconcileCards lesson deck live = .ok (after,d.cardDiff live) ∧
      CardsReconciled l deck live d after := by
  have emptied : (d.reconcileCards live).cards.isEmpty = live.isEmpty := by
    rw [Bool.eq_iff_iff,KeyMap.isEmptyIff,List.isEmpty_iff,List.eq_nil_iff_forall_not_mem]
    refine forall_congr' fun key => ?_
    rw [DeckProgress.cardsReconciled]
    by_cases isLive : key ∈ live <;> simp [isLive]
  simp only [reconcileCards,tracked,emptied,DeckProgress.cardDiff,KeyMap.missingNonempty]
  by_cases reopens : d.reopensFor live = true
  · refine ⟨_,if_pos reopens,rfl,?_⟩
    rw [if_pos reopens]
    rfl
  · refine ⟨_,if_neg reopens,rfl,?_⟩
    rw [if_neg reopens]
    rfl

end LessonProgress

end Coursework
