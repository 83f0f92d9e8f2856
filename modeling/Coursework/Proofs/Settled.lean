import Coursework.Proofs.Consistent

/-! Settled trees: no deck and no lesson is left to promote, so a rollup does not change them. A
consistent tree is settled, and so is what a merge makes of any tree at all. -/
namespace Coursework

theorem KeyMap.mapUnchanged {V : Type} {m : KeyMap V} {f : V → V}
    (same : ∀ key v, m.get? key = some v → f v = v) : m.map f = m := by
  refine KeyMap.ext fun key => ?_
  rw [KeyMap.getMap]
  cases found : m.get? key with
  | none => rfl
  | some v => rw [Option.map_some,same key v found]

theorem Merge.finishedTwice (m : Mark) (first second : Bool) (now : Instant) :
    finished (finished m first now) second now = finished m (first || second) now := by
  cases m with
  | mk done stamp => cases done <;> cases first <;> cases second <;> rfl

theorem Merge.finishedSettled {m : Mark} {done : Bool} (settled : (!m.isCompleted && done) = false)
    (now : Instant) : finished m done now = m :=
  if_neg (Bool.not_eq_true _ ▸ settled)

theorem Merge.finishedNotOpen (m : Mark) (done : Bool) (now : Instant) :
    (!(finished m done now).isCompleted && done) = false := by
  cases m with
  | mk marked stamp => cases marked <;> cases done <;> rfl

namespace DeckProgress

variable {d : DeckProgress}

theorem Consistent.settled (consistent : d.Consistent) : d.isPromotable = false := by
  rw [isPromotable,consistent.done,Bool.not_and_self]

theorem settledOf {m : Mark} {now : Instant}
    (mark : d.mark = Merge.finished m d.allCardsCompleted now) : d.isPromotable = false := by
  have open_ := Merge.finishedNotOpen m d.allCardsCompleted now
  rwa [← mark] at open_

theorem markSettled (settled : d.isPromotable = false) (now : Instant) :
    Merge.finished d.mark d.allCardsCompleted now = d.mark :=
  Merge.finishedSettled (m := d.mark) settled now

theorem promoteSettled (settled : d.isPromotable = false) (now : Instant) : d.promote now = d := by
  rw [promote,settled]
  rfl

end DeckProgress

namespace LessonProgress

structure Settled (l : LessonProgress) : Prop where
  decks : ∀ key d, l.decks.get? key = some d → d.isPromotable = false
  own : l.isPromotable = false

variable {l : LessonProgress}

theorem Consistent.settled (consistent : l.Consistent) : l.Settled := by
  refine ⟨fun key d found => (consistent.decks key d found).settled,?_⟩
  rw [isPromotable,consistent.done,Bool.not_and_self]

theorem settledOf {m : Mark} {now : Instant}
    (decks : ∀ key d, l.decks.get? key = some d → d.isPromotable = false)
    (mark : l.mark = Merge.finished m l.allDecksCompleted now) : l.Settled := by
  have open_ := Merge.finishedNotOpen m l.allDecksCompleted now
  rw [← mark] at open_
  exact ⟨decks,open_⟩

theorem markSettled (settled : l.isPromotable = false) (now : Instant) :
    Merge.finished l.mark l.allDecksCompleted now = l.mark :=
  Merge.finishedSettled (m := l.mark) settled now

theorem Settled.promotedDecks (settled : l.Settled) (now : Instant) :
    l.decks.map (·.promote now) = l.decks :=
  KeyMap.mapUnchanged fun key d found => DeckProgress.promoteSettled (settled.decks key d found) now

theorem rollUpSettled (settled : l.Settled) (now : Instant) : l.rollUp now = l := by
  rw [rollUp,settled.promotedDecks now,promote]
  exact if_neg (Bool.not_eq_true _ ▸ settled.own)

theorem promotionsSettled (settled : l.Settled) (now : Instant) : l.promotions now = 0 := by
  have decks : l.decks.values.countP (·.isPromotable) = 0 := by
    refine List.countP_eq_zero.mpr fun d member => ?_
    obtain ⟨entry,inside,rfl⟩ := List.mem_map.mp member
    rw [settled.decks _ _ (KeyMap.getIffMember.mpr inside)]
    exact Bool.false_ne_true
  have own : isPromotable { l with decks := l.decks } = false := settled.own
  rw [promotions,settled.promotedDecks now,decks,own]
  rfl

end LessonProgress

namespace CourseProgress

variable {p : CourseProgress}

def Settled (p : CourseProgress) : Prop := ∀ key l, p.lessons.get? key = some l → l.Settled

theorem Consistent.settled (consistent : p.Consistent) : p.Settled :=
  fun key l found => (consistent.lessons key l found).settled

theorem rollUpSettled (settled : p.Settled) (now : Instant) : p.rollUp now = p := by
  have lessons : p.lessons.map (·.rollUp now) = p.lessons :=
    KeyMap.mapUnchanged fun key l found => LessonProgress.rollUpSettled (settled key l found) now
  rw [rollUp,lessons]

theorem promotionsSettled (settled : p.Settled) (now : Instant) : p.promotions now = 0 := by
  have zeros : ∀ ls : List LessonProgress, (∀ l ∈ ls, l.Settled) →
      total (ls.map (·.promotions now)) = 0 := by
    intro ls
    induction ls with
    | nil => exact fun _ => rfl
    | cons l ls ih =>
      intro all
      rw [List.map_cons,total,LessonProgress.promotionsSettled (all l List.mem_cons_self),
        ih fun other member => all other (List.mem_cons_of_mem l member)]
  refine zeros p.lessons.values fun l member => ?_
  obtain ⟨entry,inside,rfl⟩ := List.mem_map.mp member
  exact settled _ _ (KeyMap.getIffMember.mpr inside)

end CourseProgress

namespace Merge

variable {now : Instant}

theorem deckSettled (old : Option DeckProgress) (cards : List CardId) :
    (deck now old cards).isPromotable = false := by
  have mark : (deck now old cards).mark =
      finished (deckMark old cards) (deck now old cards).allCardsCompleted now := by
    rw [← deckDoneIs,deckMarkFinished]
  exact DeckProgress.settledOf mark

theorem lessonSettled (old : Option LessonProgress) {decks : List (DeckId × List CardId)}
    (distinct : (decks.map fun p => p.1.key).Nodup) : (lesson now old decks).Settled := by
  have mark : (lesson now old decks).mark =
      finished (lessonMark old decks) (lesson now old decks).allDecksCompleted now := by
    rw [← lessonDoneIs distinct,lessonMarkFinished]
  refine LessonProgress.settledOf (fun key d found => ?_) mark
  obtain ⟨p,_,_,rfl⟩ := mergedDeck distinct found
  exact deckSettled _ _

theorem courseSettled (old : CourseProgress) {outline : List LessonOutline} (apart : Apart outline) :
    (course now old outline).Settled := by
  intro key l found
  obtain ⟨o,member,_,rfl⟩ := mergedLesson apart.lessons found
  exact lessonSettled _ (apart.decks o member)

end Merge

end Coursework
