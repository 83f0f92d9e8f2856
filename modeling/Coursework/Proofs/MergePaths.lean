import Coursework.Proofs.Answered
import Mathlib.Data.List.Nodup

/-! The merge seen from one path: a listed path keeps its card or starts a new one, and every other
path is gone. -/
namespace Coursework.Merge

variable {outline : List LessonOutline} {old : CourseProgress} {now : Instant}

def listsDeck (decks : List (DeckId × List CardId)) (deck card : String) : Bool :=
  decks.any fun p => p.1.key == deck && p.2.any fun c => c.key == card

def lists (outline : List LessonOutline) (path : CardPath) : Bool :=
  outline.any fun l => l.id.key == path.lesson && listsDeck l.decks path.deck path.card

theorem lessonCard {oldLesson : Option LessonProgress} {decks : List (DeckId × List CardId)}
    (distinct : (decks.map fun p => p.1.key).Nodup) (key card : String) :
    ((lesson now oldLesson decks).decks.get? key).bind (·.cards.get? card) =
      if listsDeck decks key card then
        some (((oldLesson.bind (·.decks.get? key)).bind (·.cards.get? card)).getD {})
      else none := by
  by_cases inside : key ∈ decks.map fun p => p.1.key
  · obtain ⟨p,member,rfl⟩ := List.mem_map.mp inside
    have only : listsDeck decks p.1.key card = p.2.any fun c => c.key == card := by
      rw [Bool.eq_iff_iff]
      simp only [listsDeck,List.any_eq_true,Bool.and_eq_true,beq_iff_eq]
      constructor
      · rintro ⟨other,listed,same,c,cards,rfl⟩
        cases List.inj_on_of_nodup_map distinct listed member same
        exact ⟨c,cards,rfl⟩
      · rintro ⟨c,cards,rfl⟩
        exact ⟨p,member,rfl,c,cards,rfl⟩
    have listed : (p.2.any fun c => c.key == card) = true ↔ card ∈ p.2.map Id.key := by
      simp
    rw [lessonDeck distinct member,Option.bind_some,deckCards,only]
    by_cases there : card ∈ p.2.map Id.key
    · rw [if_pos there,if_pos (listed.mpr there)]
      rfl
    · rw [if_neg there,if_neg fun any => there (listed.mp any)]
  · have absent : listsDeck decks key card = false := by
      rw [Bool.eq_false_iff]
      intro listed
      simp only [listsDeck,List.any_eq_true,Bool.and_eq_true,beq_iff_eq] at listed
      obtain ⟨p,member,rfl,_⟩ := listed
      exact inside (List.mem_map.mpr ⟨p,member,rfl⟩)
    rw [lessonOtherDeck inside,absent]
    rfl

structure Apart (outline : List LessonOutline) : Prop where
  lessons : (outline.map fun l => l.id.key).Nodup
  decks : ∀ l ∈ outline, (l.decks.map fun p => p.1.key).Nodup

theorem atMerged (apart : Apart outline) (path : CardPath) :
    (course now old outline).at? path =
      if lists outline path then some ((old.at? path).getD {}) else none := by
  obtain ⟨key,deck,card⟩ := path
  simp only [CourseProgress.at?,CourseProgress.card?,CourseProgress.deck?]
  by_cases inside : key ∈ outline.map fun l => l.id.key
  · obtain ⟨l,member,rfl⟩ := List.mem_map.mp inside
    have only : lists outline ⟨l.id.key,deck,card⟩ = listsDeck l.decks deck card := by
      rw [Bool.eq_iff_iff]
      simp only [lists,List.any_eq_true,Bool.and_eq_true,beq_iff_eq]
      constructor
      · rintro ⟨other,listed,same,there⟩
        cases List.inj_on_of_nodup_map apart.lessons listed member same
        exact there
      · intro there
        exact ⟨l,member,rfl,there⟩
    rw [courseLessonAt now old apart.lessons member,Option.bind_some,only]
    exact lessonCard (apart.decks l member) deck card
  · have absent : lists outline ⟨key,deck,card⟩ = false := by
      rw [Bool.eq_false_iff]
      intro listed
      simp only [lists,List.any_eq_true,Bool.and_eq_true,beq_iff_eq] at listed
      obtain ⟨l,member,rfl,_⟩ := listed
      exact inside (List.mem_map.mpr ⟨l,member,rfl⟩)
    rw [courseOtherLesson now old inside,absent]
    rfl

end Coursework.Merge
