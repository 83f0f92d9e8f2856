import Coursework.Proofs.Merge
import Mathlib.Data.List.Find

/-! Reconciling and rolling up meet the reference merge, first for a deck, then for a lesson whose
decks were all reconciled, then for the tree with its current lesson. -/
namespace Coursework

namespace DeckProgress

theorem promotedMark (d : DeckProgress) (now : Instant) :
    (d.promote now).mark = Merge.finished d.mark d.allCardsCompleted now := by
  unfold promote isPromotable Merge.finished
  split <;> simp_all [mark]

theorem promotedCards (d : DeckProgress) (now : Instant) : (d.promote now).cards = d.cards := by
  unfold promote
  split <;> rfl

theorem allCardsCompletedIff {d : DeckProgress} :
    d.allCardsCompleted = true ↔
      (∃ key c, d.cards.get? key = some c) ∧
      ∀ key c, d.cards.get? key = some c → c.isCompleted = true := by
  rw [allCardsCompleted,Bool.and_eq_true,Bool.not_eq_true',KeyMap.notEmptyIff,KeyMap.allValuesIff]

end DeckProgress

namespace LessonProgress

theorem promotedMark (l : LessonProgress) (now : Instant) :
    (l.promote now).mark = Merge.finished l.mark l.allDecksCompleted now := by
  unfold promote isPromotable Merge.finished
  split <;> simp_all [mark]

theorem promotedDecks (l : LessonProgress) (now : Instant) : (l.promote now).decks = l.decks := by
  unfold promote
  split <;> rfl

theorem allDecksCompletedIff {l : LessonProgress} :
    l.allDecksCompleted = true ↔
      (∃ key d, l.decks.get? key = some d) ∧
      ∀ key d, l.decks.get? key = some d → d.isCompleted = true := by
  rw [allDecksCompleted,Bool.and_eq_true,Bool.not_eq_true',KeyMap.notEmptyIff,KeyMap.allValuesIff]

end LessonProgress

namespace Merge

variable {old : Option DeckProgress} {cards : List CardId} {now : Instant}

theorem reopensDeckEq :
    reopensDeck old cards = (old.getD {}).reopensFor (cards.map Id.key) := by
  unfold reopensDeck DeckProgress.reopensFor KeyMap.lacks
  cases old with
  | none => cases cards <;> rfl
  | some d => simp [Bool.or_comm,Function.comp_def]

theorem reconciledMark :
    ((old.getD {}).reconcileCards (cards.map Id.key)).mark = deckMark old cards := by
  rw [DeckProgress.markReconciled,← reopensDeckEq,deckMark]
  cases old <;> rfl

theorem reconciledDone :
    ((old.getD {}).reconcileCards (cards.map Id.key)).allCardsCompleted = deckDone old cards := by
  have found : ∀ id, ((old.getD {}).cards.get? (Id.key id)).getD default = card old id := by
    intro id
    cases old <;> rfl
  rw [Bool.eq_iff_iff,DeckProgress.allCardsCompletedIff,deckDone,Bool.and_eq_true]
  simp only [DeckProgress.cardsReconciled]
  constructor
  · rintro ⟨⟨key,c,tracked⟩,all⟩
    constructor
    · cases cards with
      | nil => simp at tracked
      | cons => rfl
    · refine List.all_eq_true.mpr fun id member => ?_
      have inside : id.key ∈ cards.map Id.key := List.mem_map.mpr ⟨id,member,rfl⟩
      have completed := all id.key _ (if_pos inside)
      rwa [found] at completed
  · rintro ⟨nonempty,all⟩
    constructor
    · cases cards with
      | nil => simp at nonempty
      | cons id rest => exact ⟨id.key,_,if_pos (by simp)⟩
    · intro key c tracked
      split at tracked
      · rename_i inside
        obtain ⟨id,member,rfl⟩ := List.mem_map.mp inside
        cases Option.some.inj tracked
        rw [found]
        exact List.all_eq_true.mp all id member
      · contradiction

theorem deckMeetsMerge (now : Instant) (old : Option DeckProgress) (cards : List CardId) :
    ((old.getD {}).reconcileCards (cards.map Id.key)).promote now = deck now old cards := by
  refine DeckProgress.sameDeck (fun key => ?_) ?_
  · rw [DeckProgress.promotedCards,DeckProgress.cardsReconciled,deckCards]
    cases old <;> rfl
  · rw [DeckProgress.promotedMark,reconciledMark,reconciledDone,deckMarkFinished]

theorem freshDeck (d : Deck) :
    DeckProgress.ofDeck d = ({} : DeckProgress).reconcileCards ((d.cards.map (·.id)).map Id.key) := by
  refine DeckProgress.sameDeck (fun key => ?_) ?_
  · rw [DeckProgress.cardsReconciled,DeckProgress.ofDeck,KeyMap.getTabulated,List.map_map]
    rfl
  · rw [DeckProgress.markReconciled]
    split <;> rfl

variable {oldLesson : Option LessonProgress} {decks : List (DeckId × List CardId)}

theorem lessonDeck (distinct : (decks.map fun p => p.1.key).Nodup) {p : DeckId × List CardId}
    (member : p ∈ decks) :
    (lesson now oldLesson decks).decks.get? p.1.key =
      some (deck now (oldDeck oldLesson p.1) p.2) := by
  refine KeyMap.getOfListMember ?_ (List.mem_map.mpr ⟨p,member,rfl⟩)
  rw [List.map_map]
  exact distinct

theorem lessonOtherDeck {key : String} (other : key ∉ decks.map fun p => p.1.key) :
    (lesson now oldLesson decks).decks.get? key = none := by
  refine KeyMap.getOfListAbsent ?_
  rw [List.map_map]
  exact other

theorem mergedDeck (distinct : (decks.map fun p => p.1.key).Nodup) {key : String}
    {d : DeckProgress} (found : (lesson now oldLesson decks).decks.get? key = some d) :
    ∃ p ∈ decks, p.1.key = key ∧ deck now (oldDeck oldLesson p.1) p.2 = d := by
  by_cases inside : key ∈ decks.map fun p => p.1.key
  · obtain ⟨p,member,rfl⟩ := List.mem_map.mp inside
    rw [lessonDeck distinct member] at found
    exact ⟨p,member,rfl,Option.some.inj found⟩
  · rw [lessonOtherDeck inside] at found
    cases found

structure Reconciled (old : Option LessonProgress) (decks : List (DeckId × List CardId))
    (l : LessonProgress) : Prop where
  tracked : ∀ p ∈ decks, l.decks.get? p.1.key =
    some (((oldDeck old p.1).getD {}).reconcileCards (p.2.map Id.key))
  others : ∀ key, key ∉ decks.map (fun p => p.1.key) → l.decks.get? key = none
  mark : l.mark = lessonMark old decks

theorem promotedDeck {l : LessonProgress} (reconciled : Reconciled oldLesson decks l)
    {p : DeckId × List CardId} (member : p ∈ decks) :
    (l.decks.map (·.promote now)).get? p.1.key = some (deck now (oldDeck oldLesson p.1) p.2) := by
  rw [KeyMap.getMap,reconciled.tracked p member,Option.map_some,deckMeetsMerge]

theorem reconciledLessonDone {l : LessonProgress} (reconciled : Reconciled oldLesson decks l) :
    LessonProgress.allDecksCompleted { l with decks := l.decks.map (·.promote now) } =
      lessonDone now oldLesson decks := by
  rw [Bool.eq_iff_iff,LessonProgress.allDecksCompletedIff,lessonDone,Bool.and_eq_true]
  constructor
  · rintro ⟨⟨key,d,tracked⟩,all⟩
    constructor
    · cases decks with
      | nil =>
        have absent := reconciled.others key (by simp)
        simp [KeyMap.getMap,absent] at tracked
      | cons => rfl
    · exact List.all_eq_true.mpr fun p member => all _ _ (promotedDeck reconciled member)
  · rintro ⟨nonempty,all⟩
    constructor
    · cases decks with
      | nil => simp at nonempty
      | cons p rest => exact ⟨_,_,promotedDeck reconciled List.mem_cons_self⟩
    · intro key d tracked
      by_cases inside : key ∈ decks.map fun p => p.1.key
      · obtain ⟨p,member,rfl⟩ := List.mem_map.mp inside
        have same := (promotedDeck reconciled member).symm.trans tracked
        cases Option.some.inj same
        exact List.all_eq_true.mp all p member
      · have absent := reconciled.others key inside
        simp [KeyMap.getMap,absent] at tracked

theorem lessonMeetsMerge (now : Instant) {l : LessonProgress}
    (distinct : (decks.map fun p => p.1.key).Nodup) (reconciled : Reconciled oldLesson decks l) :
    l.rollUp now = lesson now oldLesson decks := by
  refine LessonProgress.sameLesson (fun key => ?_) ?_
  · rw [LessonProgress.rollUp,LessonProgress.promotedDecks]
    by_cases inside : key ∈ decks.map fun p => p.1.key
    · obtain ⟨p,member,rfl⟩ := List.mem_map.mp inside
      rw [lessonDeck distinct member]
      exact promotedDeck reconciled member
    · rw [lessonOtherDeck inside,KeyMap.getMap,reconciled.others key inside,Option.map_none]
  · rw [LessonProgress.rollUp,LessonProgress.promotedMark,reconciledLessonDone reconciled,
      lessonMarkFinished,← reconciled.mark]
    rfl

end Merge

namespace CourseProgress

def completes (p : CourseProgress) (id : LessonId) : Bool :=
  (p.lesson? id.key).any (·.isCompleted)

theorem nextLessonTracked {p : CourseProgress} {ids : List LessonId}
    (tracked : ∀ id ∈ ids, ∃ l, p.lesson? id.key = some l) (last : Option LessonId) :
    p.nextLesson last ids =
      ((ids.find? fun id => !p.completes id).or ids.getLast?).or last := by
  induction ids generalizing last with
  | nil => rfl
  | cons id ids ih =>
    obtain ⟨l,found⟩ := tracked id List.mem_cons_self
    have rest := ih (fun other member => tracked other (List.mem_cons_of_mem _ member))
    have completes : p.completes id = l.isCompleted := by rw [CourseProgress.completes,found]; rfl
    rw [nextLesson,found,List.find?_cons,completes]
    cases done : l.isCompleted with
    | false => simp [done]
    | true =>
      simp only [done,if_true,Bool.not_true,rest,List.getLast?_cons]
      cases ids.find? fun id => !p.completes id with
      | some other => rfl
      | none => cases ids.getLast? <;> rfl

end CourseProgress

namespace Merge

variable {outline : List LessonOutline} {old state : CourseProgress}

theorem courseLessonAt (now : Instant) (old : CourseProgress)
    (distinct : (outline.map fun l => l.id.key).Nodup) {l : LessonOutline} (member : l ∈ outline) :
    (course now old outline).lesson? l.id.key = some (courseLesson now old l) := by
  refine KeyMap.getOfListMember ?_ (List.mem_map.mpr ⟨l,member,rfl⟩)
  rw [List.map_map]
  exact distinct

theorem courseOtherLesson (now : Instant) (old : CourseProgress) {key : String}
    (other : key ∉ outline.map fun l => l.id.key) :
    (course now old outline).lesson? key = none := by
  refine KeyMap.getOfListAbsent ?_
  rw [List.map_map]
  exact other

theorem mergedLesson (distinct : (outline.map fun l => l.id.key).Nodup) {key : String}
    {l : LessonProgress} (found : (course now old outline).lesson? key = some l) :
    ∃ o ∈ outline, o.id.key = key ∧ courseLesson now old o = l := by
  by_cases inside : key ∈ outline.map fun l => l.id.key
  · obtain ⟨o,member,rfl⟩ := List.mem_map.mp inside
    rw [courseLessonAt now old distinct member] at found
    exact ⟨o,member,rfl,Option.some.inj found⟩
  · rw [courseOtherLesson now old inside] at found
    cases found

def LessonsReconciled (old : CourseProgress) (outline : List LessonOutline)
    (state : CourseProgress) : Prop :=
  ∀ l ∈ outline, ∃ progress, state.lesson? l.id.key = some progress ∧
    Reconciled (old.lesson? l.id.key) l.decks progress

def rolled (now : Instant) (outline : List LessonOutline) (state : CourseProgress) :
    CourseProgress :=
  (state.retainLessons (outline.map fun l => l.id.key)).rollUp now

theorem rolledLesson (now : Instant) (outline : List LessonOutline) (state : CourseProgress)
    (key : String) :
    (rolled now outline state).lessons.get? key =
      if key ∈ outline.map (fun l => l.id.key) then
        (state.lessons.get? key).map (·.rollUp now) else none := by
  simp only [rolled,CourseProgress.rollUp,CourseProgress.retainLessons,
    CourseProgress.lessonDiff,KeyMap.getMap,KeyMap.getRetained]
  split <;> rfl

theorem rolledLessons (now : Instant) (distinct : (outline.map fun l => l.id.key).Nodup)
    (decksDistinct : ∀ l ∈ outline, (l.decks.map fun p => p.1.key).Nodup)
    (reconciled : LessonsReconciled old outline state) :
    (rolled now outline state).lessons = (course now old outline).lessons := by
  refine KeyMap.ext fun key => ?_
  rw [rolledLesson]
  split
  · rename_i inside
    obtain ⟨l,member,rfl⟩ := List.mem_map.mp inside
    obtain ⟨progress,found,ready⟩ := reconciled l member
    have meets := lessonMeetsMerge now (decksDistinct l member) ready
    rw [CourseProgress.lesson?] at found
    rw [found,Option.map_some,meets]
    exact (courseLessonAt now old distinct member).symm
  · rename_i outside
    exact (courseOtherLesson now old outside).symm

theorem nextIsCurrent {p : CourseProgress} (now : Instant)
    (distinct : (outline.map fun l => l.id.key).Nodup)
    (same : p.lessons = (course now old outline).lessons) :
    p.nextLesson none (outline.map (·.id)) = current now old outline := by
  have found : ∀ l ∈ outline, p.lesson? l.id.key = some (courseLesson now old l) := by
    intro l member
    rw [CourseProgress.lesson?,same]
    exact courseLessonAt now old distinct member
  have open? : (outline.find? fun l => !p.completes l.id) =
      outline.find? fun l => !(courseLesson now old l).isCompleted := by
    refine List.find?_congr fun l member => ?_
    rw [CourseProgress.completes,found l member,Option.any_some]
  rw [CourseProgress.nextLessonTracked,Option.or_none,List.find?_map,List.getLast?_map,
    Merge.current]
  · simp only [Function.comp_def,open?]
    cases outline.find? fun l => !(courseLesson now old l).isCompleted <;> rfl
  · intro id member
    obtain ⟨l,inside,rfl⟩ := List.mem_map.mp member
    exact ⟨_,found l inside⟩

theorem courseMeetsMerge (now : Instant) (distinct : (outline.map fun l => l.id.key).Nodup)
    (decksDistinct : ∀ l ∈ outline, (l.decks.map fun p => p.1.key).Nodup)
    (reconciled : LessonsReconciled old outline state) :
    (rolled now outline state).recomputeCurrentLesson (outline.map (·.id)) =
      course now old outline := by
  have lessons := rolledLessons now distinct decksDistinct reconciled
  have current := nextIsCurrent now distinct lessons
  rw [CourseProgress.recomputeCurrentLesson,current]
  simp only [lessons]
  rfl

theorem freshDeckNotDone (cards : List CardId) : deckDone none cards = false := by
  cases cards <;> rfl

theorem freshDeckOpen (now : Instant) (cards : List CardId) :
    (deck now none cards).isCompleted = false := by
  have mark := deckMarkFinished now none cards
  rw [freshDeckNotDone] at mark
  exact congrArg Mark.isCompleted mark

theorem freshLessonNotDone (now : Instant) (decks : List (DeckId × List CardId)) :
    lessonDone now none decks = false := by
  cases decks with
  | nil => rfl
  | cons p rest =>
    have fresh : (deck now (oldDeck none p.1) p.2).isCompleted = false := freshDeckOpen now p.2
    simp [lessonDone,fresh]

theorem freshLessonOpen (now : Instant) (decks : List (DeckId × List CardId)) :
    (lesson now none decks).isCompleted = false := by
  have mark := lessonMarkFinished now none decks
  rw [freshLessonNotDone] at mark
  exact congrArg Mark.isCompleted mark

theorem freshLessonSettled {l : LessonProgress} (reconciled : Reconciled none decks l) :
    l.rollUp now = l := by
  refine LessonProgress.sameLesson (fun key => ?_) ?_
  · rw [LessonProgress.rollUp,LessonProgress.promotedDecks,KeyMap.getMap]
    by_cases inside : key ∈ decks.map fun p => p.1.key
    · obtain ⟨p,member,rfl⟩ := List.mem_map.mp inside
      have notDone : (((oldDeck none p.1).getD {}).reconcileCards (p.2.map Id.key)).allCardsCompleted
          = false := reconciledDone.trans (freshDeckNotDone p.2)
      rw [reconciled.tracked p member,Option.map_some]
      refine congrArg some (DeckProgress.sameDeck (fun _ => ?_) ?_)
      · rw [DeckProgress.promotedCards]
      · simp [DeckProgress.promotedMark,notDone,finished]
    · rw [reconciled.others key inside,Option.map_none]
  · rw [LessonProgress.rollUp,LessonProgress.promotedMark,reconciledLessonDone reconciled,
      freshLessonNotDone]
    simp [finished]
    rfl

end Merge

end Coursework
