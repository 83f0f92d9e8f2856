import Coursework.Enrollment
import Coursework.Proofs.MergePaths

/-! Trees whose marks say what their cards say. A card is complete once it was answered correctly, a
deck or a lesson once it holds something and all of it is complete, and every completion has its
instant. Merging and answering keep a tree so. -/
namespace Coursework

structure CardProgress.Consistent (c : CardProgress) : Prop where
  earned : c.isCompleted = true ↔ 1 ≤ c.correctAnswers.value
  stamped : c.completedAt.isSome = true ↔ c.isCompleted = true

structure DeckProgress.Consistent (d : DeckProgress) : Prop where
  cards : ∀ key c, d.cards.get? key = some c → c.Consistent
  earned : d.isCompleted = true ↔
    (∃ key c, d.cards.get? key = some c) ∧
    ∀ key c, d.cards.get? key = some c → c.isCompleted = true
  stamped : d.completedAt.isSome = true ↔ d.isCompleted = true

structure LessonProgress.Consistent (l : LessonProgress) : Prop where
  decks : ∀ key d, l.decks.get? key = some d → d.Consistent
  earned : l.isCompleted = true ↔
    (∃ key d, l.decks.get? key = some d) ∧
    ∀ key d, l.decks.get? key = some d → d.isCompleted = true
  stamped : l.completedAt.isSome = true ↔ l.isCompleted = true

structure CourseProgress.Consistent (p : CourseProgress) : Prop where
  lessons : ∀ key l, p.lessons.get? key = some l → l.Consistent
  pointsIntoTree : ∀ id, p.currentLessonId = some id → ∃ l, p.lessons.get? id.key = some l
  pointsNowhere : p.currentLessonId = none ↔ ∀ key, p.lessons.get? key = none

structure Enrollment.Consistent (e : Enrollment) : Prop where
  state : e.state.Consistent
  current : e.currentLessonId = e.state.currentLessonId

def Mark.Stamped (m : Mark) : Prop := m.completedAt.isSome = true ↔ m.isCompleted = true

theorem finishedDone (now : Instant) {m : Mark} {done : Bool}
    (sound : m.isCompleted = true → done = true) :
    (Merge.finished m done now).isCompleted = done := by
  unfold Merge.finished
  cases marked : m.isCompleted with
  | false => cases done <;> simp [marked]
  | true => simp [marked,sound marked]

theorem finishedKeeps {m : Mark} {done : Bool} {now : Instant} (marked : m.isCompleted = true) :
    (Merge.finished m done now).isCompleted = true := by
  simp [Merge.finished,marked]

theorem finishedStamped {m : Mark} {done : Bool} {now : Instant} (stamped : m.Stamped) :
    (Merge.finished m done now).Stamped := by
  unfold Merge.finished
  split
  · exact Iff.rfl
  · exact stamped

theorem defaultCardConsistent : ({} : CardProgress).Consistent := by
  constructor <;> decide

namespace DeckProgress

variable {d : DeckProgress}

theorem Consistent.done (consistent : d.Consistent) : d.isCompleted = d.allCardsCompleted := by
  rw [Bool.eq_iff_iff,consistent.earned,allCardsCompletedIff]

theorem consistentOf (cards : ∀ key c, d.cards.get? key = some c → c.Consistent)
    (done : d.isCompleted = d.allCardsCompleted) (stamped : d.mark.Stamped) : d.Consistent :=
  ⟨cards,by rw [done,allCardsCompletedIff],stamped⟩

end DeckProgress

namespace LessonProgress

variable {l : LessonProgress}

theorem Consistent.done (consistent : l.Consistent) : l.isCompleted = l.allDecksCompleted := by
  rw [Bool.eq_iff_iff,consistent.earned,allDecksCompletedIff]

theorem consistentOf (decks : ∀ key d, l.decks.get? key = some d → d.Consistent)
    (done : l.isCompleted = l.allDecksCompleted) (stamped : l.mark.Stamped) : l.Consistent :=
  ⟨decks,by rw [done,allDecksCompletedIff],stamped⟩

end LessonProgress

namespace Merge

variable {old : Option DeckProgress} {cards : List CardId} {now : Instant}

theorem deckMarkStamped (consistent : ∀ d, old = some d → d.Consistent) :
    (deckMark old cards).Stamped := by
  unfold deckMark
  split
  · exact Iff.rfl
  · cases old with
    | none => exact Iff.rfl
    | some d => exact (consistent d rfl).stamped

theorem deckDoneKept {d : DeckProgress} (kept : reopensDeck (some d) cards = false)
    (done : d.allCardsCompleted = true) : deckDone (some d) cards = true := by
  have all := (DeckProgress.allCardsCompletedIff.mp done).2
  simp only [reopensDeck,Option.isNone_some,Bool.false_or,Bool.or_eq_false_iff,List.any_eq_false,
    Option.bind_some,Bool.not_eq_true,Option.isNone_eq_false_iff,Option.isSome_iff_exists] at kept
  simp only [deckDone,kept.1,Bool.not_false,Bool.true_and,List.all_eq_true]
  intro id member
  obtain ⟨c,found⟩ := kept.2 id member
  simp only [Merge.card,Option.bind_some,found,Option.getD_some,all id.key c found]

theorem deckMarkSound (consistent : ∀ d, old = some d → d.Consistent)
    (marked : (deckMark old cards).isCompleted = true) : deckDone old cards = true := by
  unfold deckMark at marked
  split at marked
  · cases marked
  · rename_i kept
    cases old with
    | none => cases marked
    | some d =>
      exact deckDoneKept (Bool.eq_false_iff.mpr kept) ((consistent d rfl).done.symm.trans marked)

theorem deckDoneIs : deckDone old cards = (deck now old cards).allCardsCompleted := by
  have same := congrArg DeckProgress.allCardsCompleted (deckMeetsMerge now old cards)
  rw [← same,← reconciledDone]
  simp only [DeckProgress.allCardsCompleted,DeckProgress.promotedCards]

theorem deckConsistent (consistent : ∀ d, old = some d → d.Consistent) :
    (deck now old cards).Consistent := by
  refine DeckProgress.consistentOf (fun key c found => ?_) ?_
    (finishedStamped (deckMarkStamped consistent))
  · rw [deckCards] at found
    split at found
    · cases Option.some.inj found
      cases old with
      | none => exact defaultCardConsistent
      | some d =>
        rw [Option.bind_some]
        cases tracked : d.cards.get? key with
        | none => exact defaultCardConsistent
        | some c => exact (consistent d rfl).cards key c tracked
    · cases found
  · rw [← deckDoneIs]
    exact finishedDone now (deckMarkSound consistent)

variable {oldLesson : Option LessonProgress} {decks : List (DeckId × List CardId)}

theorem oldDeckConsistent (consistent : ∀ l, oldLesson = some l → l.Consistent) (id : DeckId) :
    ∀ d, oldDeck oldLesson id = some d → d.Consistent := by
  intro d found
  cases oldLesson with
  | none => cases found
  | some l => exact (consistent l rfl).decks id.key d found

theorem lessonMarkStamped (consistent : ∀ l, oldLesson = some l → l.Consistent) :
    (lessonMark oldLesson decks).Stamped := by
  unfold lessonMark
  split
  · exact Iff.rfl
  · cases oldLesson with
    | none => exact Iff.rfl
    | some l => exact (consistent l rfl).stamped

theorem lessonDoneKept {l : LessonProgress} (kept : reopensLesson (some l) decks = false)
    (done : l.allDecksCompleted = true) : lessonDone now (some l) decks = true := by
  have all := (LessonProgress.allDecksCompletedIff.mp done).2
  simp only [reopensLesson,Option.isNone_some,Bool.false_or,Bool.or_eq_false_iff,
    List.any_eq_false] at kept
  simp only [lessonDone,kept.1,Bool.not_false,Bool.true_and,List.all_eq_true]
  intro q member
  have keptDeck := kept.2 q member
  cases tracked : oldDeck (some l) q.1 with
  | none =>
    rw [tracked] at keptDeck
    exact absurd rfl keptDeck
  | some d =>
    rw [tracked] at keptDeck
    have mark : (deckMark (some d) q.2).isCompleted = true := by
      rw [deckMark,if_neg keptDeck]
      exact all q.1.key d tracked
    exact finishedKeeps mark

theorem lessonMarkSound (consistent : ∀ l, oldLesson = some l → l.Consistent)
    (marked : (lessonMark oldLesson decks).isCompleted = true) :
    lessonDone now oldLesson decks = true := by
  unfold lessonMark at marked
  split at marked
  · cases marked
  · rename_i kept
    cases oldLesson with
    | none => cases marked
    | some l =>
      exact lessonDoneKept (Bool.eq_false_iff.mpr kept)
        ((consistent l rfl).done.symm.trans marked)

theorem lessonDoneIs (distinct : (decks.map fun p => p.1.key).Nodup) :
    lessonDone now oldLesson decks = (lesson now oldLesson decks).allDecksCompleted := by
  rw [Bool.eq_iff_iff,LessonProgress.allDecksCompletedIff]
  simp only [lessonDone,Bool.and_eq_true,Bool.not_eq_true',List.all_eq_true]
  constructor
  · rintro ⟨nonempty,all⟩
    refine ⟨?_,fun key d found => ?_⟩
    · cases decks with
      | nil => cases nonempty
      | cons p rest => exact ⟨_,_,lessonDeck distinct List.mem_cons_self⟩
    · obtain ⟨p,member,_,rfl⟩ := mergedDeck distinct found
      exact all p member
  · rintro ⟨⟨key,d,found⟩,all⟩
    refine ⟨?_,fun p member => all p.1.key _ (lessonDeck distinct member)⟩
    cases decks with
    | nil => cases found
    | cons p rest => rfl

theorem lessonConsistent (consistent : ∀ l, oldLesson = some l → l.Consistent)
    (distinct : (decks.map fun p => p.1.key).Nodup) :
    (lesson now oldLesson decks).Consistent := by
  refine LessonProgress.consistentOf (fun key d found => ?_) ?_
    (finishedStamped (lessonMarkStamped consistent))
  · obtain ⟨p,_,_,rfl⟩ := mergedDeck distinct found
    exact deckConsistent (oldDeckConsistent consistent p.1)
  · rw [← lessonDoneIs distinct]
    exact finishedDone now (lessonMarkSound consistent)

variable {oldCourse : CourseProgress} {outline : List LessonOutline}

theorem currentListed {id : LessonId} (found : current now oldCourse outline = some id) :
    ∃ l ∈ outline, l.id = id := by
  unfold current at found
  split at found
  · rename_i l first
    cases Option.some.inj found
    exact ⟨l,List.mem_of_find?_eq_some first,rfl⟩
  · obtain ⟨l,last,rfl⟩ := Option.map_eq_some_iff.mp found
    exact ⟨l,List.mem_of_getLast? last,rfl⟩

theorem currentNone : current now oldCourse outline = none ↔ outline = [] := by
  constructor
  · intro none
    unfold current at none
    split at none
    · cases none
    · exact List.getLast?_eq_none_iff.mp (Option.map_eq_none_iff.mp none)
  · rintro rfl
    rfl

theorem courseConsistent (consistent : oldCourse.Consistent) (apart : Apart outline) :
    (course now oldCourse outline).Consistent := by
  constructor
  · intro key l found
    obtain ⟨o,member,_,rfl⟩ := mergedLesson apart.lessons found
    exact lessonConsistent (fun l tracked => consistent.lessons _ l tracked) (apart.decks o member)
  · intro id current
    obtain ⟨l,member,rfl⟩ := currentListed current
    exact ⟨_,courseLessonAt now oldCourse apart.lessons member⟩
  · refine currentNone.trans ⟨?_,fun absent => ?_⟩
    · rintro rfl key
      rfl
    · cases outline with
      | nil => rfl
      | cons l rest =>
        have tracked := courseLessonAt now oldCourse apart.lessons
          (List.mem_cons_self (a := l))
        have none := (absent l.id.key).symm.trans tracked
        cases none

end Merge

theorem CardProgress.recordedConsistent {c : CardProgress} (consistent : c.Consistent)
    (correct : Bool) (now : Instant) : (c.recordAnswer correct now).Consistent := by
  have counted := c.correctAnswers.succValue
  constructor
  · rw [recordedCompletion,Bool.or_eq_true,consistent.earned]
    unfold recordAnswer
    cases correct with
    | false => simp
    | true =>
      have positive : 1 ≤ c.correctAnswers.succ.value := by
        rw [counted]
        simp only [largestCount]
        omega
      cases c.isCompleted <;> simpa using positive
  · unfold recordAnswer
    cases correct with
    | false => exact consistent.stamped
    | true =>
      cases done : c.isCompleted with
      | false => simp
      | true =>
        have stamp := consistent.stamped
        simpa [done] using stamp

theorem KeyMap.allDoneInsert {V : Type} (done : V → Bool) {m : KeyMap V} {key : String} {old v : V}
    (found : m.get? key = some old) (same : done v = done old) :
    ((∃ k w, (m.insert key v).get? k = some w) ∧
      ∀ k w, (m.insert key v).get? k = some w → done w = true) ↔
    (∃ k w, m.get? k = some w) ∧ ∀ k w, m.get? k = some w → done w = true := by
  have here : (m.insert key v).get? key = some v := by rw [getInsert,if_pos rfl]
  have there : ∀ k, key ≠ k → (m.insert key v).get? k = m.get? k := by
    intro k apart
    rw [getInsert,if_neg apart]
  constructor
  · rintro ⟨_,all⟩
    refine ⟨⟨key,old,found⟩,fun k w held => ?_⟩
    by_cases apart : key = k
    · subst apart
      cases Option.some.inj (found.symm.trans held)
      rw [← same]
      exact all key v here
    · exact all k w ((there k apart).trans held)
  · rintro ⟨_,all⟩
    refine ⟨⟨key,v,here⟩,fun k w held => ?_⟩
    by_cases apart : key = k
    · subst apart
      cases Option.some.inj (here.symm.trans held)
      rw [same]
      exact all key old found
    · exact all k w ((there k apart).symm.trans held)

theorem KeyMap.everyInsert {V : Type} {m : KeyMap V} {key : String} {v : V} {P : V → Prop}
    (all : ∀ k w, m.get? k = some w → P w) (new : P v) :
    ∀ k w, (m.insert key v).get? k = some w → P w := by
  intro k w held
  rw [getInsert] at held
  split at held
  · cases Option.some.inj held
    exact new
  · exact all k w held

namespace DeckProgress

variable {d : DeckProgress} {card : String} {c : CardProgress} {correct : Bool} {now : Instant}

theorem answeredFlag (open_ : c.isCompletedBy correct = false) :
    (d.answered card c correct now).isCompleted = d.isCompleted := by
  simp only [answered,open_,Bool.false_eq_true,if_false]
  rfl

theorem answeredConsistent (consistent : d.Consistent) (tracked : d.cards.get? card = some c) :
    (d.answered card c correct now).Consistent := by
  have cards : ∀ key c', (d.answered card c correct now).cards.get? key = some c' →
      c'.Consistent := by
    rw [answeredCards]
    exact KeyMap.everyInsert consistent.cards
      (CardProgress.recordedConsistent (consistent.cards card c tracked) correct now)
  cases completes : c.isCompletedBy correct with
  | true =>
    have was : c.isCompleted = false := by
      simp only [CardProgress.isCompletedBy,Bool.and_eq_true,Bool.not_eq_true'] at completes
      exact completes.2
    have notDone : d.isCompleted ≠ true := fun done => by
      rw [(consistent.earned.mp done).2 card c tracked] at was
      cases was
    have promoted : d.answered card c correct now =
        (d.setCard card (c.recordAnswer correct now)).promote now := by
      simp only [answered,completes,if_true]
    refine consistentOf cards ?_ ?_
    · have mark := congrArg Mark.isCompleted
        (promotedMark (d.setCard card (c.recordAnswer correct now)) now)
      rw [finishedDone now fun done => absurd done notDone] at mark
      rw [promoted]
      refine mark.trans ?_
      simp only [allCardsCompleted,promotedCards]
    · rw [promoted,promotedMark]
      exact finishedStamped consistent.stamped
  | false =>
    have same : (c.recordAnswer correct now).isCompleted = c.isCompleted := by
      rw [CardProgress.recordedCompletion]
      simp only [CardProgress.isCompletedBy] at completes
      cases correct <;> cases was : c.isCompleted <;> simp_all
    refine ⟨cards,?_,?_⟩
    · rw [answeredFlag completes,answeredCards,consistent.earned]
      exact (KeyMap.allDoneInsert (·.isCompleted) tracked same).symm
    · simp only [answered,completes,Bool.false_eq_true,if_false]
      exact consistent.stamped

end DeckProgress

namespace LessonProgress

variable {l : LessonProgress} {deck : String} {d new : DeckProgress} {completes : Bool}
  {now : Instant}

theorem answeredConsistent (consistent : l.Consistent) (tracked : l.decks.get? deck = some d)
    (newConsistent : new.Consistent) (opened : completes = true → d.isCompleted = false)
    (kept : completes = false → new.isCompleted = d.isCompleted) :
    (l.answered deck new completes now).Consistent := by
  have decks : ∀ key d', (l.answered deck new completes now).decks.get? key = some d' →
      d'.Consistent := by
    rw [answeredDecks]
    exact KeyMap.everyInsert consistent.decks newConsistent
  cases completes with
  | true =>
    have notDone : l.isCompleted ≠ true := fun done => by
      have complete := (consistent.earned.mp done).2 deck d tracked
      rw [opened rfl] at complete
      cases complete
    have promoted : l.answered deck new true now = (l.setDeck deck new).promote now := rfl
    refine consistentOf decks ?_ ?_
    · have mark := congrArg Mark.isCompleted (promotedMark (l.setDeck deck new) now)
      rw [finishedDone now fun done => absurd done notDone] at mark
      rw [promoted]
      refine mark.trans ?_
      simp only [allDecksCompleted,promotedDecks]
    · rw [promoted,promotedMark]
      exact finishedStamped consistent.stamped
  | false =>
    refine ⟨decks,?_,consistent.stamped⟩
    rw [answeredDecks]
    exact consistent.earned.trans
      (KeyMap.allDoneInsert (·.isCompleted) tracked (kept rfl)).symm

end LessonProgress

namespace CourseProgress

variable {p after : CourseProgress} {now : Instant}

theorem setLessonConsistent {key : String} {old new : LessonProgress} (consistent : p.Consistent)
    (tracked : p.lesson? key = some old) (newConsistent : new.Consistent) :
    (p.setLesson key new).Consistent := by
  constructor
  · exact KeyMap.everyInsert consistent.lessons newConsistent
  · intro id current
    obtain ⟨l,found⟩ := consistent.pointsIntoTree id current
    by_cases same : key = id.key
    · exact ⟨new,by rw [setLesson,KeyMap.getInsert,if_pos same]⟩
    · exact ⟨l,by rw [setLesson,KeyMap.getInsert,if_neg same,found]⟩
  · refine consistent.pointsNowhere.trans ⟨fun absent => ?_,fun absent => ?_⟩
    · have none := (absent key).symm.trans tracked
      cases none
    · have none := absent key
      rw [setLesson,KeyMap.getInsert,if_pos rfl] at none
      cases none

theorem answerCardConsistent {lesson deck card : String} {correct : Bool} {effect : AnswerEffect}
    (consistent : p.Consistent)
    (ok : p.answerCard lesson deck card correct now = .ok (after,effect)) : after.Consistent := by
  obtain ⟨l,d,c,lessonFound,deckFound,cardFound,rfl⟩ := answerCardOk ok
  have lessonOk := consistent.lessons lesson l lessonFound
  have deckOk := lessonOk.decks deck d deckFound
  refine setLessonConsistent consistent lessonFound (LessonProgress.answeredConsistent lessonOk
    deckFound (DeckProgress.answeredConsistent deckOk cardFound) (fun completes => ?_)
    DeckProgress.answeredFlag)
  rw [← Bool.not_eq_true]
  intro done
  have complete := (deckOk.earned.mp done).2 card c cardFound
  simp [CardProgress.isCompletedBy,complete] at completes

theorem answerCardsConsistent {lesson deck : String} {key : AnswerKey} {answers : List CardAnswer}
    {results : List CardAnswerResult} (consistent : p.Consistent)
    (ok : p.answerCards lesson deck key now answers = .ok (after,results)) : after.Consistent := by
  induction answers generalizing p results with
  | nil =>
    cases Except.ok.inj ok
    exact consistent
  | cons a answers ih =>
    obtain ⟨middle,effect,rest,first,later,rfl⟩ := answerCardsCons ok
    exact ih (answerCardConsistent consistent first) later

theorem resumeConsistent (consistent : p.Consistent) (lesson : LessonId) :
    (p.resumeAt lesson).Consistent := by
  unfold resumeAt
  split
  · rename_i complete
    cases tracked : p.lesson? lesson.key with
    | none =>
      rw [isLessonCompleted,tracked] at complete
      cases complete
    | some l =>
      refine ⟨consistent.lessons,fun id current => ?_,?_⟩
      · cases Option.some.inj current
        exact ⟨l,tracked⟩
      · refine ⟨fun none => (nomatch none),fun absent => ?_⟩
        have none := (absent lesson.key).symm.trans tracked
        cases none
  · exact consistent

theorem completedIff {key : String} {l : LessonProgress} (consistent : p.Consistent)
    (tracked : p.lesson? key = some l) : p.isLessonCompleted key = l.isCompleted := by
  rw [isLessonCompleted,tracked,Option.any_some,
    ← (consistent.lessons key l tracked).done,Bool.or_self]

end CourseProgress

theorem emptyConsistent : ({} : CourseProgress).Consistent :=
  ⟨fun _ _ found => (nomatch found),fun _ current => (nomatch current),
    ⟨fun _ _ => rfl,fun _ => rfl⟩⟩

end Coursework
