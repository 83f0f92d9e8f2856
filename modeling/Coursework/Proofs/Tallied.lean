import Coursework.Proofs.AnswerMerge
import Coursework.Proofs.LeftBehind

/-! A batch of answers told in numbers. What it makes of a tree depends on how many of its answers to
each card are right and how many are wrong: the counters rise by them, and what they complete is
marked at the one instant of the batch, however stale the marks were before. -/
namespace Coursework

namespace Mark

structure SetOn (now : Instant) (cause : Prop) (m after : Mark) : Prop where
  set : m.isCompleted = false → cause → after = ⟨true,some now⟩
  kept : m.isCompleted = true ∨ ¬cause → after = m

namespace SetOn

variable {now : Instant} {cause other whole : Prop} {m middle after : Mark}

theorem stays (set : SetOn now cause m after) (complete : m.isCompleted = true) :
    after.isCompleted = true := by
  rw [set.kept (.inl complete)]
  exact complete

theorem caused (set : SetOn now cause m after) (open_ : m.isCompleted = false)
    (complete : after.isCompleted = true) : cause := by
  by_contra none
  rw [set.kept (.inr none),open_] at complete
  cases complete

theorem unique (one : SetOn now cause m middle) (two : SetOn now cause m after) :
    middle = after := by
  cases done : m.isCompleted with
  | true => rw [one.kept (.inl done),two.kept (.inl done)]
  | false =>
    by_cases sets : cause
    · rw [one.set done sets,two.set done sets]
    · rw [one.kept (.inr sets),two.kept (.inr sets)]

theorem either (set : SetOn now cause m after) : after = ⟨true,some now⟩ ∨ after = m := by
  cases done : m.isCompleted with
  | true => exact .inr (set.kept (.inl done))
  | false =>
    by_cases sets : cause
    · exact .inl (set.set done sets)
    · exact .inr (set.kept (.inr sets))

theorem trans (first : SetOn now cause m middle) (second : SetOn now other middle after)
    (either : whole ↔ cause ∨ other) : SetOn now whole m after := by
  constructor
  · intro open_ sets
    cases complete : middle.isCompleted with
    | false =>
      have late : other := (either.mp sets).resolve_left fun early => by
        rw [first.set open_ early] at complete
        cases complete
      exact second.set complete late
    | true =>
      rw [second.kept (.inl complete)]
      exact first.set open_ (first.caused open_ complete)
  · rintro (complete | none)
    · rw [second.kept (.inl (first.stays complete)),first.kept (.inl complete)]
    · rw [second.kept (.inr fun late => none (either.mpr (.inr late))),
        first.kept (.inr fun early => none (either.mpr (.inl early)))]

theorem finished {done : Bool} (m : Mark) (now : Instant) (is : done = true ↔ cause) :
    SetOn now cause m (Merge.finished m done now) := by
  constructor
  · intro open_ sets
    rw [Merge.finished,open_,is.mpr sets]
    rfl
  · intro keeps
    refine Merge.finishedSettled ?_ now
    rcases keeps with complete | none
    · rw [complete]
      rfl
    · rw [Bool.eq_false_iff.mpr (mt is.mp none),Bool.and_false]

end SetOn

end Mark

section Related

variable {α β γ : Type} {r : α → β → Prop} {s : β → γ → Prop} {t : α → γ → Prop}

theorem relatedRight {a : α} {o : Option β} (related : Option.Rel r (some a) o) :
    ∃ b, o = some b ∧ r a b := by
  cases related with
  | some holds => exact ⟨_,rfl,holds⟩

theorem relatedLeft {b : β} {o : Option α} (related : Option.Rel r o (some b)) :
    ∃ a, o = some a ∧ r a b := by
  cases related with
  | some holds => exact ⟨_,rfl,holds⟩

theorem relatedNone {o : Option β} (related : Option.Rel r none o) : o = none := by
  cases related
  rfl

theorem relatedTrans (step : ∀ a b c, r a b → s b c → t a c) {x : Option α} {y : Option β}
    {z : Option γ} (first : Option.Rel r x y) (second : Option.Rel s y z) : Option.Rel t x z := by
  cases first with
  | none =>
    rw [relatedNone second]
    exact .none
  | some holds =>
    obtain ⟨c,rfl,too⟩ := relatedRight second
    exact .some (step _ _ c holds too)

end Related

def tally (results : List CardAnswerResult) (card : String) (correct : Bool) : Nat :=
  results.countP fun r => r.cardId.key == card && r.correct == correct

def tallyOne (answered : String) (grade : Bool) (card : String) (correct : Bool) : Nat :=
  if answered = card ∧ grade = correct then 1 else 0

theorem tallyCons (r : CardAnswerResult) (results : List CardAnswerResult) :
    tally (r :: results) = fun card correct =>
      tallyOne r.cardId.key r.correct card correct + tally results card correct := by
  funext card correct
  simp only [tally,tallyOne,List.countP_cons,Bool.and_eq_true,beq_iff_eq]
  exact Nat.add_comm _ _

theorem completedInTwo {gains early late middle last : Prop} (either : gains ↔ early ∨ late)
    (stays : middle → last) (later : last → ¬middle → late) :
    gains ∧ last ↔ (early ∧ middle) ∨ (late ∧ last) := by
  constructor
  · rintro ⟨gained,all⟩
    by_cases full : middle
    · exact (either.mp gained).imp (⟨·,full⟩) (⟨·,all⟩)
    · exact .inr ⟨later all full,all⟩
  · rintro (⟨gained,full⟩ | ⟨gained,all⟩)
    · exact ⟨either.mpr (.inl gained),stays full⟩
    · exact ⟨either.mpr (.inr gained),all⟩

namespace CardProgress

def mark (c : CardProgress) : Mark := ⟨c.isCompleted,c.completedAt⟩

structure Tallied (now : Instant) (right wrong : Nat) (c after : CardProgress) : Prop where
  corrects : after.correctAnswers.value = min largestCount (c.correctAnswers.value + right)
  incorrects : after.incorrectAnswers.value = min largestCount (c.incorrectAnswers.value + wrong)
  mark : c.mark.SetOn now (0 < right) after.mark

variable {now : Instant} {right wrong moreRight moreWrong : Nat} {c middle after : CardProgress}

theorem Tallied.trans (first : c.Tallied now right wrong middle)
    (second : middle.Tallied now moreRight moreWrong after) :
    c.Tallied now (right + moreRight) (wrong + moreWrong) after := by
  refine ⟨?_,?_,first.mark.trans second.mark (by omega)⟩
  · rw [second.corrects,first.corrects]
    omega
  · rw [second.incorrects,first.incorrects]
    omega

theorem Tallied.unique (one : c.Tallied now right wrong middle)
    (two : c.Tallied now right wrong after) : middle = after := by
  have counted : middle.correctAnswers = after.correctAnswers :=
    Counter.ext (one.corrects.trans two.corrects.symm)
  have missed : middle.incorrectAnswers = after.incorrectAnswers :=
    Counter.ext (one.incorrects.trans two.incorrects.symm)
  have marks : middle.mark = after.mark := one.mark.unique two.mark
  cases middle
  cases after
  cases counted
  cases missed
  cases marks
  rfl

theorem untouched (now : Instant) (c : CardProgress) : c.Tallied now 0 0 c := by
  have right := c.correctAnswers.valueSmall
  have wrong := c.incorrectAnswers.valueSmall
  exact ⟨by omega,by omega,⟨fun _ none => absurd none (Nat.lt_irrefl 0),fun _ => rfl⟩⟩

theorem recordedTallies (c : CardProgress) (correct : Bool) (now : Instant) :
    c.Tallied now correct.toNat (!correct).toNat (c.recordAnswer correct now) := by
  have right := c.correctAnswers.valueSmall
  have wrong := c.incorrectAnswers.valueSmall
  cases correct with
  | false =>
    refine ⟨?_,c.incorrectAnswers.succValue,
      ⟨fun _ none => absurd none (Nat.lt_irrefl 0),fun _ => rfl⟩⟩
    change c.correctAnswers.value = min largestCount (c.correctAnswers.value + 0)
    omega
  | true =>
    have counted := c.correctAnswers.succValue
    cases complete : c.isCompleted with
    | false =>
      have recorded : c.recordAnswer true now = { c with
          correctAnswers := c.correctAnswers.succ, isCompleted := true,
          completedAt := some now } := by
        simp only [recordAnswer,complete,if_true,Bool.false_eq_true,if_false]
      rw [recorded]
      refine ⟨counted,?_,⟨fun _ _ => rfl,fun keeps => ?_⟩⟩
      · change c.incorrectAnswers.value = min largestCount (c.incorrectAnswers.value + 0)
        omega
      · rcases keeps with already | none
        · rw [mark,complete] at already
          cases already
        · exact absurd Nat.one_pos none
    | true =>
      have recorded : c.recordAnswer true now = { c with
          correctAnswers := c.correctAnswers.succ } := by
        simp only [recordAnswer,complete,if_true]
      rw [recorded]
      refine ⟨counted,?_,⟨fun open_ => ?_,fun _ => rfl⟩⟩
      · change c.incorrectAnswers.value = min largestCount (c.incorrectAnswers.value + 0)
        omega
      · rw [mark,complete] at open_
        cases open_

end CardProgress

namespace DeckProgress

def Gains (d after : DeckProgress) : Prop :=
  ∃ key c c', d.cards.get? key = some c ∧ after.cards.get? key = some c' ∧
    c.isCompleted = false ∧ c'.isCompleted = true

def AllComplete (d : DeckProgress) : Prop :=
  ∀ key c, d.cards.get? key = some c → c.isCompleted = true

structure Tallied (now : Instant) (count : String → Bool → Nat) (d after : DeckProgress) : Prop where
  cards : ∀ key, Option.Rel (CardProgress.Tallied now (count key true) (count key false))
    (d.cards.get? key) (after.cards.get? key)
  mark : d.mark.SetOn now (d.Gains after ∧ after.AllComplete) after.mark

namespace Tallied

variable {now : Instant} {count more : String → Bool → Nat} {d middle after : DeckProgress}

theorem next (tallied : d.Tallied now count after) {key : String} {c : CardProgress}
    (held : d.cards.get? key = some c) :
    ∃ c', after.cards.get? key = some c' ∧ c.Tallied now (count key true) (count key false) c' :=
  relatedRight (held ▸ tallied.cards key)

theorem before (tallied : d.Tallied now count after) {key : String} {c' : CardProgress}
    (held : after.cards.get? key = some c') :
    ∃ c, d.cards.get? key = some c ∧ c.Tallied now (count key true) (count key false) c' :=
  relatedLeft (held ▸ tallied.cards key)

theorem gainsIff (first : d.Tallied now count middle) (second : middle.Tallied now more after) :
    d.Gains after ↔ d.Gains middle ∨ middle.Gains after := by
  constructor
  · rintro ⟨key,c,c'',held,kept,open_,complete⟩
    obtain ⟨c',between,_⟩ := first.next held
    cases early : c'.isCompleted with
    | false => exact .inr ⟨key,c',c'',between,kept,early,complete⟩
    | true => exact .inl ⟨key,c,c',held,between,open_,early⟩
  · rintro (⟨key,c,c',held,between,open_,complete⟩ | ⟨key,c',c'',between,kept,open_,complete⟩)
    · obtain ⟨c'',kept,later⟩ := second.next between
      exact ⟨key,c,c'',held,kept,open_,later.mark.stays complete⟩
    · obtain ⟨c,held,earlier⟩ := first.before between
      refine ⟨key,c,c'',held,kept,?_,complete⟩
      by_contra done
      have already := earlier.mark.stays (Bool.not_eq_false _ ▸ done)
      exact Bool.false_ne_true (open_.symm.trans already)

theorem allStay (tallied : d.Tallied now count after) (all : d.AllComplete) :
    after.AllComplete := by
  intro key c' held
  obtain ⟨c,was,card⟩ := tallied.before held
  exact card.mark.stays (all key c was)

theorem completesIff (first : d.Tallied now count middle) (second : middle.Tallied now more after) :
    d.Gains after ∧ after.AllComplete ↔
      (d.Gains middle ∧ middle.AllComplete) ∨ (middle.Gains after ∧ after.AllComplete) := by
  refine completedInTwo (first.gainsIff second) second.allStay fun all open_ => ?_
  simp only [AllComplete,not_forall,Bool.not_eq_true] at open_
  obtain ⟨key,c',held,open_⟩ := open_
  obtain ⟨c'',kept,_⟩ := second.next held
  exact ⟨key,c',c'',held,kept,open_,all key c'' kept⟩

theorem trans (first : d.Tallied now count middle) (second : middle.Tallied now more after) :
    d.Tallied now (fun key correct => count key correct + more key correct) after :=
  ⟨fun key => relatedTrans (fun _ _ _ one two => one.trans two) (first.cards key) (second.cards key),
    first.mark.trans second.mark (first.completesIff second)⟩

theorem unique (one : d.Tallied now count middle) (two : d.Tallied now count after) :
    middle = after := by
  have cards : middle.cards = after.cards := by
    refine KeyMap.ext fun key => ?_
    cases held : d.cards.get? key with
    | none =>
      have first : middle.cards.get? key = none := relatedNone (held ▸ one.cards key)
      have second : after.cards.get? key = none := relatedNone (held ▸ two.cards key)
      rw [first,second]
    | some c =>
      obtain ⟨c',kept,first⟩ := one.next held
      obtain ⟨c'',keptToo,second⟩ := two.next held
      rw [kept,keptToo,first.unique second]
  refine sameDeck (fun key => by rw [cards]) ?_
  have mark := one.mark
  rw [Gains,AllComplete,cards] at mark
  exact mark.unique two.mark

end Tallied

variable {d : DeckProgress} {card : String} {c : CardProgress} {correct : Bool} {now : Instant}

theorem markAnswered (d : DeckProgress) (card : String) (c : CardProgress) (correct : Bool)
    (now : Instant) : (d.answered card c correct now).mark = Merge.finished d.mark
      (c.isCompletedBy correct && (d.answered card c correct now).allCardsCompleted) now := by
  cases completes : c.isCompletedBy correct with
  | true =>
    have promoted : d.answered card c correct now =
        (d.setCard card (c.recordAnswer correct now)).promote now := by
      simp only [answered,completes,if_true]
    rw [promoted,promotedMark,doneCongr (promotedCards _ now)]
    rfl
  | false =>
    rw [Bool.false_and,Merge.finishedSettled (Bool.and_false _)]
    simp only [answered,completes,Bool.false_eq_true,if_false]
    rfl

theorem cardAnswered (tracked : d.cards.get? card = some c) (key : String) :
    Option.Rel (CardProgress.Tallied now (tallyOne card correct key true)
      (tallyOne card correct key false)) (d.cards.get? key)
      ((d.answered card c correct now).cards.get? key) := by
  rw [answeredCards,KeyMap.getInsert]
  by_cases here : card = key
  · subst here
    have right : tallyOne card correct card true = correct.toNat := by
      cases correct <;> simp [tallyOne]
    have wrong : tallyOne card correct card false = (!correct).toNat := by
      cases correct <;> simp [tallyOne]
    rw [tracked,if_pos rfl,right,wrong]
    exact .some (c.recordedTallies correct now)
  · rw [if_neg here,tallyOne,tallyOne,if_neg fun same => here same.1,if_neg fun same => here same.1]
    cases d.cards.get? key with
    | none => exact .none
    | some c => exact .some (c.untouched now)

theorem gainsAnswered (tracked : d.cards.get? card = some c) :
    d.Gains (d.answered card c correct now) ↔ c.isCompletedBy correct = true := by
  have flag := c.recordedCompletion correct now
  rw [Gains,answeredCards,CardProgress.isCompletedBy,Bool.and_eq_true,Bool.not_eq_true']
  constructor
  · rintro ⟨key,old,new,held,kept,open_,complete⟩
    rw [KeyMap.getInsert] at kept
    split at kept
    · rename_i here
      subst here
      cases Option.some.inj (tracked.symm.trans held)
      cases Option.some.inj kept
      rw [flag,open_,Bool.false_or] at complete
      exact ⟨complete,open_⟩
    · cases Option.some.inj (held.symm.trans kept)
      exact absurd (open_.symm.trans complete) Bool.false_ne_true
  · rintro ⟨right,open_⟩
    refine ⟨card,c,_,tracked,by rw [KeyMap.getInsert,if_pos rfl],open_,?_⟩
    rw [flag,right,Bool.or_true]

theorem answeredTallies (tracked : d.cards.get? card = some c) :
    d.Tallied now (tallyOne card correct) (d.answered card c correct now) := by
  refine ⟨cardAnswered tracked,?_⟩
  rw [markAnswered]
  refine Mark.SetOn.finished d.mark now ?_
  rw [Bool.and_eq_true,gainsAnswered tracked,allCardsCompletedIff]
  refine and_congr_right fun _ => ⟨And.right,fun all => ⟨?_,all⟩⟩
  exact ⟨card,_,by rw [answeredCards,KeyMap.getInsert,if_pos rfl]⟩

end DeckProgress

namespace LessonProgress

def AllComplete (l : LessonProgress) : Prop :=
  ∀ key d, l.decks.get? key = some d → d.isCompleted = true

structure DeckTallied (now : Instant) (deck : String) (count : String → Bool → Nat)
    (l after : LessonProgress) (d d' : DeckProgress) : Prop where
  held : l.decks.get? deck = some d
  kept : after.decks.get? deck = some d'
  tallied : d.Tallied now count d'
  others : ∀ key, key ≠ deck → after.decks.get? key = l.decks.get? key
  mark : l.mark.SetOn now (d.Gains d' ∧ after.AllComplete) after.mark

def Tallied (now : Instant) (deck : String) (count : String → Bool → Nat)
    (l after : LessonProgress) : Prop :=
  ∃ d d', DeckTallied now deck count l after d d'

variable {now : Instant} {deck : String} {count more : String → Bool → Nat}
  {l middle after : LessonProgress}

namespace DeckTallied

variable {d d' d'' : DeckProgress}

theorem allStay (tallied : DeckTallied now deck count l after d d') (all : l.AllComplete) :
    after.AllComplete := by
  intro key new kept
  by_cases here : key = deck
  · subst here
    cases Option.some.inj (tallied.kept.symm.trans kept)
    exact tallied.tallied.mark.stays (all key d tallied.held)
  · exact all key new ((tallied.others key here).symm.trans kept)

theorem completesIff (first : DeckTallied now deck count l middle d d')
    (second : DeckTallied now deck more middle after d' d'') :
    d.Gains d'' ∧ after.AllComplete ↔
      (d.Gains d' ∧ middle.AllComplete) ∨ (d'.Gains d'' ∧ after.AllComplete) := by
  refine completedInTwo (first.tallied.gainsIff second.tallied) second.allStay fun all open_ => ?_
  simp only [AllComplete,not_forall,Bool.not_eq_true] at open_
  obtain ⟨key,other,held,open_⟩ := open_
  by_cases here : key = deck
  · subst here
    cases Option.some.inj (first.kept.symm.trans held)
    exact (second.tallied.mark.caused open_ (all key d'' second.kept)).1
  · have complete := all key other ((second.others key here).trans held)
    exact absurd (open_.symm.trans complete) Bool.false_ne_true

end DeckTallied

theorem Tallied.trans (first : l.Tallied now deck count middle)
    (second : middle.Tallied now deck more after) :
    l.Tallied now deck (fun key correct => count key correct + more key correct) after := by
  obtain ⟨d,d',one⟩ := first
  obtain ⟨_,d'',two⟩ := second
  cases Option.some.inj (one.kept.symm.trans two.held)
  refine ⟨d,d'',one.held,two.kept,one.tallied.trans two.tallied,fun key other => ?_,
    one.mark.trans two.mark (one.completesIff two)⟩
  rw [two.others key other,one.others key other]

theorem Tallied.unique (one : l.Tallied now deck count middle)
    (two : l.Tallied now deck count after) : middle = after := by
  obtain ⟨d,d',first⟩ := one
  obtain ⟨_,d'',second⟩ := two
  cases Option.some.inj (first.held.symm.trans second.held)
  cases first.tallied.unique second.tallied
  have decks : ∀ key, middle.decks.get? key = after.decks.get? key := by
    intro key
    by_cases here : key = deck
    · subst here
      rw [first.kept,second.kept]
    · rw [first.others key here,second.others key here]
  refine sameLesson decks ?_
  have mark := first.mark
  rw [AllComplete,KeyMap.ext decks] at mark
  exact mark.unique second.mark

theorem markAnswered (l : LessonProgress) (deck : String) (d : DeckProgress) (completes : Bool)
    (now : Instant) : (l.answered deck d completes now).mark = Merge.finished l.mark
      (completes && (l.answered deck d completes now).allDecksCompleted) now := by
  cases completes with
  | true =>
    have promoted : l.answered deck d true now = (l.setDeck deck d).promote now := rfl
    rw [promoted,promotedMark,doneCongr (promotedDecks _ now)]
    rfl
  | false =>
    rw [Bool.false_and,Merge.finishedSettled (Bool.and_false _)]
    rfl

theorem answeredTallies {d : DeckProgress} {card : String} {c : CardProgress} (correct : Bool)
    (now : Instant) (held : l.decks.get? deck = some d) (tracked : d.cards.get? card = some c) :
    l.Tallied now deck (tallyOne card correct) (l.answeredCard deck d card c correct now) := by
  have kept : (l.answeredCard deck d card c correct now).decks.get? deck =
      some (d.answered card c correct now) := by
    rw [answeredCardDecks,KeyMap.getInsert,if_pos rfl]
  refine ⟨d,_,held,kept,DeckProgress.answeredTallies tracked,fun key other => ?_,?_⟩
  · rw [answeredCardDecks,KeyMap.getInsert,if_neg (Ne.symm other)]
  · rw [answeredCard,markAnswered]
    refine Mark.SetOn.finished l.mark now ?_
    rw [Bool.and_eq_true,DeckProgress.gainsAnswered tracked,allDecksCompletedIff]
    exact and_congr_right fun _ => ⟨And.right,fun all => ⟨⟨deck,_,kept⟩,all⟩⟩

end LessonProgress

namespace CourseProgress

structure Tallied (now : Instant) (lesson deck : String) (count : String → Bool → Nat)
    (p after : CourseProgress) : Prop where
  inside : ∃ l l', p.lesson? lesson = some l ∧ after.lesson? lesson = some l' ∧
    l.Tallied now deck count l'
  others : ∀ key, key ≠ lesson → after.lesson? key = p.lesson? key

variable {now : Instant} {lesson deck : String} {count more : String → Bool → Nat}
  {p middle after : CourseProgress}

theorem Tallied.trans (first : p.Tallied now lesson deck count middle)
    (second : middle.Tallied now lesson deck more after) :
    p.Tallied now lesson deck (fun key correct => count key correct + more key correct) after := by
  obtain ⟨l,l',held,between,one⟩ := first.inside
  obtain ⟨_,l'',again,kept,two⟩ := second.inside
  cases Option.some.inj (between.symm.trans again)
  refine ⟨⟨l,l'',held,kept,one.trans two⟩,fun key other => ?_⟩
  rw [second.others key other,first.others key other]

theorem Tallied.unique (one : p.Tallied now lesson deck count middle)
    (two : p.Tallied now lesson deck count after) : middle.lessons = after.lessons := by
  obtain ⟨l,l',held,kept,first⟩ := one.inside
  obtain ⟨_,l'',again,keptToo,second⟩ := two.inside
  cases Option.some.inj (held.symm.trans again)
  refine KeyMap.ext fun key => ?_
  by_cases here : key = lesson
  · subst here
    exact kept.trans ((congrArg some (first.unique second)).trans keptToo.symm)
  · exact (one.others key here).trans (two.others key here).symm

variable {card : String} {correct : Bool} {effect : AnswerEffect} {key : AnswerKey}
  {answers : List CardAnswer} {results : List CardAnswerResult}

theorem answerCardIs {l : LessonProgress} {d : DeckProgress} {c : CardProgress}
    (held : p.lesson? lesson = some l) (inside : l.decks.get? deck = some d)
    (tracked : d.cards.get? card = some c) (correct : Bool) (now : Instant) :
    p.answerCard lesson deck card correct now =
      .ok (p.setLesson lesson (l.answeredCard deck d card c correct now),
        ⟨correct,(c.recordAnswer correct now).isCompleted,
          (d.answered card c correct now).isCompleted,
          (l.answeredCard deck d card c correct now).isCompleted⟩) := by
  rw [lesson?] at held
  simp only [answerCard,held,inside,tracked]
  rfl

theorem answerCardTallies
    (ok : p.answerCard lesson deck card correct now = .ok (after,effect)) :
    p.Tallied now lesson deck (tallyOne card correct) after := by
  obtain ⟨l,d,c,held,inside,tracked,rfl⟩ := answerCardOk ok
  refine ⟨⟨l,_,held,?_,LessonProgress.answeredTallies correct now inside tracked⟩,fun key other => ?_⟩
  · exact (KeyMap.getInsert _ _ _ _).trans (if_pos rfl)
  · exact (KeyMap.getInsert _ _ _ _).trans (if_neg (Ne.symm other))

theorem answerCardsTally (given : answers ≠ [])
    (ok : p.answerCards lesson deck key now answers = .ok (after,results)) :
    p.Tallied now lesson deck (tally results) after := by
  induction answers generalizing p results with
  | nil => exact absurd rfl given
  | cons a answers ih =>
    obtain ⟨middle,effect,rest,first,later,rfl⟩ := answerCardsCons ok
    have one := answerCardTallies first
    cases answers with
    | nil =>
      cases Except.ok.inj later
      rw [tallyCons]
      exact one
    | cons b answers =>
      rw [tallyCons]
      exact one.trans (ih (by simp) later)

end CourseProgress

end Coursework
