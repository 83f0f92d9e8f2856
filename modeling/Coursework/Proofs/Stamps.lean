import Coursework.Proofs.AnswerMerge
import Coursework.Proofs.Earned
import Coursework.Proofs.LeftBehind
import Mathlib.Order.Basic

/-! When things were completed. In a dated tree nothing is completed before what it consists of, and
all of it within one span of time. Merging and answering at a later instant keep a tree dated, and
what is complete before and after keeps its instant. -/
namespace Coursework

namespace Instant

theorem before {a b : Instant} :
    a < b ↔ a.seconds < b.seconds ∨ a.seconds = b.seconds ∧ a.nanos < b.nanos :=
  Iff.rfl

instance : Preorder Instant where
  le a b := ¬b < a
  le_refl a := by
    rw [before]
    omega
  le_trans a b c := by
    simp only [before]
    omega
  lt_iff_le_not_ge a b := by
    simp only [before]
    omega

def Within (first last : Instant) (t : Option Instant) : Prop :=
  ∀ s, t = some s → first ≤ s ∧ s ≤ last

variable {first last now : Instant} {t : Option Instant}

theorem withinNone : Within first last none := fun _ set => nomatch set

theorem Within.longer (within : Within first last t) (later : last ≤ now) : Within first now t :=
  fun s set => ⟨(within s set).1,(within s set).2.trans later⟩

end Instant

/- A completion has its instant, and of the given ones none is later. -/
def Mark.Follows (m : Mark) (parts : Instant → Prop) : Prop :=
  m.isCompleted = true → ∃ t, m.completedAt = some t ∧ ∀ s, parts s → s ≤ t

namespace Merge

variable {m : Mark} {done : Bool} {first last now : Instant} {parts fewer : Instant → Prop}

theorem followsFewer (follows : m.Follows parts) (fewer_ : ∀ s, fewer s → parts s) :
    m.Follows fewer := by
  intro complete
  obtain ⟨t,set,latest⟩ := follows complete
  exact ⟨t,set,fun s part => latest s (fewer_ s part)⟩

theorem finishedStays (complete : m.isCompleted = true) (done : Bool) (now : Instant) :
    finished m done now = m := by
  simp [finished,complete]

theorem finishedWithin (within : Instant.Within first last m.completedAt) (born : first ≤ now)
    (later : last ≤ now) : Instant.Within first now (finished m done now).completedAt := by
  unfold finished
  split
  · intro s set
    cases Option.some.inj set
    exact ⟨born,le_refl _⟩
  · exact within.longer later

theorem finishedFollows (kept : m.Follows parts) (past : ∀ s, parts s → s ≤ now) :
    (finished m done now).Follows parts := by
  unfold finished
  split
  · exact fun _ => ⟨now,rfl,past⟩
  · exact kept

end Merge

def DeckProgress.times (d : DeckProgress) (s : Instant) : Prop :=
  ∃ key c, d.cards.get? key = some c ∧ c.completedAt = some s

def LessonProgress.times (l : LessonProgress) (s : Instant) : Prop :=
  ∃ key d, l.decks.get? key = some d ∧ d.completedAt = some s

structure DeckProgress.Dated (first last : Instant) (d : DeckProgress) : Prop where
  cards : ∀ key c, d.cards.get? key = some c → Instant.Within first last c.completedAt
  own : Instant.Within first last d.completedAt
  follows : d.mark.Follows d.times

structure LessonProgress.Dated (first last : Instant) (l : LessonProgress) : Prop where
  decks : ∀ key d, l.decks.get? key = some d → d.Dated first last
  own : Instant.Within first last l.completedAt
  follows : l.mark.Follows l.times

def CourseProgress.Dated (first last : Instant) (p : CourseProgress) : Prop :=
  ∀ key l, p.lessons.get? key = some l → l.Dated first last

section Spans

variable {first last now : Instant}

theorem DeckProgress.Dated.past {d : DeckProgress} (dated : d.Dated first last) {s : Instant}
    (part : d.times s) : s ≤ last := by
  obtain ⟨key,c,found,set⟩ := part
  exact (dated.cards key c found s set).2

theorem DeckProgress.Dated.longer {d : DeckProgress} (dated : d.Dated first last)
    (later : last ≤ now) : d.Dated first now :=
  ⟨fun key c found => (dated.cards key c found).longer later,dated.own.longer later,dated.follows⟩

theorem LessonProgress.Dated.longer {l : LessonProgress} (dated : l.Dated first last)
    (later : last ≤ now) : l.Dated first now :=
  ⟨fun key d found => (dated.decks key d found).longer later,dated.own.longer later,dated.follows⟩

theorem CourseProgress.Dated.longer {p : CourseProgress} (dated : p.Dated first last)
    (later : last ≤ now) : p.Dated first now :=
  fun key l found => (dated key l found).longer later

end Spans

namespace Merge

variable {first last now : Instant}

section Deck

variable {old : Option DeckProgress} {d : DeckProgress} {cards : List CardId}

theorem deckTimes {s : Instant} (part : (deck now old cards).times s) :
    ∃ d, old = some d ∧ d.times s := by
  obtain ⟨key,c,found,set⟩ := part
  rw [deckCards] at found
  split at found
  · cases Option.some.inj found
    cases old with
    | none => cases set
    | some d =>
      rw [Option.bind_some] at set
      cases tracked : d.cards.get? key with
      | none =>
        rw [tracked] at set
        cases set
      | some c =>
        rw [tracked] at set
        exact ⟨d,rfl,key,c,tracked,set⟩
  · cases found

theorem deckKept (now : Instant) (kept : reopensDeck (some d) cards = false)
    (complete : d.isCompleted = true) :
    (deck now (some d) cards).mark = d.mark := by
  have mark : deckMark (some d) cards = d.mark := if_neg (Bool.eq_false_iff.mp kept)
  rw [deckMarkFinished,mark]
  exact finishedStays complete _ now

theorem reopenedDeck (now : Instant) (consistent : ∀ d, old = some d → d.Consistent)
    (reopens : reopensDeck old cards = true) : (deck now old cards).isCompleted = false := by
  rw [← Bool.not_eq_true,deckCompleteIff consistent]
  rintro ⟨nonempty,all⟩
  have untracked : ∃ id ∈ cards, (old.bind fun d => d.cards.get? id.key) = none := by
    simp only [reopensDeck,Bool.or_eq_true,Option.isNone_iff_eq_none,List.isEmpty_iff,
      List.any_eq_true] at reopens
    obtain (rfl | empty) | found := reopens
    · obtain ⟨id,rest,rfl⟩ := List.exists_cons_of_ne_nil nonempty
      exact ⟨id,List.mem_cons_self,rfl⟩
    · exact absurd empty nonempty
    · exact found
  obtain ⟨id,listed,none⟩ := untracked
  have complete := all id listed
  rw [card,none] at complete
  cases complete

theorem deckStays (consistent : d.Consistent) (complete : d.isCompleted = true)
    (still : (deck now (some d) cards).isCompleted = true) :
    (deck now (some d) cards).mark = d.mark := by
  refine deckKept now (Bool.eq_false_iff.mpr fun reopens => ?_) complete
  have sound : ∀ other, some d = some other → other.Consistent :=
    fun _ same => Option.some.inj same ▸ consistent
  have open_ := reopenedDeck now sound reopens
  rw [open_] at still
  cases still

theorem deckDated (dated : ∀ d, old = some d → d.Dated first last) (born : first ≤ now)
    (later : last ≤ now) : (deck now old cards).Dated first now := by
  have past : ∀ s, (deck now old cards).times s → s ≤ now := by
    intro s part
    obtain ⟨d,rfl,before⟩ := deckTimes part
    exact ((dated d rfl).past before).trans later
  constructor
  · intro key c found s set
    obtain ⟨d,rfl,other,before,tracked,same⟩ := deckTimes ⟨key,c,found,set⟩
    exact ((dated d rfl).cards other before tracked).longer later s same
  · have within : Instant.Within first last (deckMark old cards).completedAt := by
      unfold deckMark
      split
      · exact Instant.withinNone
      · cases old with
        | none => exact Instant.withinNone
        | some d => exact (dated d rfl).own
    exact finishedWithin within born later
  · rw [deckMarkFinished]
    refine finishedFollows ?_ past
    unfold deckMark
    split
    · exact fun complete => nomatch complete
    · cases old with
      | none => exact fun complete => nomatch complete
      | some d =>
        refine followsFewer (dated d rfl).follows fun s part => ?_
        obtain ⟨_,same,before⟩ := deckTimes part
        cases Option.some.inj same
        exact before

end Deck

section Lesson

variable {old : Option LessonProgress} {l : LessonProgress} {decks : List (DeckId × List CardId)}

theorem lessonKept (kept : reopensLesson (some l) decks = false) (complete : l.isCompleted = true) :
    (lesson now (some l) decks).mark = l.mark := by
  have mark : lessonMark (some l) decks = l.mark := if_neg (Bool.eq_false_iff.mp kept)
  rw [lessonMarkFinished,mark]
  exact finishedStays complete _ now

theorem keptDeck (kept : reopensLesson old decks = false) {p : DeckId × List CardId}
    (member : p ∈ decks) : reopensDeck (oldDeck old p.1) p.2 = false := by
  simp only [reopensLesson,Bool.or_eq_false_iff,List.any_eq_false] at kept
  exact Bool.eq_false_iff.mpr (kept.2 p member)

theorem reopenedLesson (consistent : l.Consistent) (reopens : reopensLesson (some l) decks = true) :
    (lesson now (some l) decks).isCompleted = false := by
  have sound : ∀ other, some l = some other → other.Consistent :=
    fun _ same => Option.some.inj same ▸ consistent
  rw [← Bool.not_eq_true]
  intro complete
  have done : lessonDone now (some l) decks = true :=
    (finishedDone now (lessonMarkSound sound)).symm.trans complete
  simp only [lessonDone,Bool.and_eq_true,Bool.not_eq_true',List.all_eq_true] at done
  simp only [reopensLesson,Option.isNone_some,Bool.false_or,done.1,List.any_eq_true] at reopens
  obtain ⟨p,member,deckReopens⟩ := reopens
  have open_ := reopenedDeck now (oldDeckConsistent sound p.1) deckReopens
  rw [done.2 p member] at open_
  cases open_

theorem lessonStays (consistent : l.Consistent) (complete : l.isCompleted = true)
    (still : (lesson now (some l) decks).isCompleted = true) :
    (lesson now (some l) decks).mark = l.mark := by
  refine lessonKept (Bool.eq_false_iff.mpr fun reopens => ?_) complete
  rw [reopenedLesson consistent reopens] at still
  cases still

theorem oldDeckDated (dated : ∀ l, old = some l → l.Dated first last) (id : DeckId) :
    ∀ d, oldDeck old id = some d → d.Dated first last := by
  intro d found
  cases old with
  | none => cases found
  | some l => exact (dated l rfl).decks id.key d found

theorem keptTimes (consistent : l.Consistent) (distinct : (decks.map fun p => p.1.key).Nodup)
    (kept : reopensLesson (some l) decks = false) (complete : l.isCompleted = true) {s : Instant}
    (part : (lesson now (some l) decks).times s) : l.times s := by
  obtain ⟨key,d,found,set⟩ := part
  obtain ⟨p,member,_,rfl⟩ := mergedDeck distinct found
  have keptDeck := keptDeck kept member
  cases tracked : oldDeck (some l) p.1 with
  | none =>
    rw [tracked] at keptDeck
    cases keptDeck
  | some before =>
    rw [tracked] at keptDeck set
    have deckComplete := (consistent.earned.mp complete).2 p.1.key before tracked
    have same := congrArg Mark.completedAt (deckKept now keptDeck deckComplete)
    exact ⟨p.1.key,before,tracked,same.symm.trans set⟩

theorem lessonDated (consistent : ∀ l, old = some l → l.Consistent)
    (distinct : (decks.map fun p => p.1.key).Nodup)
    (dated : ∀ l, old = some l → l.Dated first last) (born : first ≤ now) (later : last ≤ now) :
    (lesson now old decks).Dated first now := by
  have parts : ∀ key d, (lesson now old decks).decks.get? key = some d → d.Dated first now := by
    intro key d found
    obtain ⟨p,_,_,rfl⟩ := mergedDeck distinct found
    exact deckDated (oldDeckDated dated p.1) born later
  refine ⟨parts,?_,?_⟩
  · have within : Instant.Within first last (lessonMark old decks).completedAt := by
      unfold lessonMark
      split
      · exact Instant.withinNone
      · cases old with
        | none => exact Instant.withinNone
        | some l => exact (dated l rfl).own
    exact finishedWithin within born later
  · rw [lessonMarkFinished]
    refine finishedFollows (fun complete => ?_) fun s ⟨key,d,found,set⟩ =>
      ((parts key d found).own s set).2
    unfold lessonMark at complete ⊢
    split at complete
    · cases complete
    · rename_i kept
      cases old with
      | none => cases complete
      | some l =>
        rw [if_neg kept]
        exact followsFewer (dated l rfl).follows (fun _ part => keptTimes (consistent l rfl)
          distinct (Bool.eq_false_iff.mpr kept) complete part) complete

end Lesson

theorem courseDated {old : CourseProgress} {outline : List LessonOutline}
    (consistent : old.Consistent) (apart : Apart outline) (dated : old.Dated first last)
    (born : first ≤ now) (later : last ≤ now) : (course now old outline).Dated first now := by
  intro key l found
  obtain ⟨o,member,_,rfl⟩ := mergedLesson apart.lessons found
  exact lessonDated (consistent.lessons o.id.key) (apart.decks o member) (dated o.id.key) born later

end Merge

namespace CardProgress

variable {c : CardProgress} {correct : Bool} {first last now : Instant}

theorem recordedStays (correct : Bool) (now : Instant) (complete : c.isCompleted = true) :
    (c.recordAnswer correct now).completedAt = c.completedAt := by
  cases correct <;> simp [recordAnswer,complete]

theorem recordedWithin (within : Instant.Within first last c.completedAt) (born : first ≤ now)
    (later : last ≤ now) : Instant.Within first now (c.recordAnswer correct now).completedAt := by
  unfold recordAnswer
  cases correct with
  | false => exact within.longer later
  | true =>
    cases c.isCompleted with
    | true => exact within.longer later
    | false =>
      intro s set
      cases Option.some.inj set
      exact ⟨born,le_refl _⟩

end CardProgress

namespace DeckProgress

variable {d : DeckProgress} {card : String} {c : CardProgress} {correct : Bool}
  {first last now : Instant}

theorem answeredStill (correct : Bool) (now : Instant) (consistent : d.Consistent)
    (tracked : d.cards.get? card = some c) (complete : d.isCompleted = true) :
    (d.answered card c correct now).mark = d.mark := by
  rw [answeredMark consistent.settled tracked]
  exact Merge.finishedStays complete _ now

theorem answeredDated (consistent : d.Consistent) (tracked : d.cards.get? card = some c)
    (dated : d.Dated first last) (born : first ≤ now) (later : last ≤ now) :
    (d.answered card c correct now).Dated first now := by
  have cards : ∀ key c', (d.answered card c correct now).cards.get? key = some c' →
      Instant.Within first now c'.completedAt := by
    rw [answeredCards]
    exact KeyMap.everyInsert (fun key c' found => (dated.cards key c' found).longer later)
      (CardProgress.recordedWithin (dated.cards card c tracked) born later)
  refine ⟨cards,?_,?_⟩
  · change Instant.Within first now (d.answered card c correct now).mark.completedAt
    rw [answeredMark consistent.settled tracked]
    exact Merge.finishedWithin dated.own born later
  · rw [answeredMark consistent.settled tracked]
    refine Merge.finishedFollows (fun complete => ?_) fun s ⟨key,c',found,set⟩ =>
      (cards key c' found s set).2
    -- a complete deck has complete cards only, and those keep their instants
    have same := CardProgress.recordedStays correct now
      ((consistent.earned.mp complete).2 card c tracked)
    refine Merge.followsFewer dated.follows (fun s ⟨key,c',found,set⟩ => ?_) complete
    rw [answeredCards,KeyMap.getInsert] at found
    split at found
    · cases Option.some.inj found
      exact ⟨card,c,tracked,same.symm.trans set⟩
    · exact ⟨key,c',found,set⟩

end DeckProgress

namespace LessonProgress

variable {l : LessonProgress} {deck : String} {d : DeckProgress} {card : String} {c : CardProgress}
  {correct : Bool} {first last now : Instant}

theorem answeredCardStill (consistent : l.Consistent) (tracked : l.decks.get? deck = some d)
    (complete : l.isCompleted = true) :
    (l.answeredCard deck d card c correct now).mark = l.mark := by
  rw [answeredCardMark consistent.settled.own tracked]
  exact Merge.finishedStays complete _ now

theorem answeredCardDated (consistent : l.Consistent) (tracked : l.decks.get? deck = some d)
    (cardTracked : d.cards.get? card = some c) (dated : l.Dated first last) (born : first ≤ now)
    (later : last ≤ now) : (l.answeredCard deck d card c correct now).Dated first now := by
  have deckOk := consistent.decks deck d tracked
  have decks : ∀ key d', (l.answeredCard deck d card c correct now).decks.get? key = some d' →
      d'.Dated first now := by
    rw [answeredCardDecks]
    exact KeyMap.everyInsert (fun key d' found => (dated.decks key d' found).longer later)
      (DeckProgress.answeredDated deckOk cardTracked (dated.decks deck d tracked) born later)
  refine ⟨decks,?_,?_⟩
  · change Instant.Within first now (l.answeredCard deck d card c correct now).mark.completedAt
    rw [answeredCardMark consistent.settled.own tracked]
    exact Merge.finishedWithin dated.own born later
  · rw [answeredCardMark consistent.settled.own tracked]
    refine Merge.finishedFollows (fun complete => ?_) fun s ⟨key,d',found,set⟩ =>
      ((decks key d' found).own s set).2
    have same := congrArg Mark.completedAt (DeckProgress.answeredStill correct now
      deckOk cardTracked ((consistent.earned.mp complete).2 deck d tracked))
    refine Merge.followsFewer dated.follows (fun s ⟨key,d',found,set⟩ => ?_) complete
    rw [answeredCardDecks,KeyMap.getInsert] at found
    split at found
    · cases Option.some.inj found
      exact ⟨deck,d,tracked,same.symm.trans set⟩
    · exact ⟨key,d',found,set⟩

end LessonProgress

namespace CourseProgress

variable {p q after : CourseProgress} {lesson deck : String} {correct : Bool}
  {first last now : Instant}

theorem answerCardDated {card : String} {effect : AnswerEffect} (consistent : p.Consistent)
    (ok : p.answerCard lesson deck card correct now = .ok (after,effect))
    (dated : p.Dated first last) (born : first ≤ now) (later : last ≤ now) :
    after.Dated first now := by
  obtain ⟨l,d,c,lessonFound,deckFound,cardFound,rfl⟩ := answerCardOk ok
  exact KeyMap.everyInsert (fun key l' found => (dated key l' found).longer later)
    (LessonProgress.answeredCardDated (consistent.lessons lesson l lessonFound) deckFound cardFound
      (dated lesson l lessonFound) born later)

theorem answerCardsDated {key : AnswerKey} {answers : List CardAnswer}
    {results : List CardAnswerResult} (consistent : p.Consistent)
    (ok : p.answerCards lesson deck key now answers = .ok (after,results))
    (dated : p.Dated first last) (born : first ≤ now) (later : last ≤ now) :
    after.Dated first now := by
  induction answers generalizing p last results with
  | nil =>
    cases Except.ok.inj ok
    exact dated.longer later
  | cons a answers ih =>
    obtain ⟨middle,effect,rest,one,others,rfl⟩ := answerCardsCons ok
    exact ih (answerCardConsistent consistent one) others
      (answerCardDated consistent one dated born later) (le_refl now)

end CourseProgress

/- What of a tree can be marked as complete by its parts: a lesson or a deck. -/
inductive Place where
  | lesson (lesson : String)
  | deck (lesson deck : String)
  deriving DecidableEq, Repr

namespace CourseProgress

def markAt (p : CourseProgress) : Place → Mark
  | .lesson lesson => ((p.lesson? lesson).map LessonProgress.mark).getD {}
  | .deck lesson deck => ((p.deck? lesson deck).map DeckProgress.mark).getD {}

def CompleteAt (p : CourseProgress) (place : Place) : Prop := (p.markAt place).isCompleted = true

def Preserved (p q : CourseProgress) : Prop :=
  ∀ place, p.CompleteAt place → q.markAt place = p.markAt place

def SameMarks (p q : CourseProgress) : Prop :=
  ∀ place, p.CompleteAt place → q.CompleteAt place → q.markAt place = p.markAt place

variable {p q after : CourseProgress} {lesson deck : String} {l : LessonProgress}
  {d : DeckProgress} {correct : Bool} {now : Instant}

theorem lessonMarked (found : p.lesson? lesson = some l) : p.markAt (.lesson lesson) = l.mark := by
  rw [markAt,found]
  rfl

theorem deckMarked (found : p.lesson? lesson = some l) (inside : l.decks.get? deck = some d) :
    p.markAt (.deck lesson deck) = d.mark := by
  rw [markAt,deck?,found,Option.bind_some,inside]
  rfl

theorem lessonTracked (complete : p.CompleteAt (.lesson lesson)) :
    ∃ l, p.lesson? lesson = some l ∧ l.isCompleted = true := by
  rw [CompleteAt,markAt] at complete
  cases tracked : p.lesson? lesson with
  | none =>
    rw [tracked] at complete
    cases complete
  | some l =>
    rw [tracked] at complete
    exact ⟨l,rfl,complete⟩

theorem deckTracked (complete : p.CompleteAt (.deck lesson deck)) :
    ∃ l d, p.lesson? lesson = some l ∧ l.decks.get? deck = some d ∧ d.isCompleted = true := by
  rw [CompleteAt,markAt] at complete
  cases tracked : p.deck? lesson deck with
  | none =>
    rw [tracked] at complete
    cases complete
  | some d =>
    rw [tracked] at complete
    obtain ⟨l,found,inside⟩ := Option.bind_eq_some_iff.mp tracked
    exact ⟨l,d,found,inside,complete⟩

theorem Preserved.then {r : CourseProgress} (one : p.Preserved q) (other : q.Preserved r) :
    p.Preserved r := by
  intro place complete
  have same := one place complete
  have still : q.CompleteAt place := (congrArg Mark.isCompleted same).trans complete
  exact (other place still).trans same

theorem sameLessons (same : q.lessons = p.lessons) : p.Preserved q := by
  have tracked : q.lesson? = p.lesson? := by
    unfold lesson?
    rw [same]
  intro place _
  cases place with
  | lesson lesson => rw [markAt,markAt,tracked]
  | deck lesson deck => rw [markAt,markAt,deck?,deck?,tracked]

theorem answerCardPreserves {card : String} {effect : AnswerEffect} (consistent : p.Consistent)
    (ok : p.answerCard lesson deck card correct now = .ok (after,effect)) : p.Preserved after := by
  obtain ⟨l,d,c,lessonFound,deckFound,cardFound,rfl⟩ := answerCardOk ok
  change p.Preserved (p.setLesson lesson (l.answeredCard deck d card c correct now))
  have lessonOk := consistent.lessons lesson l lessonFound
  have here : (p.setLesson lesson (l.answeredCard deck d card c correct now)).lesson? lesson =
      some (l.answeredCard deck d card c correct now) := by
    rw [lesson?,setLesson,KeyMap.getInsert,if_pos rfl]
  have elsewhere : ∀ key, lesson ≠ key →
      (p.setLesson lesson (l.answeredCard deck d card c correct now)).lesson? key =
        p.lesson? key := by
    intro key other
    rw [lesson?,setLesson,KeyMap.getInsert,if_neg other]
    rfl
  intro place complete
  cases place with
  | lesson key =>
    by_cases same : lesson = key
    · subst same
      obtain ⟨_,found,done⟩ := lessonTracked complete
      cases Option.some.inj (lessonFound.symm.trans found)
      rw [lessonMarked here,lessonMarked lessonFound]
      exact LessonProgress.answeredCardStill lessonOk deckFound done
    · rw [markAt,markAt,elsewhere key same]
  | deck key other =>
    by_cases same : lesson = key
    · subst same
      obtain ⟨_,d',found,inside,done⟩ := deckTracked complete
      cases Option.some.inj (lessonFound.symm.trans found)
      have decks := l.answeredCardDecks deck d card c correct now
      rw [deckMarked lessonFound inside]
      by_cases sameDeck : deck = other
      · subst sameDeck
        cases Option.some.inj (deckFound.symm.trans inside)
        rw [← DeckProgress.answeredStill correct now (lessonOk.decks deck d deckFound) cardFound done]
        refine deckMarked here ?_
        rw [decks,KeyMap.getInsert,if_pos rfl]
      · refine deckMarked here ?_
        rw [decks,KeyMap.getInsert,if_neg sameDeck,inside]
    · rw [markAt,markAt,deck?,deck?,elsewhere key same]

theorem answerCardsPreserve {key : AnswerKey} {answers : List CardAnswer}
    {results : List CardAnswerResult} (consistent : p.Consistent)
    (ok : p.answerCards lesson deck key now answers = .ok (after,results)) : p.Preserved after := by
  induction answers generalizing p results with
  | nil =>
    cases Except.ok.inj ok
    exact sameLessons rfl
  | cons a answers ih =>
    obtain ⟨middle,effect,rest,one,others,rfl⟩ := answerCardsCons ok
    exact (answerCardPreserves consistent one).then
      (ih (answerCardConsistent consistent one) others)

end CourseProgress

theorem Merge.courseKeepsMarks {old : CourseProgress} {outline : List LessonOutline} {now : Instant}
    (consistent : old.Consistent) (apart : Apart outline) :
    old.SameMarks (course now old outline) := by
  intro place complete still
  cases place with
  | lesson key =>
    obtain ⟨l,before,done⟩ := CourseProgress.lessonTracked complete
    obtain ⟨m,after,stillDone⟩ := CourseProgress.lessonTracked still
    rw [CourseProgress.lessonMarked before,CourseProgress.lessonMarked after]
    obtain ⟨o,_,rfl,rfl⟩ := mergedLesson apart.lessons after
    rw [courseLesson,before] at stillDone ⊢
    exact lessonStays (consistent.lessons _ l before) done stillDone
  | deck key deck =>
    obtain ⟨l,d,before,inside,done⟩ := CourseProgress.deckTracked complete
    obtain ⟨m,e,after,insideAfter,stillDone⟩ := CourseProgress.deckTracked still
    rw [CourseProgress.deckMarked before inside,CourseProgress.deckMarked after insideAfter]
    obtain ⟨o,member,rfl,rfl⟩ := mergedLesson apart.lessons after
    obtain ⟨p,_,rfl,rfl⟩ := mergedDeck (apart.decks o member) insideAfter
    have was : oldDeck (old.lesson? o.id.key) p.1 = some d := by
      rw [oldDeck,before]
      exact inside
    rw [was] at stillDone ⊢
    exact deckStays ((consistent.lessons _ l before).decks _ d inside) done stillDone

end Coursework
