import Coursework.Proofs.Consistent
import Coursework.Proofs.SyncMerges

/-! Trees whose marks were earned. A tree may stand half reconciled, so a mark need not be there when
everything below it is complete; but where there is one, everything below is. Each edit of a tree
keeps it so on its own, whatever was done before and whatever is left to do. -/
namespace Coursework

namespace KeyMap

variable {V : Type}

def Every (P : V → Prop) (m : KeyMap V) : Prop := ∀ key v, m.get? key = some v → P v

def AllDone (done : V → Bool) (m : KeyMap V) : Prop :=
  (∃ key v, m.get? key = some v) ∧ m.Every fun v => done v = true

instance (P : V → Prop) [DecidablePred P] (m : KeyMap V) : Decidable (m.Every P) :=
  decidable_of_iff (∀ v ∈ m.values, P v) eachValueIff

instance (done : V → Bool) (m : KeyMap V) : Decidable (m.AllDone done) :=
  decidable_of_iff (m.isEmpty = false ∧ m.Every fun v => done v = true)
    (and_congr_left fun _ => notEmptyIff)

variable {m : KeyMap V} {P : V → Prop} {done : V → Bool} {v : V} {live : List String}

theorem Every.inserted (every : m.Every P) {key : String} (new : P v) : (m.insert key v).Every P :=
  everyInsert every new

theorem Every.modified {key : String} {f : V → V} (every : m.Every P)
    (kept : ∀ v, m.get? key = some v → P (f v)) : (m.modify key f).Every P := by
  unfold modify
  split
  · next v found => exact every.inserted (kept v found)
  · exact every

theorem Every.mapped {f : V → V} (every : m.Every P) (kept : ∀ v, P v → P (f v)) :
    (m.map f).Every P := by
  intro key w found
  rw [getMap] at found
  obtain ⟨v,held,rfl⟩ := Option.map_eq_some_iff.mp found
  exact kept v (every key v held)

theorem Every.retained (every : m.Every P) (live : List String) :
    (m.prune (m.diff live).extra).Every P := by
  intro key v found
  rw [getRetained] at found
  split at found
  · exact every key v found
  · cases found

theorem Every.ofList {entries : List (String × V)} (every : ∀ e ∈ entries, P e.2) :
    (ofList entries).Every P := by
  intro key v found
  rcases getFoldHolds found with inside | none
  · exact every _ inside
  · cases none

theorem Every.reconciled {after : KeyMap V} (every : m.Every P) (new : P v)
    (reconciled : ∀ key, after.get? key = if key ∈ live then some ((m.get? key).getD v) else none) :
    after.Every P := by
  intro key w found
  rw [reconciled] at found
  split at found
  · cases Option.some.inj found
    cases held : m.get? key with
    | none => exact new
    | some old => exact every key old held
  · cases found

theorem AllDone.reconciled {after : KeyMap V} (all : m.AllDone done)
    (reconciled : ∀ key, after.get? key = if key ∈ live then some ((m.get? key).getD v) else none)
    (kept : (m.lacks live || live.isEmpty) = false) : after.AllDone done := by
  obtain ⟨noneMissing,someLive⟩ := Bool.or_eq_false_iff.mp kept
  have held : ∀ key ∈ live, ∃ old, m.get? key = some old := by
    intro key isLive
    refine Option.ne_none_iff_exists'.mp fun missing => ?_
    rw [lacksIff.mpr ⟨key,isLive,missing⟩] at noneMissing
    cases noneMissing
  constructor
  · obtain ⟨key,isLive⟩ := List.isEmpty_eq_false_iff_exists_mem.mp someLive
    exact ⟨key,_,(reconciled key).trans (if_pos isLive)⟩
  · intro key w found
    rw [reconciled] at found
    split at found
    · next isLive =>
      obtain ⟨old,held⟩ := held key isLive
      rw [held] at found
      cases Option.some.inj found
      exact all.2 key old held
    · cases found

theorem AllDone.inserted {key : String} {old : V} (all : m.AllDone done)
    (tracked : m.get? key = some old) (kept : done old = true → done v = true) :
    (m.insert key v).AllDone done :=
  ⟨⟨key,v,by rw [getInsert,if_pos rfl]⟩,all.2.inserted (kept (all.2 key old tracked))⟩

theorem AllDone.mapped {f : V → V} (all : m.AllDone done)
    (kept : ∀ v, done v = true → done (f v) = true) : (m.map f).AllDone done := by
  obtain ⟨key,v,found⟩ := all.1
  exact ⟨⟨key,f v,by rw [getMap,found]; rfl⟩,all.2.mapped kept⟩

end KeyMap

structure CardProgress.Sound (c : CardProgress) : Prop where
  earned : c.isCompleted = true → 1 ≤ c.correctAnswers.value

structure DeckProgress.Sound (d : DeckProgress) : Prop where
  cards : d.cards.Every CardProgress.Sound
  earned : d.isCompleted = true → d.cards.AllDone (·.isCompleted)

structure LessonProgress.Sound (l : LessonProgress) : Prop where
  decks : l.decks.Every DeckProgress.Sound
  earned : l.isCompleted = true → l.decks.AllDone (·.isCompleted)

structure CourseProgress.Sound (p : CourseProgress) : Prop where
  lessons : p.lessons.Every LessonProgress.Sound

instance (c : CardProgress) : Decidable c.Sound :=
  decidable_of_iff (c.isCompleted = true → 1 ≤ c.correctAnswers.value)
    ⟨fun earned => ⟨earned⟩,fun sound => sound.earned⟩

instance (d : DeckProgress) : Decidable d.Sound :=
  decidable_of_iff
    (d.cards.Every CardProgress.Sound ∧ (d.isCompleted = true → d.cards.AllDone (·.isCompleted)))
    ⟨fun both => ⟨both.1,both.2⟩,fun sound => ⟨sound.cards,sound.earned⟩⟩

instance (l : LessonProgress) : Decidable l.Sound :=
  decidable_of_iff
    (l.decks.Every DeckProgress.Sound ∧ (l.isCompleted = true → l.decks.AllDone (·.isCompleted)))
    ⟨fun both => ⟨both.1,both.2⟩,fun sound => ⟨sound.decks,sound.earned⟩⟩

instance (p : CourseProgress) : Decidable p.Sound :=
  decidable_of_iff (p.lessons.Every LessonProgress.Sound)
    ⟨fun every => ⟨every⟩,fun sound => sound.lessons⟩

theorem Mark.heldBack {old new : Mark} {reopens : Bool} (mark : new = if reopens then {} else old)
    (marked : new.isCompleted = true) : reopens = false ∧ old.isCompleted = true := by
  subst mark
  cases reopens with
  | true => cases marked
  | false => exact ⟨rfl,marked⟩

namespace CardProgress

theorem freshSound : ({} : CardProgress).Sound := ⟨fun marked => by cases marked⟩

theorem Sound.recorded {c : CardProgress} (sound : c.Sound) (correct : Bool) (now : Instant) :
    (c.recordAnswer correct now).Sound := by
  constructor
  cases correct with
  | false => exact sound.earned
  | true =>
    intro _
    have counted : 1 ≤ c.correctAnswers.succ.value := by
      rw [c.correctAnswers.succValue]
      simp only [largestCount]
      omega
    unfold recordAnswer
    cases c.isCompleted <;> exact counted

theorem recordedKept {c : CardProgress} (correct : Bool) (now : Instant)
    (marked : c.isCompleted = true) : (c.recordAnswer correct now).isCompleted = true := by
  rw [recordedCompletion,marked,Bool.true_or]

end CardProgress

namespace DeckProgress

variable {d : DeckProgress}

theorem freshSound : ({} : DeckProgress).Sound :=
  ⟨fun key c found => (by cases found),fun marked => by cases marked⟩

theorem ofDeckSound (deck : Deck) : (ofDeck deck).Sound := by
  refine ⟨KeyMap.Every.ofList fun e member => ?_,fun marked => by cases marked⟩
  obtain ⟨key,_,rfl⟩ := List.mem_map.mp member
  exact CardProgress.freshSound

theorem Sound.cardSet (sound : d.Sound) {card : String} {old new : CardProgress}
    (tracked : d.cards.get? card = some old) (newSound : new.Sound)
    (kept : old.isCompleted = true → new.isCompleted = true) : (d.setCard card new).Sound :=
  ⟨sound.cards.inserted newSound,fun marked => (sound.earned marked).inserted tracked kept⟩

theorem Sound.promoted (sound : d.Sound) (now : Instant) : (d.promote now).Sound := by
  unfold promote
  split
  · next promotable =>
    have all : d.allCardsCompleted = true := by
      rw [isPromotable,Bool.and_eq_true] at promotable
      exact promotable.2
    exact ⟨sound.cards,fun _ => allCardsCompletedIff.mp all⟩
  · exact sound

theorem promotedKept (now : Instant) (marked : d.isCompleted = true) :
    (d.promote now).isCompleted = true := by
  simp only [promote,isPromotable,marked,Bool.not_true,Bool.false_and,Bool.false_eq_true,if_false]

theorem Sound.reconciled (sound : d.Sound) (live : List String) : (d.reconcileCards live).Sound := by
  refine ⟨sound.cards.reconciled CardProgress.freshSound (d.cardsReconciled live),fun marked => ?_⟩
  obtain ⟨kept,was⟩ := Mark.heldBack (d.markReconciled live) marked
  exact (sound.earned was).reconciled (d.cardsReconciled live) kept

theorem Sound.answered (sound : d.Sound) {card : String} {c : CardProgress}
    (tracked : d.cards.get? card = some c) (correct : Bool) (now : Instant) :
    (d.answered card c correct now).Sound := by
  have recorded := sound.cardSet tracked
    ((sound.cards card c tracked).recorded correct now)
    (CardProgress.recordedKept correct now)
  unfold DeckProgress.answered
  simp only
  split
  · exact recorded.promoted now
  · exact recorded

theorem answeredKept {card : String} {c : CardProgress} {correct : Bool} {now : Instant}
    (marked : d.isCompleted = true) : (d.answered card c correct now).isCompleted = true := by
  unfold answered
  simp only
  split
  · exact promotedKept now marked
  · exact marked

def modifyCard (d : DeckProgress) (card : String) (f : CardProgress → CardProgress) :
    DeckProgress :=
  { d with cards := d.cards.modify card f }

theorem Sound.modified (sound : d.Sound) {card : String} {f : CardProgress → CardProgress}
    (keeps : ∀ c, c.Sound → (f c).Sound)
    (kept : ∀ c, c.isCompleted = true → (f c).isCompleted = true) : (d.modifyCard card f).Sound := by
  unfold modifyCard KeyMap.modify
  split
  · next c tracked =>
    exact sound.cardSet tracked (keeps c (sound.cards card c tracked)) (kept c)
  · exact sound

end DeckProgress

namespace LessonProgress

variable {l : LessonProgress}

theorem ofDecksSound (decks : List Deck) : (ofDecks decks).Sound := by
  refine ⟨KeyMap.Every.ofList fun e member => ?_,fun marked => by cases marked⟩
  obtain ⟨deck,_,rfl⟩ := List.mem_map.mp member
  exact DeckProgress.ofDeckSound deck

theorem Sound.deckSet (sound : l.Sound) {deck : String} {old new : DeckProgress}
    (tracked : l.decks.get? deck = some old) (newSound : new.Sound)
    (kept : old.isCompleted = true → new.isCompleted = true) : (l.setDeck deck new).Sound :=
  ⟨sound.decks.inserted newSound,fun marked => (sound.earned marked).inserted tracked kept⟩

theorem Sound.promoted (sound : l.Sound) (now : Instant) : (l.promote now).Sound := by
  unfold promote
  split
  · next promotable =>
    have all : l.allDecksCompleted = true := by
      rw [isPromotable,Bool.and_eq_true] at promotable
      exact promotable.2
    exact ⟨sound.decks,fun _ => allDecksCompletedIff.mp all⟩
  · exact sound

theorem Sound.rolledUp (sound : l.Sound) (now : Instant) : (l.rollUp now).Sound := by
  refine Sound.promoted ⟨?_,fun marked => ?_⟩ now
  · exact sound.decks.mapped fun d old => old.promoted now
  · exact (sound.earned marked).mapped fun d => d.promotedKept now

theorem Sound.decksReconciled (sound : l.Sound) (live : List String) :
    (l.reconcileDecks live).Sound := by
  refine ⟨sound.decks.reconciled DeckProgress.freshSound (l.decksReconciled live),fun marked => ?_⟩
  obtain ⟨kept,was⟩ := Mark.heldBack (l.markReconciled live) marked
  exact (sound.earned was).reconciled (l.decksReconciled live) kept

theorem Sound.cardsReconciled (sound : l.Sound) {deck : String} {live : List String}
    {d : DeckProgress} {after : LessonProgress} (tracked : l.decks.get? deck = some d)
    (reconciled : CardsReconciled l deck live d after) : after.Sound := by
  constructor
  · rw [reconciled.decks]
    exact sound.decks.inserted ((sound.decks deck d tracked).reconciled live)
  · intro marked
    obtain ⟨kept,was⟩ := Mark.heldBack reconciled.mark marked
    have mark : (d.reconcileCards live).isCompleted = d.isCompleted := by
      have marks := d.markReconciled live
      rw [kept] at marks
      exact congrArg Mark.isCompleted marks
    rw [reconciled.decks]
    exact (sound.earned was).inserted tracked fun done => mark.trans done

theorem Sound.answered (sound : l.Sound) {deck : String} {old new : DeckProgress}
    (tracked : l.decks.get? deck = some old) (newSound : new.Sound)
    (kept : old.isCompleted = true → new.isCompleted = true) (completes : Bool) (now : Instant) :
    (l.answered deck new completes now).Sound := by
  have set := sound.deckSet tracked newSound kept
  unfold LessonProgress.answered
  simp only
  split
  · exact set.promoted now
  · exact set

def modifyDeck (l : LessonProgress) (deck : String) (f : DeckProgress → DeckProgress) :
    LessonProgress :=
  { l with decks := l.decks.modify deck f }

theorem Sound.modified (sound : l.Sound) {deck : String} {f : DeckProgress → DeckProgress}
    (keeps : ∀ d, d.Sound → (f d).Sound)
    (kept : ∀ d, d.isCompleted = true → (f d).isCompleted = true) : (l.modifyDeck deck f).Sound := by
  unfold modifyDeck KeyMap.modify
  split
  · next d tracked =>
    exact sound.deckSet tracked (keeps d (sound.decks deck d tracked)) (kept d)
  · exact sound

end LessonProgress

namespace CourseProgress

variable {p : CourseProgress}

theorem Sound.answered (sound : p.Sound) {after : CourseProgress} {effect : AnswerEffect}
    {lesson deck card : String} {correct : Bool} {now : Instant}
    (ok : p.answerCard lesson deck card correct now = .ok (after,effect)) : after.Sound := by
  obtain ⟨l,d,c,lessonFound,deckFound,cardFound,rfl⟩ := answerCardOk ok
  have lessonSound := sound.lessons lesson l lessonFound
  have deckSound := (lessonSound.decks deck d deckFound).answered cardFound correct now
  exact ⟨sound.lessons.inserted (lessonSound.answered deckFound deckSound
    (fun marked => d.answeredKept marked) _ now)⟩

def modifyLesson (p : CourseProgress) (lesson : String) (f : LessonProgress → LessonProgress) :
    CourseProgress :=
  { p with lessons := p.lessons.modify lesson f }

theorem Sound.modified (sound : p.Sound) {lesson : String} {f : LessonProgress → LessonProgress}
    (keeps : ∀ l, l.Sound → (f l).Sound) : (p.modifyLesson lesson f).Sound :=
  ⟨sound.lessons.modified fun l tracked => keeps l (sound.lessons lesson l tracked)⟩

end CourseProgress

/-- What may be done to a tree: the edits of the whole tree, those of one of its lessons, decks and
cards, and a new lesson made of full decks. -/
inductive TreeEdit where
  | answerCard (lesson deck card : String) (correct : Bool) (now : Instant)
  | rollUp (now : Instant)
  | retainLessons (live : List String)
  | recomputeCurrentLesson (ordered : List LessonId)
  | reconcileDecks (lesson : String) (live : List String)
  | reconcileCards (lesson named deck : String) (live : List String)
  | promoteDeck (lesson deck : String) (now : Instant)
  | promoteLesson (lesson : String) (now : Instant)
  | recordAnswer (lesson deck card : String) (correct : Bool) (now : Instant)
  | insertLesson (lesson : String) (decks : List Deck)
  deriving Repr

namespace TreeEdit

def apply (p : CourseProgress) : TreeEdit → CourseProgress
  | .answerCard lesson deck card correct now =>
    match p.answerCard lesson deck card correct now with
    | .ok (after,_) => after
    | .error _ => p
  | .rollUp now => p.rollUp now
  | .retainLessons live => p.retainLessons live
  | .recomputeCurrentLesson ordered => p.recomputeCurrentLesson ordered
  | .reconcileDecks lesson live => p.modifyLesson lesson (·.reconcileDecks live)
  | .reconcileCards lesson named deck live =>
    p.modifyLesson lesson fun l =>
      match l.reconcileCards named deck live with
      | .ok (after,_) => after
      | .error _ => l
  | .promoteDeck lesson deck now => p.modifyLesson lesson (·.modifyDeck deck (·.promote now))
  | .promoteLesson lesson now => p.modifyLesson lesson (·.promote now)
  | .recordAnswer lesson deck card correct now =>
    p.modifyLesson lesson (·.modifyDeck deck (·.modifyCard card (·.recordAnswer correct now)))
  | .insertLesson lesson decks => p.setLesson lesson (.ofDecks decks)

variable {p : CourseProgress}

theorem appliedSound (sound : p.Sound) (e : TreeEdit) : (e.apply p).Sound := by
  cases e with
  | answerCard lesson deck card correct now =>
    cases ok : p.answerCard lesson deck card correct now with
    | error e =>
      simp only [apply,ok]
      exact sound
    | ok result =>
      simp only [apply,ok]
      exact sound.answered ok
  | rollUp now => exact ⟨sound.lessons.mapped fun l old => old.rolledUp now⟩
  | retainLessons live => exact ⟨sound.lessons.retained live⟩
  | recomputeCurrentLesson ordered => exact ⟨sound.lessons⟩
  | reconcileDecks lesson live =>
    exact sound.modified fun l old => old.decksReconciled live
  | reconcileCards lesson named deck live =>
    refine sound.modified fun l old => ?_
    cases tracked : l.decks.get? deck with
    | none =>
      simp only [LessonProgress.reconcileCards,tracked]
      exact old
    | some d =>
      obtain ⟨after,ok,reconciled⟩ := LessonProgress.reconcileCardsTracked named live tracked
      simp only [ok]
      exact old.cardsReconciled tracked reconciled
  | promoteDeck lesson deck now =>
    exact sound.modified fun l old =>
      old.modified (fun d held => held.promoted now) fun d => d.promotedKept now
  | promoteLesson lesson now =>
    exact sound.modified fun l old => old.promoted now
  | recordAnswer lesson deck card correct now =>
    refine sound.modified fun l old => old.modified (fun d held => ?_) fun d marked => ?_
    · exact held.modified (fun c was => was.recorded correct now)
        fun c => c.recordedKept correct now
    · exact marked
  | insertLesson lesson decks =>
    exact ⟨sound.lessons.inserted (LessonProgress.ofDecksSound decks)⟩

end TreeEdit

/-- No sequence of edits makes up a completion. From a tree whose marks were earned on, every tree on
the way is one: its complete cards were answered correctly, and its complete decks and lessons hold
something and all of it is complete. -/
theorem editsKeepSound {p : CourseProgress} (sound : p.Sound) (edits : List TreeEdit) :
    ∀ q ∈ edits.scanl TreeEdit.apply p, q.Sound := by
  induction edits generalizing p with
  | nil =>
    intro q member
    rw [List.scanl_nil,List.mem_singleton] at member
    exact member ▸ sound
  | cons e edits ih =>
    intro q member
    rw [List.scanl_cons,List.mem_cons] at member
    rcases member with rfl | later
    · exact sound
    · exact ih (e.appliedSound sound) q later

namespace Sample

def settled : CourseProgress :=
  [.insertLesson lesson.id.key [deck],
   .answerCard lesson.id.key deck.id.key card.id.key true setting.now].foldl TreeEdit.apply {}

def added : CardId := ⟨.ofNat 6⟩

def reworked : List TreeEdit :=
  [.reconcileCards lesson.id.key "" deck.id.key [card.id.key,added.key],
   .answerCard lesson.id.key deck.id.key added.key false setting.now,
   .promoteLesson lesson.id.key setting.now,
   .reconcileCards lesson.id.key "" deck.id.key [card.id.key],
   .rollUp setting.now,
   .reconcileDecks lesson.id.key [],
   .promoteLesson lesson.id.key setting.now]

end Sample

theorem sampleEditsKeepSound :
    Sample.settled.Sound ∧
      (Sample.reworked.scanl TreeEdit.apply Sample.settled).map
          (·.isLessonCompleted Sample.lesson.id.key) =
        [true,false,false,false,false,true,false,false] ∧
      ∀ q ∈ Sample.reworked.scanl TreeEdit.apply Sample.settled, q.Sound := by
  have sound : Sample.settled.Sound := by decide +kernel
  exact ⟨sound,by decide +kernel,editsKeepSound sound Sample.reworked⟩

end Coursework
