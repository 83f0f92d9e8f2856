import Coursework.Proofs.Rereading
import Mathlib.Data.List.Forall2

/-! What a served batch of answers reports and saves: each answer is graded by the catalog, a card is
reported complete from its first right answer on, and the saved tree is told by the numbers of right
and wrong answers to each card. -/
namespace Coursework

/- The catalog takes an answer for right: of the cards with the identifier that it names the last one
has it among its right answers. -/
def CardAnswer.RightBy (cards : List Card) (a : CardAnswer) : Prop :=
  ∃ earlier card later, cards = earlier ++ card :: later ∧ card.id = a.cardId ∧
    (∀ other ∈ later, other.id ≠ a.cardId) ∧
    ∃ possible ∈ card.possibleAnswers, possible.id = a.answerId ∧ possible.isCorrect = true

theorem acceptedIff {card : Card} {answer : AnswerId} :
    card.correctAnswers.contains answer = true ↔
      ∃ possible ∈ card.possibleAnswers, possible.id = answer ∧ possible.isCorrect = true := by
  rw [List.contains_iff_mem,Card.correctAnswers,List.mem_map]
  simp only [List.mem_filter,and_assoc]
  exact exists_congr fun _ => and_congr_right fun _ => and_comm

theorem lastCard {cards : List Card} {id : CardId} {card : Card} :
    cards.reverse.find? (·.id == id) = some card ↔
      ∃ earlier later, cards = earlier ++ card :: later ∧ card.id = id ∧
        ∀ other ∈ later, other.id ≠ id := by
  rw [List.find?_eq_some_iff_append,beq_iff_eq]
  constructor
  · rintro ⟨here,behind,before,split,none⟩
    refine ⟨before.reverse,behind.reverse,?_,here,fun other member => ?_⟩
    · have turned := congrArg List.reverse split
      simpa using turned
    · simpa using none other (List.mem_reverse.mp member)
  · rintro ⟨earlier,later,rfl,here,none⟩
    refine ⟨here,later.reverse,earlier.reverse,by simp,fun other member => ?_⟩
    simpa using none other (List.mem_reverse.mp member)

theorem gradeIff {cards : List Card} {a : CardAnswer} :
    (AnswerKey.mk cards).grade a.cardId a.answerId = true ↔ a.RightBy cards := by
  rw [AnswerKey.grade,AnswerKey.correctAnswers?]
  constructor
  · intro right
    cases found : cards.reverse.find? (·.id == a.cardId) with
    | none =>
      rw [found] at right
      cases right
    | some card =>
      rw [found] at right
      obtain ⟨earlier,later,split,here,none⟩ := lastCard.mp found
      exact ⟨earlier,card,later,split,here,none,acceptedIff.mp right⟩
  · rintro ⟨earlier,card,later,split,here,none,accepted⟩
    rw [lastCard.mpr ⟨earlier,later,split,here,none⟩]
    exact acceptedIff.mpr accepted

namespace CourseProgress

variable {p after : CourseProgress} {lesson deck : String} {now : Instant} {key : AnswerKey}
  {answers : List CardAnswer} {results : List CardAnswerResult}

section Answered

variable {card : String} {correct : Bool} {effect : AnswerEffect}

theorem cardAnswered (ok : p.answerCard lesson deck card correct now = .ok (after,effect)) :
    ∃ c, p.card? lesson deck card = some c ∧ effect.cardCompleted = (c.isCompleted || correct) := by
  obtain ⟨l,d,c,held,inside,tracked,_⟩ := answerCardOk ok
  have is := ok.symm.trans (answerCardIs held inside tracked correct now)
  cases Except.ok.inj is
  refine ⟨c,?_,c.recordedCompletion correct now⟩
  rw [card?,deck?,held,Option.bind_some,inside,Option.bind_some,tracked]

theorem completedAnswered (ok : p.answerCard lesson deck card correct now = .ok (after,effect))
    (other : String) :
    after.isCardCompleted lesson deck other = true ↔
      p.isCardCompleted lesson deck other = true ∨ card = other ∧ correct = true := by
  have answered := atAnswered ok ⟨lesson,deck,other⟩
  rw [at?,at?] at answered
  rw [isCardCompleted,isCardCompleted,answered]
  by_cases here : card = other
  · subst here
    obtain ⟨c,found,_⟩ := cardAnswered ok
    rw [if_pos rfl,found]
    simp [CardProgress.recordedCompletion]
  · rw [if_neg fun same => here (congrArg CardPath.card same).symm]
    simp [here]

end Answered

theorem completionsOfBatch
    (ok : p.answerCards lesson deck key now answers = .ok (after,results))
    {earlier later : List CardAnswerResult} {r : CardAnswerResult}
    (split : results = earlier ++ r :: later) :
    r.cardCompleted = true ↔ p.isCardCompleted lesson deck r.cardId.key = true ∨
      ∃ s ∈ earlier ++ [r], s.cardId = r.cardId ∧ s.correct = true := by
  induction answers generalizing p results earlier with
  | nil =>
    cases Except.ok.inj ok
    exact absurd split.symm (by simp)
  | cons a answers ih =>
    obtain ⟨middle,effect,rest,first,others,rfl⟩ := answerCardsCons ok
    cases earlier with
    | nil =>
      obtain ⟨rfl,rfl⟩ := List.cons.inj split
      obtain ⟨c,found,told⟩ := cardAnswered first
      rw [isCardCompleted,found]
      simp [told]
    | cons s earlier =>
      obtain ⟨rfl,tail⟩ := List.cons.inj split
      rw [ih others tail,completedAnswered first,or_assoc,List.cons_append,List.exists_mem_cons_iff]
      have same : a.cardId.key = r.cardId.key ↔ a.cardId = r.cardId :=
        ⟨fun keys => Id.keyInjective keys,congrArg Id.key⟩
      rw [same]

theorem currentAnswered (ok : p.answerCards lesson deck key now answers = .ok (after,results)) :
    after.currentLessonId = p.currentLessonId := by
  induction answers generalizing p results with
  | nil =>
    cases Except.ok.inj ok
    rfl
  | cons a answers ih =>
    obtain ⟨middle,effect,rest,first,others,rfl⟩ := answerCardsCons ok
    obtain ⟨_,_,_,_,_,_,rfl⟩ := answerCardOk first
    exact (ih others).trans rfl

theorem gradedByCatalog {cards : List Card}
    (ok : p.answerCards lesson deck ⟨cards⟩ now answers = .ok (after,results)) :
    List.Forall₂ (fun a r => r.cardId = a.cardId ∧ (r.correct = true ↔ a.RightBy cards))
      answers results := by
  have same : List.Forall₂ Eq (answers.map fun a => (a.cardId,(AnswerKey.mk cards).grade a.cardId
      a.answerId)) (results.map fun r => (r.cardId,r.correct)) := by
    rw [List.forall₂_eq_eq_eq,gradesOfBatch ok]
  rw [List.forall₂_map_left_iff,List.forall₂_map_right_iff] at same
  refine same.imp fun a r agree => ?_
  obtain ⟨card,grade⟩ := Prod.mk.inj agree
  exact ⟨card.symm,by rw [← grade,gradeIff]⟩

theorem currentResumed (p : CourseProgress) (lesson : LessonId) :
    (p.resumeAt lesson).currentLessonId =
      if p.isLessonCompleted lesson.key then some lesson else p.currentLessonId := by
  unfold resumeAt
  split <;> rfl

theorem lessonResumed (p : CourseProgress) (lesson : LessonId) (key : String) :
    (p.resumeAt lesson).isLessonCompleted key = p.isLessonCompleted key := by
  unfold resumeAt
  split <;> rfl

theorem deckResumed (p : CourseProgress) (lesson : LessonId) (key deck : String) :
    (p.resumeAt lesson).isDeckCompleted key deck = p.isDeckCompleted key deck := by
  unfold resumeAt
  split <;> rfl

theorem lessonAlike {q : CourseProgress} (same : q.lessons = p.lessons) :
    q.lesson? = p.lesson? := by
  funext key
  rw [lesson?,same]
  rfl

theorem Tallied.resumed {count : String → Bool → Nat}
    (tallied : p.Tallied now lesson deck count after) (id : LessonId) :
    p.Tallied now lesson deck count (after.resumeAt id) := by
  have same := lessonAlike (after.resumedLessons id)
  exact ⟨same ▸ tallied.inside,same ▸ tallied.others⟩

end CourseProgress

structure BatchTold (setting : Setting) (user : UserId) (course : CourseId) (lesson : LessonId)
    (deck : DeckId) (answers : List CardAnswer) (b : Backend) (outcome : AnswerOutcome)
    (after : Backend) (old : Enrollment) (cards : List Card) (new : Enrollment) : Prop where
  stored : b.repository.stored user course = .ok old
  fetched : setting.handler.answers b (.getCards (answers.map (·.cardId)).eraseDups) = .ok cards
  graded : List.Forall₂ (fun a r => r.cardId = a.cardId ∧ (r.correct = true ↔ a.RightBy cards))
    answers outcome.results
  completed : ∀ earlier r later, outcome.results = earlier ++ r :: later →
    (r.cardCompleted = true ↔ old.state.isCardCompleted lesson.key deck.key r.cardId.key = true ∨
      ∃ s ∈ earlier ++ [r], s.cardId = r.cardId ∧ s.correct = true)
  tree : old.state.Tallied setting.now lesson.key deck.key (tally outcome.results) new.state
  lessonTold : outcome.lessonCompleted = new.state.isLessonCompleted lesson.key
  deckTold : outcome.deckCompleted = new.state.isDeckCompleted lesson.key deck.key
  current : new.state.currentLessonId =
    if outcome.lessonCompleted then some lesson else old.state.currentLessonId
  record : new.currentLessonId = new.state.currentLessonId
  updated : new.updatedAt = setting.now
  origin : new.origin = old.origin
  saved : setting.handler (.saveProgress new) b = (.ok (),after)
  shown : ∀ found, after.repository.stored user course = .ok found → found.Shows new
  reread : setting.now.isNamed = true → after.repository.stored user course = .ok new

/-- A batch of answers has the effect of its numbers of right and wrong answers, whatever tree was
stored and however the cards repeat. -/
theorem batchIsTold {setting : Setting} {user : UserId} {course : CourseId} {b after : Backend}
    {lesson : LessonId} {deck : DeckId} {answers : List CardAnswer} {outcome : AnswerOutcome}
    (given : answers ≠ [])
    (served : setting.serve user course b (.answer lesson deck answers) =
      (.answered (.ok outcome),after)) :
    ∃ old cards new,
      BatchTold setting user course lesson deck answers b outcome after old cards new := by
  obtain ⟨old,cards,state,steps⟩ :=
    (answerStepsIff setting.transactional given).mp (Setting.answeredIff.mp served)
  have stored := Setting.loads steps.loaded
  have tallied := CourseProgress.answerCardsTally given steps.recorded
  have tree := tallied.resumed lesson
  have lessonTold := congrArg AnswerOutcome.lessonCompleted steps.told
  refine ⟨old,cards,old.withState (state.resumeAt lesson) setting.now,?_⟩
  exact {
    stored, tree
    fetched := steps.fetched
    graded := CourseProgress.gradedByCatalog steps.recorded
    completed := fun _ _ _ => CourseProgress.completionsOfBatch steps.recorded
    lessonTold := lessonTold.trans (state.lessonResumed lesson lesson.key).symm
    deckTold := (congrArg AnswerOutcome.deckCompleted steps.told).trans
      (state.deckResumed lesson lesson.key deck.key).symm
    current := by
      rw [lessonTold,← CourseProgress.currentAnswered steps.recorded]
      exact state.currentResumed lesson
    record := rfl
    updated := rfl
    origin := rfl
    saved := steps.saved
    shown := (leftWith stored steps.saved).shown
    reread := fun named => Setting.savedReread stored named (tree.timed named) steps.saved
  }

namespace Sample

def staleDeck : DeckProgress :=
  { cards := .ofList [(card.id.key,{ correctAnswers := ⟨largestCount,Nat.le_refl _⟩ }),
      ("withdrawn",{ isCompleted := true })] }

def stale : CourseProgress :=
  .setLesson {} lesson.id.key
    { decks := .ofList [(deck.id.key,staleDeck),("emptied",{ isCompleted := true })] }

def repeated : List CardAnswer :=
  [⟨card.id,⟨.ofNat 0⟩⟩,⟨card.id,right.id⟩,⟨card.id,right.id⟩]

theorem answersWith (b : Backend) (answers : List CardAnswer)
    (ok : ((answer setting.now user course lesson.id deck.id answers).run setting.handler
      b).1.isOk = true) :
    ∃ outcome after, setting.serve user course b (.answer lesson.id deck.id answers) =
      (.answered (.ok outcome),after) := by
  obtain ⟨outcome,after,ran⟩ := outcomeOf ok
  exact ⟨outcome,after,Setting.answeredIff.mpr ran⟩

end Sample

theorem sampleBatchIsTold :
    ∃ outcome after old cards new, BatchTold Sample.setting Sample.user Sample.course
      Sample.lesson.id Sample.deck.id Sample.repeated (Sample.holding Sample.stale) outcome after old
      cards new := by
  obtain ⟨outcome,after,served⟩ := Sample.answersWith (Sample.holding Sample.stale)
    Sample.repeated (by decide +kernel)
  exact ⟨outcome,after,batchIsTold (by decide) served⟩

example : ((answer Sample.setting.now Sample.user Sample.course Sample.lesson.id Sample.deck.id
    Sample.repeated).run Sample.setting.handler (Sample.holding Sample.stale)).1.toOption =
      some ⟨true,true,[⟨Sample.card.id,false,false⟩,⟨Sample.card.id,true,true⟩,
        ⟨Sample.card.id,true,true⟩]⟩ := by decide +kernel

end Coursework
