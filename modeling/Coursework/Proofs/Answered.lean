import Coursework.Proofs.MergeTree
import Coursework.Proofs.Reading
import Coursework.Service.Answer

/-! What a batch of answers leaves behind, path by path. The card on a path is what its own trials
make of it, one after the other; other cards do not count, and neither does the way the trials were
split into batches. -/
namespace Coursework

structure CardPath where
  lesson : String
  deck : String
  card : String
  deriving DecidableEq, Repr

structure Trial where
  time : Instant
  correct : Bool
  deriving DecidableEq, Repr

namespace CardProgress

variable (c : CardProgress)

def replay (trials : List Trial) : CardProgress :=
  trials.foldl (fun c t => c.recordAnswer t.correct t.time) c

theorem replayAppend (earlier later : List Trial) :
    c.replay (earlier ++ later) = (c.replay earlier).replay later :=
  List.foldl_append

theorem correctReplayed (trials : List Trial) :
    (c.replay trials).correctAnswers.value =
      min largestCount (c.correctAnswers.value + trials.countP (·.correct)) := by
  induction trials generalizing c with
  | nil =>
    have bound := c.correctAnswers.valueSmall
    simp only [replay,List.foldl_nil,List.countP_nil]
    omega
  | cons t trials ih =>
    have rest := ih (c.recordAnswer t.correct t.time)
    have counted : (c.recordAnswer t.correct t.time).correctAnswers.value =
        min largestCount (c.correctAnswers.value + if t.correct then 1 else 0) := by
      have bound := c.correctAnswers.valueSmall
      unfold recordAnswer
      cases t.correct with
      | false =>
        simp only [Bool.false_eq_true,if_false]
        omega
      | true => cases c.isCompleted <;> exact c.correctAnswers.succValue
    rw [replay,List.foldl_cons,← replay,rest,counted,List.countP_cons]
    omega

theorem incorrectReplayed (trials : List Trial) :
    (c.replay trials).incorrectAnswers.value =
      min largestCount (c.incorrectAnswers.value + trials.countP (!·.correct)) := by
  induction trials generalizing c with
  | nil =>
    have bound := c.incorrectAnswers.valueSmall
    simp only [replay,List.foldl_nil,List.countP_nil]
    omega
  | cons t trials ih =>
    have rest := ih (c.recordAnswer t.correct t.time)
    have counted : (c.recordAnswer t.correct t.time).incorrectAnswers.value =
        min largestCount (c.incorrectAnswers.value + if (!t.correct) = true then 1 else 0) := by
      have bound := c.incorrectAnswers.valueSmall
      unfold recordAnswer
      cases t.correct with
      | false => exact c.incorrectAnswers.succValue
      | true =>
        simp only [Bool.not_true,Bool.false_eq_true,if_false,if_true]
        cases c.isCompleted <;> simp only [Bool.false_eq_true,if_false,if_true] <;> omega
    rw [replay,List.foldl_cons,← replay,rest,counted,List.countP_cons]
    omega

theorem completedReplayed (trials : List Trial) :
    (c.replay trials).isCompleted = (c.isCompleted || trials.any (·.correct)) := by
  induction trials generalizing c with
  | nil => simp [replay]
  | cons t trials ih =>
    have rest := ih (c.recordAnswer t.correct t.time)
    rw [replay,List.foldl_cons,← replay,rest,recordedCompletion,List.any_cons,Bool.or_assoc]

theorem stampReplayed (trials : List Trial) (open_ : c.isCompleted = false) :
    (c.replay trials).completedAt =
      match trials.find? (·.correct) with
      | some t => some t.time
      | none => c.completedAt := by
  have kept : ∀ (trials : List Trial) (c : CardProgress), c.isCompleted = true →
      (c.replay trials).completedAt = c.completedAt := by
    intro trials
    induction trials with
    | nil => exact fun c _ => rfl
    | cons t trials ih =>
      intro c done
      have still : (c.recordAnswer t.correct t.time).isCompleted = true := by
        rw [recordedCompletion,done,Bool.true_or]
      have same : (c.recordAnswer t.correct t.time).completedAt = c.completedAt := by
        unfold recordAnswer
        cases t.correct <;> simp [done]
      rw [replay,List.foldl_cons,← replay,ih _ still,same]
  induction trials generalizing c with
  | nil => rfl
  | cons t trials ih =>
    rw [replay,List.foldl_cons,← replay,List.find?_cons]
    cases grade : t.correct with
    | false => exact ih (c.recordAnswer false t.time) (by simp [recordAnswer,open_])
    | true =>
      have stamped : (c.recordAnswer true t.time).completedAt = some t.time := by
        simp [recordAnswer,open_]
      rw [kept trials _ (by simp [recordedCompletion]),stamped]

/- The card is what trials make of a new one: it counts each of them once, up to the largest count,
and was completed by the first correct one. -/
structure Counts (trials : List Trial) : Prop where
  correct : c.correctAnswers.value = min largestCount (trials.countP (·.correct))
  incorrect : c.incorrectAnswers.value = min largestCount (trials.countP (!·.correct))
  stamp : c.completedAt = (trials.find? (·.correct)).map (·.time)

theorem replayCounts (trials : List Trial) : (({} : CardProgress).replay trials).Counts trials := by
  have zero : (Counter.zero).value = 0 := rfl
  constructor
  · rw [correctReplayed,zero,Nat.zero_add]
  · rw [incorrectReplayed,zero,Nat.zero_add]
  · rw [stampReplayed _ _ rfl]
    cases trials.find? (·.correct) <;> rfl

end CardProgress

namespace DeckProgress

def answered (d : DeckProgress) (card : String) (c : CardProgress) (correct : Bool)
    (now : Instant) : DeckProgress :=
  let d := d.setCard card (c.recordAnswer correct now)
  if c.isCompletedBy correct then d.promote now else d

theorem answeredCards (d : DeckProgress) (card : String) (c : CardProgress) (correct : Bool)
    (now : Instant) :
    (d.answered card c correct now).cards = d.cards.insert card (c.recordAnswer correct now) := by
  unfold answered
  simp only
  split
  · rw [promotedCards]
    rfl
  · rfl

end DeckProgress

namespace LessonProgress

def answered (l : LessonProgress) (deck : String) (d : DeckProgress) (completes : Bool)
    (now : Instant) : LessonProgress :=
  let l := l.setDeck deck d
  if completes then l.promote now else l

theorem answeredDecks (l : LessonProgress) (deck : String) (d : DeckProgress) (completes : Bool)
    (now : Instant) : (l.answered deck d completes now).decks = l.decks.insert deck d := by
  unfold answered
  simp only
  split
  · rw [promotedDecks]
    rfl
  · rfl

end LessonProgress

namespace CourseProgress

variable {p after : CourseProgress} {lesson deck card : String} {correct : Bool} {now : Instant}
  {effect : AnswerEffect}

def at? (p : CourseProgress) (path : CardPath) : Option CardProgress :=
  p.card? path.lesson path.deck path.card

theorem answerCardOk (ok : p.answerCard lesson deck card correct now = .ok (after,effect)) :
    ∃ l d c, p.lesson? lesson = some l ∧ l.decks.get? deck = some d ∧ d.cards.get? card = some c ∧
      after = p.setLesson lesson
        (l.answered deck (d.answered card c correct now) (c.isCompletedBy correct) now) := by
  unfold answerCard at ok
  split at ok
  · cases ok
  · rename_i l lessonFound
    split at ok
    · cases ok
    · rename_i d deckFound
      split at ok
      · cases ok
      · rename_i c cardFound
        cases ok
        exact ⟨l,d,c,lessonFound,deckFound,cardFound,rfl⟩

theorem atAnswered (ok : p.answerCard lesson deck card correct now = .ok (after,effect))
    (path : CardPath) :
    after.at? path =
      if path = ⟨lesson,deck,card⟩ then (p.at? path).map (·.recordAnswer correct now)
      else p.at? path := by
  obtain ⟨l,d,c,lessonFound,deckFound,cardFound,rfl⟩ := answerCardOk ok
  obtain ⟨otherLesson,otherDeck,otherCard⟩ := path
  simp only [at?,card?,deck?,lesson?,setLesson,KeyMap.getInsert] at lessonFound ⊢
  by_cases sameLesson : lesson = otherLesson
  · subst sameLesson
    rw [if_pos rfl,Option.bind_some,LessonProgress.answeredDecks,KeyMap.getInsert,lessonFound,
      Option.bind_some]
    by_cases sameDeck : deck = otherDeck
    · subst sameDeck
      rw [if_pos rfl,Option.bind_some,DeckProgress.answeredCards,KeyMap.getInsert,deckFound,
        Option.bind_some]
      by_cases sameCard : card = otherCard
      · subst sameCard
        rw [if_pos rfl,if_pos rfl,cardFound,Option.map_some]
      · rw [if_neg sameCard,if_neg fun same => sameCard (congrArg CardPath.card same).symm]
    · rw [if_neg sameDeck,if_neg fun same => sameDeck (congrArg CardPath.deck same).symm]
  · rw [if_neg sameLesson,if_neg fun same => sameLesson (congrArg CardPath.lesson same).symm]

end CourseProgress

def gradedTrials (lesson deck : String) (key : AnswerKey) (now : Instant)
    (answers : List CardAnswer) (path : CardPath) : List Trial :=
  (answers.filter fun a => path = ⟨lesson,deck,a.cardId.key⟩).map fun a =>
    ⟨now,key.grade a.cardId a.answerId⟩

theorem gradedTrialsCons (lesson deck : String) (key : AnswerKey) (now : Instant) (a : CardAnswer)
    (rest : List CardAnswer) (path : CardPath) :
    gradedTrials lesson deck key now (a :: rest) path =
      if path = ⟨lesson,deck,a.cardId.key⟩ then
        ⟨now,key.grade a.cardId a.answerId⟩ :: gradedTrials lesson deck key now rest path
      else gradedTrials lesson deck key now rest path := by
  unfold gradedTrials
  by_cases here : path = ⟨lesson,deck,a.cardId.key⟩
  · rw [if_pos here,List.filter_cons_of_pos (by simpa using here),List.map_cons]
  · rw [if_neg here,List.filter_cons_of_neg (by simpa using here)]

namespace CourseProgress

variable {p after : CourseProgress} {lesson deck : String} {key : AnswerKey} {now : Instant}
  {answers : List CardAnswer} {results : List CardAnswerResult}

theorem answerCardsCons {a : CardAnswer}
    (ok : p.answerCards lesson deck key now (a :: answers) = .ok (after,results)) :
    ∃ middle effect rest,
      p.answerCard lesson deck a.cardId.key (key.grade a.cardId a.answerId) now =
        .ok (middle,effect) ∧
      middle.answerCards lesson deck key now answers = .ok (after,rest) ∧
      results = ⟨a.cardId,key.grade a.cardId a.answerId,effect.cardCompleted⟩ :: rest := by
  obtain ⟨⟨middle,effect⟩,first,ok⟩ := exceptBindOk.mp ok
  obtain ⟨⟨_,rest⟩,later,last⟩ := exceptBindOk.mp ok
  cases Except.ok.inj last
  exact ⟨middle,effect,rest,first,later,rfl⟩

theorem gradesOfBatch
    (ok : p.answerCards lesson deck key now answers = .ok (after,results)) :
    results.map (fun r => (r.cardId,r.correct)) =
      answers.map fun a => (a.cardId,key.grade a.cardId a.answerId) := by
  induction answers generalizing p results with
  | nil =>
    cases Except.ok.inj ok
    rfl
  | cons a answers ih =>
    obtain ⟨middle,effect,rest,_,later,rfl⟩ := answerCardsCons ok
    rw [List.map_cons,List.map_cons,ih later]

theorem atAnsweredBatch
    (ok : p.answerCards lesson deck key now answers = .ok (after,results)) (path : CardPath) :
    after.at? path = (p.at? path).map (·.replay (gradedTrials lesson deck key now answers path)) := by
  induction answers generalizing p results with
  | nil =>
    cases Except.ok.inj ok
    cases after.at? path <;> rfl
  | cons a answers ih =>
    obtain ⟨middle,effect,rest,first,later,rfl⟩ := answerCardsCons ok
    rw [ih later,atAnswered first,gradedTrialsCons]
    by_cases here : path = ⟨lesson,deck,a.cardId.key⟩
    · rw [if_pos here,if_pos here,Option.map_map]
      rfl
    · rw [if_neg here,if_neg here]

theorem atResumed (p : CourseProgress) (lesson : LessonId) (path : CardPath) :
    (p.resumeAt lesson).at? path = p.at? path := by
  unfold resumeAt
  split <;> rfl

end CourseProgress

end Coursework
