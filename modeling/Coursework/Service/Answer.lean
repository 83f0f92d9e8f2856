import Coursework.Service.Script
/-!
Recording a batch of answers to cards of one deck in one lesson. An answer counts as correct if
the catalog's present answer key has it for its card. Answers are applied in order, repeated ones
included, and saved together or not at all.
-/
namespace Coursework

structure CardAnswer where
  cardId : CardId
  answerId : AnswerId
  deriving DecidableEq, Repr

structure CardAnswerResult where
  cardId : CardId
  correct : Bool
  cardCompleted : Bool
  deriving DecidableEq, Repr

structure AnswerOutcome where
  lessonCompleted : Bool
  deckCompleted : Bool
  results : List CardAnswerResult
  deriving DecidableEq, Repr

inductive AnswerError where
  | progressNotInitialized
  | progress (e : ProgressError)
  | storage (e : StorageError)
  deriving DecidableEq, Repr

def AnswerError.message : AnswerError → String
  | .progressNotInitialized => "progress not initialized for this course"
  | .progress e => e.message
  | .storage e => e.message

def AnswerError.ofLoading : StorageError → AnswerError
  | .notFound => .progressNotInitialized
  | e => .storage e

namespace CourseProgress

def requireDeck (p : CourseProgress) (lesson deck : String) : Except ProgressError Unit :=
  if (p.lesson? lesson).isNone then .error (.lessonNotFound lesson)
  else if (p.deck? lesson deck).isNone then .error (.deckNotFound lesson deck)
  else .ok ()

def answerCards (lesson deck : String) (key : AnswerKey) (now : Instant) :
    List CardAnswer → CourseProgress →
    Except ProgressError (CourseProgress × List CardAnswerResult)
  | [], p => .ok (p,[])
  | a :: as, p => do
    let correct := key.grade a.cardId a.answerId
    let (p,effect) ← p.answerCard lesson deck a.cardId.key correct now
    let (p,results) ← answerCards lesson deck key now as p
    .ok (p,⟨a.cardId,correct,effect.cardCompleted⟩ :: results)

def resumeAt (p : CourseProgress) (lesson : LessonId) : CourseProgress :=
  if p.isLessonCompleted lesson.key then { p with currentLessonId := some lesson } else p

def outcome (p : CourseProgress) (lesson deck : String) (results : List CardAnswerResult) :
    AnswerOutcome :=
  ⟨p.isLessonCompleted lesson,p.isDeckCompleted lesson deck,results⟩

end CourseProgress

def answer (now : Instant) (user : UserId) (course : CourseId) (lesson : LessonId)
    (deck : DeckId) (answers : List CardAnswer) : Script AnswerError AnswerOutcome := do
  let enrollment ← Script.call .ofLoading (.getProgress user course)
  (Script.ofExcept (enrollment.state.requireDeck lesson.key deck.key)).mapError .progress
  if answers.isEmpty then
    .done (enrollment.state.outcome lesson.key deck.key [])
  else
    let cards ← Script.call .storage (.getCards (answers.map (·.cardId)).eraseDups)
    let (state,results) ← (Script.ofExcept
      (enrollment.state.answerCards lesson.key deck.key ⟨cards⟩ now answers)).mapError .progress
    let answered := enrollment.withState (state.resumeAt lesson) now
    Script.call .storage (.saveProgress answered)
    .done (state.outcome lesson.key deck.key results)

end Coursework
