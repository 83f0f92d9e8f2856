import Coursework.Json.Content
import Coursework.Json.Progress
import Coursework.Service.Answer
import Coursework.Service.Browse
/-!
The JSON forms of answers and of what the services report.
-/
namespace Coursework.Json

instance : Form CardAnswer where
  encode a := .record [("card_id",encode a.cardId),("answer_id",encode a.answerId)]
  decode? v := do
    let [cardId,answerId] ← fields? ["card_id","answer_id"] v | none
    some ⟨← required? cardId,← required? answerId⟩

def encodeResult (r : CardAnswerResult) : Value :=
  .record [("card_id",encode r.cardId),("correct",encode r.correct),
    ("card_completed",encode r.cardCompleted)]

def encodeOutcome (o : AnswerOutcome) : Value :=
  .record [("lesson_completed",encode o.lessonCompleted),
    ("deck_completed",encode o.deckCompleted),("results",.array (o.results.map encodeResult))]

def encodeLessonWithProgress (l : LessonWithProgress) : Value :=
  .record (lessonMembers l.lesson ++
    [("is_completed",encode l.isCompleted),("is_current",encode l.isCurrent)])

def encodeListing : LessonListing → Value
  | .plain lessons => encode lessons
  | .withProgress lessons => .array (lessons.map encodeLessonWithProgress)

end Coursework.Json
