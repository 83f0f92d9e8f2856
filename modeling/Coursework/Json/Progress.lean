import Coursework.Enrollment
import Coursework.Json.Form
/-!
The JSON forms of progress trees and enrollments. Instants of completion and the current lesson of
a tree are left out while they are unset.
-/
namespace Coursework.Json

def setMember {α : Type} [Form α] (name : String) : Option α → List (String × Value)
  | some a => [(name,encode a)]
  | none => []

instance : Form Counter where
  encode c := .integer c.value
  decode?
    | .integer (.ofNat n) => Counter.ofNat? n
    | _ => none

instance : Form CardProgress where
  encode c := .record ([("correct_answers",encode c.correctAnswers),
    ("incorrect_answers",encode c.incorrectAnswers),("is_completed",encode c.isCompleted)] ++
    setMember "completed_at" c.completedAt)
  decode? v := do
    let [correct,incorrect,isCompleted,completedAt] ←
      fields? ["correct_answers","incorrect_answers","is_completed","completed_at"] v | none
    some ⟨← required? correct,← required? incorrect,← required? isCompleted,
      ← optional? none completedAt⟩

instance : Form DeckProgress where
  encode d := .record ([("cards",encode d.cards),("is_completed",encode d.isCompleted)] ++
    setMember "completed_at" d.completedAt)
  decode? v := do
    let [cards,isCompleted,completedAt] ←
      fields? ["cards","is_completed","completed_at"] v | none
    some ⟨← optional? .empty cards,← required? isCompleted,← optional? none completedAt⟩

instance : Form LessonProgress where
  encode l := .record ([("decks",encode l.decks),("is_completed",encode l.isCompleted)] ++
    setMember "completed_at" l.completedAt)
  decode? v := do
    let [decks,isCompleted,completedAt] ←
      fields? ["decks","is_completed","completed_at"] v | none
    some ⟨← optional? .empty decks,← required? isCompleted,← optional? none completedAt⟩

instance : Form CourseProgress where
  encode p := .record ([("lessons",encode p.lessons)] ++
    setMember "current_lesson_id" p.currentLessonId)
  decode? v := do
    let [lessons,current] ← fields? ["lessons","current_lesson_id"] v | none
    some ⟨← optional? .empty lessons,← optional? none current⟩

instance : Form Enrollment where
  encode e := .record [("id",encode e.id),("user_id",encode e.userId),
    ("course_id",encode e.courseId),("current_lesson_id",encode e.currentLessonId),
    ("state",encode e.state),("created_at",encode e.createdAt),
    ("updated_at",encode e.updatedAt)]
  decode? v := do
    let [id,userId,courseId,currentLessonId,state,createdAt,updatedAt] ←
      fields? ["id","user_id","course_id","current_lesson_id","state","created_at",
        "updated_at"] v | none
    some ⟨← required? id,← required? userId,← required? courseId,
      ← optional? none currentLessonId,← required? state,← required? createdAt,
      ← required? updatedAt⟩

end Coursework.Json
