import Coursework.Deck
import Coursework.Draft
import Coursework.Json.Form
/-!
The JSON forms of courses, lessons, decks and cards. Fields are written in a fixed order; texts
and lists that an author may leave out are read as empty.
-/
namespace Coursework.Json

/-- A kind is written as its name; it is also read as the only member of an object, with the value
null. -/
instance : Form CardKind where
  encode kind := .text kind.text
  decode?
    | .string s => s.bind CardKind.parse?
    | .object [(key,.null)] => key.bind CardKind.parse?
    | _ => none

instance : Form PossibleAnswer where
  encode a := .record [("id",encode a.id),("text",encode a.text),
    ("is_correct",encode a.isCorrect)]
  decode? v := do
    let [id,text,isCorrect] ← fields? ["id","text","is_correct"] v | none
    some ⟨← required? id,← required? text,← required? isCorrect⟩

instance : Form Card where
  encode c := .record [("id",encode c.id),("title",encode c.title),
    ("explanation",encode c.explanation),("kind",encode c.kind),
    ("possible_answers",encode c.possibleAnswers)]
  decode? v := do
    let [id,title,explanation,kind,answers] ←
      fields? ["id","title","explanation","kind","possible_answers"] v | none
    some ⟨← required? id,← required? title,← optional? "" explanation,
      ← optional? default kind,← optional? [] answers⟩

instance : Form Deck where
  encode d := .record [("id",encode d.id),("title",encode d.title),
    ("description",encode d.description),("cards",encode d.cards)]
  decode? v := do
    let [id,title,description,cards] ← fields? ["id","title","description","cards"] v | none
    some ⟨← required? id,← required? title,← optional? "" description,← optional? [] cards⟩

instance : Form Course where
  encode c := .record [("id",encode c.id),("order",encode c.order),("title",encode c.title),
    ("description",encode c.description),("created_at",encode c.createdAt)]
  decode? v := do
    let [id,order,title,description,createdAt] ←
      fields? ["id","order","title","description","created_at"] v | none
    some ⟨← required? id,← required? order,← required? title,← required? description,
      ← required? createdAt⟩

def lessonMembers (l : Lesson) : List (String × Value) :=
  [("id",encode l.id),("course_id",encode l.courseId),("order",encode l.order),
   ("title",encode l.title),("description",encode l.description),("body",encode l.body),
   ("created_at",encode l.createdAt)]

instance : Form Lesson where
  encode l := .record (lessonMembers l)
  decode? v := do
    let [id,courseId,order,title,description,body,createdAt] ←
      fields? ["id","course_id","order","title","description","body","created_at"] v | none
    some ⟨← required? id,← required? courseId,← required? order,← required? title,
      ← required? description,← required? body,← required? createdAt⟩

def encodeProblems (ps : DraftProblems) : Value :=
  .record [("errors",.array (ps.found.map fun p => .text p.code))]

end Coursework.Json
