import Coursework.Storage.Database
/-!
A database as a document, so that a file can hold it. A table is an array of numbers with their
rows, and a row an array of its cells in the order of the columns; a number in a cell that is no
integer of 64 bits is an array of its mantissa and its exponent, and one beyond all others the
truth value of being below them.
-/
namespace Coursework.Json

instance : Form Cell where
  encode
    | .integer n => .integer n
    | .real mantissa exponent => .array [.integer mantissa,.integer exponent]
    | .infinite isNegative => .bool isNegative
    | .text s => .text s
  decode?
    | .integer n => some (.integer n)
    | .array [.integer mantissa,.integer exponent] => some (.real mantissa exponent)
    | .bool isNegative => some (.infinite isNegative)
    | .string (some s) => some (.text s)
    | _ => none

instance : Form CourseRow where
  encode r := .array [encode r.id,encode r.ord,encode r.title,encode r.description,
    encode r.createdAt]
  decode? v := do
    let .array [id,ord,title,description,createdAt] := v | none
    some ⟨← decode? id,← decode? ord,← decode? title,← decode? description,
      ← decode? createdAt⟩

instance : Form LessonRow where
  encode r := .array [encode r.id,encode r.courseId,encode r.ord,encode r.title,
    encode r.description,encode r.body,encode r.createdAt]
  decode? v := do
    let .array [id,courseId,ord,title,description,body,createdAt] := v | none
    some ⟨← decode? id,← decode? courseId,← decode? ord,← decode? title,
      ← decode? description,← decode? body,← decode? createdAt⟩

instance : Form DeckRow where
  encode r := .array [encode r.id,encode r.title,encode r.description]
  decode? v := do
    let .array [id,title,description] := v | none
    some ⟨← decode? id,← decode? title,← decode? description⟩

instance : Form CardRow where
  encode r := .array [encode r.id,encode r.deckId,encode r.position,encode r.title,
    encode r.explanation,encode r.kind]
  decode? v := do
    let .array [id,deckId,position,title,explanation,kind] := v | none
    some ⟨← decode? id,← decode? deckId,← decode? position,← decode? title,
      ← decode? explanation,← decode? kind⟩

instance : Form AnswerRow where
  encode r := .array [encode r.id,encode r.cardId,encode r.position,encode r.text,
    encode r.isCorrect]
  decode? v := do
    let .array [id,cardId,position,text,isCorrect] := v | none
    some ⟨← decode? id,← decode? cardId,← decode? position,← decode? text,
      ← decode? isCorrect⟩

instance : Form ProgressRow where
  encode r := .array [encode r.id,encode r.userId,encode r.courseId,encode r.currentLesson,
    encode r.state,encode r.createdAt,encode r.updatedAt]
  decode? v := do
    let .array [id,userId,courseId,currentLesson,state,createdAt,updatedAt] := v | none
    some ⟨← decode? id,← decode? userId,← decode? courseId,← decode? currentLesson,
      ← decode? state,← decode? createdAt,← decode? updatedAt⟩

instance {Row : Type} [Form Row] : Form (Int × Row) where
  encode e := .array [encode e.1,encode e.2]
  decode? v := do
    let .array [number,row] := v | none
    some (← decode? number,← decode? row)

instance {Row : Type} [Form Row] : Form (Table Row) where
  encode t := encode t.entries
  decode? v := (decode? v).map Table.mk

instance : Form Database where
  encode d := .array [encode d.courses,encode d.lessons,encode d.decks,encode d.cards,
    encode d.answers,encode d.progress,encode d.versions]
  decode? v := do
    let .array [courses,lessons,decks,cards,answers,progress,versions] := v | none
    some ⟨← decode? courses,← decode? lessons,← decode? decks,← decode? cards,
      ← decode? answers,← decode? progress,← decode? versions⟩

end Coursework.Json

namespace Coursework.Database

def snapshot (d : Database) : String := Json.write d ++ "\n"

def ofSnapshot? (s : String) : Option Database := Json.read? s

end Coursework.Database
