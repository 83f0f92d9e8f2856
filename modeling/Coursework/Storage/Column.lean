import Coursework.Storage.Database
import Coursework.Storage.Spelling
/-!
Setting one column of some rows of a table to a text, as other programs that open the file do. This
is how cells come to hold what no operation writes and what reading has to refuse. Either all rows
change and every rule of the tables holds afterwards, or nothing changes. The numbers of the rows
are a column of each table, and only integers can be such numbers.
-/
namespace Coursework

def CourseRow.setter? (column value : String) : Option (CourseRow → CourseRow) :=
  match column with
  | "id" => some fun r => { r with id := value }
  | "ord" => some fun r => { r with ord := .ofText value }
  | "title" => some fun r => { r with title := value }
  | "description" => some fun r => { r with description := value }
  | "created_at" => some fun r => { r with createdAt := value }
  | _ => none

def LessonRow.setter? (column value : String) : Option (LessonRow → LessonRow) :=
  match column with
  | "id" => some fun r => { r with id := value }
  | "course_id" => some fun r => { r with courseId := value }
  | "ord" => some fun r => { r with ord := .ofText value }
  | "title" => some fun r => { r with title := value }
  | "description" => some fun r => { r with description := value }
  | "body" => some fun r => { r with body := value }
  | "created_at" => some fun r => { r with createdAt := value }
  | _ => none

def DeckRow.setter? (column value : String) : Option (DeckRow → DeckRow) :=
  match column with
  | "id" => some fun r => { r with id := value }
  | "title" => some fun r => { r with title := value }
  | "description" => some fun r => { r with description := value }
  | _ => none

def CardRow.setter? (column value : String) : Option (CardRow → CardRow) :=
  match column with
  | "id" => some fun r => { r with id := value }
  | "deck_id" => some fun r => { r with deckId := value }
  | "position" => some fun r => { r with position := .ofText value }
  | "title" => some fun r => { r with title := value }
  | "explanation" => some fun r => { r with explanation := value }
  | "kind" => some fun r => { r with kind := value }
  | _ => none

def AnswerRow.setter? (column value : String) : Option (AnswerRow → AnswerRow) :=
  match column with
  | "id" => some fun r => { r with id := value }
  | "card_id" => some fun r => { r with cardId := value }
  | "position" => some fun r => { r with position := .ofText value }
  | "text" => some fun r => { r with text := value }
  | "is_correct" => some fun r => { r with isCorrect := .ofText value }
  | _ => none

def ProgressRow.setter? (column value : String) : Option (ProgressRow → ProgressRow) :=
  match column with
  | "id" => some fun r => { r with id := value }
  | "user_id" => some fun r => { r with userId := value }
  | "course_id" => some fun r => { r with courseId := value }
  | "current_lesson" => some fun r => { r with currentLesson := some value }
  | "state" => some fun r => { r with state := value }
  | "created_at" => some fun r => { r with createdAt := value }
  | "updated_at" => some fun r => { r with updatedAt := value }
  | _ => none

inductive RowSelection where
  | all
  | withId (id : String)
  deriving DecidableEq, Repr

def RowSelection.selects : RowSelection → (id : String) → Bool
  | .all, _ => true
  | .withId id, other => other == id

def numberColumns : List String := ["rowid","oid","_rowid_"]

def Table.setColumn? {Row : Type} (t : Table Row) (id : Row → String)
    (setter? : (column value : String) → Option (Row → Row)) (column value : String)
    (rows : RowSelection) : Option (Nat × Table Row) :=
  let isSelected (r : Row) : Bool := rows.selects (id r)
  let count := t.toList.countP isSelected
  if numberColumns.contains column then
    match (Cell.ofText value).integer? with
    | some number => some (count,t.renumber isSelected number)
    | none => if count = 0 then some (0,t) else none
  else
    (setter? column value).map fun set => (count,t.map fun r => if isSelected r then set r else r)

namespace Database

def allDistinct {α : Type} [BEq α] : List α → Bool
  | [] => true
  | a :: as => !as.contains a && allDistinct as

def hasKeys {Row : Type} (t : Table Row) (id : Row → String) : Bool :=
  allDistinct t.numbers && allDistinct (t.toList.map id)

def isConsistent (d : Database) : Bool :=
  hasKeys d.courses (·.id) && hasKeys d.lessons (·.id) && hasKeys d.decks (·.id) &&
  hasKeys d.cards (·.id) && hasKeys d.answers (·.id) && hasKeys d.progress (·.id) &&
  allDistinct (d.progress.toList.map fun r => (r.userId,r.courseId)) &&
  allDistinct d.versions &&
  d.lessons.toList.all (fun l => d.courses.toList.any (·.id == l.courseId)) &&
  d.cards.toList.all (fun c =>
    d.decks.toList.any (·.id == c.deckId) && c.position.isNotNegative) &&
  d.answers.toList.all fun a => d.cards.toList.any (·.id == a.cardId) &&
    a.position.isNotNegative && a.isCorrect.isTruthValue

def setVersions? (d : Database) (column value : String) (rows : RowSelection) :
    Option (Nat × Database) :=
  if rows ≠ .all then none
  else if column = "applied_at" then some (d.versions.length,d)
  else if column = "version" ∨ numberColumns.contains column then
    (Cell.ofText value).integer?.map fun version =>
      (d.versions.length,{ d with versions := d.versions.map fun _ => version })
  else none

def changeColumn? (d : Database) (table column value : String) (rows : RowSelection) :
    Option (Nat × Database) :=
  match table with
  | "courses" => do
    let (n,courses) ← d.courses.setColumn? (·.id) CourseRow.setter? column value rows
    some (n,{ d with courses })
  | "lessons" => do
    let (n,lessons) ← d.lessons.setColumn? (·.id) LessonRow.setter? column value rows
    some (n,{ d with lessons })
  | "decks" => do
    let (n,decks) ← d.decks.setColumn? (·.id) DeckRow.setter? column value rows
    some (n,{ d with decks })
  | "cards" => do
    let (n,cards) ← d.cards.setColumn? (·.id) CardRow.setter? column value rows
    some (n,{ d with cards })
  | "answers" => do
    let (n,answers) ← d.answers.setColumn? (·.id) AnswerRow.setter? column value rows
    some (n,{ d with answers })
  | "user_course_progress" => do
    let (n,progress) ← d.progress.setColumn? (·.id) ProgressRow.setter? column value rows
    some (n,{ d with progress })
  | "schema_migrations" => d.setVersions? column value rows
  | _ => none

def setColumn (d : Database) (table column value : String) (rows : RowSelection) :
    Stored Nat × Database :=
  let changed := do
    d.changeColumn? (← Spelling.table? table) (← Spelling.column? column) value rows
  match changed with
  | none => (.error (.connection .statement),d)
  | some (n,new) =>
    if new.isConsistent then (.ok n,new) else (.error (.connection .constraint),d)

end Database

end Coursework
