import Coursework.CommandLine.Disk
import Coursework.Proofs.Documents

/-! Databases and the files that hold them. The tables are read back row by row from the text of a
file, whatever its cells hold; only whether a file keeps a log is not in its text. -/
namespace Coursework

namespace Json

instance : LawfulForm CourseRow := ⟨fun r => by
  cases r with | mk id ord => cases ord <;> rfl⟩

instance : LawfulForm LessonRow := ⟨fun r => by
  cases r with | mk id courseId ord => cases ord <;> rfl⟩

instance : LawfulForm DeckRow := ⟨fun _ => rfl⟩

instance : LawfulForm CardRow := ⟨fun r => by
  cases r with | mk id deckId position => cases position <;> rfl⟩

instance : LawfulForm AnswerRow := ⟨fun r => by
  cases r with
  | mk id cardId position text isCorrect => cases position <;> cases isCorrect <;> rfl⟩

instance : LawfulForm ProgressRow := ⟨fun r => by
  cases r with | mk id userId courseId currentLesson => cases currentLesson <;> rfl⟩

instance {Row : Type} [Form Row] [LawfulForm Row] : LawfulForm (Int × Row) := ⟨fun e => by
  show (do
    let number ← decode? (encode e.1)
    let row ← decode? (encode e.2)
    some (number,row)) = some e
  simp only [decodesBack,Option.bind_eq_bind,Option.bind_some]⟩

instance {Row : Type} [Form Row] [LawfulForm Row] : LawfulForm (Table Row) := ⟨fun t => by
  show (decode? (encode t.entries)).map Table.mk = some t
  rw [decodesBack,Option.map_some]⟩

instance : LawfulForm Database := ⟨fun d => by
  show (do
    let courses ← decode? (encode d.courses)
    let lessons ← decode? (encode d.lessons)
    let decks ← decode? (encode d.decks)
    let cards ← decode? (encode d.cards)
    let answers ← decode? (encode d.answers)
    let progress ← decode? (encode d.progress)
    let versions ← decode? (encode d.versions)
    some (Database.mk courses lessons decks cards answers progress versions)) = some d
  simp only [decodesBack,Option.bind_eq_bind,Option.bind_some]⟩

end Json

theorem Database.snapshotReadsBack (d : Database) : ofSnapshot? d.snapshot = some d := by
  rw [snapshot,ofSnapshot?,Json.read?,Json.write,Json.parseLine,Option.bind_some,Json.decodesBack]

theorem Database.snapshotInked (d : Database) : d.snapshot.isEmpty = false := by
  rw [← Bool.not_eq_true,String.isEmpty_iff]
  intro nothing
  have read := d.snapshotReadsBack
  rw [nothing] at read
  exact absurd read (by simp [ofSnapshot?,Json.read?,Json.Value.parse?,Json.Value.parseChars?,
    Json.scanValue,Json.skipSpace])

namespace CommandLine

/-- A file is told by its text, but for its log, which every file with tables is read to keep. -/
theorem DatabaseFile.textReadsBack (file : DatabaseFile) :
    ofText? file.text = some { tables := file.tables, keepsLog := file.tables.isSome } := by
  cases tables : file.tables with
  | none => simp [text,tables,ofText?]
  | some database =>
    have read := database.snapshotReadsBack
    simp [text,tables,ofText?,database.snapshotInked,read]

end CommandLine

end Coursework
