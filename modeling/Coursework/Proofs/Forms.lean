import Coursework.Json.Progress
import Coursework.Proofs.Documents
import Coursework.Proofs.InstantText
import Coursework.Proofs.Keys

/-! What a document says of a progress tree. An instant of a day without a name makes a document
unreadable; a document that can be read gives back the tree that was written. -/
namespace Coursework

theorem KeyMap.ofListEntries {V : Type} (m : KeyMap V) : KeyMap.ofList m.entries = m := by
  refine KeyMap.ext fun key => ?_
  have distinct : (m.entries.map Prod.fst).Nodup := m.keysApart
  cases found : m.get? key with
  | none => exact getOfListAbsent (getNoneIff.mp found)
  | some v => exact getOfListMember distinct (getIffMember.mp found)

namespace Json

class FaithfulForm (α : Type) [Form α] : Prop where
  faithful : ∀ {a found : α}, decode? (encode a) = some found → found = a

export FaithfulForm (faithful)

instance {α : Type} [Form α] [LawfulForm α] : FaithfulForm α where
  faithful := by
    intro a found read
    rw [decodesBack] at read
    exact (Option.some.inj read).symm

theorem instantDecoded (t : Instant) : decode? (encode t) = Instant.parse? t.text := by
  simp only [encode,Value.text,decode?,Option.bind_some]

instance : FaithfulForm Instant where
  faithful := by
    intro t found read
    rw [instantDecoded] at read
    exact Instant.textFaithful read

instance : LawfulForm Counter where
  decodesBack c := c.ofOwnValue

class TextForm (α : Type) [Form α] : Prop where
  written : ∀ a : α, ∃ s, encode a = .text s

instance : TextForm Instant := ⟨fun t => ⟨t.text,rfl⟩⟩
instance {entity : Entity} : TextForm (Id entity) := ⟨fun id => ⟨id.key,rfl⟩⟩

section Members

variable {α : Type} [Form α]

def setField (o : Option α) : Option Value := o.map encode

theorem setFieldFaithful [FaithfulForm α] [TextForm α] {o found : Option α}
    (read : optional? none (setField o) = some found) : found = o := by
  cases o with
  | none => exact (Option.some.inj read).symm
  | some a =>
    obtain ⟨s,text⟩ := TextForm.written a
    have decoded : (decode? (encode a) : Option α).map some = some found := by
      have same : optional? none (setField (some a)) = (decode? (encode a) : Option α).map some := by
        simp only [setField,Option.map_some,optional?,text]
        rfl
      rw [← same]
      exact read
    obtain ⟨b,held,rfl⟩ := Option.map_eq_some_iff.mp decoded
    rw [faithful held]

variable [FaithfulForm α]

theorem entriesFaithful {entries found : List (String × α)}
    (read : (entries.map fun e => (some e.1,encode e.2)).mapM (decodeMember? (V := α)) =
      some found) : found = entries := by
  induction entries generalizing found with
  | nil => exact (Option.some.inj read).symm
  | cons e entries ih =>
    simp only [List.map_cons,List.mapM_cons,decodeMember?,Option.bind_eq_bind,Option.bind_some,
      Option.bind_eq_some_iff,Option.pure_def,Option.some.injEq] at read
    obtain ⟨head,⟨v,decoded,rfl⟩,rest,others,rfl⟩ := read
    rw [faithful decoded,ih others]

instance : FaithfulForm (KeyMap α) where
  faithful := by
    intro m found read
    have members : ((m.entries.map fun e => (some e.1,encode e.2)).mapM
        (decodeMember? (V := α))).map KeyMap.ofList = some found := by
      have layout : encode m = .object (m.entries.map fun e => (some e.1,encode e.2)) := by
        change Value.record _ = _
        simp [Value.record]
      rw [layout] at read
      exact read
    obtain ⟨entries,held,rfl⟩ := Option.map_eq_some_iff.mp members
    rw [entriesFaithful held,KeyMap.ofListEntries]

end Members

theorem cardFields (c : CardProgress) :
    fields? ["correct_answers","incorrect_answers","is_completed","completed_at"] (encode c) =
      some [some (encode c.correctAnswers),some (encode c.incorrectAnswers),
        some (encode c.isCompleted),setField c.completedAt] := by
  cases stamp : c.completedAt <;>
    simp [encode,stamp,setMember,Value.record,fields?,member?,setField,List.filter]

theorem deckFields (d : DeckProgress) :
    fields? ["cards","is_completed","completed_at"] (encode d) =
      some [some (encode d.cards),some (encode d.isCompleted),setField d.completedAt] := by
  cases stamp : d.completedAt <;>
    simp [encode,stamp,setMember,Value.record,fields?,member?,setField,List.filter]

theorem lessonFields (l : LessonProgress) :
    fields? ["decks","is_completed","completed_at"] (encode l) =
      some [some (encode l.decks),some (encode l.isCompleted),setField l.completedAt] := by
  cases stamp : l.completedAt <;>
    simp [encode,stamp,setMember,Value.record,fields?,member?,setField,List.filter]

theorem courseFields (p : CourseProgress) :
    fields? ["lessons","current_lesson_id"] (encode p) =
      some [some (encode p.lessons),setField p.currentLessonId] := by
  cases current : p.currentLessonId <;>
    simp [encode,current,setMember,Value.record,fields?,member?,setField,List.filter]

theorem requiredFaithful {α : Type} [Form α] [FaithfulForm α] {a found : α}
    (read : required? (some (encode a)) = some found) : found = a :=
  faithful read

theorem optionalFaithful {α : Type} [Form α] [FaithfulForm α] {a fallback found : α}
    (read : optional? fallback (some (encode a)) = some found) : found = a :=
  faithful read

instance : FaithfulForm CardProgress where
  faithful := by
    intro c found read
    have fields : ((fields? ["correct_answers","incorrect_answers","is_completed","completed_at"]
        (encode c)).bind fun
          | [correct,incorrect,isCompleted,completedAt] => do
            some (⟨← required? correct,← required? incorrect,← required? isCompleted,
              ← optional? none completedAt⟩ : CardProgress)
          | _ => none) = some found := read
    simp only [cardFields,Option.bind_some,Option.bind_eq_bind,Option.bind_eq_some_iff] at fields
    obtain ⟨correct,first,incorrect,second,isCompleted,third,stamp,fourth,same⟩ := fields
    cases requiredFaithful first
    cases requiredFaithful second
    cases requiredFaithful third
    cases setFieldFaithful fourth
    exact (Option.some.inj same).symm

instance : FaithfulForm DeckProgress where
  faithful := by
    intro d found read
    have fields : ((fields? ["cards","is_completed","completed_at"] (encode d)).bind fun
          | [cards,isCompleted,completedAt] => do
            some (⟨← optional? .empty cards,← required? isCompleted,
              ← optional? none completedAt⟩ : DeckProgress)
          | _ => none) = some found := read
    simp only [deckFields,Option.bind_some,Option.bind_eq_bind,Option.bind_eq_some_iff] at fields
    obtain ⟨cards,first,isCompleted,second,stamp,third,same⟩ := fields
    cases optionalFaithful first
    cases requiredFaithful second
    cases setFieldFaithful third
    exact (Option.some.inj same).symm

instance : FaithfulForm LessonProgress where
  faithful := by
    intro l found read
    have fields : ((fields? ["decks","is_completed","completed_at"] (encode l)).bind fun
          | [decks,isCompleted,completedAt] => do
            some (⟨← optional? .empty decks,← required? isCompleted,
              ← optional? none completedAt⟩ : LessonProgress)
          | _ => none) = some found := read
    simp only [lessonFields,Option.bind_some,Option.bind_eq_bind,Option.bind_eq_some_iff] at fields
    obtain ⟨decks,first,isCompleted,second,stamp,third,same⟩ := fields
    cases optionalFaithful first
    cases requiredFaithful second
    cases setFieldFaithful third
    exact (Option.some.inj same).symm

instance : FaithfulForm CourseProgress where
  faithful := by
    intro p found read
    have fields : ((fields? ["lessons","current_lesson_id"] (encode p)).bind fun
          | [lessons,current] => do
            some (⟨← optional? .empty lessons,← optional? none current⟩ : CourseProgress)
          | _ => none) = some found := read
    simp only [courseFields,Option.bind_some,Option.bind_eq_bind,Option.bind_eq_some_iff] at fields
    obtain ⟨lessons,first,current,second,same⟩ := fields
    cases optionalFaithful first
    cases setFieldFaithful second
    exact (Option.some.inj same).symm

theorem readWritten {α : Type} [Form α] [FaithfulForm α] {a found : α}
    (read : read? (write a) = some found) : found = a := by
  rw [read?,write,parseCompact,Option.bind_some] at read
  exact faithful read

end Json

end Coursework
