import Coursework.Proofs.Forms
import Coursework.Proofs.StoredText
import Coursework.Storage.Row

/-! What is written is read back, if the days of all its instants have names: trees from their
documents, and records from their rows. -/
namespace Coursework

def CardProgress.TimesAre (P : Instant → Prop) (c : CardProgress) : Prop :=
  ∀ t, c.completedAt = some t → P t

structure DeckProgress.TimesAre (P : Instant → Prop) (d : DeckProgress) : Prop where
  cards : ∀ key c, d.cards.get? key = some c → c.TimesAre P
  own : ∀ t, d.completedAt = some t → P t

structure LessonProgress.TimesAre (P : Instant → Prop) (l : LessonProgress) : Prop where
  decks : ∀ key d, l.decks.get? key = some d → d.TimesAre P
  own : ∀ t, l.completedAt = some t → P t

def CourseProgress.TimesAre (P : Instant → Prop) (p : CourseProgress) : Prop :=
  ∀ key l, p.lessons.get? key = some l → l.TimesAre P

structure Enrollment.TimesAre (P : Instant → Prop) (e : Enrollment) : Prop where
  created : P e.createdAt
  updated : P e.updatedAt
  state : e.state.TimesAre P

section Times

variable {P Q : Instant → Prop} (weaker : ∀ t, P t → Q t)

include weaker

theorem CardProgress.TimesAre.imp {c : CardProgress} (times : c.TimesAre P) : c.TimesAre Q :=
  fun t set => weaker t (times t set)

theorem DeckProgress.TimesAre.imp {d : DeckProgress} (times : d.TimesAre P) : d.TimesAre Q :=
  ⟨fun key c there => (times.cards key c there).imp weaker,fun t set => weaker t (times.own t set)⟩

theorem LessonProgress.TimesAre.imp {l : LessonProgress} (times : l.TimesAre P) : l.TimesAre Q :=
  ⟨fun key d there => (times.decks key d there).imp weaker,fun t set => weaker t (times.own t set)⟩

theorem CourseProgress.TimesAre.imp {p : CourseProgress} (times : p.TimesAre P) : p.TimesAre Q :=
  fun key l there => (times key l there).imp weaker

theorem Enrollment.TimesAre.imp {e : Enrollment} (times : e.TimesAre P) : e.TimesAre Q :=
  ⟨weaker _ times.created,weaker _ times.updated,times.state.imp weaker⟩

end Times

section Decidable

variable {P : Instant → Prop} [DecidablePred P]

instance {V : Type} {Q : V → Prop} [DecidablePred Q] (m : KeyMap V) :
    Decidable (∀ key v, m.get? key = some v → Q v) :=
  decidable_of_iff (∀ e ∈ m.entries, Q e.2)
    ⟨fun all key v found => all (key,v) (KeyMap.getIffMember.mp found),
      fun all e member => all e.1 e.2 (KeyMap.getIffMember.mpr member)⟩

instance (o : Option Instant) : Decidable (∀ t, o = some t → P t) :=
  inferInstanceAs (Decidable (∀ t ∈ o, P t))

instance (c : CardProgress) : Decidable (c.TimesAre P) :=
  inferInstanceAs (Decidable (∀ t, c.completedAt = some t → P t))

instance (d : DeckProgress) : Decidable (d.TimesAre P) :=
  decidable_of_iff ((∀ key c, d.cards.get? key = some c → c.TimesAre P) ∧
    ∀ t, d.completedAt = some t → P t) ⟨fun ⟨cards,own⟩ => ⟨cards,own⟩,fun t => ⟨t.cards,t.own⟩⟩

instance (l : LessonProgress) : Decidable (l.TimesAre P) :=
  decidable_of_iff ((∀ key d, l.decks.get? key = some d → d.TimesAre P) ∧
    ∀ t, l.completedAt = some t → P t) ⟨fun ⟨decks,own⟩ => ⟨decks,own⟩,fun t => ⟨t.decks,t.own⟩⟩

instance (p : CourseProgress) : Decidable (p.TimesAre P) :=
  inferInstanceAs (Decidable (∀ key l, p.lessons.get? key = some l → l.TimesAre P))

instance (e : Enrollment) : Decidable (e.TimesAre P) :=
  decidable_of_iff (P e.createdAt ∧ P e.updatedAt ∧ e.state.TimesAre P)
    ⟨fun ⟨created,updated,state⟩ => ⟨created,updated,state⟩,
      fun t => ⟨t.created,t.updated,t.state⟩⟩

end Decidable

namespace Json

section Members

variable {α : Type} [Form α]

def ReadsBack (a : α) : Prop := decode? (encode a) = some a

theorem setFieldReadsBack [TextForm α] {o : Option α} (each : ∀ a, o = some a → ReadsBack a) :
    optional? none (setField o) = some o := by
  cases o with
  | none => rfl
  | some a =>
    obtain ⟨s,text⟩ := TextForm.written a
    have same : optional? none (setField (some a)) = (decode? (encode a) : Option α).map some := by
      simp only [setField,Option.map_some,optional?,text]
      rfl
    rw [same,each a rfl]
    rfl

theorem entriesReadBack {entries : List (String × α)} (each : ∀ e ∈ entries, ReadsBack e.2) :
    (entries.map fun e => (some e.1,encode e.2)).mapM (decodeMember? (V := α)) = some entries := by
  induction entries with
  | nil => rfl
  | cons e entries ih =>
    obtain ⟨head,rest⟩ := List.forall_mem_cons.mp each
    have decoded : decodeMember? (some e.1,encode e.2) = some e := by
      simp only [Option.bind_eq_bind,decodeMember?,Option.bind_some]
      rw [show decode? (encode e.2) = some e.2 from head]
      rfl
    rw [List.map_cons,List.mapM_cons,decoded,ih rest]
    rfl

theorem mapReadsBack {m : KeyMap α} (each : ∀ key v, m.get? key = some v → ReadsBack v) :
    ReadsBack m := by
  have layout : encode m = .object (m.entries.map fun e => (some e.1,encode e.2)) := by
    change Value.record _ = _
    simp [Value.record]
  have inside : ∀ e ∈ m.entries, ReadsBack e.2 := fun e member =>
    each e.1 e.2 (KeyMap.getIffMember.mpr member)
  have members : ((m.entries.map fun e => (some e.1,encode e.2)).mapM
      (decodeMember? (V := α))).map KeyMap.ofList = some m := by
    rw [entriesReadBack inside,Option.map_some,KeyMap.ofListEntries]
  unfold ReadsBack
  rw [layout]
  exact members

end Members

theorem instantReadsBack {t : Instant} (named : t.isNamed = true) : ReadsBack t := by
  rw [ReadsBack,instantDecoded,Instant.parseText,if_pos named]

theorem decodedFrom {α : Type} {found : Option (List (Option Value))} {fields : List (Option Value)}
    {read : List (Option Value) → Option α} {a : α} (members : found = some fields)
    (back : read fields = some a) : found.bind read = some a := by
  rw [members,Option.bind_some,back]

theorem cardReadsBack {c : CardProgress} (named : c.TimesAre (·.isNamed = true)) : ReadsBack c := by
  have stamp := setFieldReadsBack fun t set => instantReadsBack (named t set)
  refine decodedFrom (cardFields c) ?_
  simp only [Option.bind_some,Option.bind_eq_bind,required?,decodesBack,stamp]

theorem optionalReadsBack {α : Type} [Form α] {a : α} (back : ReadsBack a) (fallback : α) :
    optional? fallback (some (encode a)) = some a :=
  back

theorem deckReadsBack {d : DeckProgress} (named : d.TimesAre (·.isNamed = true)) : ReadsBack d := by
  have stamp := setFieldReadsBack fun t set => instantReadsBack (named.own t set)
  have cards : ReadsBack d.cards :=
    mapReadsBack fun key c found => cardReadsBack (named.cards key c found)
  refine decodedFrom (deckFields d) ?_
  simp only [Option.bind_some,Option.bind_eq_bind,optionalReadsBack cards,required?,
    decodesBack,stamp]

theorem lessonReadsBack {l : LessonProgress} (named : l.TimesAre (·.isNamed = true)) :
    ReadsBack l := by
  have stamp := setFieldReadsBack fun t set => instantReadsBack (named.own t set)
  have decks : ReadsBack l.decks :=
    mapReadsBack fun key d found => deckReadsBack (named.decks key d found)
  refine decodedFrom (lessonFields l) ?_
  simp only [Option.bind_some,Option.bind_eq_bind,optionalReadsBack decks,required?,
    decodesBack,stamp]

theorem courseReadsBack {p : CourseProgress} (named : p.TimesAre (·.isNamed = true)) :
    ReadsBack p := by
  have current : optional? none (setField p.currentLessonId) = some p.currentLessonId :=
    setFieldReadsBack fun id _ => decodesBack id
  have lessons : ReadsBack p.lessons :=
    mapReadsBack fun key l found => lessonReadsBack (named key l found)
  refine decodedFrom (courseFields p) ?_
  simp only [Option.bind_some,Option.bind_eq_bind,optionalReadsBack lessons,current]

theorem treeReadBack {p : CourseProgress} (named : p.TimesAre (·.isNamed = true)) :
    read? (write p) = some p := by
  rw [read?,write,parseCompact,Option.bind_some]
  exact courseReadsBack named

end Json

theorem Id.sameKeys {entity : Entity} (a b : Id entity) : (a.key == b.key) = (a == b) := by
  rw [Bool.eq_iff_iff,beq_iff_eq,beq_iff_eq]
  exact ⟨fun same => keyInjective same,congrArg key⟩

section Rows

theorem storedIdKey {entity : Entity} (field : StoredField) (id : Id entity) :
    Stored.id field id.key = .ok id := by
  rw [Stored.id,Id.parsesKey]

theorem storedInstant {t : Instant} (named : t.isNamed = true) :
    Stored.instant t.storedText = .ok t := by
  rw [Stored.instant,Instant.parseStored,if_pos named]
  rfl

theorem storedOrder (n : Int64) : Stored.order (.integer n.toInt) = .ok n := by
  simp [Stored.order,Cell.integer?,Stored.readable]

theorem CourseRow.readBack {c : Course} (named : c.createdAt.isNamed = true) :
    (CourseRow.ofCourse c).read = .ok c := by
  simp only [read,ofCourse,storedIdKey,storedOrder,storedInstant named]
  rfl

theorem LessonRow.readBack {l : Lesson} (named : l.createdAt.isNamed = true) :
    (LessonRow.ofLesson l).read = .ok l := by
  simp only [read,ofLesson,storedIdKey,storedOrder,storedInstant named]
  rfl

def Card.bare (c : Card) : Card := { c with possibleAnswers := [] }

theorem CardRow.readBack (deck : DeckId) (position : Nat) (c : Card) :
    (CardRow.ofCard deck position c).read = .ok c.bare := by
  simp only [read,ofCard,storedIdKey,Stored.kind,CardKind.parsesText]
  rfl

theorem AnswerRow.readBack (card : CardId) (position : Nat) (a : PossibleAnswer) :
    (AnswerRow.ofAnswer card position a).read = .ok (card,a) := by
  simp only [read,ofAnswer,storedIdKey,Cell.integer?,Stored.readable]
  cases a with
  | mk id text isCorrect => cases isCorrect <;> rfl

theorem ProgressRow.readBack {e : Enrollment} (named : e.TimesAre (·.isNamed = true)) :
    (ProgressRow.ofEnrollment e).read = .ok e := by
  have current : readCurrent (e.currentLessonId.map Id.key) = .ok e.currentLessonId := by
    cases e.currentLessonId with
    | none => rfl
    | some id =>
      rw [Option.map_some,readCurrent,storedIdKey]
      rfl
  simp only [read,ofEnrollment,current,Json.treeReadBack named.state,Uuid.parsesText,
    storedIdKey,storedInstant named.created,storedInstant named.updated]
  rfl

end Rows

end Coursework
