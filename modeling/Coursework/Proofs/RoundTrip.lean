import Coursework.Json.Outcome
import Coursework.Proofs.Listings
import Coursework.Proofs.ReadBack
import Coursework.Proofs.TextOrder

/-! Every document that is written is read back as what it was written for, so writing what a text
says, however it was spelled, gives a text that stays as it is from then on. -/
namespace Coursework

namespace Json

theorem mapMEach {α β γ : Type} {f : α → Option γ} {g : β → α} {h : β → γ} {bs : List β}
    (each : ∀ b ∈ bs, f (g b) = some (h b)) : (bs.map g).mapM f = some (bs.map h) := by
  induction bs with
  | nil => rfl
  | cons b bs ih =>
    obtain ⟨first,rest⟩ := List.forall_mem_cons.mp each
    rw [List.map_cons,List.mapM_cons,first,ih rest]
    rfl

theorem recordFields {names : List String} (values : List Value) (distinct : names.Nodup)
    (same : names.length = values.length) :
    fields? names (.record (names.zip values)) = some (values.map some) := by
  let members := names.zip values
  let written := members.map fun m => ((some m.1 : Literal),m.2)
  have keys : members.map Prod.fst = names := List.map_fst_zip (Nat.le_of_eq same)
  have items : members.map Prod.snd = values := List.map_snd_zip (Nat.le_of_eq same.symm)
  have named : (written.all fun m => m.1.isSome) = true := by simp [written]
  have apart : (written.map Prod.fst).Nodup := by
    have labels : written.map Prod.fst = names.map some := by
      rw [← keys,List.map_map,List.map_map]
      rfl
    rw [labels]
    exact distinct.map fun _ _ => Option.some.inj
  have found : ∀ m ∈ members, member? written m.1 = some (some m.2) := by
    intro m member
    have inside : ((some m.1 : Literal),m.2) ∈ written := List.mem_map.mpr ⟨m,member,rfl⟩
    have only : (written.filter fun n => n.1 == some m.1) = [(some m.1,m.2)] := by
      rw [filteredKey apart fun _ => beq_iff_eq,
        (foundIff apart fun _ => beq_iff_eq).mpr ⟨inside,rfl⟩]
      rfl
    rw [member?,only]
  have layout : Value.record members = .object written := rfl
  rw [layout,fields?,if_pos named]
  have each := mapMEach found
  have listed : members.map (fun m => some m.2) = values.map some := by
    rw [← items,List.map_map]
    rfl
  rw [keys,listed] at each
  exact each

instance : LawfulForm Int64 where
  decodesBack n := by
    have fits : Int64.minValue.toInt ≤ n.toInt ∧ n.toInt ≤ Int64.maxValue.toInt :=
      ⟨n.minValue_le_toInt,n.toInt_le⟩
    have read : decode? (encode n) = some (Int64.ofInt n.toInt) := if_pos fits
    rw [read,Int64.ofInt_toInt]

instance : LawfulForm CardKind where
  decodesBack kind := kind.parsesText

instance : LawfulForm PossibleAnswer where
  decodesBack a := by
    refine decodedFrom (recordFields [encode a.id,encode a.text,encode a.isCorrect]
      (by decide) rfl) ?_
    simp [required?,decodesBack]

instance : LawfulForm Card where
  decodesBack c := by
    refine decodedFrom (recordFields [encode c.id,encode c.title,encode c.explanation,
      encode c.kind,encode c.possibleAnswers] (by decide) rfl) ?_
    simp [required?,optional?,decodesBack]

instance : LawfulForm Deck where
  decodesBack d := by
    refine decodedFrom (recordFields [encode d.id,encode d.title,encode d.description,
      encode d.cards] (by decide) rfl) ?_
    simp [required?,optional?,decodesBack]

instance : LawfulForm CardAnswer where
  decodesBack a := by
    refine decodedFrom (recordFields [encode a.cardId,encode a.answerId]
      (by decide) rfl) ?_
    simp [required?,decodesBack]

instance {α : Type} [Form α] [LawfulForm α] [TextForm α] : LawfulForm (Option α) where
  decodesBack o := by
    cases o with
    | none => rfl
    | some a =>
      obtain ⟨s,text⟩ := TextForm.written a
      have back : decode? (.text s) = some a := text ▸ decodesBack a
      have layout : encode (some a) = .text s := text
      rw [layout]
      exact congrArg (Option.map some) back

theorem courseContentReadsBack {c : Course} (named : c.createdAt.isNamed = true) : ReadsBack c := by
  have created : decode? (encode c.createdAt) = some c.createdAt := instantReadsBack named
  refine decodedFrom (recordFields [encode c.id,encode c.order,encode c.title,
    encode c.description,encode c.createdAt] (by decide) rfl) ?_
  simp [required?,created,decodesBack]

theorem lessonContentReadsBack {l : Lesson} (named : l.createdAt.isNamed = true) : ReadsBack l := by
  have created : decode? (encode l.createdAt) = some l.createdAt := instantReadsBack named
  refine decodedFrom (recordFields [encode l.id,encode l.courseId,encode l.order,
    encode l.title,encode l.description,encode l.body,encode l.createdAt] (by decide) rfl) ?_
  simp [required?,created,decodesBack]

theorem enrollmentReadsBack {e : Enrollment} (named : e.TimesAre (·.isNamed = true)) :
    ReadsBack e := by
  have created : decode? (encode e.createdAt) = some e.createdAt := instantReadsBack named.created
  have updated : decode? (encode e.updatedAt) = some e.updatedAt := instantReadsBack named.updated
  have state : decode? (encode e.state) = some e.state := courseReadsBack named.state
  refine decodedFrom (recordFields [encode e.id,encode e.userId,encode e.courseId,
    encode e.currentLessonId,encode e.state,encode e.createdAt,encode e.updatedAt]
    (by decide) rfl) ?_
  simp [required?,optional?,created,updated,state,decodesBack]

end Json

inductive Document where
  | courseProgress | lessonProgress | deckProgress | cardProgress | enrollment | course | lesson
  | deck | card | possibleAnswer | cardKind | cardAnswer

namespace Document

open Json

abbrev Content : Document → Type
  | .courseProgress => CourseProgress
  | .lessonProgress => LessonProgress
  | .deckProgress => DeckProgress
  | .cardProgress => CardProgress
  | .enrollment => Enrollment
  | .course => Course
  | .lesson => Lesson
  | .deck => Deck
  | .card => Card
  | .possibleAnswer => PossibleAnswer
  | .cardKind => CardKind
  | .cardAnswer => CardAnswer

instance : (kind : Document) → Form kind.Content
  | .courseProgress => inferInstanceAs (Form CourseProgress)
  | .lessonProgress => inferInstanceAs (Form LessonProgress)
  | .deckProgress => inferInstanceAs (Form DeckProgress)
  | .cardProgress => inferInstanceAs (Form CardProgress)
  | .enrollment => inferInstanceAs (Form Enrollment)
  | .course => inferInstanceAs (Form Course)
  | .lesson => inferInstanceAs (Form Lesson)
  | .deck => inferInstanceAs (Form Deck)
  | .card => inferInstanceAs (Form Card)
  | .possibleAnswer => inferInstanceAs (Form PossibleAnswer)
  | .cardKind => inferInstanceAs (Form CardKind)
  | .cardAnswer => inferInstanceAs (Form CardAnswer)

def TimesAre (P : Instant → Prop) : (kind : Document) → kind.Content → Prop
  | .courseProgress,p => CourseProgress.TimesAre P p
  | .lessonProgress,l => LessonProgress.TimesAre P l
  | .deckProgress,d => DeckProgress.TimesAre P d
  | .cardProgress,c => CardProgress.TimesAre P c
  | .enrollment,e => Enrollment.TimesAre P e
  | .course,c => P (Course.createdAt c)
  | .lesson,l => P (Lesson.createdAt l)
  | .deck,_ | .card,_ | .possibleAnswer,_ | .cardKind,_ | .cardAnswer,_ => True

theorem readsBack {kind : Document} {a : kind.Content}
    (named : kind.TimesAre (·.isNamed = true) a) : ReadsBack a := by
  cases kind with
  | courseProgress => exact courseReadsBack named
  | lessonProgress => exact lessonReadsBack named
  | deckProgress => exact deckReadsBack named
  | cardProgress => exact cardReadsBack named
  | enrollment => exact enrollmentReadsBack named
  | course => exact courseContentReadsBack named
  | lesson => exact lessonContentReadsBack named
  | deck => exact decodesBack _
  | card => exact decodesBack _
  | possibleAnswer => exact decodesBack _
  | cardKind => exact decodesBack _
  | cardAnswer => exact decodesBack _

theorem TimesAre.imp {P Q : Instant → Prop} (weaker : ∀ t, P t → Q t) {kind : Document}
    {a : kind.Content} (times : kind.TimesAre P a) : kind.TimesAre Q a := by
  cases kind with
  | courseProgress => exact CourseProgress.TimesAre.imp weaker times
  | lessonProgress => exact LessonProgress.TimesAre.imp weaker times
  | deckProgress => exact DeckProgress.TimesAre.imp weaker times
  | cardProgress => exact CardProgress.TimesAre.imp weaker times
  | enrollment => exact Enrollment.TimesAre.imp weaker times
  | course => exact weaker _ times
  | lesson => exact weaker _ times
  | _ => trivial

def rewrite? (kind : Document) (text : String) : Option String :=
  (read? text : Option kind.Content).map write

/- What is written for a content is read as that content; and of any text that says it, the text that
is written in its place says it as well and stands for itself. -/
structure RoundTrips (kind : Document) (a : kind.Content) : Prop where
  back : read? (write a) = some a
  stable : ∀ text, read? text = some a → ∃ written, kind.rewrite? text = some written ∧
    read? written = some a ∧ kind.rewrite? written = some written

/-- Documents of all kinds make the round trip, if the years of their instants have four digits. -/
theorem documentsRoundTrip {kind : Document} {a : kind.Content}
    (short : kind.TimesAre Instant.HasShortYear a) : kind.RoundTrips a := by
  have named : kind.TimesAre (·.isNamed = true) a := short.imp fun _ => Instant.HasShortYear.named
  have back : read? (write a) = some a := by
    rw [read?,write,parseCompact,Option.bind_some]
    exact readsBack named
  refine ⟨back,fun text read => ⟨write a,?_,back,?_⟩⟩
  · rw [rewrite?,read,Option.map_some]
  · rw [rewrite?,back,Option.map_some]

namespace Sample

open Json

def untidy : String :=
  "\x7b \"grade\": 1.5e3, \"current_lesson_id\": \"\x7b0C5A1F00-0000-4000-8000-00000000000A\x7d\",
    \"lessons\": \x7b\"\\ud83d\\ude00\": \x7b\"is_completed\": false\x7d, \"\\ud83d\\ude00\": \x7b
      \"completed_at\": \"2016-12-31 18:59:60.25-05:00\", \"is_completed\": true\x7d\x7d \x7d"

theorem untidyRead :
    ∃ p : CourseProgress, read? untidy = some p ∧ p.TimesAre Instant.HasShortYear := by
  have found : ((read? untidy : Option CourseProgress).any fun p =>
      decide (p.TimesAre Instant.HasShortYear)) = true := by decide +kernel
  obtain ⟨p,read,short⟩ := (Option.any_eq_true _ _).mp found
  exact ⟨p,read,of_decide_eq_true short⟩

end Sample

theorem sampleDocumentsRoundTrip : ∃ p : CourseProgress,
    read? Sample.untidy = some p ∧ RoundTrips .courseProgress p := by
  obtain ⟨p,read,short⟩ := Sample.untidyRead
  exact ⟨p,read,documentsRoundTrip short⟩

end Document

end Coursework
