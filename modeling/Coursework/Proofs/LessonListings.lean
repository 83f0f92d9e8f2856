import Coursework.Proofs.ByteOrder
import Coursework.Proofs.Stamps
import Coursework.Proofs.Updates
import Mathlib.Data.Prod.Basic
import Mathlib.Order.RelClasses

/-! Listings of lessons as tables make them. Rows are sorted by a number and by the bytes of two texts, so
every set of lessons has one listing, and sorting with every column falling reverses it. For lessons of
short years it is the sorting by order, time of creation and identifier. -/
namespace Coursework

open Text

abbrev InTurn {α β γ : Type} [LT α] [LT β] [LT γ] : α × β × γ → α × β × γ → Prop :=
  Prod.Lex (· < ·) (Prod.Lex (· < ·) (· < ·))

namespace Lesson

def place (l : Lesson) : Int64 × Instant × LessonId := (l.order,l.createdAt,l.id)

def written (l : Lesson) : Int64 × List UInt8 × List UInt8 :=
  (l.order,bytes l.createdAt.storedText,bytes l.id.key)

def Before (a b : Lesson) : Prop := InTurn a.place b.place

def WrittenBefore (a b : Lesson) : Prop := InTurn a.written b.written

variable {a b c : Lesson} {as bs : List Lesson}

theorem WrittenBefore.passes (first : a.WrittenBefore b) (next : b.WrittenBefore c) :
    a.WrittenBefore c :=
  IsTrans.trans (r := InTurn) a.written b.written c.written first next

theorem WrittenBefore.notBack (first : a.WrittenBefore b) : ¬b.WrittenBefore a :=
  Std.Asymm.asymm (r := InTurn) a.written b.written first

theorem writtenApart (apart : a.id ≠ b.id) : a.WrittenBefore b ∨ b.WrittenBefore a := by
  have keys : a.written ≠ b.written := fun same =>
    apart (Id.keyInjective (bytesSame.mp (congrArg (·.2.2) same)))
  have told := trichotomous_of InTurn a.written b.written
  exact told.imp_right fun rest => rest.resolve_left keys

theorem writtenBeforeIff (short : a.createdAt.HasShortYear) (shortOther : b.createdAt.HasShortYear) :
    a.WrittenBefore b ↔ a.Before b := by
  have sameTime : a.createdAt.storedText = b.createdAt.storedText ↔ a.createdAt = b.createdAt :=
    ⟨Instant.storedInjective short,congrArg Instant.storedText⟩
  simp only [WrittenBefore,Before,Prod.lex_def,written,place,bytesOrdered,bytesSame,
    Instant.storedOrdered short shortOther,sameTime,Id.keyOrdered]

theorem writtenUnique (sorted : as.Pairwise WrittenBefore) (other : bs.Pairwise WrittenBefore)
    (same : as.Perm bs) : as = bs :=
  same.eq_of_pairwise (fun _ _ _ _ first back => absurd back first.notBack) sorted other

theorem beforeWritten (short : ∀ l ∈ as, l.createdAt.HasShortYear) :
    as.Pairwise WrittenBefore ↔ as.Pairwise Before :=
  List.Pairwise.iff_of_mem fun here there => writtenBeforeIff (short _ here) (short _ there)

end Lesson

namespace LessonRow

def follows (a b : LessonRow) : Bool :=
  b.ord.before a.ord || (!a.ord.before b.ord &&
    (b.createdAt < a.createdAt || (a.createdAt == b.createdAt && b.id < a.id)))

theorem followsIs (a b : LessonRow) : a.follows b = b.precedes a := by
  rw [follows,precedes,Bool.beq_comm]

def rising (a b : Lesson) : Bool := (ofLesson a).precedes (ofLesson b)

theorem risingIff {a b : Lesson} : rising a b = true ↔ a.WrittenBefore b := by
  have order : a.order < b.order ↔ a.order.toInt < b.order.toInt := Int64.lt_iff_toInt_lt
  have sameOrder : a.order = b.order ↔ a.order.toInt = b.order.toInt := Int64.toInt_inj.symm
  rw [rising,precedes,ofLesson,ofLesson,Cell.numbersFirst]
  simp only [Lesson.WrittenBefore,Prod.lex_def,Lesson.written,bytesOrdered,bytesSame,
    Bool.or_eq_true,Bool.and_eq_true,decide_eq_true_eq,beq_iff_eq,order,sameOrder]

theorem risingPasses (a b c : Lesson) (first : rising a b = true) (next : rising b c = true) :
    rising a c = true :=
  risingIff.mpr ((risingIff.mp first).passes (risingIff.mp next))

theorem risingNotBack (a b : Lesson) (first : rising a b = true) : rising b a = false :=
  Bool.eq_false_iff.mpr fun back => (risingIff.mp first).notBack (risingIff.mp back)

variable {as : List Lesson} (distinct : (as.map (·.id)).Nodup)

include distinct

theorem sortedRows : ∃ listed : List Lesson, listed.Perm as ∧ listed.Pairwise Lesson.WrittenBefore ∧
    sortOrdered precedes (as.map ofLesson) = listed.map ofLesson ∧
    sortOrdered follows (as.map ofLesson) = listed.reverse.map ofLesson := by
  have told : as.Pairwise fun a b => rising a b = true ∨ rising b a = true :=
    (List.pairwise_map.mp distinct).imp fun apart =>
      (Lesson.writtenApart apart).imp risingIff.mpr risingIff.mpr
  refine ⟨sortOrdered rising as,sortOrderedPerm rising as,?_,?_,?_⟩
  · exact (sortOrderedPairwise risingPasses told).imp risingIff.mp
  · exact sortOrderedMapped fun a _ b _ => rfl
  · rw [← sortOrderedBackwards risingPasses told risingNotBack]
    exact sortOrderedMapped fun a _ b _ => followsIs (ofLesson a) (ofLesson b)

theorem sortedLessons (short : ∀ l ∈ as, l.createdAt.HasShortYear) :
    (sortOrdered Lesson.precedes as).Pairwise Lesson.WrittenBefore := by
  obtain ⟨listed,_,written,risen,_⟩ := sortedRows distinct
  have alike : (sortOrdered Lesson.precedes as).map ofLesson = listed.map ofLesson := by
    rw [← risen]
    exact (sortOrderedMapped fun a here b there => precedesAgrees (short a here) (short b there)).symm
  have rows : (listed.map ofLesson).Pairwise (precedes · · = true) :=
    List.pairwise_map.mpr (written.imp risingIff.mpr)
  rw [← alike] at rows
  exact (List.pairwise_map.mp rows).imp risingIff.mp

end LessonRow

structure Database.HoldsLessons (d : Database) (stored : List Lesson) : Prop where
  rows : d.lessons.toList = stored.map LessonRow.ofLesson
  distinct : (stored.map (·.id)).Nodup
  named : ∀ l ∈ stored, l.createdAt.isNamed = true

/- The listing of a course: it holds the lessons of the course in the order of their rows, and is turned
round by the other direction, as it is by sorting with every column falling. Where all years are short it
is the one sorting of the lessons themselves, and records of the same lessons have it as well. -/
structure ListsInOrder (d : Database) (stored : List Lesson) (course : CourseId)
    (listed : List Lesson) : Prop where
  lessons : listed.Perm (stored.filter (·.courseId == course))
  written : listed.Pairwise Lesson.WrittenBefore
  ascending : (d.perform (.listLessons course .ascending)).1 = .ok listed
  descending : (d.perform (.listLessons course .descending)).1 = .ok listed.reverse
  falling : (sortOrdered LessonRow.follows
    (d.lessons.toList.filter (·.courseId == course.key))).mapM LessonRow.read = .ok listed.reverse
  sorted : (∀ l ∈ listed, l.createdAt.HasShortYear) → listed.Pairwise Lesson.Before ∧
    ∀ other, other.Perm listed → other.Pairwise Lesson.Before → other = listed
  records : (∀ l ∈ listed, l.createdAt.HasShortYear) → ∀ m : Memory, m.lessons.Perm stored →
    ∀ order, (m.perform (.listLessons course order)).1 = (d.perform (.listLessons course order)).1

theorem Memory.listsWritten {m : Memory} {stored listed : List Lesson} {course : CourseId}
    (same : m.lessons.Perm stored) (distinct : (stored.map (·.id)).Nodup)
    (lessons : listed.Perm (stored.filter (·.courseId == course)))
    (written : listed.Pairwise Lesson.WrittenBefore)
    (short : ∀ l ∈ listed, l.createdAt.HasShortYear) : m.lessonsOf course = listed := by
  have chosen : (m.lessons.filter (·.courseId == course)).Perm listed :=
    (same.filter _).trans lessons.symm
  have apart : ((m.lessons.filter (·.courseId == course)).map (·.id)).Nodup :=
    (List.filter_sublist.map _).nodup ((same.map _).nodup_iff.mpr distinct)
  have sorted : (m.lessonsOf course).Pairwise Lesson.WrittenBefore :=
    LessonRow.sortedLessons apart fun l member => short l (chosen.mem_iff.mp member)
  exact Lesson.writtenUnique sorted written ((sortOrderedPerm _ _).trans chosen)

namespace Database.HoldsLessons

variable {d : Database} {stored : List Lesson}

theorem listsInOrder (holds : d.HoldsLessons stored) (course : CourseId) :
    ∃ listed, ListsInOrder d stored course listed := by
  have distinct : ((stored.filter (·.courseId == course)).map (·.id)).Nodup :=
    (List.filter_sublist.map _).nodup holds.distinct
  obtain ⟨listed,lessons,written,risen,fallen⟩ := LessonRow.sortedRows distinct
  have back : ∀ l ∈ listed, (LessonRow.ofLesson l).read = .ok l := fun l member =>
    LessonRow.readBack (holds.named l (List.mem_filter.mp (lessons.mem_iff.mp member)).1)
  have backwards : (listed.reverse.map LessonRow.ofLesson).mapM LessonRow.read = .ok listed.reverse :=
    mappedRead fun l member => back l (List.mem_reverse.mp member)
  have rows : d.lessonRows course = listed.map LessonRow.ofLesson := by
    rw [Database.lessonRows,rowsOfCourse holds.rows,risen]
  have ascending : (d.perform (.listLessons course .ascending)).1 = .ok listed := by
    simp only [Database.perform,rows,LessonOrder.arrange]
    exact mappedRead back
  have descending : (d.perform (.listLessons course .descending)).1 = .ok listed.reverse := by
    simp only [Database.perform,rows,LessonOrder.arrange,← List.map_reverse]
    exact backwards
  refine ⟨listed,lessons,written,ascending,descending,?_,?_,?_⟩
  · rw [rowsOfCourse holds.rows,fallen]
    exact backwards
  · intro short
    refine ⟨(Lesson.beforeWritten short).mp written,fun other same sorted => ?_⟩
    have shortOther : ∀ l ∈ other, l.createdAt.HasShortYear :=
      fun l member => short l (same.mem_iff.mp member)
    exact Lesson.writtenUnique ((Lesson.beforeWritten shortOther).mpr sorted) written same
  · intro short m same order
    simp only [Memory.perform,Memory.listsWritten same holds.distinct lessons written short]
    cases order with
    | ascending => exact ascending.symm
    | descending => exact descending.symm

end Database.HoldsLessons

theorem History.holdsLessons {us : History} (placed : us.Placed)
    (named : ∀ l ∈ us.lessons, l.createdAt.isNamed = true) :
    ∃ d, carriedOut Database.perform us {} = .ok d ∧
      d.HoldsLessons us.kept.recorded.lessons := by
  obtain ⟨d,carried,_,rows⟩ := filed placed
  refine ⟨d,carried,rows,?_,?_⟩ <;> rw [recordedKept]
  · exact gatheredDistinct Lesson.id _
  · exact keptAll (fun _ _ old => old) named

/-- Identifiers stand in the order of the bytes of their keys, and are read back from them; instants of
short years stand in the order of the bytes of their stored texts. So every set of lessons that a table
holds is listed course by course in the order of the lessons, and backwards in the other direction. -/
theorem textsKeepOrder :
    (∀ {entity : Entity} (a b : Id entity),
      (bytes a.key < bytes b.key ↔ a < b) ∧ Id.parse a.key = .ok a) ∧
    (∀ s t : Instant, s.HasShortYear → t.HasShortYear →
      (bytes s.storedText < bytes t.storedText ↔ s < t)) ∧
    ∀ (d : Database) (stored : List Lesson), d.HoldsLessons stored →
      ∀ course, ∃ listed, ListsInOrder d stored course listed := by
  refine ⟨fun a b => ⟨bytesOrdered.trans Id.keyOrdered,?_⟩,fun s t short shortOther => ?_,
    fun d stored holds course => holds.listsInOrder course⟩
  · rw [Id.parse,Id.parsesKey]
  · exact bytesOrdered.trans (Instant.storedOrdered short shortOther)

namespace Sample

def half : Lesson := { lesson with id := ⟨.ofNat 13⟩, createdAt := .ofNanos 500000000 }

def twin : Lesson := { half with id := ⟨.ofNat 12⟩ }

def crowded : History := [.course greetings,.lesson half,.lesson lesson,.lesson twin,.lesson second]

theorem crowdedPlaced : crowded.Placed :=
  have course : History.Placed ([] ++ [.course greetings]) := .course .nil greetings
  have there (us : History) : greetings ∈ History.courses (.course greetings :: us) :=
    List.mem_cons_self
  have first := History.Placed.lesson (l := half) course (there []) rfl
  have next := History.Placed.lesson (l := lesson) first (there [.lesson half]) rfl
  have third := History.Placed.lesson (l := twin) next (there [.lesson half,.lesson lesson]) rfl
  .lesson third (there [.lesson half,.lesson lesson,.lesson twin]) rfl

end Sample

theorem crowdedInOrder :
    (bytes Sample.twin.id.key < bytes Sample.half.id.key ↔ Sample.twin.id < Sample.half.id) ∧
    Id.parse Sample.half.id.key = .ok Sample.half.id ∧
    Sample.lesson.createdAt.HasShortYear ∧ Sample.half.createdAt.HasShortYear ∧
    (bytes Sample.lesson.createdAt.storedText < bytes Sample.half.createdAt.storedText ↔
      Sample.lesson.createdAt < Sample.half.createdAt) ∧
    ∃ d, History.carriedOut Database.perform Sample.crowded {} = .ok d ∧
      d.HoldsLessons Sample.crowded.kept.recorded.lessons ∧
      ListsInOrder d Sample.crowded.kept.recorded.lessons Sample.course
        [Sample.second,Sample.lesson,Sample.twin,Sample.half] ∧
      ∀ l ∈ [Sample.second,Sample.lesson,Sample.twin,Sample.half], l.createdAt.HasShortYear := by
  obtain ⟨keys,times,listings⟩ := textsKeepOrder
  obtain ⟨compared,_⟩ := keys Sample.twin.id Sample.half.id
  obtain ⟨_,read⟩ := keys Sample.half.id Sample.half.id
  have short : Sample.lesson.createdAt.HasShortYear := by decide
  have shortOther : Sample.half.createdAt.HasShortYear := by decide
  have named : ∀ l ∈ Sample.crowded.lessons, l.createdAt.isNamed = true := by decide
  obtain ⟨d,carried,holds⟩ := History.holdsLessons Sample.crowdedPlaced named
  obtain ⟨listed,inOrder⟩ := listings d _ holds Sample.course
  have told : (History.carriedOut Database.perform Sample.crowded {}).map
      (fun d => (d.perform (.listLessons Sample.course .ascending)).1) =
      .ok (.ok [Sample.second,Sample.lesson,Sample.twin,Sample.half]) := by decide +kernel
  rw [carried] at told
  have same := inOrder.ascending.symm.trans (Except.ok.inj told)
  rw [Except.ok.inj same] at inOrder
  exact ⟨compared,read,short,shortOther,times _ _ short shortOther,d,carried,holds,inOrder,by decide⟩

end Coursework
