import Coursework.Proofs.Sessions
import Mathlib.Data.List.Induction

/-! Histories of updates. Courses and lessons are stored one after another, each as often as it is
changed. A new record takes the place of the old one whole; a row keeps what it was first stored with
and cannot be changed, which is the time of creation, and the course of a lesson. -/
namespace Coursework

theorem Table.upsertTaken {Row : Type} {t : Table Row} {same : Row → Bool} {change : Row → Row}
    (taken : t.toList.any same = true) (row other : Row) :
    t.upsert same change row = t.upsert same change other := by
  rw [upsert,upsert,if_pos taken,if_pos taken]

section Gathered

variable {α κ : Type} [BEq κ] {key : α → κ} {as : List α}

def gathered (key : α → κ) (as : List α) : List α :=
  as.foldl (fun stored a => replaceOrAppend (key · == key a) a stored) []

theorem gatheredNext (as : List α) (a : α) :
    gathered key (as ++ [a]) = replaceOrAppend (key · == key a) a (gathered key as) := by
  rw [gathered,List.foldl_append]
  rfl

theorem gatheredMapped {f : α → α} (keeps : ∀ a, key (f a) = key a) (as : List α) :
    gathered key (as.map f) = (gathered key as).map f := by
  have replaced (a : α) (bs : List α) : replaceOrAppend (key · == key (f a)) (f a) (bs.map f) =
      (replaceOrAppend (key · == key a) a bs).map f := by
    induction bs with
    | nil => rfl
    | cons b bs ih =>
      rw [List.map_cons,replaceOrAppend,replaceOrAppend,keeps b,keeps a]
      split
      · rfl
      · rw [List.map_cons,← ih,keeps a]
  induction as using List.reverseRecOn with
  | nil => rfl
  | append_singleton as a ih =>
    rw [List.map_append,List.map_singleton,gatheredNext,gatheredNext,ih,replaced]

variable [LawfulBEq κ]

theorem gatheredDistinct (key : α → κ) (as : List α) : ((gathered key as).map key).Nodup := by
  induction as using List.reverseRecOn with
  | nil => exact .nil
  | append_singleton as a ih =>
    rw [gatheredNext]
    exact replacedDistinct ih fun _ => beq_iff_eq

theorem gatheredIff {a : α} :
    a ∈ gathered key as ↔ as.reverse.find? (key · == key a) = some a := by
  induction as using List.reverseRecOn with
  | nil => simp [gathered]
  | append_singleton as b ih =>
    have tests : ∀ c, (key c == key b) = true ↔ key c = key b := fun _ => beq_iff_eq
    have parts := replacedPerm (gatheredDistinct key as) tests
    rw [gatheredNext,parts.mem_iff,List.mem_append,List.mem_filter,List.mem_singleton,ih,
      List.reverse_append,List.reverse_singleton,List.singleton_append,List.find?_cons]
    by_cases same : key b = key a
    · simp [same,eq_comm]
    · have other : a ≠ b := fun equal => same (congrArg key equal.symm)
      have differs : (key b == key a) = false := beq_eq_false_iff_ne.mpr same
      have differsToo : (key a == key b) = false := beq_eq_false_iff_ne.mpr (Ne.symm same)
      simp [other,differs,differsToo]

theorem foundUnderKey (key : α → κ) {a : α} (there : a ∈ as) :
    ∃ b, as.find? (key · == key a) = some b ∧ key b = key a := by
  have some : (as.find? (key · == key a)).isSome = true :=
    List.find?_isSome.mpr ⟨a,there,beq_iff_eq.mpr rfl⟩
  obtain ⟨b,found⟩ := Option.isSome_iff_exists.mp some
  have hit := List.find?_some found
  exact ⟨b,found,eq_of_beq hit⟩

theorem gatheredUnder (key : α → κ) {a : α} (there : a ∈ as) :
    ∃ b ∈ gathered key as, key b = key a := by
  obtain ⟨b,found,same⟩ := foundUnderKey key (List.mem_reverse.mpr there)
  exact ⟨b,gatheredIff.mpr (same ▸ found),same⟩

theorem gatheredWithin {a : α} (there : a ∈ gathered key as) : a ∈ as :=
  List.mem_reverse.mp (List.mem_of_find?_eq_some (gatheredIff.mp there))

end Gathered

section Kept

variable {α κ : Type} [BEq κ] {key : α → κ} {keep : α → α → α} {as : List α}

def withFirst (key : α → κ) (keep : α → α → α) (as : List α) (a : α) : α :=
  match as.find? (key · == key a) with
  | some first => keep first a
  | none => a

structure Keeping (key : α → κ) (keep : α → α → α) : Prop where
  key : ∀ old new, key (keep old new) = key new
  itself : ∀ a, keep a a = a
  again : ∀ first old new, keep (keep first old) new = keep first new

theorem keptAll [LawfulBEq κ] {P : α → Prop} (carries : ∀ old new, P old → P (keep old new))
    (all : ∀ a ∈ as, P a) : ∀ a ∈ gathered key (as.map (withFirst key keep as)), P a := by
  intro a there
  obtain ⟨b,member,rfl⟩ := List.mem_map.mp (gatheredWithin there)
  unfold withFirst
  split
  · rename_i first found
    exact carries first b (all first (List.mem_of_find?_eq_some found))
  · exact all b member

variable (keeping : Keeping key keep)

include keeping

theorem withFirstKey (a : α) : key (withFirst key keep as a) = key a := by
  unfold withFirst
  split
  · exact keeping.key _ _
  · rfl

variable [LawfulBEq κ]

theorem mappedWithFirst (as : List α) (a : α) :
    (as ++ [a]).map (withFirst key keep (as ++ [a])) =
      as.map (withFirst key keep as) ++ [withFirst key keep as a] := by
  have found (b : α) : (as ++ [a]).find? (key · == key b) =
      (as.find? (key · == key b)).or ([a].find? (key · == key b)) := List.find?_append
  rw [List.map_append,List.map_singleton]
  congr 1
  · refine List.map_congr_left fun b there => ?_
    obtain ⟨first,earlier,-⟩ := foundUnderKey key there
    simp only [withFirst,found,earlier,Option.some_or]
  · simp only [withFirst,found]
    cases as.find? (key · == key a) with
    | some first => rfl
    | none => simp [keeping.itself]

theorem keptSame (stays : ∀ first last, as.find? (key · == key last) = some first →
      as.reverse.find? (key · == key last) = some last → keep first last = last) :
    gathered key (as.map (withFirst key keep as)) = gathered key as := by
  rw [gatheredMapped (withFirstKey keeping)]
  refine (List.map_congr_left fun last there => ?_).trans (List.map_id _)
  unfold withFirst
  split
  · rename_i first found
    exact stays first last found (gatheredIff.mp there)
  · rfl

theorem keptStays (inside : gathered key as ⊆ gathered key (as.map (withFirst key keep as)))
    {first last : α} (found : as.find? (key · == key last) = some first)
    (final : as.reverse.find? (key · == key last) = some last) : keep first last = last := by
  have there := gatheredIff.mpr final
  have moved := inside there
  rw [gatheredMapped (withFirstKey keeping)] at moved
  obtain ⟨b,member,same⟩ := List.mem_map.mp moved
  have sameKey : key b = key last := (withFirstKey keeping b).symm.trans (congrArg key same)
  have own : b = last := keyedSame (gatheredDistinct key as) member there sameKey
  rwa [own,withFirst,found] at same

theorem rowsUpserted {Row : Type} {t : Table Row} {f : α → Row}
    (layout : t.toList = (gathered key (as.map (withFirst key keep as))).map f) {a : α}
    {sameRow : Row → Bool} {change : Row → Row} (agree : ∀ b, sameRow (f b) = (key b == key a))
    (changes : ∀ b, change (f b) = f (keep b a)) :
    (t.upsert sameRow change (f a)).toList =
      (gathered key ((as ++ [a]).map (withFirst key keep (as ++ [a])))).map f := by
  have own : key (withFirst key keep as a) = key a := withFirstKey keeping a
  have distinct := gatheredDistinct key (as.map (withFirst key keep as))
  have new : t.upsert sameRow change (f a) =
      t.upsert sameRow change (f (withFirst key keep as a)) := by
    cases found : as.find? (key · == key a) with
    | none => rw [withFirst,found]
    | some first =>
      obtain ⟨b,there,same⟩ := gatheredUnder key
        (List.mem_map_of_mem (f := withFirst key keep as) (List.mem_of_find?_eq_some found))
      have hit : key first = key a := by
        have hit := List.find?_some found
        exact eq_of_beq hit
      have taken : t.toList.any sameRow = true := by
        rw [layout]
        refine List.any_eq_true.mpr ⟨f b,List.mem_map_of_mem there,?_⟩
        rw [agree,same,withFirstKey keeping,hit]
        exact beq_iff_eq.mpr rfl
      exact Table.upsertTaken taken _ _
  rw [mappedWithFirst keeping,gatheredNext,new]
  refine mappedUpsert layout distinct (fun _ => beq_iff_eq) (fun b => by rw [agree,own]) ?_
  intro b there same
  obtain ⟨old,earlier,rfl⟩ := List.mem_map.mp (gatheredWithin there)
  have equal : key old = key a := (withFirstKey keeping old).symm.trans (same.trans own)
  obtain ⟨first,found,-⟩ := foundUnderKey key earlier
  rw [equal] at found
  rw [changes,withFirst,withFirst,equal,found]
  exact congrArg f (keeping.again first old a)

end Kept

def Course.keep (old new : Course) : Course := { new with createdAt := old.createdAt }

def Lesson.keep (old new : Lesson) : Lesson :=
  { new with courseId := old.courseId, createdAt := old.createdAt }

theorem courseKeeping : Keeping Course.id Course.keep :=
  ⟨fun _ _ => rfl,fun _ => rfl,fun _ _ _ => rfl⟩

theorem lessonKeeping : Keeping Lesson.id Lesson.keep :=
  ⟨fun _ _ => rfl,fun _ => rfl,fun _ _ _ => rfl⟩

inductive Update where
  | course (c : Course)
  | lesson (l : Lesson)
  deriving DecidableEq

namespace Update

def course? : Update → Option Course
  | .course c => some c
  | .lesson _ => none

def lesson? : Update → Option Lesson
  | .course _ => none
  | .lesson l => some l

def revise (course : Course → Course) (lesson : Lesson → Lesson) : Update → Update
  | .course c => .course (course c)
  | .lesson l => .lesson (lesson l)

def perform {σ : Type} (handle : Handler σ) (s : σ) : Update → Stored σ
  | .course c => (handle (.upsertCourse c) s).1.map fun _ => (handle (.upsertCourse c) s).2
  | .lesson l => (handle (.upsertLesson l) s).1.map fun _ => (handle (.upsertLesson l) s).2

end Update

abbrev History : Type := List Update

namespace History

def courses (us : History) : List Course := us.filterMap Update.course?

def lessons (us : History) : List Lesson := us.filterMap Update.lesson?

inductive Placed : History → Prop where
  | nil : Placed []
  | course {us : History} (placed : Placed us) (c : Course) : Placed (us ++ [.course c])
  | lesson {us : History} (placed : Placed us) {l : Lesson} {c : Course} (there : c ∈ us.courses)
      (own : c.id = l.courseId) : Placed (us ++ [.lesson l])

def carriedOut {σ : Type} (handle : Handler σ) (us : History) (s : σ) : Stored σ :=
  us.foldlM (Update.perform handle) s

def kept (us : History) : History :=
  us.map (Update.revise (withFirst Course.id Course.keep us.courses)
    (withFirst Lesson.id Lesson.keep us.lessons))

/- The last version of each record still has what its first version had. -/
structure Unmoved (us : History) : Prop where
  courses : ∀ first last, us.courses.find? (·.id == last.id) = some first →
    us.courses.reverse.find? (·.id == last.id) = some last → last.createdAt = first.createdAt
  lessons : ∀ first last, us.lessons.find? (·.id == last.id) = some first →
    us.lessons.reverse.find? (·.id == last.id) = some last →
    last.courseId = first.courseId ∧ last.createdAt = first.createdAt

variable {us : History}

theorem coursesOf (us vs : History) : (us ++ vs).courses = us.courses ++ vs.courses :=
  List.filterMap_append

theorem lessonsOf (us vs : History) : (us ++ vs).lessons = us.lessons ++ vs.lessons :=
  List.filterMap_append

theorem coursesRevised (f : Course → Course) (g : Lesson → Lesson) (us : History) :
    courses (us.map (Update.revise f g)) = us.courses.map f := by
  rw [courses,courses,List.filterMap_map,List.map_filterMap]
  exact List.filterMap_congr fun u _ => by cases u <;> rfl

theorem lessonsRevised (f : Course → Course) (g : Lesson → Lesson) (us : History) :
    lessons (us.map (Update.revise f g)) = us.lessons.map g := by
  rw [lessons,lessons,List.filterMap_map,List.map_filterMap]
  exact List.filterMap_congr fun u _ => by cases u <;> rfl

theorem carriedOn {σ : Type} (handle : Handler σ) (us : History) (u : Update) (s : σ) :
    carriedOut handle (us ++ [u]) s = (carriedOut handle us s).bind fun s => u.perform handle s := by
  rw [carriedOut,carriedOut,List.foldlM_append]
  cases us.foldlM (Update.perform handle) s with
  | ok s => exact bind_pure (u.perform handle s)
  | error e => rfl

def recorded (us : History) : Memory :=
  { courses := gathered Course.id us.courses, lessons := gathered Lesson.id us.lessons }

theorem recordedKept (us : History) : us.kept.recorded =
    { courses := gathered Course.id (us.courses.map (withFirst Course.id Course.keep us.courses))
      lessons := gathered Lesson.id
        (us.lessons.map (withFirst Lesson.id Lesson.keep us.lessons)) } := by
  rw [recorded,kept,coursesRevised,lessonsRevised]

theorem recordedIs (us : History) : carriedOut Memory.perform us {} = .ok us.recorded := by
  induction us using List.reverseRecOn with
  | nil => rfl
  | append_singleton us u ih =>
    rw [carriedOn,ih,recorded,recorded,coursesOf,lessonsOf]
    cases u with
    | course c =>
      have same : lessons [.course c] = [] := rfl
      have new : courses [.course c] = [c] := rfl
      rw [same,new,List.append_nil,gatheredNext]
      rfl
    | lesson l =>
      have same : courses [.lesson l] = [] := rfl
      have new : lessons [.lesson l] = [l] := rfl
      rw [same,new,List.append_nil,gatheredNext]
      rfl

theorem filed (placed : us.Placed) : ∃ d, carriedOut Database.perform us {} = .ok d ∧
    d.courses.toList = us.kept.recorded.courses.map CourseRow.ofCourse ∧
    d.lessons.toList = us.kept.recorded.lessons.map LessonRow.ofLesson := by
  rw [recordedKept]
  induction placed with
  | nil => exact ⟨{},rfl,rfl,rfl⟩
  | @course us placed c ih =>
    obtain ⟨d,carried,courses,lessons⟩ := ih
    refine ⟨d.upsertCourse (.ofCourse c),?_,?_,?_⟩
    · rw [carriedOn,carried]
      rfl
    · rw [coursesOf]
      exact rowsUpserted courseKeeping courses (fun b => Id.sameKeys b.id c.id) fun _ => rfl
    · rw [lessonsOf,show History.lessons [.course c] = [] from rfl,List.append_nil]
      exact lessons
  | @lesson us placed l c there own ih =>
    obtain ⟨d,carried,courses,lessons⟩ := ih
    have known : d.courses.toList.any (·.id == (LessonRow.ofLesson l).courseId) = true := by
      obtain ⟨b,stored,same⟩ := gatheredUnder Course.id
        (List.mem_map_of_mem (f := withFirst Course.id Course.keep us.courses) there)
      have equal : b.id = l.courseId :=
        same.trans ((withFirstKey courseKeeping c).trans own)
      rw [courses]
      exact List.any_eq_true.mpr
        ⟨_,List.mem_map_of_mem stored,beq_iff_eq.mpr (congrArg Id.key equal)⟩
    have stored := Database.storesLesson known
    refine ⟨(d.perform (.upsertLesson l)).2,?_,?_,?_⟩
    · rw [carriedOn,carried]
      simp only [Except.bind,Update.perform,stored]
      rfl
    · rw [stored,coursesOf,show History.courses [.lesson l] = [] from rfl,List.append_nil]
      exact courses
    · rw [stored,lessonsOf]
      exact rowsUpserted lessonKeeping lessons (fun b => Id.sameKeys b.id l.id) fun _ => rfl

end History

structure TellAlike (m : Memory) (d : Database) : Prop where
  course : ∀ id, (m.perform (.getCourse id)).1 = (d.perform (.getCourse id)).1
  lessons : ∀ course order,
    (m.perform (.listLessons course order)).1 = (d.perform (.listLessons course order)).1

namespace TellAlike

variable {m other : Memory} {d : Database} (alike : TellAlike m d) (also : TellAlike other d)

include alike also

theorem courseInside (distinct : (m.courses.map (·.id)).Nodup) : m.courses ⊆ other.courses := by
  intro c there
  have found : m.courses.find? (·.id == c.id) = some c :=
    (foundIff distinct fun _ => beq_iff_eq).mpr ⟨there,rfl⟩
  have same : (Except.ok (m.courses.find? (·.id == c.id)) : Stored (Option Course)) =
      .ok (other.courses.find? (·.id == c.id)) := (alike.course c.id).trans (also.course c.id).symm
  rw [found] at same
  exact List.mem_of_find?_eq_some (Except.ok.inj same).symm

theorem lessonInside : m.lessons ⊆ other.lessons := by
  intro l there
  have same : (Except.ok (m.lessonsOf l.courseId) : Stored (List Lesson)) =
      .ok (other.lessonsOf l.courseId) :=
    (alike.lessons l.courseId .ascending).trans (also.lessons l.courseId .ascending).symm
  have listed : l ∈ LessonOrder.ascending.arrange (m.lessonsOf l.courseId) :=
    inListing.mpr ⟨there,rfl⟩
  rw [Except.ok.inj same] at listed
  exact (inListing.mp listed).1

end TellAlike

namespace History

variable {us : History}

theorem tellAlikeIff {d : Database} (alike : TellAlike us.kept.recorded d) :
    TellAlike us.recorded d ↔ us.Unmoved := by
  constructor
  · intro told
    have coursesIn := told.courseInside alike (gatheredDistinct Course.id us.courses)
    have lessonsIn := told.lessonInside alike
    rw [recordedKept] at coursesIn lessonsIn
    constructor
    · intro first last found final
      have stays := keptStays courseKeeping coursesIn found final
      exact (congrArg Course.createdAt stays).symm
    · intro first last found final
      have stays := keptStays lessonKeeping lessonsIn found final
      exact ⟨(congrArg Lesson.courseId stays).symm,(congrArg Lesson.createdAt stays).symm⟩
  · intro unmoved
    have sameCourses := keptSame courseKeeping fun first last found final => by
      rw [Course.keep,← unmoved.courses first last found final]
    have sameLessons := keptSame lessonKeeping fun first last found final => by
      obtain ⟨course,created⟩ := unmoved.lessons first last found final
      rw [Lesson.keep,← course,← created]
    have same : us.kept.recorded = us.recorded := by
      rw [recordedKept,sameCourses,sameLessons]
      rfl
    rwa [same] at alike

/-- A history is carried out by both stores. The rows tell afterwards what the records tell after the
same history in which every record keeps what its first version had; and they tell the same as the
records if, and only if, the last version of each record still has it. -/
theorem updatesKeepFirst (placed : us.Placed) (named : ∀ c ∈ us.courses, c.createdAt.isNamed = true)
    (short : ∀ l ∈ us.lessons, l.createdAt.HasShortYear) :
    ∃ m d, carriedOut Memory.perform us {} = .ok m ∧ carriedOut Database.perform us {} = .ok d ∧
      (∃ other, carriedOut Memory.perform us.kept {} = .ok other ∧ TellAlike other d) ∧
      (TellAlike m d ↔ us.Unmoved) := by
  obtain ⟨d,carried,courses,lessons⟩ := filed placed
  have namedKept : ∀ c ∈ us.kept.recorded.courses, c.createdAt.isNamed = true := by
    rw [recordedKept]
    exact keptAll (fun _ _ old => old) named
  have shortKept : ∀ l ∈ us.kept.recorded.lessons, l.createdAt.HasShortYear := by
    rw [recordedKept]
    exact keptAll (fun _ _ old => old) short
  have alike : TellAlike us.kept.recorded d :=
    ⟨courseFiled courses namedKept,lessonsFiled lessons shortKept⟩
  exact ⟨_,d,recordedIs us,carried,⟨_,recordedIs us.kept,alike⟩,tellAlikeIff alike⟩

end History

namespace Sample

def farewells : Course := { greetings with id := ⟨.ofNat 10⟩, title := "farewells" }

def moved : History :=
  [.course greetings,.course farewells,.lesson lesson,
   .course { greetings with createdAt := .ofNanos 5 },
   .lesson { lesson with courseId := farewells.id }]

theorem movedPlaced : moved.Placed :=
  have courses : History.Placed ([] ++ [.course greetings] ++ [.course farewells]) :=
    .course (.course .nil greetings) farewells
  have here : greetings ∈ History.courses [.course greetings,.course farewells] := by decide
  have later : farewells ∈ History.courses [.course greetings,.course farewells,.lesson lesson,
    .course { greetings with createdAt := .ofNanos 5 }] := by decide
  .lesson (.course (.lesson courses here rfl) _) later rfl

def afar : Lesson := { lesson with id := ⟨.ofNat 11⟩, createdAt := .ofNanos 253402300800000000000 }

def distant : History := [.course greetings,.lesson lesson,.lesson afar]

theorem distantPlaced : distant.Placed :=
  have course : History.Placed ([] ++ [.course greetings]) := .course .nil greetings
  have here : greetings ∈ History.courses [.course greetings] := by decide
  have there : greetings ∈ History.courses [.course greetings,.lesson lesson] := by decide
  .lesson (.lesson course here rfl) there rfl

end Sample

theorem movedKeepsFirst : Sample.moved.Placed ∧
    (∀ c ∈ Sample.moved.courses, c.createdAt.isNamed = true) ∧
    (∀ l ∈ Sample.moved.lessons, l.createdAt.HasShortYear) ∧
    ∃ m d, History.carriedOut Memory.perform Sample.moved {} = .ok m ∧
      History.carriedOut Database.perform Sample.moved {} = .ok d ∧
      (∃ other, History.carriedOut Memory.perform Sample.moved.kept {} = .ok other ∧
        TellAlike other d) ∧
      (TellAlike m d ↔ Sample.moved.Unmoved) := by
  have named : ∀ c ∈ Sample.moved.courses, c.createdAt.isNamed = true := by decide
  have short : ∀ l ∈ Sample.moved.lessons, l.createdAt.HasShortYear := by decide
  exact ⟨Sample.movedPlaced,named,short,History.updatesKeepFirst Sample.movedPlaced named short⟩

theorem updatesToldApart :
    (Sample.moved.Placed ∧ ∃ m d, History.carriedOut Memory.perform Sample.moved {} = .ok m ∧
      History.carriedOut Database.perform Sample.moved {} = .ok d ∧
      (m.perform (.getCourse Sample.course)).1 =
        .ok (some { Sample.greetings with createdAt := .ofNanos 5 }) ∧
      (d.perform (.getCourse Sample.course)).1 = .ok (some Sample.greetings) ∧
      (m.perform (.listLessons Sample.course .ascending)).1 = .ok [] ∧
      (d.perform (.listLessons Sample.course .ascending)).1 = .ok [Sample.lesson]) ∧
    Sample.distant.Placed ∧ ∃ m d, History.carriedOut Memory.perform Sample.distant {} = .ok m ∧
      History.carriedOut Database.perform Sample.distant {} = .ok d ∧
      (m.perform (.listLessons Sample.course .ascending)).1 = .ok [Sample.lesson,Sample.afar] ∧
      (d.perform (.listLessons Sample.course .ascending)).1 = .ok [Sample.afar,Sample.lesson] := by
  refine ⟨⟨Sample.movedPlaced,_,_,rfl,rfl,?_,?_,?_,?_⟩,Sample.distantPlaced,_,_,rfl,rfl,?_,?_⟩
  all_goals decide +kernel

end Coursework
