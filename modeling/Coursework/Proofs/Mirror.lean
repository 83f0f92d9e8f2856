import Coursework.Proofs.DeckRows
import Coursework.Proofs.Stores
import Coursework.Proofs.TextOrder
import Coursework.Storage.Memory

/-! Records and tables side by side. The tables mirror the records if they hold the rows of the same
records in the same order, the cards and answers of the decks perhaps in another one. An operation
that the records admit has one outcome on both sides and leaves the tables mirroring the records. -/
namespace Coursework

theorem Cell.numbersFirst {n m : Int} {rest : Bool} :
    ((integer n).before (integer m) || (!(integer m).before (integer n) && rest)) = true ↔
      n < m ∨ n = m ∧ rest = true := by
  simp only [before,Bool.or_eq_true,Bool.and_eq_true,Bool.not_eq_true',decide_eq_true_eq,
    decide_eq_false_iff_not]
  constructor
  · rintro (first | ⟨notAfter,later⟩)
    · exact .inl first
    · exact (Int.lt_or_eq_of_le (Int.not_lt.mp notAfter)).imp_right fun same => ⟨same,later⟩
  · rintro (first | ⟨rfl,later⟩)
    · exact .inl first
    · exact .inr ⟨Int.lt_irrefl n,later⟩

namespace LessonRow

theorem precedesAgrees {a b : Lesson} (short : a.createdAt.HasShortYear)
    (shortOther : b.createdAt.HasShortYear) :
    precedes (ofLesson a) (ofLesson b) = a.precedes b := by
  have order : (a.order < b.order) ↔ a.order.toInt < b.order.toInt := Int64.lt_iff_toInt_lt
  have sameOrder : a.order = b.order ↔ a.order.toInt = b.order.toInt := Int64.toInt_inj.symm
  have sameTime : a.createdAt.storedText = b.createdAt.storedText ↔ a.createdAt = b.createdAt :=
    ⟨Instant.storedInjective short,congrArg Instant.storedText⟩
  rw [Bool.eq_iff_iff,precedes,ofLesson,ofLesson,Cell.numbersFirst]
  simp only [Lesson.precedes,Bool.or_eq_true,Bool.and_eq_true,decide_eq_true_eq,beq_iff_eq,
    Instant.storedOrdered short shortOther,sameTime,Id.keyOrdered,order,sameOrder]

end LessonRow

section Mapped

variable {α β κ Row : Type} {t : Table Row} {as : List α} {f : α → Row} {key : α → κ}

theorem mappedUpsert (layout : t.toList = as.map f) (distinct : (as.map key).Nodup) {a : α}
    {same : α → Bool} {sameRow : Row → Bool} {change : Row → Row}
    (tests : ∀ b, same b = true ↔ key b = key a) (agree : ∀ b, sameRow (f b) = same b)
    (changes : ∀ b ∈ as, key b = key a → change (f b) = f a) :
    (t.upsert sameRow change (f a)).toList = (replaceOrAppend same a as).map f := by
  have taken : (as.map f).any sameRow = as.any same := by
    rw [List.any_map]
    exact congrArg as.any (funext agree)
  rw [Table.upsertRows,layout,taken,replacedKey distinct tests]
  split
  · rw [List.map_map,List.map_map]
    refine List.map_congr_left fun b member => ?_
    simp only [Function.comp_apply,agree]
    split
    · rename_i hit
      exact changes b member ((tests b).mp hit)
    · rfl
  · rw [List.map_append,List.map_singleton]

theorem mappedFound (layout : t.toList = as.map f) {same : α → Bool} {sameRow : Row → Bool}
    (agree : ∀ b, sameRow (f b) = same b) : t.toList.find? sameRow = (as.find? same).map f := by
  rw [layout,List.find?_map]
  exact congrArg (fun p => (as.find? p).map f) (funext agree)

theorem mappedRead {read : Row → Stored α} (back : ∀ a ∈ as, read (f a) = .ok a) :
    (as.map f).mapM read = .ok as := by
  induction as with
  | nil => rfl
  | cons a as ih =>
    obtain ⟨here,rest⟩ := List.forall_mem_cons.mp back
    rw [List.map_cons,List.mapM_cons,here,ih rest]
    rfl

end Mapped

section Filed

variable {m : Memory} {d : Database}

theorem courseFiled (rows : d.courses.toList = m.courses.map CourseRow.ofCourse)
    (named : ∀ c ∈ m.courses, c.createdAt.isNamed = true) (id : CourseId) :
    (m.perform (.getCourse id)).1 = (d.perform (.getCourse id)).1 := by
  have row : d.courses.toList.find? (·.id == id.key) =
      (m.courses.find? (·.id == id)).map CourseRow.ofCourse :=
    mappedFound rows fun c => Id.sameKeys c.id id
  simp only [Memory.perform,Database.perform,row]
  cases found : m.courses.find? (·.id == id) with
  | none => rfl
  | some c =>
    simp only [Option.map_some,CourseRow.readBack (named c (List.mem_of_find?_eq_some found))]
    rfl

theorem inListing {course : CourseId} {order : LessonOrder} {l : Lesson} :
    l ∈ order.arrange (m.lessonsOf course) ↔ l ∈ m.lessons ∧ l.courseId = course := by
  have sorted : l ∈ m.lessonsOf course ↔ l ∈ m.lessons ∧ l.courseId = course := by
    rw [Memory.lessonsOf,(sortOrderedPerm _ _).mem_iff,List.mem_filter,beq_iff_eq]
  cases order with
  | ascending => exact sorted
  | descending => exact List.mem_reverse.trans sorted

theorem rowsOfCourse {stored : List Lesson} (rows : d.lessons.toList = stored.map LessonRow.ofLesson)
    (course : CourseId) : d.lessons.toList.filter (·.courseId == course.key) =
      (stored.filter (·.courseId == course)).map LessonRow.ofLesson := by
  rw [rows,List.filter_map]
  exact congrArg (fun p => (stored.filter p).map LessonRow.ofLesson)
    (funext fun l => Id.sameKeys l.courseId course)

theorem lessonsFiled (rows : d.lessons.toList = m.lessons.map LessonRow.ofLesson)
    (short : ∀ l ∈ m.lessons, l.createdAt.HasShortYear) (course : CourseId) (order : LessonOrder) :
    (m.perform (.listLessons course order)).1 = (d.perform (.listLessons course order)).1 := by
  have chosen : ∀ l ∈ m.lessons.filter (·.courseId == course), l ∈ m.lessons :=
    fun l member => (List.mem_filter.mp member).1
  have sorted : d.lessonRows course = (m.lessonsOf course).map LessonRow.ofLesson := by
    rw [Database.lessonRows,rowsOfCourse rows]
    exact sortOrderedMapped fun a here b there => LessonRow.precedesAgrees
      (short a (chosen a here)) (short b (chosen b there))
  have arranged : order.arrange ((m.lessonsOf course).map LessonRow.ofLesson) =
      (order.arrange (m.lessonsOf course)).map LessonRow.ofLesson := by
    cases order with
    | ascending => rfl
    | descending => exact List.map_reverse.symm
  simp only [Memory.perform,Database.perform,sorted,arranged]
  exact (mappedRead fun l listed => LessonRow.readBack (short l (inListing.mp listed).1).named).symm

end Filed

theorem Database.storesLesson {d : Database} {l : Lesson}
    (known : d.courses.toList.any (·.id == (LessonRow.ofLesson l).courseId) = true) :
    d.perform (.upsertLesson l) = (.ok (),{ d with
      lessons := d.lessons.upsert (·.id == l.id.key)
        (fun old => { LessonRow.ofLesson l with
          courseId := old.courseId, createdAt := old.createdAt }) (.ofLesson l) }) := by
  simp only [Database.perform,Database.upsertLesson,known,Bool.or_true,if_true]
  rfl

def Enrollment.pair (e : Enrollment) : UserId × CourseId := (e.userId,e.courseId)

namespace Memory

def Admits (m : Memory) : Operation → Prop
  | .upsertCourse c => c.createdAt.HasShortYear ∧
      ∀ old ∈ m.courses, old.id = c.id → old.createdAt = c.createdAt
  | .upsertLesson l => l.createdAt.HasShortYear ∧ (∃ c ∈ m.courses, c.id = l.courseId) ∧
      ∀ old ∈ m.lessons, old.id = l.id → old.courseId = l.courseId ∧ old.createdAt = l.createdAt
  | .upsertDeck deck =>
      let cards := cardsOf (replaceOrAppend (·.id == deck.id) deck m.decks)
      (cards.map (·.id)).Nodup ∧ ((answersOf cards).map (·.id)).Nodup
  | .getCards ids => ids.eraseDups.length ≤ Database.largestVariable
  | .createProgress e => e.TimesAre (·.HasShortYear) ∧
      ∀ old ∈ m.enrollments, old.id = e.id → old.pair = e.pair
  | .saveProgress e => e.TimesAre (·.HasShortYear)
  | .getCourse _ | .listLessons _ _ | .getDeck _ | .getProgress _ _ => True

instance (m : Memory) (op : Operation) : Decidable (m.Admits op) := by
  cases op <;> unfold Admits <;> infer_instance

structure Sound (m : Memory) : Prop where
  courses : (m.courses.map (·.id)).Nodup
  lessons : (m.lessons.map (·.id)).Nodup
  decks : Unshared m.decks
  enrollments : (m.enrollments.map Enrollment.pair).Nodup
  courseTimes : ∀ c ∈ m.courses, c.createdAt.HasShortYear
  lessonTimes : ∀ l ∈ m.lessons, l.createdAt.HasShortYear
  enrollmentTimes : ∀ e ∈ m.enrollments, e.TimesAre (·.HasShortYear)

end Memory

structure Mirrors (m : Memory) (d : Database) : Prop where
  sound : m.Sound
  courses : d.courses.toList = m.courses.map CourseRow.ofCourse
  lessons : d.lessons.toList = m.lessons.map LessonRow.ofLesson
  decks : d.decks.toList = m.decks.map DeckRow.ofDeck
  shelved : ∃ decks, decks.Perm m.decks ∧ d.Shelves decks
  progress : d.progress.toList = m.enrollments.map ProgressRow.ofEnrollment

structure Agree (m : Memory) (d : Database) (op : Operation) : Prop where
  outcome : (m.perform op).1 = (d.perform op).1
  mirrors : Mirrors (m.perform op).2 (d.perform op).2

namespace Mirrors

variable {m : Memory} {d : Database}

theorem stillShelved (mirrors : Mirrors m d) {after : Database} (cards : after.cards = d.cards)
    (answers : after.answers = d.answers) : ∃ decks, decks.Perm m.decks ∧ after.Shelves decks := by
  obtain ⟨decks,same,shelves⟩ := mirrors.shelved
  exact ⟨decks,same,cards ▸ shelves.cards,answers ▸ shelves.answers⟩

theorem upsertsCourse (mirrors : Mirrors m d) {c : Course} (admitted : m.Admits (.upsertCourse c)) :
    Agree m d (.upsertCourse c) := by
  obtain ⟨short,keeps⟩ := admitted
  have sound := mirrors.sound
  have tests : ∀ b : Course, (b.id == c.id) = true ↔ b.id = c.id := fun b => beq_iff_eq
  have times : ∀ b ∈ replaceOrAppend (·.id == c.id) c m.courses, b.createdAt.HasShortYear :=
    replacedAll short sound.courseTimes
  refine ⟨rfl,{ mirrors with
    sound := { sound with courses := replacedDistinct sound.courses tests, courseTimes := times }
    shelved := mirrors.stillShelved rfl rfl
    courses := ?_ }⟩
  refine mappedUpsert mirrors.courses sound.courses tests (fun b => Id.sameKeys b.id c.id) ?_
  intro b there same
  simp only [CourseRow.ofCourse,keeps b there same]

theorem upsertsLesson (mirrors : Mirrors m d) {l : Lesson} (admitted : m.Admits (.upsertLesson l)) :
    Agree m d (.upsertLesson l) := by
  obtain ⟨short,⟨c,thereCourse,own⟩,keeps⟩ := admitted
  have sound := mirrors.sound
  have known : d.courses.toList.any (·.id == (LessonRow.ofLesson l).courseId) = true := by
    rw [mirrors.courses]
    exact List.any_eq_true.mpr
      ⟨_,List.mem_map_of_mem thereCourse,beq_iff_eq.mpr (congrArg Id.key own)⟩
  have stored := Database.storesLesson known
  have tests : ∀ b : Lesson, (b.id == l.id) = true ↔ b.id = l.id := fun b => beq_iff_eq
  have times : ∀ b ∈ replaceOrAppend (·.id == l.id) l m.lessons, b.createdAt.HasShortYear :=
    replacedAll short sound.lessonTimes
  constructor
  · rw [stored]
    rfl
  rw [stored]
  refine { mirrors with
    sound := { sound with lessons := replacedDistinct sound.lessons tests, lessonTimes := times }
    shelved := mirrors.stillShelved rfl rfl
    lessons := ?_ }
  refine mappedUpsert mirrors.lessons sound.lessons tests (fun b => Id.sameKeys b.id l.id) ?_
  intro b there same
  obtain ⟨course,created⟩ := keeps b there same
  simp only [LessonRow.ofLesson,course,created]

theorem upsertsDeck (mirrors : Mirrors m d) {deck : Deck} (admitted : m.Admits (.upsertDeck deck)) :
    Agree m d (.upsertDeck deck) := by
  obtain ⟨cards,answers⟩ := admitted
  have sound := mirrors.sound
  have tests : ∀ b : Deck, (b.id == deck.id) = true ↔ b.id = deck.id := fun b => beq_iff_eq
  have unshared : Unshared (replaceOrAppend (·.id == deck.id) deck m.decks) :=
    ⟨replacedDistinct sound.decks.own tests,cards,answers⟩
  obtain ⟨decks,same,shelves⟩ := mirrors.shelved
  have behind : (decks.filter (·.id != deck.id) ++ [deck]).Perm
      (replaceOrAppend (·.id == deck.id) deck m.decks) :=
    ((same.filter _).append_right _).trans (replacedPerm sound.decks.own tests).symm
  obtain ⟨after,made,shelved,rest⟩ := Database.upsertsDeck shelves (sound.decks.perm same.symm)
    (unshared.perm behind.symm)
  have stored : d.perform (.upsertDeck deck) = (.ok (),after) := by
    rw [Database.perform,made]
    rfl
  constructor
  · rw [stored]
    rfl
  rw [stored]
  have rows : after.decks.toList =
      (replaceOrAppend (·.id == deck.id) deck m.decks).map DeckRow.ofDeck := by
    rw [rest]
    exact mappedUpsert mirrors.decks sound.decks.own tests (fun b => Id.sameKeys b.id deck.id)
      fun _ _ _ => rfl
  refine ⟨{ sound with decks := unshared },?_,?_,rows,⟨_,behind,shelved⟩,?_⟩
  · rw [rest]
    exact mirrors.courses
  · rw [rest]
    exact mirrors.lessons
  · rw [rest]
    exact mirrors.progress

theorem reads (mirrors : Mirrors m d) {op : Operation} (quiet : op.isWrite = false)
    (outcome : (m.perform op).1 = (d.perform op).1) : Agree m d op :=
  ⟨outcome,by rwa [Memory.transactional.quiet op m quiet,Database.transactional.quiet op d quiet]⟩

theorem getsCourse (mirrors : Mirrors m d) (id : CourseId) : Agree m d (.getCourse id) :=
  mirrors.reads rfl
    (courseFiled mirrors.courses (fun c there => (mirrors.sound.courseTimes c there).named) id)

theorem listsLessons (mirrors : Mirrors m d) (course : CourseId) (order : LessonOrder) :
    Agree m d (.listLessons course order) :=
  mirrors.reads rfl (lessonsFiled mirrors.lessons mirrors.sound.lessonTimes course order)

theorem getsDeck (mirrors : Mirrors m d) (id : DeckId) : Agree m d (.getDeck id) := by
  have rows : d.decks.toList.find? (·.id == id.key) =
      (m.decks.find? (·.id == id)).map DeckRow.ofDeck :=
    mappedFound mirrors.decks fun deck => Id.sameKeys deck.id id
  refine mirrors.reads rfl ?_
  cases found : m.decks.find? (·.id == id) with
  | none =>
    rw [found,Option.map_none] at rows
    simp only [Memory.perform,Database.perform,Database.getDeck,found,rows]
  | some deck =>
    rw [found,Option.map_some] at rows
    obtain ⟨decks,same,shelves⟩ := mirrors.shelved
    have there : deck ∈ decks := same.mem_iff.mpr (List.mem_of_find?_eq_some found)
    have own : deck.id = id := by simpa using List.find?_some found
    subst own
    have read := Database.getsDeck shelves (mirrors.sound.decks.perm same.symm) there rows
    simp only [Memory.perform,Database.perform,found,read]

theorem getsCards (mirrors : Mirrors m d) {ids : List CardId} (admitted : m.Admits (.getCards ids)) :
    Agree m d (.getCards ids) := by
  obtain ⟨decks,same,shelves⟩ := mirrors.shelved
  have unshared := mirrors.sound.decks.perm same.symm
  have read := Database.getsCards shelves unshared admitted
  have cards : (cardsOf decks).Perm (cardsOf m.decks).reverse :=
    (same.flatMap_right _).trans (List.reverse_perm _).symm
  have each : ∀ id ∈ ids.eraseDups, m.card? id = (cardsOf decks).find? (·.id == id) :=
    fun id _ => (foundAlike unshared.cards cards fun _ => beq_iff_eq).symm
  refine mirrors.reads rfl ?_
  simp only [Memory.perform,Database.perform,read]
  exact congrArg Except.ok (List.filterMap_congr each)

theorem progressRows (mirrors : Mirrors m d) (user : UserId) (course : CourseId) :
    d.progressRow? user course = (m.enrollment? user course).map ProgressRow.ofEnrollment := by
  refine mappedFound mirrors.progress fun e => ?_
  simp only [ProgressRow.ofEnrollment,Id.sameKeys]

theorem getsProgress (mirrors : Mirrors m d) (user : UserId) (course : CourseId) :
    Agree m d (.getProgress user course) := by
  refine mirrors.reads rfl ?_
  simp only [Memory.perform,Database.perform,mirrors.progressRows user course]
  cases found : m.enrollment? user course with
  | none => rfl
  | some e =>
    have short := mirrors.sound.enrollmentTimes e (List.mem_of_find?_eq_some found)
    have named := short.imp fun _ => Instant.HasShortYear.named
    simp only [Option.map_some,ProgressRow.readBack named]

theorem pairTaken (mirrors : Mirrors m d) (e : Enrollment) :
    (d.progress.toList.any fun r => r.userId == e.userId.key && r.courseId == e.courseId.key) =
      (m.enrollment? e.userId e.courseId).isSome := by
  rw [← List.isSome_find?]
  exact (congrArg Option.isSome (mirrors.progressRows e.userId e.courseId)).trans Option.isSome_map

theorem newTaken (mirrors : Mirrors m d) {e : Enrollment}
    (own : ∀ old ∈ m.enrollments, old.id = e.id → old.pair = e.pair) :
    (d.progress.toList.any fun r => r.id == e.id.text ||
      r.userId == e.userId.key && r.courseId == e.courseId.key) =
      (m.enrollment? e.userId e.courseId).isSome := by
  rw [← mirrors.pairTaken,mirrors.progress,Bool.eq_iff_iff,List.any_eq_true,List.any_eq_true]
  refine exists_congr fun row => and_congr_right fun there => ?_
  obtain ⟨old,member,rfl⟩ := List.mem_map.mp there
  rw [Bool.or_eq_true,or_iff_right_iff_imp]
  intro same
  have pair := own old member (Uuid.textInjective (eq_of_beq same))
  obtain ⟨user,course⟩ := Prod.mk.inj pair
  simp [ProgressRow.ofEnrollment,user,course]

theorem createsProgress (mirrors : Mirrors m d) {e : Enrollment}
    (admitted : m.Admits (.createProgress e)) : Agree m d (.createProgress e) := by
  obtain ⟨short,own⟩ := admitted
  have sound := mirrors.sound
  have refuses := mirrors.newTaken own
  have made : d.perform (.createProgress e) = d.commit
      (if (m.enrollment? e.userId e.courseId).isSome then .error .conflict
        else .ok { d with progress := d.progress.insert (.ofEnrollment e) }) := by
    rw [← refuses]
    rfl
  cases found : m.enrollment? e.userId e.courseId with
  | some old =>
    have kept : m.perform (.createProgress e) = (.error .conflict,m) := by
      simp only [Memory.perform,found]
    rw [found] at made
    exact ⟨by rw [made,kept]; rfl,by rwa [made,kept]⟩
  | none =>
    have kept : m.perform (.createProgress e) =
        (.ok (),{ m with enrollments := m.enrollments ++ [e] }) := by
      simp only [Memory.perform,found]
    rw [found] at made
    constructor
    · rw [made,kept]
      rfl
    rw [made,kept]
    refine { mirrors with
      sound := { sound with enrollments := ?_, enrollmentTimes := ?_ }
      shelved := mirrors.stillShelved rfl rfl
      progress := ?_ }
    · rw [List.map_append,List.nodup_append]
      refine ⟨sound.enrollments,List.nodup_singleton _,?_⟩
      intro pair there other last equal
      obtain ⟨old,member,rfl⟩ := List.mem_map.mp there
      obtain ⟨user,course⟩ := Prod.mk.inj (equal.trans (List.mem_singleton.mp last))
      have missing := List.find?_eq_none.mp found old member
      exact missing (by simp [user,course])
    · intro old member
      rcases List.mem_append.mp member with there | last
      · exact sound.enrollmentTimes old there
      · cases List.mem_singleton.mp last
        exact short
    · exact (Table.insertRows _ _).trans (by rw [mirrors.progress,List.map_append]; rfl)

theorem savesProgress (mirrors : Mirrors m d) {e : Enrollment}
    (short : m.Admits (.saveProgress e)) : Agree m d (.saveProgress e) := by
  have sound := mirrors.sound
  have taken := mirrors.pairTaken e
  have made : d.perform (.saveProgress e) = d.commit
      (if (m.enrollment? e.userId e.courseId).isSome then
        .ok { d with progress := d.progress.map fun r =>
          if r.userId == e.userId.key && r.courseId == e.courseId.key then
            r.overwrite (.ofEnrollment e) else r }
        else .error .notFound) := by
    rw [← taken]
    rfl
  cases found : m.enrollment? e.userId e.courseId with
  | none =>
    have kept : m.perform (.saveProgress e) = (.error .notFound,m) := by
      simp only [Memory.perform,found]
    rw [found] at made
    exact ⟨by rw [made,kept]; rfl,by rwa [made,kept]⟩
  | some old =>
    have kept : m.perform (.saveProgress e) = (.ok (),{ m with
        enrollments := replaceOrAppend (fun o => o.userId == e.userId && o.courseId == e.courseId)
          (Memory.overwrite old e) m.enrollments }) := by
      simp only [Memory.perform,found]
    have there := List.mem_of_find?_eq_some found
    obtain ⟨user,course⟩ := Memory.belongs found
    have tests : ∀ o : Enrollment, (o.userId == e.userId && o.courseId == e.courseId) = true ↔
        o.pair = (Memory.overwrite old e).pair := by
      intro o
      simp [Enrollment.pair,Memory.overwrite,user,course]
    rw [found] at made
    constructor
    · rw [made,kept]
      rfl
    rw [made,kept]
    refine { mirrors with
      sound := { sound with enrollments := ?_, enrollmentTimes := ?_ }
      shelved := mirrors.stillShelved rfl rfl
      progress := ?_ }
    · exact replacedDistinct sound.enrollments tests
    · have times := sound.enrollmentTimes old there
      exact replacedAll ⟨times.created,short.updated,short.state⟩ sound.enrollmentTimes
    · have changed : (d.progress.upsert
          (fun r => r.userId == e.userId.key && r.courseId == e.courseId.key)
          (·.overwrite (.ofEnrollment e)) (.ofEnrollment (Memory.overwrite old e))).toList = _ :=
        mappedUpsert mirrors.progress sound.enrollments tests
          (fun o => congrArg₂ (· && ·) (Id.sameKeys o.userId e.userId)
            (Id.sameKeys o.courseId e.courseId))
          fun o inside same => by rw [keyedSame sound.enrollments inside there same]; rfl
      rw [found,Option.isSome_some] at taken
      rw [Table.upsert,if_pos taken] at changed
      exact changed

theorem agrees (mirrors : Mirrors m d) {op : Operation} (admitted : m.Admits op) : Agree m d op := by
  cases op with
  | upsertCourse c => exact mirrors.upsertsCourse admitted
  | getCourse id => exact mirrors.getsCourse id
  | upsertLesson l => exact mirrors.upsertsLesson admitted
  | listLessons course order => exact mirrors.listsLessons course order
  | upsertDeck deck => exact mirrors.upsertsDeck admitted
  | getDeck id => exact mirrors.getsDeck id
  | getCards ids => exact mirrors.getsCards admitted
  | createProgress e => exact mirrors.createsProgress admitted
  | getProgress user course => exact mirrors.getsProgress user course
  | saveProgress e => exact mirrors.savesProgress admitted

theorem reopened (mirrors : Mirrors m d) : Mirrors m d.reopen := by
  unfold Database.reopen
  split
  · exact mirrors
  · exact { mirrors with shelved := mirrors.stillShelved rfl rfl }

end Mirrors

theorem emptyMirrors : Mirrors {} {} where
  sound := ⟨.nil,.nil,⟨.nil,.nil,.nil⟩,.nil,nofun,nofun,nofun⟩
  courses := rfl
  lessons := rfl
  decks := rfl
  shelved := ⟨[],.refl _,rfl,rfl⟩
  progress := rfl

end Coursework
