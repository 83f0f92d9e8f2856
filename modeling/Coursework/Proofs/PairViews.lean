import Coursework.Proofs.Frames

/-! One pair's part of a store: what is taught, and the enrollment of the two. A call reads and
writes nothing but the part of its pair, so backends that agree on it serve the call alike, and what
calls of other pairs do before it or in between makes no difference. -/
namespace Coursework

theorem keptReplaced {α : Type} {same : α → Bool} {a : α} (fits : same a = true) (as : List α) :
    (replaceOrAppend same a as).filter same = replaceOrAppend same a (as.filter same) := by
  induction as with
  | nil => simp [replaceOrAppend,fits]
  | cons b bs ih =>
    cases here : same b with
    | true => simp [replaceOrAppend,here,fits]
    | false => simp [replaceOrAppend,here,ih]

theorem findKept {α : Type} {p : α → Bool} (as : List α) : (as.filter p).find? p = as.find? p := by
  simp [List.find?_filter]

theorem anyKept {α : Type} {p q : α → Bool} {as : List α}
    (within : ∀ a ∈ as, q a = true → p a = true) : (as.filter p).any q = as.any q := by
  rw [List.any_filter,Bool.eq_iff_iff,List.any_eq_true,List.any_eq_true]
  constructor
  · rintro ⟨a,member,both⟩
    exact ⟨a,member,(Bool.and_eq_true_iff.mp both).2⟩
  · rintro ⟨a,member,here⟩
    exact ⟨a,member,Bool.and_eq_true_iff.mpr ⟨within a member here,here⟩⟩

theorem Enrollment.isOfIff {user : UserId} {course : CourseId} {e : Enrollment} :
    e.isOf user course = true ↔ e.userId = user ∧ e.courseId = course := by
  simp [Enrollment.isOf]

def Memory.only (user : UserId) (course : CourseId) (m : Memory) : Memory :=
  { m with enrollments := m.enrollments.filter (·.isOf user course) }

def Database.only (user : UserId) (course : CourseId) (d : Database) : Database :=
  { d with progress :=
      ⟨(d.progress.toList.filter (·.isOf user course)).map fun row => (0,row)⟩ }

namespace Repository

def only (user : UserId) (course : CourseId) : Repository → Repository
  | .memory m => .memory (m.only user course)
  | .tables d => .tables (d.only user course)

/- No other pair has an enrollment under an identifier. A store of whole records does not look at
identifiers, so only tables could refuse one. -/
def Reserved (id : Uuid) (user : UserId) (course : CourseId) : Repository → Prop
  | .memory _ => True
  | .tables d => ∀ row ∈ d.progress.toList, row.id = id.text → row.isOf user course = true

end Repository

section Only

variable {user otherUser : UserId} {course otherCourse : CourseId}

theorem Database.rowsOnly (d : Database) :
    (d.only user course).progress.toList = d.progress.toList.filter (·.isOf user course) := by
  simp [only,Table.toList,Function.comp_def]

theorem Database.onlyAlike {d other : Database}
    (rest : { other with progress := {} } = { d with progress := {} })
    (rows : other.progress.toList.filter (·.isOf user course) =
      d.progress.toList.filter (·.isOf user course)) :
    other.only user course = d.only user course := by
  have swap (t : Table ProgressRow) : { other with progress := t } = { d with progress := t } :=
    congrArg (fun e : Database => { e with progress := t }) rest
  rw [only,rows]
  exact swap _

theorem Memory.enrollmentOnly (m : Memory) :
    (m.only user course).enrollment? user course = m.enrollment? user course :=
  findKept m.enrollments

theorem Database.progressRowOnly (d : Database) :
    (d.only user course).progressRow? user course = d.progressRow? user course := by
  rw [progressRow?,rowsOnly]
  exact findKept d.progress.toList

theorem Database.onlyTwice (d : Database) :
    (d.only user course).only user course = d.only user course := by
  refine onlyAlike rfl ?_
  rw [rowsOnly,List.filter_filter]
  simp

theorem Database.committedAlike {d : Database} {new newOnly : Stored Database}
    (alike : newOnly.map (·.only user course) = new.map (·.only user course)) :
    ((d.only user course).commit newOnly).1 = (d.commit new).1 ∧
      ((d.only user course).commit newOnly).2.only user course =
        (d.commit new).2.only user course := by
  cases new with
  | ok made =>
    cases newOnly with
    | ok madeOnly => exact ⟨rfl,Except.ok.inj alike⟩
    | error e => cases alike
  | error e =>
    cases newOnly with
    | ok madeOnly => cases alike
    | error e' =>
      cases Except.error.inj alike
      exact ⟨rfl,d.onlyTwice⟩

theorem Database.createOnly {d : Database} {row : ProgressRow} (own : row.isOf user course = true)
    (reserved : ∀ held ∈ d.progress.toList, held.id = row.id → held.isOf user course = true) :
    ((d.only user course).createProgress row).map (·.only user course) =
      (d.createProgress row).map (·.only user course) := by
  obtain ⟨ownUser,ownCourse⟩ : row.userId = user.key ∧ row.courseId = course.key := by
    simpa [ProgressRow.isOf] using own
  have same : ((d.only user course).progress.toList.any fun held => held.id == row.id ||
      held.userId == row.userId && held.courseId == row.courseId) =
        d.progress.toList.any fun held => held.id == row.id ||
          held.userId == row.userId && held.courseId == row.courseId := by
    rw [rowsOnly]
    refine anyKept fun held member clash => ?_
    rcases Bool.or_eq_true_iff.mp clash with sameId | samePair
    · exact reserved held member (eq_of_beq sameId)
    · rw [ownUser,ownCourse] at samePair
      exact samePair
  simp only [createProgress,same]
  split
  · rfl
  · refine congrArg Except.ok (onlyAlike rfl ?_)
    simp [rowsOnly]

theorem Database.saveOnly {d : Database} {row : ProgressRow} (own : row.isOf user course = true) :
    ((d.only user course).saveProgress row).map (·.only user course) =
      (d.saveProgress row).map (·.only user course) := by
  obtain ⟨ownUser,ownCourse⟩ : row.userId = user.key ∧ row.courseId = course.key := by
    simpa [ProgressRow.isOf] using own
  have same : ((d.only user course).progress.toList.any (·.isOf user course)) =
      d.progress.toList.any (·.isOf user course) := by
    rw [rowsOnly]
    exact anyKept fun _ _ here => here
  simp only [saveProgress,ownUser,ownCourse]
  simp only [ProgressRow.isOf] at same
  rw [same]
  split
  · refine congrArg Except.ok (onlyAlike rfl ?_)
    have commutes : ∀ rows : List ProgressRow,
        (rows.map fun held => if held.isOf user course then held.overwrite row else held).filter
            (·.isOf user course) =
          (rows.filter (·.isOf user course)).map fun held =>
            if held.isOf user course then held.overwrite row else held := by
      intro rows
      rw [List.filter_map]
      refine congrArg _ (List.filter_congr fun held _ => ?_)
      rw [Function.comp_apply]
      split <;> rfl
    rw [Table.mapRows,Table.mapRows]
    refine (commutes _).trans (Eq.trans ?_ (commutes _).symm)
    rw [rowsOnly,List.filter_filter]
    simp
  · rfl

namespace Repository

theorem onlyTwice (r : Repository) :
    (r.only user course).only user course = r.only user course := by
  cases r with
  | memory m => simp [only,Memory.only]
  | tables d => exact congrArg tables d.onlyTwice

theorem onlyWithout (other : (otherUser,otherCourse) ≠ (user,course)) (r : Repository) :
    (r.without otherUser otherCourse).only user course = r.only user course := by
  cases r with
  | memory m =>
    refine congrArg (fun es => memory { m with enrollments := es }) ?_
    rw [List.filter_filter]
    refine List.filter_congr fun e _ => ?_
    cases here : e.isOf user course with
    | false => rfl
    | true =>
      obtain ⟨rfl,rfl⟩ := Enrollment.isOfIff.mp here
      simp only [Bool.true_and,Bool.not_eq_true',Bool.eq_false_iff,Ne,Enrollment.isOfIff]
      exact fun there => other (Prod.ext there.1.symm there.2.symm)
  | tables d =>
    refine congrArg tables (Database.onlyAlike rfl ?_)
    rw [Table.filterRows,List.filter_filter]
    refine List.filter_congr fun row _ => ?_
    cases here : row.isOf user course with
    | false => rfl
    | true =>
      simp only [ProgressRow.isOf,Bool.and_eq_true,beq_iff_eq] at here
      simp only [Bool.true_and,Bool.not_eq_true',Bool.eq_false_iff]
      intro there
      simp only [ProgressRow.isOf,here.1,here.2,Bool.and_eq_true,beq_iff_eq] at there
      exact other (Prod.ext (Id.keyInjective there.1).symm (Id.keyInjective there.2).symm)

theorem storedOnly (r : Repository) :
    (r.only user course).stored user course = r.stored user course := by
  cases r with
  | memory m => rw [only,Memory.storedOf,Memory.storedOf,Memory.enrollmentOnly]
  | tables d => rw [only,Database.storedOf,Database.storedOf,Database.progressRowOnly]

end Repository

end Only

def Request.Permits (request : Request) (user : UserId) (course : CourseId) : Operation → Prop
  | .getProgress u c => u = user ∧ c = course
  | .createProgress e => e.userId = user ∧ e.courseId = course ∧ request = .enroll e.id
  | .saveProgress e => e.userId = user ∧ e.courseId = course
  | op => op.readsContent = true

def Request.Reserved (request : Request) (user : UserId) (course : CourseId) (r : Repository) :
    Prop :=
  ∀ id, request = .enroll id → r.Reserved id user course

namespace Repository

variable {user otherUser : UserId} {course otherCourse : CourseId} {request : Request}
  {op : Operation}

theorem contentOnly (content : op.readsContent = true) (r : Repository) :
    ((r.only user course).perform op).1 = (r.perform op).1 := by
  cases r with
  | memory m =>
    cases op with
    | getDeck id =>
      simp only [only,Memory.only,perform,Memory.perform]
      split <;> rfl
    | getCourse id => rfl
    | listLessons course order => rfl
    | getCards ids => rfl
    | _ => cases content
  | tables d =>
    cases op with
    | getCourse id =>
      simp only [only,Database.only,perform,Database.perform]
      split <;> rfl
    | listLessons course order => rfl
    | getDeck id => rfl
    | getCards ids => rfl
    | _ => cases content

structure Local (user : UserId) (course : CourseId) (op : Operation) (r : Repository) : Prop where
  outcome : ((r.only user course).perform op).1 = (r.perform op).1
  after : ((r.only user course).perform op).2.only user course = (r.perform op).2.only user course

theorem readLocal (read : op.isWrite = false) {r : Repository}
    (outcome : ((r.only user course).perform op).1 = (r.perform op).1) :
    r.Local user course op := by
  refine ⟨outcome,?_⟩
  rw [transactional.quiet op _ read,transactional.quiet op _ read,onlyTwice]

theorem createLocal {e : Enrollment} {r : Repository}
    (reserved : r.Reserved e.id e.userId e.courseId) :
    r.Local e.userId e.courseId (.createProgress e) := by
  cases r with
  | memory m =>
    have found := @Memory.enrollmentOnly e.userId e.courseId m
    constructor
    · simp only [only,perform,Memory.perform,found]
      split <;> rfl
    · simp only [only,perform,Memory.perform,found]
      split
      · exact onlyTwice (.memory m)
      · simp [Memory.only]
  | tables d =>
    have own : (ProgressRow.ofEnrollment e).isOf e.userId e.courseId = true := by
      simp [ProgressRow.isOf,ProgressRow.ofEnrollment]
    obtain ⟨outcome,after⟩ := Database.committedAlike (d := d) (Database.createOnly own reserved)
    exact ⟨outcome,congrArg tables after⟩

theorem saveLocal (e : Enrollment) (r : Repository) :
    r.Local e.userId e.courseId (.saveProgress e) := by
  cases r with
  | memory m =>
    have found := @Memory.enrollmentOnly e.userId e.courseId m
    constructor
    · simp only [only,perform,Memory.perform,found]
      split <;> rfl
    · simp only [only,perform,Memory.perform,found]
      split
      · rename_i old there
        have was : old.isOf e.userId e.courseId = true := List.find?_some (found ▸ there)
        have fits : (Memory.overwrite old e).isOf e.userId e.courseId = true := was
        refine congrArg (fun es => memory { m with enrollments := es }) ?_
        refine ((keptReplaced fits _).trans ?_).trans (keptReplaced fits m.enrollments).symm
        simp [Memory.only]
      · exact onlyTwice (.memory m)
  | tables d =>
    have own : (ProgressRow.ofEnrollment e).isOf e.userId e.courseId = true := by
      simp [ProgressRow.isOf,ProgressRow.ofEnrollment]
    obtain ⟨outcome,after⟩ := Database.committedAlike (d := d) (Database.saveOnly own)
    exact ⟨outcome,congrArg tables after⟩

theorem permittedLocal {r : Repository} (permitted : request.Permits user course op)
    (reserved : request.Reserved user course r) : r.Local user course op := by
  cases op with
  | getProgress u c =>
    obtain ⟨rfl,rfl⟩ := permitted
    exact readLocal rfl r.storedOnly
  | createProgress e =>
    obtain ⟨rfl,rfl,same⟩ := permitted
    exact createLocal (reserved e.id same)
  | saveProgress e =>
    obtain ⟨rfl,rfl⟩ := permitted
    exact saveLocal e r
  | getCourse id => exact readLocal rfl (contentOnly rfl r)
  | listLessons c order => exact readLocal rfl (contentOnly rfl r)
  | getDeck id => exact readLocal rfl (contentOnly rfl r)
  | getCards ids => exact readLocal rfl (contentOnly rfl r)
  | upsertCourse c => cases permitted
  | upsertLesson l => cases permitted
  | upsertDeck d => cases permitted

theorem createReserves {id : Uuid} {e : Enrollment} {r after : Repository}
    (ok : r.perform (.createProgress e) = (.ok (),after))
    (own : e.id = id → e.userId = user ∧ e.courseId = course)
    (reserved : r.Reserved id user course) : after.Reserved id user course := by
  cases r with
  | memory m =>
    obtain ⟨n,_,rfl⟩ := memoryPerforms ok
    trivial
  | tables d =>
    obtain ⟨n,ran,rfl⟩ := tablesPerform ok
    obtain ⟨_,rfl⟩ := Database.created ran
    intro row member same
    rw [Table.insertRows] at member
    rcases List.mem_append.mp member with old | new
    · exact reserved row old same
    · cases List.mem_singleton.mp new
      obtain ⟨rfl,rfl⟩ := own (Uuid.textInjective same)
      simp [ProgressRow.isOf,ProgressRow.ofEnrollment]

theorem saveReserves {id : Uuid} {e : Enrollment} {r after : Repository}
    (ok : r.perform (.saveProgress e) = (.ok (),after))
    (reserved : r.Reserved id user course) : after.Reserved id user course := by
  cases r with
  | memory m =>
    obtain ⟨n,_,rfl⟩ := memoryPerforms ok
    trivial
  | tables d =>
    obtain ⟨n,ran,rfl⟩ := tablesPerform ok
    cases Database.saved ran
    intro row member same
    rw [Table.mapRows] at member
    obtain ⟨old,there,rfl⟩ := List.mem_map.mp member
    have kept := reserved old there
    by_cases saved : old.isOf e.userId e.courseId = true
    · rw [if_pos saved] at same ⊢
      exact kept same
    · rw [if_neg saved] at same ⊢
      exact kept same

end Repository

namespace Backend

variable {user : UserId} {course : CourseId} {request : Request} {op : Operation}

def only (user : UserId) (course : CourseId) (b : Backend) : Backend :=
  { b with repository := b.repository.only user course }

theorem storedAlike {b c : Backend} (alike : b.only user course = c.only user course) :
    b.repository.stored user course = c.repository.stored user course := by
  have same : b.repository.only user course = c.repository.only user course :=
    congrArg repository alike
  rw [← Repository.storedOnly,same,Repository.storedOnly]

theorem onlyTwice (b : Backend) : (b.only user course).only user course = b.only user course :=
  congrArg (fun r => { b with repository := r }) b.repository.onlyTwice

theorem permittedLocal (exchange : Http.Exchange) {b : Backend}
    (permitted : request.Permits user course op)
    (reserved : request.Reserved user course b.repository) :
    (perform exchange op (b.only user course)).1 = (perform exchange op b).1 ∧
      (perform exchange op (b.only user course)).2.only user course =
        (perform exchange op b).2.only user course := by
  obtain ⟨repository,service⟩ := b
  have inStore := Repository.permittedLocal permitted reserved
  have onStore : ((onStore ⟨repository,service⟩ op).2.only user course) =
      (Backend.onStore (only user course ⟨repository,service⟩) op).2.only user course :=
    congrArg (Backend.mk · service) inStore.after.symm
  cases service with
  | none => exact ⟨inStore.outcome,onStore.symm⟩
  | some client =>
    cases op with
    | getDeck id => exact ⟨rfl,onlyTwice _⟩
    | getCards ids => exact ⟨rfl,onlyTwice _⟩
    | _ => exact ⟨inStore.outcome,onStore.symm⟩

end Backend

namespace Setting

variable {setting : Setting} {user otherUser : UserId} {course otherCourse : CourseId}
  {request : Request} {op : Operation} {b c : Backend}

theorem handlerLocal (setting : Setting) (permitted : request.Permits user course op)
    (reserved : request.Reserved user course b.repository) :
    (setting.handler op (b.only user course)).1 = (setting.handler op b).1 ∧
      (setting.handler op (b.only user course)).2.only user course =
        (setting.handler op b).2.only user course := by
  simp only [handler,Faults.perform]
  cases setting.faults.of? op with
  | some e => exact ⟨rfl,b.onlyTwice⟩
  | none =>
    cases op with
    | getDeck id =>
      have looked : request.Permits user course (.getDeck (setting.faults.substitute id)) := rfl
      exact Backend.permittedLocal setting.exchange looked reserved
    | _ => exact Backend.permittedLocal setting.exchange permitted reserved

theorem handledAlike (setting : Setting) (permitted : request.Permits user course op)
    (reserved : request.Reserved user course b.repository)
    (reservedToo : request.Reserved user course c.repository)
    (alike : b.only user course = c.only user course) :
    (setting.handler op b).1 = (setting.handler op c).1 ∧
      (setting.handler op b).2.only user course = (setting.handler op c).2.only user course := by
  have first := setting.handlerLocal permitted reserved
  have second := setting.handlerLocal permitted reservedToo
  rw [← first.1,← first.2,alike]
  exact second

theorem handled (setting : Setting) (permitted : request.Permits user course op) (b : Backend) :
    (setting.handler op b).2 = b ∨
      (∃ e, e.userId = user ∧ e.courseId = course ∧ request = .enroll e.id ∧
        setting.handler (.createProgress e) b = (.ok (),(setting.handler op b).2)) ∨
      ∃ e, e.userId = user ∧ e.courseId = course ∧
        setting.handler (.saveProgress e) b = (.ok (),(setting.handler op b).2) := by
  cases result : (setting.handler op b).1 with
  | error e => exact .inl (setting.transactional.atomic op b e result)
  | ok reply =>
    cases op with
    | createProgress e =>
      obtain ⟨rfl,rfl,same⟩ := permitted
      exact .inr (.inl ⟨e,rfl,rfl,same,Prod.ext result rfl⟩)
    | saveProgress e =>
      obtain ⟨rfl,rfl⟩ := permitted
      exact .inr (.inr ⟨e,rfl,rfl,Prod.ext result rfl⟩)
    | upsertCourse c => cases permitted
    | upsertLesson l => cases permitted
    | upsertDeck d => cases permitted
    | _ => exact .inl (setting.transactional.quiet _ b rfl)

theorem handledElsewhere (permitted : request.Permits otherUser otherCourse op)
    (other : (otherUser,otherCourse) ≠ (user,course)) (b : Backend) :
    (setting.handler op b).2.only user course = b.only user course := by
  have framed : (setting.handler op b).2.without otherUser otherCourse =
      b.without otherUser otherCourse := by
    rcases handled setting permitted b with still | ⟨e,rfl,rfl,_,ok⟩ | ⟨e,rfl,rfl,ok⟩
    · rw [still]
    · exact (createFramed ok).others
    · exact (saveFramed ok).others
  have same := congrArg (Backend.only user course) framed
  have drops : ∀ b : Backend, (b.without otherUser otherCourse).only user course =
      b.only user course :=
    fun b => congrArg (Backend.mk · b.deckService) (Repository.onlyWithout other b.repository)
  rw [drops,drops] at same
  exact same

theorem handledReserves {id : Uuid} (permitted : request.Permits otherUser otherCourse op)
    (own : request = .enroll id → otherUser = user ∧ otherCourse = course)
    (reserved : b.repository.Reserved id user course) :
    (setting.handler op b).2.repository.Reserved id user course := by
  rcases handled setting permitted b with still | ⟨e,rfl,rfl,same,ok⟩ | ⟨e,rfl,rfl,ok⟩
  · rw [still]
    exact reserved
  · rw [servedByStore (by simp) (by simp) (congrArg Prod.fst ok)] at ok
    obtain ⟨made,left⟩ := Prod.mk.inj ok
    rw [← left]
    refine Repository.createReserves (Prod.ext made rfl) ?_ reserved
    rintro rfl
    exact own same
  · rw [servedByStore (by simp) (by simp) (congrArg Prod.fst ok)] at ok
    obtain ⟨made,left⟩ := Prod.mk.inj ok
    rw [← left]
    exact Repository.saveReserves (Prod.ext made rfl) reserved

end Setting

end Coursework
