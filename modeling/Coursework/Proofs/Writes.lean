import Coursework.Proofs.Stores

/-! The writes of an enrollment, in full: what each leaves of the store, what it leaves alone, and
what is given out of a saved enrollment afterwards. -/
namespace Coursework

theorem restReplaced {α : Type} {same : α → Bool} {a : α} (fits : same a = true) (as : List α) :
    (replaceOrAppend same a as).filter (fun b => !same b) = as.filter fun b => !same b := by
  induction as with
  | nil => simp [replaceOrAppend,fits]
  | cons b bs ih =>
    unfold replaceOrAppend
    split
    · rename_i here
      simp [fits,here]
    · rename_i other
      rw [List.filter_cons,List.filter_cons,ih]

theorem mapReplaced {α β : Type} {same : α → Bool} {a old : α} {f : α → β} {as : List α}
    (found : as.find? same = some old) (kept : f a = f old) :
    (replaceOrAppend same a as).map f = as.map f := by
  induction as with
  | nil => cases found
  | cons b bs ih =>
    unfold replaceOrAppend
    split
    · rename_i here
      rw [List.find?_cons_of_pos here] at found
      cases Option.some.inj found
      rw [List.map_cons,List.map_cons,kept]
    · rename_i other
      rw [List.find?_cons_of_neg other] at found
      rw [List.map_cons,List.map_cons,ih found]

theorem replacedTwice {α : Type} {same : α → Bool} {a c : α} (fits : same a = true) (as : List α) :
    replaceOrAppend same c (replaceOrAppend same a as) = replaceOrAppend same c as := by
  induction as with
  | nil => simp [replaceOrAppend,fits]
  | cons b bs ih =>
    cases here : same b with
    | true => simp [replaceOrAppend,here,fits]
    | false => simp [replaceOrAppend,here,ih]

theorem Table.filterChanged {Row : Type} {same : Row → Bool} {change : Row → Row}
    (keeps : ∀ row, same (change row) = same row) (t : Table Row) :
    ((t.map fun row => if same row then change row else row).filter fun row => !same row) =
      t.filter fun row => !same row := by
  obtain ⟨entries⟩ := t
  refine congrArg Table.mk ?_
  induction entries with
  | nil => rfl
  | cons entry entries ih =>
    obtain ⟨number,row⟩ := entry
    simp only [map,List.map_cons,List.filter_cons] at ih ⊢
    rw [ih]
    cases here : same row with
    | true => simp [here,keeps]
    | false => simp [here]

def Enrollment.isOf (user : UserId) (course : CourseId) (e : Enrollment) : Bool :=
  e.userId == user && e.courseId == course

def ProgressRow.isOf (user : UserId) (course : CourseId) (r : ProgressRow) : Bool :=
  r.userId == user.key && r.courseId == course.key

def Operation.readsContent : Operation → Bool
  | .getCourse _ | .listLessons _ _ | .getDeck _ | .getCards _ => true
  | _ => false

def Enrollment.origin (e : Enrollment) : Uuid × UserId × CourseId × Instant :=
  (e.id,e.userId,e.courseId,e.createdAt)

def ProgressRow.origin (r : ProgressRow) : String × String × String × String :=
  (r.id,r.userId,r.courseId,r.createdAt)

theorem ProgressRow.readOrigin {a b : ProgressRow} {e f : Enrollment}
    (same : a.origin = b.origin) (first : a.read = .ok e) (second : b.read = .ok f) :
    e.origin = f.origin := by
  simp only [origin,Prod.mk.injEq] at same
  obtain ⟨id,user,course,created⟩ := same
  unfold ProgressRow.read at first second
  obtain ⟨_,_,first⟩ := exceptBindOk.mp first
  obtain ⟨_,_,first⟩ := exceptBindOk.mp first
  obtain ⟨_,firstId,first⟩ := exceptBindOk.mp first
  obtain ⟨_,firstUser,first⟩ := exceptBindOk.mp first
  obtain ⟨_,firstCourse,first⟩ := exceptBindOk.mp first
  obtain ⟨_,firstCreated,first⟩ := exceptBindOk.mp first
  obtain ⟨_,_,first⟩ := exceptBindOk.mp first
  obtain ⟨_,_,second⟩ := exceptBindOk.mp second
  obtain ⟨_,_,second⟩ := exceptBindOk.mp second
  obtain ⟨_,secondId,second⟩ := exceptBindOk.mp second
  obtain ⟨_,secondUser,second⟩ := exceptBindOk.mp second
  obtain ⟨_,secondCourse,second⟩ := exceptBindOk.mp second
  obtain ⟨_,secondCreated,second⟩ := exceptBindOk.mp second
  obtain ⟨_,_,second⟩ := exceptBindOk.mp second
  cases first
  cases second
  rw [id] at firstId
  rw [user] at firstUser
  rw [course] at firstCourse
  rw [created] at firstCreated
  cases firstId.symm.trans secondId
  cases firstUser.symm.trans secondUser
  cases firstCourse.symm.trans secondCourse
  cases firstCreated.symm.trans secondCreated
  rfl

theorem ProgressRow.readOverwritten {row : ProgressRow} {old e : Enrollment}
    (read : row.read = .ok old) :
    (row.overwrite (.ofEnrollment e)).read = (do
      let state ← Stored.readable (Json.read? (Json.write e.state))
      let updatedAt ← Stored.instant e.updatedAt.storedText
      return { old with currentLessonId := e.currentLessonId, state, updatedAt }) := by
  have current : ProgressRow.readCurrent (e.currentLessonId.map Id.key) = .ok e.currentLessonId := by
    cases e.currentLessonId with
    | none => rfl
    | some id => simp [ProgressRow.readCurrent,Stored.id,Id.parsesKey]
  unfold ProgressRow.read at read ⊢
  obtain ⟨_,_,read⟩ := exceptBindOk.mp read
  obtain ⟨_,_,read⟩ := exceptBindOk.mp read
  obtain ⟨_,id,read⟩ := exceptBindOk.mp read
  obtain ⟨_,user,read⟩ := exceptBindOk.mp read
  obtain ⟨_,course,read⟩ := exceptBindOk.mp read
  obtain ⟨_,created,read⟩ := exceptBindOk.mp read
  obtain ⟨_,_,read⟩ := exceptBindOk.mp read
  cases read
  simp only [ProgressRow.overwrite,ProgressRow.ofEnrollment,current,id,user,course,created,bind,
    Except.bind]

namespace Memory

theorem created {m after : Memory} {e : Enrollment}
    (ok : m.perform (.createProgress e) = (.ok (),after)) :
    m.enrollment? e.userId e.courseId = none ∧
      after = { m with enrollments := m.enrollments ++ [e] } := by
  simp only [perform] at ok
  split at ok
  · cases ok
  · rename_i free
    cases ok
    exact ⟨free,rfl⟩

theorem saved {m after : Memory} {e : Enrollment}
    (ok : m.perform (.saveProgress e) = (.ok (),after)) :
    ∃ old, m.enrollment? e.userId e.courseId = some old ∧
      after = { m with enrollments :=
        replaceOrAppend (·.isOf e.userId e.courseId) (overwrite old e) m.enrollments } := by
  simp only [perform] at ok
  split at ok
  · rename_i old there
    cases ok
    exact ⟨old,there,rfl⟩
  · cases ok

theorem savedOver {m after : Memory} {first e : Enrollment}
    (ok : m.perform (.saveProgress first) = (.ok (),after)) (user : first.userId = e.userId)
    (course : first.courseId = e.courseId) :
    after.perform (.saveProgress e) = m.perform (.saveProgress e) := by
  obtain ⟨old,there,rfl⟩ := saved ok
  rw [user,course] at there ⊢
  have was : old.isOf e.userId e.courseId = true := List.find?_some there
  have fits : (overwrite old first).isOf e.userId e.courseId = true := was
  have here : Memory.enrollment? { m with
      enrollments := replaceOrAppend (·.isOf e.userId e.courseId) (overwrite old first)
        m.enrollments } e.userId e.courseId = some (overwrite old first) :=
    findReplaced (Enrollment.isOf e.userId e.courseId) m.enrollments fits
  have twice := replacedTwice (c := overwrite old e) fits m.enrollments
  simp only [perform,there,here]
  exact congrArg (fun es => (Except.ok (),{ m with enrollments := es })) twice

end Memory

namespace Database

theorem created {d after : Database} {e : Enrollment}
    (ok : d.perform (.createProgress e) = (.ok (),after)) :
    d.progress.toList.any (·.isOf e.userId e.courseId) = false ∧
      after = { d with progress := d.progress.insert (.ofEnrollment e) } := by
  have made := committed ok
  simp only [createProgress] at made
  split at made
  · cases made
  · rename_i free
    refine ⟨?_,(Except.ok.inj made).symm⟩
    rw [Bool.eq_false_iff]
    intro held
    obtain ⟨row,member,fits⟩ := List.any_eq_true.mp held
    refine free (List.any_eq_true.mpr ⟨row,member,?_⟩)
    rw [Bool.or_eq_true]
    exact .inr fits

theorem saved {d after : Database} {e : Enrollment}
    (ok : d.perform (.saveProgress e) = (.ok (),after)) :
    after = { d with
      progress := d.progress.map fun row =>
        if row.isOf e.userId e.courseId then row.overwrite (.ofEnrollment e) else row } := by
  have made := committed ok
  simp only [saveProgress] at made
  split at made
  · exact (Except.ok.inj made).symm
  · cases made

def rowSaved (e : Enrollment) (row : ProgressRow) : ProgressRow :=
  if row.isOf e.userId e.courseId then row.overwrite (.ofEnrollment e) else row

theorem savedOver {d after : Database} {first e : Enrollment}
    (ok : d.perform (.saveProgress first) = (.ok (),after)) (user : first.userId = e.userId)
    (course : first.courseId = e.courseId) :
    after.perform (.saveProgress e) = d.perform (.saveProgress e) := by
  have made := committed ok
  simp only [saveProgress] at made
  split at made
  · rename_i found
    have held : d.progress.toList.any (·.isOf e.userId e.courseId) = true := by
      rw [← user,← course]
      exact found
    have kept (row : ProgressRow) : (rowSaved first row).isOf e.userId e.courseId =
        row.isOf e.userId e.courseId := by
      unfold rowSaved
      split <;> rfl
    have twice (row : ProgressRow) : rowSaved e (rowSaved first row) = rowSaved e row := by
      rw [rowSaved,kept,rowSaved,rowSaved,user,course]
      split <;> rfl
    have still : (d.progress.map (rowSaved first)).toList.any (·.isOf e.userId e.courseId) = true := by
      rw [Table.mapRows,List.any_map]
      exact (List.any_congr rfl kept).trans held
    have rows : (d.progress.map (rowSaved first)).map (rowSaved e) = d.progress.map (rowSaved e) := by
      simp only [Table.map,List.map_map]
      exact congrArg Table.mk (List.map_congr_left fun entry _ => congrArg (entry.1,·) (twice entry.2))
    have one : d.saveProgress (.ofEnrollment e) =
        .ok { d with progress := d.progress.map (rowSaved e) } := if_pos held
    have two : saveProgress { d with progress := d.progress.map (rowSaved first) }
        (.ofEnrollment e) =
          .ok { d with progress := (d.progress.map (rowSaved first)).map (rowSaved e) } :=
      if_pos still
    have reached : after = { d with progress := d.progress.map (rowSaved first) } := saved ok
    rw [reached]
    simp only [perform,one,two,rows]
    rfl
  · cases made

end Database

namespace Repository

def without (user : UserId) (course : CourseId) : Repository → Repository
  | .memory m => .memory { m with enrollments := m.enrollments.filter fun e => !e.isOf user course }
  | .tables d => .tables { d with progress := d.progress.filter fun r => !r.isOf user course }

def holds (user : UserId) (course : CourseId) : Repository → Bool
  | .memory m => m.enrollments.any (·.isOf user course)
  | .tables d => d.progress.toList.any (·.isOf user course)

inductive SameOrigins : Repository → Repository → Prop
  | memory {m after : Memory}
      (same : after.enrollments.map Enrollment.origin = m.enrollments.map Enrollment.origin) :
      SameOrigins (.memory m) (.memory after)
  | tables {d after : Database}
      (same : after.progress.toList.map ProgressRow.origin =
        d.progress.toList.map ProgressRow.origin) :
      SameOrigins (.tables d) (.tables after)

theorem sameOrigins (r : Repository) : r.SameOrigins r := by
  cases r with
  | memory m => exact .memory rfl
  | tables d => exact .tables rfl

theorem originRead {r after : Repository} {user : UserId} {course : CourseId}
    {old new : Enrollment} (same : r.SameOrigins after) (before : r.stored user course = .ok old)
    (found : after.stored user course = .ok new) : new.origin = old.origin := by
  cases same with
  | @memory m n same =>
    have pair : ∀ es : List Enrollment,
        (es.find? fun e => e.userId == user && e.courseId == course).map Enrollment.origin =
          (es.map Enrollment.origin).find? fun o => o.2.1 == user && o.2.2.1 == course := by
      intro es
      rw [List.find?_map]
      rfl
    rw [Memory.storedOf] at before found
    unfold Memory.enrollment? at before found
    have firsts := (pair n.enrollments).trans ((congrArg _ same).trans (pair m.enrollments).symm)
    split at before
    · rename_i e there
      split at found
      · rename_i e' there'
        cases Except.ok.inj before
        cases Except.ok.inj found
        rw [there,there'] at firsts
        exact Option.some.inj firsts
      · cases found
    · cases before
  | @tables d n same =>
    have pair : ∀ rows : List ProgressRow,
        (rows.find? fun r => r.userId == user.key && r.courseId == course.key).map
          ProgressRow.origin = (rows.map ProgressRow.origin).find?
            fun o => o.2.1 == user.key && o.2.2.1 == course.key := by
      intro rows
      rw [List.find?_map]
      rfl
    rw [Database.storedOf] at before found
    unfold Database.progressRow? at before found
    have firsts := (pair n.progress.toList).trans
      ((congrArg _ same).trans (pair d.progress.toList).symm)
    split at before
    · rename_i row there
      split at found
      · rename_i row' there'
        rw [there,there'] at firsts
        exact ProgressRow.readOrigin (Option.some.inj firsts) found before
      · cases found
    · cases before

theorem holdsStored {r : Repository} {user : UserId} {course : CourseId} {e : Enrollment}
    (read : r.stored user course = .ok e) : r.holds user course = true := by
  cases r with
  | memory m =>
    rw [Memory.storedOf] at read
    split at read
    · rename_i there
      exact List.any_eq_true.mpr ⟨_,List.mem_of_find?_eq_some there,List.find?_some there⟩
    · cases read
  | tables d =>
    rw [Database.storedOf] at read
    split at read
    · rename_i there
      exact List.any_eq_true.mpr ⟨_,List.mem_of_find?_eq_some there,List.find?_some there⟩
    · cases read

structure Framed (user : UserId) (course : CourseId) (r after : Repository) : Prop where
  others : after.without user course = r.without user course
  origins : r.holds user course = true → r.SameOrigins after

theorem memoryPerforms {m : Memory} {op : Operation} {outcome : op.Outcome} {after : Repository}
    (ran : (memory m).perform op = (outcome,after)) :
    ∃ n, m.perform op = (outcome,n) ∧ after = .memory n := by
  obtain ⟨rfl,rfl⟩ := Prod.mk.inj ran
  exact ⟨_,rfl,rfl⟩

theorem tablesPerform {d : Database} {op : Operation} {outcome : op.Outcome} {after : Repository}
    (ran : (tables d).perform op = (outcome,after)) :
    ∃ n, d.perform op = (outcome,n) ∧ after = .tables n := by
  obtain ⟨rfl,rfl⟩ := Prod.mk.inj ran
  exact ⟨_,rfl,rfl⟩

theorem createFramed {r after : Repository} {e : Enrollment}
    (ok : r.perform (.createProgress e) = (.ok (),after)) :
    Framed e.userId e.courseId r after := by
  cases r with
  | memory m =>
    obtain ⟨n,ran,rfl⟩ := memoryPerforms ok
    obtain ⟨free,rfl⟩ := Memory.created ran
    constructor
    · simp [without,Enrollment.isOf]
    · intro held
      obtain ⟨other,member,fits⟩ := List.any_eq_true.mp held
      exact absurd fits (List.find?_eq_none.mp free other member)
  | tables d =>
    obtain ⟨n,ran,rfl⟩ := tablesPerform ok
    obtain ⟨free,rfl⟩ := Database.created ran
    constructor
    · simp [without,Table.filter,Table.insert,ProgressRow.isOf,ProgressRow.ofEnrollment]
    · intro held
      rw [holds,free] at held
      cases held

theorem saveFramed {r after : Repository} {e : Enrollment}
    (ok : r.perform (.saveProgress e) = (.ok (),after)) :
    Framed e.userId e.courseId r after := by
  cases r with
  | memory m =>
    obtain ⟨n,ran,rfl⟩ := memoryPerforms ok
    obtain ⟨old,there,rfl⟩ := Memory.saved ran
    constructor
    · have was : old.isOf e.userId e.courseId = true := List.find?_some there
      have fits : (Memory.overwrite old e).isOf e.userId e.courseId = true := was
      have rest := restReplaced fits m.enrollments
      exact congrArg (fun es => memory { m with enrollments := es }) rest
    · exact fun _ => .memory (mapReplaced there rfl)
  | tables d =>
    obtain ⟨n,ran,rfl⟩ := tablesPerform ok
    cases Database.saved ran
    constructor
    · have keeps : ∀ row : ProgressRow, (row.overwrite (.ofEnrollment e)).isOf e.userId e.courseId =
          row.isOf e.userId e.courseId := fun _ => rfl
      have rest := Table.filterChanged keeps d.progress
      exact congrArg (fun t => tables { d with progress := t }) rest
    · intro _
      refine .tables ?_
      rw [Table.mapRows,List.map_map]
      refine List.map_congr_left fun row _ => ?_
      rw [Function.comp_apply]
      split <;> rfl

def givesBack : Repository → Enrollment → Stored Enrollment
  | .memory _,e => .ok e
  | .tables _,e => do
    let state ← Stored.readable (Json.read? (Json.write e.state))
    let updatedAt ← Stored.instant e.updatedAt.storedText
    return { e with state, updatedAt }

theorem saveGives {r after : Repository} {old e : Enrollment}
    (was : r.stored e.userId e.courseId = .ok old)
    (ok : r.perform (.saveProgress e) = (.ok (),after)) :
    after.stored e.userId e.courseId = r.givesBack (Memory.overwrite old e) := by
  cases r with
  | memory m =>
    obtain ⟨n,ran,rfl⟩ := memoryPerforms ok
    obtain ⟨held,there,rfl⟩ := Memory.saved ran
    rw [Memory.storedOf,there] at was
    cases Except.ok.inj was
    have fits : old.isOf e.userId e.courseId = true := List.find?_some there
    have here := findReplaced (a := Memory.overwrite old e) (Enrollment.isOf e.userId e.courseId)
      m.enrollments fits
    have again : Memory.enrollment? { m with
        enrollments := replaceOrAppend (·.isOf e.userId e.courseId) (Memory.overwrite old e)
          m.enrollments } e.userId e.courseId = some (Memory.overwrite old e) := here
    rw [Memory.storedOf,again]
    rfl
  | tables d =>
    obtain ⟨n,ran,rfl⟩ := tablesPerform ok
    cases Database.saved ran
    rw [Database.storedOf] at was
    split at was
    · rename_i row there
      have fits : row.isOf e.userId e.courseId = true := List.find?_some there
      have here : Database.progressRow? { d with
          progress := d.progress.map fun row =>
            if row.isOf e.userId e.courseId then row.overwrite (.ofEnrollment e) else row }
          e.userId e.courseId = some (row.overwrite (.ofEnrollment e)) := by
        unfold Database.progressRow? at there ⊢
        rw [Table.mapRows,findMapped,there,Option.map_some,if_pos fits]
        intro row
        split <;> rfl
      rw [Database.storedOf,here]
      have again := ProgressRow.readOverwritten (e := e) was
      exact again
    · cases was

theorem saveServed {r : Repository} {old e : Enrollment}
    (was : r.stored e.userId e.courseId = .ok old) : (r.perform (.saveProgress e)).1 = .ok () := by
  cases r with
  | memory m =>
    rw [Memory.storedOf] at was
    split at was
    · rename_i there
      simp only [perform,Memory.perform,there]
    · cases was
  | tables d =>
    have held : d.progress.toList.any (·.isOf e.userId e.courseId) = true := holdsStored was
    have made : (d.saveProgress (.ofEnrollment e)) = .ok { d with
        progress := d.progress.map fun row =>
          if row.isOf e.userId e.courseId then row.overwrite (.ofEnrollment e) else row } :=
      if_pos held
    simp only [perform,Database.perform,made]
    rfl

theorem savedOver {r middle : Repository} {first e : Enrollment}
    (ok : r.perform (.saveProgress first) = (.ok (),middle)) (user : first.userId = e.userId)
    (course : first.courseId = e.courseId) :
    middle.perform (.saveProgress e) = r.perform (.saveProgress e) := by
  cases r with
  | memory m =>
    obtain ⟨n,ran,rfl⟩ := memoryPerforms ok
    exact congrArg (fun made : Stored Unit × Memory => (made.1,memory made.2))
      (Memory.savedOver ran user course)
  | tables d =>
    obtain ⟨n,ran,rfl⟩ := tablesPerform ok
    exact congrArg (fun made : Stored Unit × Database => (made.1,tables made.2))
      (Database.savedOver ran user course)

theorem givesBackAlike {r other : Repository} {user : UserId} {course : CourseId}
    (same : other.without user course = r.without user course) : other.givesBack = r.givesBack := by
  cases r with
  | memory m =>
    cases other with
    | memory n => rfl
    | tables d => cases same
  | tables d =>
    cases other with
    | memory m => cases same
    | tables n => rfl

theorem contentPerformed {op : Operation} (content : op.readsContent = true) (user : UserId)
    (course : CourseId) (r : Repository) :
    ((r.without user course).perform op).1 = (r.perform op).1 := by
  cases r with
  | memory m =>
    cases op with
    | getDeck id =>
      simp only [without,perform,Memory.perform]
      split <;> rfl
    | getCourse id => rfl
    | listLessons course order => rfl
    | getCards ids => rfl
    | _ => cases content
  | tables d =>
    cases op with
    | getCourse id =>
      simp only [without,perform,Database.perform]
      split <;> rfl
    | listLessons course order => rfl
    | getDeck id => rfl
    | getCards ids => rfl
    | _ => cases content

end Repository

end Coursework
