import Coursework.Proofs.Forms
import Coursework.Proofs.ServiceRuns
import Coursework.Storage.Backend
import Coursework.Storage.Faults

/-! What both stores promise about enrollments: reads have no effect, a write that fails has none,
and a written tree is given out again as it was written, or not at all. Failures put in front of a
store and a deck service beside it change nothing about that. -/
namespace Coursework

theorem findReplaced {α : Type} (same : α → Bool) {a : α} (as : List α) (fits : same a = true) :
    (replaceOrAppend same a as).find? same = some a := by
  induction as with
  | nil => simp [replaceOrAppend,fits]
  | cons b bs ih =>
    unfold replaceOrAppend
    split
    · simp [fits]
    · rename_i other
      rw [List.find?_cons_of_neg other,ih]

theorem findMapped {α : Type} {same : α → Bool} {f : α → α} (as : List α)
    (keeps : ∀ a, same (f a) = same a) : (as.map f).find? same = (as.find? same).map f := by
  rw [List.find?_map]
  congr 2
  funext a
  exact keeps a

structure Enrollment.Shows (found written : Enrollment) : Prop where
  state : found.state = written.state
  current : found.currentLessonId = written.currentLessonId

theorem readableOk {α : Type} {o : Option α} {a : α} : Stored.readable o = .ok a ↔ o = some a := by
  cases o <;> simp [Stored.readable]

theorem storedIdOk {entity : Entity} {field : StoredField} {raw : String} {id : Id entity} :
    Stored.id field raw = .ok id ↔ Id.parse? raw = some id := by
  unfold Stored.id
  cases (Id.parse? raw : Option (Id entity)) <;> simp

namespace ProgressRow

structure Says (row : ProgressRow) (found : Enrollment) : Prop where
  user : Id.parse? row.userId = some found.userId
  course : Id.parse? row.courseId = some found.courseId
  current : readCurrent row.currentLesson = .ok found.currentLessonId
  state : Json.read? row.state = some found.state

theorem readSays {row : ProgressRow} {found : Enrollment} (read : row.read = .ok found) :
    row.Says found := by
  unfold ProgressRow.read at read
  obtain ⟨current,currentOk,read⟩ := exceptBindOk.mp read
  obtain ⟨state,stateOk,read⟩ := exceptBindOk.mp read
  obtain ⟨_,_,read⟩ := exceptBindOk.mp read
  obtain ⟨user,userOk,read⟩ := exceptBindOk.mp read
  obtain ⟨course,courseOk,read⟩ := exceptBindOk.mp read
  obtain ⟨_,_,read⟩ := exceptBindOk.mp read
  obtain ⟨_,_,read⟩ := exceptBindOk.mp read
  cases Except.ok.inj read
  exact ⟨storedIdOk.mp userOk,storedIdOk.mp courseOk,currentOk,readableOk.mp stateOk⟩

theorem currentRead {current found : Option LessonId}
    (read : readCurrent (current.map Id.key) = .ok found) : found = current := by
  cases current with
  | none => exact (Except.ok.inj read).symm
  | some id =>
    simp only [Option.map_some,readCurrent,Stored.id,Id.parsesKey] at read
    exact (Except.ok.inj read).symm

theorem rowShows {row : ProgressRow} {written found : Enrollment}
    (current : row.currentLesson = written.currentLessonId.map Id.key)
    (state : row.state = Json.write written.state) (read : row.read = .ok found) :
    found.Shows written := by
  have told := readSays read
  have currentOk := told.current
  have stateOk := told.state
  rw [current] at currentOk
  rw [state] at stateOk
  exact ⟨Json.readWritten stateOk,currentRead currentOk⟩

end ProgressRow

namespace Repository

def stored (r : Repository) (user : UserId) (course : CourseId) : Stored Enrollment :=
  (r.perform (.getProgress user course)).1

def listing (r : Repository) (course : CourseId) : Stored (List Lesson) :=
  (r.perform (.listLessons course .ascending)).1

def ListsApart (r : Repository) (course : CourseId) : Prop :=
  ∀ lessons, r.listing course = .ok lessons → (lessons.map (·.id)).Nodup

structure Keeps (before : Repository) (e : Enrollment) (after : Repository) : Prop where
  shown : ∀ found, after.stored e.userId e.courseId = .ok found → found.Shows e
  lists : after.listing = before.listing

end Repository

namespace Memory

theorem storedOf (m : Memory) (user : UserId) (course : CourseId) :
    (Repository.memory m).stored user course =
      match m.enrollment? user course with
      | some e => .ok e
      | none => .error .notFound := by
  simp only [Repository.stored,Repository.perform,perform]
  cases m.enrollment? user course <;> rfl

theorem belongs {m : Memory} {user : UserId} {course : CourseId} {e : Enrollment}
    (found : m.enrollment? user course = some e) : e.userId = user ∧ e.courseId = course := by
  have fits := List.find?_some found
  simpa using fits

theorem createKeeps {m after : Memory} {e : Enrollment}
    (ok : m.perform (.createProgress e) = (.ok (),after)) :
    m.enrollment? e.userId e.courseId = none ∧
      (Repository.memory m).Keeps e (.memory after) := by
  simp only [perform] at ok
  split at ok
  · cases ok
  · rename_i free
    cases ok
    refine ⟨free,?_,rfl⟩
    intro found read
    have here : enrollment? { m with enrollments := m.enrollments ++ [e] } e.userId e.courseId =
        some e := by
      have none := free
      unfold enrollment? at none ⊢
      simp [List.find?_append,none]
    rw [storedOf,here] at read
    cases Except.ok.inj read
    exact ⟨rfl,rfl⟩

theorem saveKeeps {m after : Memory} {e : Enrollment}
    (ok : m.perform (.saveProgress e) = (.ok (),after)) :
    (Repository.memory m).Keeps e (.memory after) := by
  simp only [perform] at ok
  split at ok
  · rename_i old there
    cases ok
    refine ⟨?_,rfl⟩
    intro found read
    obtain ⟨user,course⟩ := belongs there
    have here := findReplaced (fun o => o.userId == e.userId && o.courseId == e.courseId)
      (a := overwrite old e) m.enrollments
      (by simp [overwrite,user,course])
    rw [storedOf,enrollment?,here] at read
    cases Except.ok.inj read
    exact ⟨rfl,rfl⟩
  · cases ok

theorem transactional : Handler.Transactional Memory.perform := by
  constructor
  · intro op m reads
    cases op with
    | upsertCourse c => cases reads
    | upsertLesson l => cases reads
    | upsertDeck d => cases reads
    | createProgress e => cases reads
    | saveProgress e => cases reads
    | getCourse id => rfl
    | listLessons course order => rfl
    | getCards ids => rfl
    | getDeck id =>
      simp only [perform]
      split <;> rfl
    | getProgress user course =>
      simp only [perform]
      split <;> rfl
  · intro op m e failed
    cases op with
    | upsertCourse c => cases failed
    | upsertLesson l => cases failed
    | upsertDeck d => cases failed
    | getCourse id => rfl
    | listLessons course order => rfl
    | getCards ids => rfl
    | _ =>
      simp only [perform] at failed ⊢
      split at failed
      all_goals first | rfl | cases failed

end Memory

namespace Database

theorem storedOf (d : Database) (user : UserId) (course : CourseId) :
    (Repository.tables d).stored user course =
      match d.progressRow? user course with
      | some row => row.read
      | none => .error .notFound := by
  simp only [Repository.stored,Repository.perform,perform]
  cases d.progressRow? user course <;> rfl

theorem belongs {d : Database} {user : UserId} {course : CourseId} {row : ProgressRow}
    {e : Enrollment} (there : d.progressRow? user course = some row) (read : row.read = .ok e) :
    e.userId = user ∧ e.courseId = course := by
  have fits := List.find?_some there
  have told := ProgressRow.readSays read
  simp only [Bool.and_eq_true,beq_iff_eq] at fits
  have userOk := told.user
  have courseOk := told.course
  rw [fits.1,Id.parsesKey] at userOk
  rw [fits.2,Id.parsesKey] at courseOk
  exact ⟨(Option.some.inj userOk).symm,(Option.some.inj courseOk).symm⟩

theorem committed {d after : Database} {new : Stored Database}
    (ok : d.commit new = (.ok (),after)) : new = .ok after := by
  cases new with
  | error e => cases ok
  | ok made =>
    cases ok
    rfl

theorem createKeeps {d after : Database} {e : Enrollment}
    (ok : d.perform (.createProgress e) = (.ok (),after)) :
    d.progressRow? e.userId e.courseId = none ∧ (Repository.tables d).Keeps e (.tables after) := by
  have made := committed ok
  simp only [createProgress] at made
  split at made
  · cases made
  · rename_i free
    cases Except.ok.inj made
    have none : d.progressRow? e.userId e.courseId = none := by
      refine List.find?_eq_none.mpr fun row member taken => free ?_
      refine List.any_eq_true.mpr ⟨row,member,?_⟩
      simp only [Bool.or_eq_true]
      exact .inr taken
    refine ⟨none,?_,rfl⟩
    intro found read
    have here : progressRow? { d with progress := d.progress.insert (.ofEnrollment e) } e.userId
        e.courseId = some (.ofEnrollment e) := by
      unfold progressRow? at none ⊢
      simp [List.find?_append,none,ProgressRow.ofEnrollment]
    rw [storedOf,here] at read
    exact ProgressRow.rowShows rfl rfl read

theorem saveKeeps {d after : Database} {e : Enrollment}
    (ok : d.perform (.saveProgress e) = (.ok (),after)) :
    (Repository.tables d).Keeps e (.tables after) := by
  have made := committed ok
  unfold saveProgress at made
  simp only at made
  split at made
  · cases Except.ok.inj made
    refine ⟨?_,rfl⟩
    intro found read
    rw [storedOf] at read
    split at read
    · rename_i row there
      unfold progressRow? at there
      rw [Table.mapRows,findMapped] at there
      · obtain ⟨old,oldThere,rfl⟩ := Option.map_eq_some_iff.mp there
        have fits := List.find?_some oldThere
        refine @ProgressRow.rowShows (old.overwrite (.ofEnrollment e)) _ _ rfl rfl ?_
        rw [← read]
        exact congrArg ProgressRow.read (if_pos fits).symm
      · intro row
        split <;> rfl
    · cases read
  · cases made

theorem commitAtomic (d : Database) (new : Stored Database) {e : StorageError}
    (failed : (d.commit new).1 = .error e) : (d.commit new).2 = d := by
  cases new with
  | error e => rfl
  | ok made => cases failed

theorem transactional : Handler.Transactional Database.perform := by
  constructor
  · intro op d reads
    cases op with
    | upsertCourse c => cases reads
    | upsertLesson l => cases reads
    | upsertDeck deck => cases reads
    | createProgress e => cases reads
    | saveProgress e => cases reads
    | listLessons course order => rfl
    | getDeck id => rfl
    | getCards ids => rfl
    | getCourse id =>
      simp only [perform]
      split <;> rfl
    | getProgress user course =>
      simp only [perform]
      split <;> rfl
  · intro op d e failed
    cases op with
    | upsertCourse c => cases failed
    | upsertLesson l => exact commitAtomic d _ failed
    | upsertDeck deck => exact commitAtomic d _ failed
    | createProgress new => exact commitAtomic d _ failed
    | saveProgress new => exact commitAtomic d _ failed
    | listLessons course order => rfl
    | getDeck id => rfl
    | getCards ids => rfl
    | getCourse id =>
      simp only [perform]
      split <;> rfl
    | getProgress user course =>
      simp only [perform]
      split <;> rfl

end Database

namespace Repository

theorem transactional : Handler.Transactional Repository.perform := by
  constructor
  · intro op r reads
    cases r with
    | memory m => exact congrArg memory (Memory.transactional.quiet op m reads)
    | tables d => exact congrArg tables (Database.transactional.quiet op d reads)
  · intro op r e failed
    cases r with
    | memory m => exact congrArg memory (Memory.transactional.atomic op m e failed)
    | tables d => exact congrArg tables (Database.transactional.atomic op d e failed)

theorem storedBelongs {r : Repository} {user : UserId} {course : CourseId} {e : Enrollment}
    (read : r.stored user course = .ok e) : e.userId = user ∧ e.courseId = course := by
  cases r with
  | memory m =>
    rw [Memory.storedOf] at read
    split at read
    · rename_i there
      cases Except.ok.inj read
      exact Memory.belongs there
    · cases read
  | tables d =>
    rw [Database.storedOf] at read
    split at read
    · rename_i row there
      exact Database.belongs there read
    · cases read

theorem createKeeps {r after : Repository} {e : Enrollment}
    (ok : r.perform (.createProgress e) = (.ok (),after)) :
    r.stored e.userId e.courseId = .error .notFound ∧ r.Keeps e after := by
  cases r with
  | memory m =>
    obtain ⟨made,rfl⟩ := Prod.mk.inj ok
    obtain ⟨free,keeps⟩ := Memory.createKeeps (Prod.ext made rfl)
    refine ⟨?_,keeps⟩
    rw [Memory.storedOf,free]
  | tables d =>
    obtain ⟨made,rfl⟩ := Prod.mk.inj ok
    obtain ⟨free,keeps⟩ := Database.createKeeps (Prod.ext made rfl)
    refine ⟨?_,keeps⟩
    rw [Database.storedOf,free]

theorem saveKeeps {r after : Repository} {e : Enrollment}
    (ok : r.perform (.saveProgress e) = (.ok (),after)) : r.Keeps e after := by
  cases r with
  | memory m =>
    obtain ⟨made,rfl⟩ := Prod.mk.inj ok
    exact Memory.saveKeeps (Prod.ext made rfl)
  | tables d =>
    obtain ⟨made,rfl⟩ := Prod.mk.inj ok
    exact Database.saveKeeps (Prod.ext made rfl)

end Repository

namespace Backend

def onStore (b : Backend) (op : Operation) : op.Outcome × Backend :=
  ((b.repository.perform op).1,{ b with repository := (b.repository.perform op).2 })

theorem performIs (exchange : Http.Exchange) (op : Operation) (b : Backend) :
    (∃ outcome, op.isWrite = false ∧ perform exchange op b = (outcome,b)) ∨
      perform exchange op b = b.onStore op := by
  obtain ⟨repository,service⟩ := b
  cases service with
  | none => exact .inr rfl
  | some client =>
    cases op with
    | getDeck id => exact .inl ⟨_,rfl,rfl⟩
    | getCards ids => exact .inl ⟨_,rfl,rfl⟩
    | _ => exact .inr rfl

theorem transactional (exchange : Http.Exchange) : (Backend.perform exchange).Transactional := by
  constructor
  · intro op b reads
    rcases performIs exchange op b with ⟨outcome,_,same⟩ | same
    · rw [same]
    · rw [same]
      exact congrArg (fun r => { b with repository := r })
        (Repository.transactional.quiet op b.repository reads)
  · intro op b e failed
    rcases performIs exchange op b with ⟨outcome,_,same⟩ | same
    · rw [same]
    · rw [same] at failed ⊢
      exact congrArg (fun r => { b with repository := r })
        (Repository.transactional.atomic op b.repository e failed)

theorem performStore {exchange : Http.Exchange} {op : Operation} {b : Backend}
    (deck : ∀ id, op ≠ .getDeck id) (cards : ∀ ids, op ≠ .getCards ids) :
    perform exchange op b = b.onStore op := by
  obtain ⟨repository,service⟩ := b
  cases service with
  | none => rfl
  | some client =>
    cases op with
    | getDeck id => exact absurd rfl (deck id)
    | getCards ids => exact absurd rfl (cards ids)
    | _ => rfl

end Backend

theorem faultsAre {σ : Type} (handle : Handler σ) (f : Faults) (op : Operation) (s : σ) :
    (∃ e, f.perform handle op s = (.error e,s)) ∨
      (∃ id other, op = .getDeck id ∧ f.perform handle (.getDeck id) s = handle (.getDeck other) s) ∨
      ((∀ id, op ≠ .getDeck id) ∧ f.perform handle op s = handle op s) := by
  cases failure : f.of? op with
  | some e =>
    refine .inl ⟨e,?_⟩
    simp only [Faults.perform,failure]
  | none =>
    refine .inr ?_
    cases op with
    | getDeck id =>
      refine .inl ⟨id,f.substitute id,rfl,?_⟩
      simp only [Faults.perform,failure]
    | _ =>
      refine .inr ⟨by simp,?_⟩
      simp only [Faults.perform,failure]

theorem faultsTransactional {σ : Type} {handle : Handler σ} (sound : handle.Transactional)
    (f : Faults) : (f.perform handle).Transactional := by
  constructor
  · intro op s reads
    rcases faultsAre handle f op s with ⟨e,same⟩ | ⟨id,other,rfl,same⟩ | ⟨_,same⟩
    · rw [same]
    · rw [same]
      exact sound.quiet _ s rfl
    · rw [same]
      exact sound.quiet op s reads
  · intro op s e failed
    rcases faultsAre handle f op s with ⟨e,same⟩ | ⟨id,other,rfl,same⟩ | ⟨_,same⟩
    · rw [same]
    · rw [same] at failed ⊢
      exact sound.atomic _ s e failed
    · rw [same] at failed ⊢
      exact sound.atomic op s e failed

structure Setting where
  now : Instant
  exchange : Http.Exchange
  faults : Faults := {}

namespace Setting

def handler (setting : Setting) : Handler Backend :=
  setting.faults.perform (Backend.perform setting.exchange)

variable {setting : Setting} {b after : Backend} {user : UserId} {course : CourseId}

theorem transactional (setting : Setting) : setting.handler.Transactional :=
  faultsTransactional (Backend.transactional setting.exchange) setting.faults

theorem storeActs {op : Operation} (deck : ∀ id, op ≠ .getDeck id) (cards : ∀ ids, op ≠ .getCards ids) :
    setting.handler op b =
      match setting.faults.of? op with
      | some e => (.error e,b)
      | none => b.onStore op := by
  have performed : b.perform setting.exchange op = b.onStore op := Backend.performStore deck cards
  cases failure : setting.faults.of? op with
  | some e => simp only [handler,Faults.perform,failure]
  | none =>
    cases op with
    | getDeck id => exact absurd rfl (deck id)
    | _ =>
      simp only [handler,Faults.perform,failure]
      exact performed

theorem servedByStore {op : Operation} {reply : op.Reply} (deck : ∀ id, op ≠ .getDeck id)
    (cards : ∀ ids, op ≠ .getCards ids) (ok : (setting.handler op b).1 = .ok reply) :
    setting.handler op b = b.onStore op := by
  rw [storeActs deck cards] at ok ⊢
  cases failure : setting.faults.of? op with
  | some e =>
    rw [failure] at ok
    cases ok
  | none => rfl

theorem cardsAnswered (setting : Setting) (b : Backend) (ids : List CardId) :
    setting.handler.answers b (.getCards ids) =
      match setting.faults.getCards with
      | some e => .error e
      | none => (b.perform setting.exchange (.getCards ids)).1 := by
  cases failure : setting.faults.getCards <;>
    simp only [Handler.answers,handler,Faults.perform,Faults.of?,failure]

theorem loads {e : Enrollment} (ok : setting.handler.answers b (.getProgress user course) = .ok e) :
    b.repository.stored user course = .ok e := by
  have served := servedByStore (by simp) (by simp) ok
  rw [Handler.answers,served] at ok
  exact ok

theorem lists {lessons : List Lesson}
    (ok : setting.handler.answers b (.listLessons course .ascending) = .ok lessons) :
    b.repository.listing course = .ok lessons := by
  have served := servedByStore (by simp) (by simp) ok
  rw [Handler.answers,served] at ok
  exact ok

theorem listsApart (apart : b.repository.ListsApart course) :
    (setting.handler.answers b).ListsApart course :=
  fun lessons listed => apart lessons (lists listed)

theorem creates {e : Enrollment} (ok : setting.handler (.createProgress e) b = (.ok (),after)) :
    b.repository.stored e.userId e.courseId = .error .notFound ∧
      b.repository.Keeps e after.repository := by
  rw [servedByStore (by simp) (by simp) (congrArg Prod.fst ok)] at ok
  obtain ⟨made,rfl⟩ := Prod.mk.inj ok
  exact Repository.createKeeps (Prod.ext made rfl)

theorem saves {e : Enrollment} (ok : setting.handler (.saveProgress e) b = (.ok (),after)) :
    b.repository.Keeps e after.repository := by
  rw [servedByStore (by simp) (by simp) (congrArg Prod.fst ok)] at ok
  obtain ⟨made,rfl⟩ := Prod.mk.inj ok
  exact Repository.saveKeeps (Prod.ext made rfl)

end Setting

end Coursework
