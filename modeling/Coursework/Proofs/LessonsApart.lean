import Coursework.Proofs.Calls

/-! Both stores keep their lessons under identifiers of their own. An empty store does, and no
operation and no call puts a second lesson under an identifier, so every listing has its lessons
apart. -/
namespace Coursework

structure KeysApart (keys : List String) : Prop where
  distinct : keys.Nodup
  written : ∀ key ∈ keys, ∃ id : LessonId, key = id.key

def withKey (key : String) (keys : List String) : List String :=
  if key ∈ keys then keys else keys ++ [key]

theorem keysExtended {keys : List String} (apart : KeysApart keys) (id : LessonId) :
    KeysApart (withKey id.key keys) := by
  unfold withKey
  split
  · exact apart
  · rename_i fresh
    constructor
    · refine List.nodup_append.mpr ⟨apart.distinct,by simp,fun key member other same => ?_⟩
      cases List.mem_singleton.mp same
      rintro rfl
      exact fresh member
    · intro key member
      rcases List.mem_append.mp member with old | new
      · exact apart.written key old
      · exact ⟨id,List.mem_singleton.mp new⟩

theorem keysReplaced {α : Type} {key : α → String} {same : α → Bool} {a : α}
    (agrees : ∀ b, same b = true ↔ key b = key a) (as : List α) :
    (replaceOrAppend same a as).map key = withKey (key a) (as.map key) := by
  induction as with
  | nil => rfl
  | cons b bs ih =>
    unfold replaceOrAppend
    split
    · rename_i here
      have equal := (agrees b).mp here
      simp [withKey,equal]
    · rename_i other
      have differs : key a ≠ key b := fun equal => other ((agrees b).mpr equal.symm)
      rw [List.map_cons,ih]
      simp only [withKey,List.map_cons,List.mem_cons,differs,false_or]
      split <;> rfl

theorem keysUpserted {Row : Type} {key : Row → String} {same : Row → Bool} {change : Row → Row}
    {row : Row} (agrees : ∀ r, same r = true ↔ key r = key row)
    (keeps : ∀ r, key (change r) = key row) (t : Table Row) :
    (t.upsert same change row).toList.map key = withKey (key row) (t.toList.map key) := by
  have present : t.toList.any same = true ↔ key row ∈ t.toList.map key := by
    rw [List.any_eq_true,List.mem_map]
    exact exists_congr fun r => and_congr_right fun _ => agrees r
  rw [Table.upsertRows,withKey]
  by_cases there : t.toList.any same = true
  · rw [if_pos there,if_pos (present.mp there),List.map_map]
    refine List.map_congr_left fun r _ => ?_
    rw [Function.comp_apply]
    split
    · rename_i hit
      rw [keeps,(agrees r).mp hit]
    · rfl
  · rw [if_neg there,if_neg fun member => there (present.mpr member),List.map_append]
    rfl

theorem arrangedApart {α : Type} {key : α → String} {as : List α} (distinct : (as.map key).Nodup)
    (before : α → α → Bool) (p : α → Bool) :
    ((sortOrdered before (as.filter p)).map key).Nodup := by
  have sorted := (sortOrderedPerm before (as.filter p)).map key
  exact sorted.nodup_iff.mpr (distinct.sublist (List.filter_sublist.map key))

namespace Memory

def lessonKeys (m : Memory) : List String := m.lessons.map (·.id.key)

theorem lessonKeysPerform (m : Memory) (op : Operation) :
    (m.perform op).2.lessonKeys = m.lessonKeys ∨
      ∃ id : LessonId, (m.perform op).2.lessonKeys = withKey id.key m.lessonKeys := by
  by_cases reads : op.isWrite = false
  · rw [transactional.quiet op m reads]
    exact .inl rfl
  cases op with
  | upsertLesson l =>
    refine .inr ⟨l.id,keysReplaced (fun other => ?_) m.lessons⟩
    rw [beq_iff_eq]
    exact ⟨congrArg Id.key,fun same => Id.keyInjective same⟩
  | createProgress e =>
    simp only [perform]
    split <;> exact .inl rfl
  | saveProgress e =>
    simp only [perform]
    split <;> exact .inl rfl
  | _ => first | exact .inl rfl | exact absurd rfl reads

end Memory

namespace Database

structure SameProgress (d after : Database) : Prop where
  lessons : after.lessons = d.lessons
  progress : after.progress = d.progress

theorem insertAnswersApart {card : CardId} {position : Nat} {answers : List PossibleAnswer}
    {d after : Database} (ok : insertAnswers card position answers d = .ok after) :
    d.SameProgress after := by
  induction answers generalizing position d with
  | nil =>
    cases ok
    exact ⟨rfl,rfl⟩
  | cons a rest ih =>
    unfold insertAnswers at ok
    split at ok
    · cases ok
    · obtain ⟨lessons,progress⟩ := ih ok
      exact ⟨lessons,progress⟩

theorem insertCardsApart {deck : DeckId} {position : Nat} {cards : List Card}
    {d after : Database} (ok : insertCards deck position cards d = .ok after) :
    d.SameProgress after := by
  induction cards generalizing position d with
  | nil =>
    cases ok
    exact ⟨rfl,rfl⟩
  | cons c rest ih =>
    unfold insertCards at ok
    split at ok
    · cases ok
    · obtain ⟨middle,answers,cards⟩ := exceptBindOk.mp ok
      obtain ⟨lessons,progress⟩ := insertAnswersApart answers
      have later := ih cards
      exact ⟨later.lessons.trans lessons,later.progress.trans progress⟩

theorem upsertDeckApart (d : Database) (deck : Deck) :
    d.SameProgress (d.perform (.upsertDeck deck)).2 := by
  cases made : d.upsertDeck deck with
  | error e =>
    simp only [perform,made,commit]
    exact ⟨rfl,rfl⟩
  | ok after =>
    have same := insertCardsApart made
    simp only [perform,made,commit]
    exact ⟨same.lessons,same.progress⟩

def lessonKeys (d : Database) : List String := d.lessons.toList.map (·.id)

theorem upsertLessonApart (d : Database) (l : Lesson) :
    ((d.perform (.upsertLesson l)).2.lessonKeys = d.lessonKeys ∨
      (d.perform (.upsertLesson l)).2.lessonKeys = withKey l.id.key d.lessonKeys) ∧
    (d.perform (.upsertLesson l)).2.progress = d.progress := by
  simp only [perform,upsertLesson]
  split
  · refine ⟨.inr ?_,rfl⟩
    simp only [commit]
    refine keysUpserted ?_ ?_ d.lessons
    · intro r
      exact beq_iff_eq
    · intro r
      rfl
  · exact ⟨.inl rfl,rfl⟩

theorem lessonKeysPerform (d : Database) (op : Operation) :
    (d.perform op).2.lessonKeys = d.lessonKeys ∨
      ∃ id : LessonId, (d.perform op).2.lessonKeys = withKey id.key d.lessonKeys := by
  by_cases reads : op.isWrite = false
  · rw [transactional.quiet op d reads]
    exact .inl rfl
  cases op with
  | upsertLesson l => exact (d.upsertLessonApart l).1.imp_right fun extended => ⟨l.id,extended⟩
  | upsertDeck deck =>
    exact .inl (congrArg (fun t => t.toList.map (·.id)) (d.upsertDeckApart deck).lessons)
  | createProgress e =>
    simp only [perform,createProgress]
    split <;> exact .inl rfl
  | saveProgress e =>
    simp only [perform,saveProgress]
    split <;> exact .inl rfl
  | _ => first | exact .inl rfl | exact absurd rfl reads

theorem readKeys {rows : List LessonRow} {lessons : List Lesson}
    (written : ∀ row ∈ rows, ∃ id : LessonId, row.id = id.key)
    (read : rows.mapM LessonRow.read = .ok lessons) :
    lessons.map (·.id.key) = rows.map (·.id) := by
  induction rows generalizing lessons with
  | nil =>
    cases read
    rfl
  | cons row rows ih =>
    rw [List.mapM_cons] at read
    obtain ⟨l,first,rest⟩ := exceptBindOk.mp read
    obtain ⟨others,later,last⟩ := exceptBindOk.mp rest
    cases last
    obtain ⟨id,canonical⟩ := written row List.mem_cons_self
    obtain ⟨found,parsed,rest⟩ := exceptBindOk.mp first
    have known : found = id := by
      have ok := storedIdOk.mp parsed
      rw [canonical,Id.parsesKey] at ok
      exact (Option.some.inj ok).symm
    obtain ⟨course,_,rest⟩ := exceptBindOk.mp rest
    obtain ⟨order,_,rest⟩ := exceptBindOk.mp rest
    obtain ⟨instant,_,rest⟩ := exceptBindOk.mp rest
    cases rest
    rw [List.map_cons,List.map_cons,ih (fun r member => written r (List.mem_cons_of_mem _ member))
      later,canonical,known]

end Database

def Operation.isContent : Operation → Bool
  | .upsertCourse _ | .upsertLesson _ | .upsertDeck _ => true
  | _ => false

namespace Repository

def lessonKeys : Repository → List String
  | .memory m => m.lessonKeys
  | .tables d => d.lessonKeys

def Keyed (r : Repository) : Prop := KeysApart r.lessonKeys

theorem keyedApart {r : Repository} (keyed : r.Keyed) (course : CourseId) :
    r.ListsApart course := by
  intro lessons listed
  refine List.Nodup.of_map Id.key ?_
  rw [List.map_map]
  cases r with
  | memory m =>
    cases Except.ok.inj listed
    exact arrangedApart keyed.distinct _ _
  | tables d =>
    have rows : ∀ row ∈ d.lessonRows course, ∃ id : LessonId, row.id = id.key := by
      intro row member
      have inside := (sortOrderedPerm _ _).mem_iff.mp member
      exact keyed.written _ (List.mem_map.mpr ⟨row,List.mem_of_mem_filter inside,rfl⟩)
    have keys := Database.readKeys rows listed
    have distinct := arrangedApart keyed.distinct LessonRow.precedes (·.courseId == course.key)
    exact keys ▸ distinct

theorem keyedPerform {r : Repository} (keyed : r.Keyed) (op : Operation) :
    (r.perform op).2.Keyed := by
  have keys : (r.perform op).2.lessonKeys = r.lessonKeys ∨
      ∃ id : LessonId, (r.perform op).2.lessonKeys = withKey id.key r.lessonKeys := by
    cases r with
    | memory m => exact m.lessonKeysPerform op
    | tables d => exact d.lessonKeysPerform op
  rw [Keyed]
  rcases keys with same | ⟨id,extended⟩
  · rw [same]
    exact keyed
  · rw [extended]
    exact keysExtended keyed id

theorem contentStored {op : Operation} (content : op.isContent = true) (r : Repository)
    (user : UserId) (course : CourseId) :
    (r.perform op).2.stored user course = r.stored user course := by
  cases r with
  | memory m =>
    have same : ∀ after : Memory, after.enrollments = m.enrollments →
        (memory after).stored user course = (memory m).stored user course := by
      intro after enrollments
      rw [Memory.storedOf,Memory.storedOf,Memory.enrollment?,Memory.enrollment?,enrollments]
    cases op with
    | upsertCourse c => exact same _ rfl
    | upsertLesson l => exact same _ rfl
    | upsertDeck d => exact same _ rfl
    | _ => cases content
  | tables d =>
    have same : ∀ after : Database, after.progress = d.progress →
        (tables after).stored user course = (tables d).stored user course := by
      intro after progress
      rw [Database.storedOf,Database.storedOf,Database.progressRow?,Database.progressRow?,progress]
    cases op with
    | upsertCourse c => exact same _ rfl
    | upsertLesson l => exact same _ (Database.upsertLessonApart d l).2
    | upsertDeck deck => exact same _ (Database.upsertDeckApart d deck).progress
    | _ => cases content

end Repository

theorem Script.runKeeps {ε α σ : Type} {handle : Handler σ} {good : σ → Prop}
    (step : ∀ op s, good s → good (handle op s).2) (script : Script ε α) {s : σ} (start : good s) :
    good (script.run handle s).2 := by
  induction script generalizing s with
  | done a => exact start
  | fail e => exact start
  | ask op resume ih => exact ih _ (step op s start)

namespace Setting

variable {setting : Setting} {b : Backend}

theorem keyedStep (op : Operation) (b : Backend) (keyed : b.repository.Keyed) :
    (setting.handler op b).2.repository.Keyed := by
  have performed : ∀ op, (Backend.perform setting.exchange op b).2.repository.Keyed := by
    intro op
    rcases Backend.performIs setting.exchange op b with ⟨outcome,_,same⟩ | same
    · rwa [same]
    · rw [same]
      exact Repository.keyedPerform keyed op
  rcases faultsAre (Backend.perform setting.exchange) setting.faults op b with
    ⟨e,same⟩ | ⟨id,other,rfl,same⟩ | ⟨_,same⟩
  · rwa [handler,same]
  · rw [handler,same]
    exact performed _
  · rw [handler,same]
    exact performed op

theorem keyedServe (setting : Setting) (keyed : b.repository.Keyed) (user : UserId)
    (course : CourseId) (request : Request) :
    (setting.serve user course b request).2.repository.Keyed := by
  cases request with
  | enroll newId => exact Script.runKeeps keyedStep (enroll newId setting.now user course) keyed
  | answer lesson deck answers =>
    exact Script.runKeeps keyedStep (answer setting.now user course lesson deck answers) keyed
  | sync => exact Script.runKeeps keyedStep (sync setting.now user course) keyed
  | browse bodyless =>
    exact Script.runKeeps keyedStep
      (browse setting.now course { user := some user, bodyless }) keyed

end Setting

end Coursework
