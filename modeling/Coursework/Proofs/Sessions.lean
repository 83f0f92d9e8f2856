import Coursework.Proofs.Mirror
import Coursework.Proofs.SyncMerges

/-! Sessions with a store. Operations are carried out one after another, and in between the store may
be opened again. A session that the stored records admit at each step has the same outcomes with a
store of records as with a store of tables. -/
namespace Coursework

inductive SessionStep where
  | perform (op : Operation)
  | reopen

def session {σ : Type} (handle : Handler σ) (reopen : σ → σ) :
    List SessionStep → σ → List (Σ op : Operation,op.Outcome)
  | [],_ => []
  | .perform op :: steps,s => ⟨op,(handle op s).1⟩ :: session handle reopen steps (handle op s).2
  | .reopen :: steps,s => session handle reopen steps (reopen s)

namespace Memory

/- Each operation is admitted by the records that are stored when it is its turn. Only tables are
opened again; records stay what they are. -/
def AdmitsAll : Memory → List SessionStep → Prop
  | _,[] => True
  | m,.perform op :: steps => m.Admits op ∧ AdmitsAll (m.perform op).2 steps
  | m,.reopen :: steps => AdmitsAll m steps

def decideAll : (m : Memory) → (steps : List SessionStep) → Decidable (m.AdmitsAll steps)
  | _,[] => .isTrue trivial
  | m,.perform op :: steps =>
    have := decideAll (m.perform op).2 steps
    inferInstanceAs (Decidable (m.Admits op ∧ AdmitsAll (m.perform op).2 steps))
  | m,.reopen :: steps => decideAll m steps

instance (m : Memory) (steps : List SessionStep) : Decidable (m.AdmitsAll steps) :=
  m.decideAll steps

end Memory

theorem Mirrors.sessions {m : Memory} {d : Database} (mirrors : Mirrors m d)
    {steps : List SessionStep} (admitted : m.AdmitsAll steps) :
    session Memory.perform id steps m =
      session Database.perform Database.reopen steps d := by
  induction steps generalizing m d with
  | nil => rfl
  | cons step steps ih =>
    cases step with
    | perform op =>
      obtain ⟨here,rest⟩ := admitted
      have agree := mirrors.agrees here
      rw [session,session,agree.outcome,ih agree.mirrors rest]
    | reopen => exact ih mirrors.reopened admitted

/-- From empty stores on, a session has the same outcomes with records and with tables. Each operation
has to respect the stored records: lessons are stored for stored courses, courses and lessons keep what
cannot be changed, no cards and no answers share an identifier, no two pairs have an enrollment of one
identifier, the cards asked for fit into one statement, and years have four digits. -/
theorem sessionsAgree {steps : List SessionStep} (admitted : Memory.AdmitsAll {} steps) :
    session Memory.perform id steps {} =
      session Database.perform Database.reopen steps {} :=
  emptyMirrors.sessions admitted

namespace Sample

def greetings : Course :=
  { id := course, order := 1, title := "greetings", description := "", createdAt := .ofNanos 0 }

def second : Lesson := { lesson with id := ⟨.ofNat 9⟩, createdAt := .ofNanos (-500000000) }

def learner : Enrollment := .start (.ofNat 8) user course
  { lessons := KeyMap.ofList
      [(lesson.id.key,{ isCompleted := true, completedAt := some (.ofNanos 7) })] } (.ofNanos 7)

def visit : List SessionStep :=
  [.perform (.upsertCourse greetings),.perform (.upsertLesson lesson),
   .perform (.upsertLesson second),.perform (.upsertDeck deck),.perform (.upsertDeck grown),.reopen,
   .perform (.listLessons course .descending),.perform (.getCards [⟨.ofNat 6⟩,card.id,⟨.ofNat 4⟩]),
   .perform (.createProgress learner),.perform (.createProgress learner),.reopen,
   .perform (.saveProgress { learner with updatedAt := .ofNanos 9 }),
   .perform (.getProgress user course),.perform (.getDeck ⟨.ofNat 9⟩)]

end Sample

theorem sampleSessionsAgree :
    Memory.AdmitsAll {} Sample.visit ∧
      session Memory.perform id Sample.visit {} =
        session Database.perform Database.reopen Sample.visit {} := by
  have admitted : Memory.AdmitsAll {} Sample.visit := by decide +kernel
  exact ⟨admitted,sessionsAgree admitted⟩

end Coursework
