import Coursework.Proofs.SyncMerges
import Coursework.Proofs.Tasks
import Mathlib.Data.Finset.Card
import Mathlib.Data.Fintype.Basic

/-! Tasks that take turns. A task asks for the lock of its pair, waits until it holds it, then asks
the store for one thing after the other, and gives the lock up when it returns. Any task may be the
next to move. They are held against the same tasks one after the other, in the order in which they
got their locks: whoever holds the lock of a pair has the pair's part of the store for itself, and
if it ran to its end at once it would come to what it comes to in its place of that order. -/
namespace Coursework

namespace LockTable

variable {Name Key : Type}

def KeyedBy (keyOf : Name → Key) (t : LockTable Name Key) : Prop :=
  ∀ e ∈ t.entries, keyOf e.1 = e.2.key

variable [DecidableEq Key] {keyOf : Name → Key} {t after : LockTable Name Key}

theorem holdsOwn (keyed : t.KeyedBy keyOf) {name : Name} :
    name ∈ t.held.map (·.1) ↔ name ∈ t.holders (keyOf name) := by
  rw [holders,memOn,List.mem_map]
  constructor
  · rintro ⟨e,member,rfl⟩
    exact ⟨e,member,(keyed e (List.mem_append_left _ member)).symm,rfl⟩
  · rintro ⟨e,member,_,same⟩
    exact ⟨e,member,same⟩

theorem Sound.queueOnce (sound : t.Sound) (key : Key) : (t.queue key).Nodup := by
  rw [queueOn]
  exact sound.apart.sublist (List.filter_sublist.map _)

theorem Sound.holderFirst (sound : t.Sound) {key : Key} {name : Name}
    (holds : name ∈ t.holders key) :
    t.holders key = [name] ∧ ∃ others, t.queue key = name :: others ∧ name ∉ others := by
  have once := sound.queueOnce key
  rw [sound.first] at holds ⊢
  cases whole : t.queue key with
  | nil =>
    rw [whole] at holds
    cases holds
  | cons head others =>
    rw [whole] at holds once
    cases List.mem_singleton.mp holds
    exact ⟨rfl,others,rfl,(List.nodup_cons.mp once).1⟩

variable [DecidableEq Name]

def newcomers (before after : LockTable Name Key) : List Name :=
  (after.held.map (·.1)).filter fun name => !(before.held.map (·.1)).contains name

theorem newcomer (keyed : t.KeyedBy keyOf) (keyedAfter : after.KeyedBy keyOf) {name : Name} :
    name ∈ t.newcomers after ↔
      name ∈ after.holders (keyOf name) ∧ name ∉ t.holders (keyOf name) := by
  rw [newcomers,List.mem_filter,holdsOwn keyedAfter,← holdsOwn keyed]
  simp

theorem newcomersOn (keyed : t.KeyedBy keyOf) (keyedAfter : after.KeyedBy keyOf) (key : Key) :
    (t.newcomers after).filter (keyOf · = key) = newHolders key t after := by
  have own : (after.held.map (·.1)).filter (keyOf · = key) = after.holders key := by
    rw [holders,on,List.filter_map]
    refine congrArg _ (List.filter_congr fun e member => ?_)
    rw [Function.comp_apply,keyedAfter e (List.mem_append_left _ member)]
    rfl
  rw [newcomers,newHolders,← own,List.filter_comm,List.filter_filter,List.filter_filter]
  refine List.filter_congr fun name _ => ?_
  by_cases here : keyOf name = key
  · subst here
    simp only [List.contains_eq_mem,holdsOwn keyed]
  · rw [decide_eq_false here,Bool.and_false,Bool.and_false]

theorem newcomersOnce (sound : after.Sound) : (t.newcomers after).Nodup := by
  have apart := sound.apart
  rw [NamesApart,entries,List.map_append] at apart
  exact (List.nodup_append.mp apart).1.filter _

theorem noneNew {key : Key} (same : after.holders key = t.holders key) :
    newHolders key t after = [] := by
  rw [newHolders,same]
  exact List.filter_eq_nil_iff.mpr fun name member => by simp [member]

end LockTable

inductive Phase where
  | idle
  | begun (rest : Script Empty Reply)
  | returned (reply : Reply)

namespace Tasks

structure State (n : Nat) where
  backend : Backend
  locks : LockTable (Fin n) (UserId × CourseId) := {}
  phase : Fin n → Phase := fun _ => .idle
  order : List (Fin n) := []

variable {n : Nat}

def State.move (s : State n) (i : Fin n) (phase : Phase)
    (locks : LockTable (Fin n) (UserId × CourseId)) (backend : Backend) : State n :=
  { backend, locks, phase := Function.update s.phase i phase,
    order := s.order ++ s.locks.newcomers locks }

theorem State.moveSelf (s : State n) (i : Fin n) (phase : Phase)
    (locks : LockTable (Fin n) (UserId × CourseId)) (backend : Backend) :
    (s.move i phase locks backend).phase i = phase :=
  Function.update_self _ _ _

theorem State.moveOther (s : State n) {i j : Fin n} (other : j ≠ i) (phase : Phase)
    (locks : LockTable (Fin n) (UserId × CourseId)) (backend : Backend) :
    (s.move i phase locks backend).phase j = s.phase j :=
  Function.update_of_ne other _ _

variable (setting : Setting) (tasks : Fin n → Task)

def advance (s : State n) (i : Fin n) : State n :=
  match s.phase i with
  | .idle =>
    s.move i (.begun ((tasks i).script setting.now)) (s.locks.lock i (tasks i).pair) s.backend
  | .begun rest =>
    if i ∈ s.locks.holders (tasks i).pair then
      match rest with
      | .done reply => s.move i (.returned reply) (s.locks.drop i) s.backend
      | .fail e => e.elim
      | .ask op resume =>
        let (outcome,backend) := setting.handler op s.backend
        s.move i (.begun (resume outcome)) s.locks backend
    else s
  | .returned _ => s

def follow (s : State n) (schedule : List (Fin n)) : State n :=
  schedule.foldl (advance setting tasks) s

def run (b : Backend) (schedule : List (Fin n)) : State n :=
  follow setting tasks { backend := b } schedule

def served (b : Backend) (order : List (Fin n)) : Backend :=
  order.foldl (fun b i => ((tasks i).serve setting b).2) b

def replies : Backend → List (Fin n) → List (Fin n × Reply)
  | _,[] => []
  | b,i :: order => (i,((tasks i).serve setting b).1) ::
      replies ((tasks i).serve setting b).2 order

def turnsOf (pair : UserId × CourseId) (order : List (Fin n)) : List (Fin n) :=
  order.filter fun i => (tasks i).pair = pair

structure Fresh (b : Backend) : Prop where
  apart : ∀ i j id, (tasks i).request = .enroll id → (tasks j).request = .enroll id → i = j
  unused : ∀ i, (tasks i).request.Reserved (tasks i).user (tasks i).course b.repository

/- What a task does when it is its turn, said once for all that is proved of it. -/
inductive Advance (s : State n) (i : Fin n) : State n → Prop where
  | asks (idle : s.phase i = .idle) : Advance s i
      (s.move i (.begun ((tasks i).script setting.now)) (s.locks.lock i (tasks i).pair) s.backend)
  | works (op : Operation) (resume : op.Outcome → Script Empty Reply)
      (begun : s.phase i = .begun (.ask op resume))
      (holds : i ∈ s.locks.holders (tasks i).pair) : Advance s i
      (s.move i (.begun (resume (setting.handler op s.backend).1)) s.locks
        (setting.handler op s.backend).2)
  | returns (reply : Reply) (begun : s.phase i = .begun (.done reply))
      (holds : i ∈ s.locks.holders (tasks i).pair) : Advance s i
      (s.move i (.returned reply) (s.locks.drop i) s.backend)
  | stays : Advance s i s

theorem advances (s : State n) (i : Fin n) :
    Advance setting tasks s i (advance setting tasks s i) := by
  cases phase : s.phase i with
  | idle =>
    simp only [advance,phase]
    exact .asks phase
  | returned reply =>
    simp only [advance,phase]
    exact .stays
  | begun rest =>
    by_cases holds : i ∈ s.locks.holders (tasks i).pair
    · cases rest with
      | done reply =>
        simp only [advance,phase,if_pos holds]
        exact .returns reply phase holds
      | fail e => exact e.elim
      | ask op resume =>
        simp only [advance,phase,if_pos holds]
        exact .works op resume phase holds
    · simp only [advance,phase,if_neg holds]
      exact .stays

section Served

variable {setting tasks} {b : Backend}

theorem servedAppend (b : Backend) (first second : List (Fin n)) :
    served setting tasks b (first ++ second) =
      served setting tasks (served setting tasks b first) second :=
  List.foldl_append

theorem repliesAppend (b : Backend) (first second : List (Fin n)) :
    replies setting tasks b (first ++ second) = replies setting tasks b first ++
      replies setting tasks (served setting tasks b first) second := by
  induction first generalizing b with
  | nil => rfl
  | cons i order ih => exact congrArg _ (ih _)

theorem servedReserves (fresh : Fresh tasks b) (order : List (Fin n)) (i : Fin n) :
    (tasks i).request.Reserved (tasks i).user (tasks i).course
      (served setting tasks b order).repository := by
  induction order using List.reverseRecOn with
  | nil => exact fresh.unused i
  | append_singleton order j ih =>
    intro id own
    rw [servedAppend]
    change Repository.Reserved id _ _ ((tasks j).serve setting _).2.repository
    rw [← Task.scriptServes]
    refine finishReserves (Task.scriptWithin _ _) (fun same => ?_) (ih id own)
    cases fresh.apart i j id own same
    exact ⟨rfl,rfl⟩

theorem serveElsewhere (setting : Setting) {i : Fin n} {user : UserId} {course : CourseId}
    (other : (tasks i).pair ≠ (user,course)) (b : Backend) :
    ((tasks i).serve setting b).2.only user course = b.only user course := by
  rw [← Task.scriptServes]
  exact finishElsewhere (Task.scriptWithin _ _) other b

theorem serveAlike (setting : Setting) {i : Fin n} {b c : Backend}
    (reserved : (tasks i).request.Reserved (tasks i).user (tasks i).course b.repository)
    (reservedToo : (tasks i).request.Reserved (tasks i).user (tasks i).course c.repository)
    (alike : b.only (tasks i).user (tasks i).course = c.only (tasks i).user (tasks i).course) :
    ((tasks i).serve setting b).1 = ((tasks i).serve setting c).1 ∧
      ((tasks i).serve setting b).2.only (tasks i).user (tasks i).course =
        ((tasks i).serve setting c).2.only (tasks i).user (tasks i).course := by
  rw [← Task.scriptServes,← Task.scriptServes]
  exact finishAlike setting (Task.scriptWithin _ _) reserved reservedToo alike

theorem servedByPair (fresh : Fresh tasks b) (order : List (Fin n)) (user : UserId)
    (course : CourseId) :
    (served setting tasks b order).only user course =
        (served setting tasks b (turnsOf tasks (user,course) order)).only user course ∧
      (replies setting tasks b order).filter (fun r => (tasks r.1).pair = (user,course)) =
        replies setting tasks b (turnsOf tasks (user,course) order) := by
  induction order using List.reverseRecOn with
  | nil => exact ⟨rfl,rfl⟩
  | append_singleton order i ih =>
    obtain ⟨alike,same⟩ := ih
    rw [servedAppend,repliesAppend,List.filter_append,turnsOf,List.filter_append,← turnsOf,same]
    by_cases own : (tasks i).pair = (user,course)
    · have here : ([i].filter fun j => (tasks j).pair = (user,course)) = [i] := by simp [own]
      obtain ⟨rfl,rfl⟩ := Prod.mk.inj own
      obtain ⟨reply,after⟩ := serveAlike setting (servedReserves fresh order i)
        (servedReserves fresh _ i) alike
      rw [here,servedAppend,repliesAppend]
      refine ⟨after,congrArg _ ?_⟩
      simp [replies,reply,Task.pair]
    · have elsewhere := serveElsewhere setting own (served setting tasks b order)
      have none : ([i].filter fun j => (tasks j).pair = (user,course)) = [] := by simp [own]
      rw [none,List.append_nil]
      refine ⟨elsewhere.trans alike,?_⟩
      simp [replies,own]

end Served

/- A pair's part of the store is what the tasks before left of it. Under a lock it will be what the
holder, too, leaves in its place, once it is through. -/
inductive Agrees (b : Backend) (s : State n) (pair : UserId × CourseId) : Prop where
  | free (none : s.locks.holders pair = [])
      (alike : s.backend.only pair.1 pair.2 =
        (served setting tasks b (turnsOf tasks pair s.order)).only pair.1 pair.2)
  | held (i : Fin n) (rest : Script Empty Reply) (past : List (Fin n))
      (holds : s.locks.holders pair = [i]) (begun : s.phase i = .begun rest)
      (turns : turnsOf tasks pair s.order = past ++ [i])
      (reply : (rest.finish setting.handler s.backend).1 =
        ((tasks i).serve setting (served setting tasks b past)).1)
      (alike : (rest.finish setting.handler s.backend).2.only pair.1 pair.2 =
        ((tasks i).serve setting (served setting tasks b past)).2.only pair.1 pair.2)

structure Sound (b : Backend) (s : State n) : Prop where
  locks : s.locks.Sound
  queue : ∀ pair i, i ∈ s.locks.queue pair ↔
    (tasks i).pair = pair ∧ ∃ rest, s.phase i = .begun rest
  within : ∀ i rest, s.phase i = .begun rest → (tasks i).Within rest
  whole : ∀ i rest, s.phase i = .begun rest → i ∉ s.locks.holders (tasks i).pair →
    rest = (tasks i).script setting.now
  once : s.order.Nodup
  ordered : ∀ i, i ∈ s.order ↔
    (∃ reply, s.phase i = .returned reply) ∨ i ∈ s.locks.holders (tasks i).pair
  reserved : ∀ i, (tasks i).request.Reserved (tasks i).user (tasks i).course s.backend.repository
  returned : ∀ i reply, s.phase i = .returned reply →
    (i,reply) ∈ replies setting tasks b (turnsOf tasks (tasks i).pair s.order)
  agrees : ∀ pair, Agrees setting tasks b s pair

/- A move that is in order for the pair of the task and leaves the other pairs in peace. -/
structure Proper (b : Backend) (s : State n) (i : Fin n) (phase : Phase)
    (locks : LockTable (Fin n) (UserId × CourseId)) (backend : Backend) : Prop where
  table : locks.Sound
  queue : ∀ pair j, j ∈ locks.queue pair ↔ (tasks j).pair = pair ∧
    ∃ rest, (s.move i phase locks backend).phase j = .begun rest
  elsewhere : ∀ pair, (tasks i).pair ≠ pair → locks.queue pair = s.locks.queue pair ∧
    backend.only pair.1 pair.2 = s.backend.only pair.1 pair.2
  underWay : ∀ reply, s.phase i ≠ .returned reply
  stays : ∀ j ∈ s.locks.holders (tasks i).pair,
    j ∈ locks.holders (tasks i).pair ∨ j = i ∧ ∃ reply, phase = .returned reply
  within : ∀ rest, phase = .begun rest → (tasks i).Within rest
  whole : ∀ rest, phase = .begun rest → i ∉ locks.holders (tasks i).pair →
    rest = (tasks i).script setting.now
  replied : ∀ reply, phase = .returned reply → i ∈ s.locks.holders (tasks i).pair ∧
    (i,reply) ∈ replies setting tasks b (turnsOf tasks (tasks i).pair s.order)
  reserved : ∀ j, (tasks j).request.Reserved (tasks j).user (tasks j).course backend.repository
  agrees : Agrees setting tasks b (s.move i phase locks backend) (tasks i).pair

section Sound

variable {setting tasks} {b : Backend} {s : State n} {i : Fin n}

theorem soundStart (fresh : Fresh tasks b) :
    Sound setting tasks b ({ backend := b } : State n) := by
  refine ⟨LockTable.soundEmpty,fun pair i => ?_,fun i rest begun => ?_,fun i rest begun => ?_,
    List.nodup_nil,fun i => ?_,fresh.unused,fun i reply done => ?_,fun pair => .free rfl rfl⟩
  · constructor
    · intro waits
      cases waits
    · rintro ⟨_,_,begun⟩
      cases begun
  · cases begun
  · cases begun
  · constructor
    · intro member
      cases member
    · rintro (⟨_,done⟩ | holds)
      · cases done
      · cases holds
  · cases done

theorem keyedByPair {locks : LockTable (Fin n) (UserId × CourseId)}
    (own : ∀ pair i, i ∈ locks.queue pair → (tasks i).pair = pair) :
    locks.KeyedBy fun i => (tasks i).pair := by
  intro e used
  refine own e.2.key e.1 ?_
  rw [LockTable.queueOn]
  exact LockTable.memOn.mpr ⟨e,used,rfl,rfl⟩

theorem Sound.keyed (sound : Sound setting tasks b s) : s.locks.KeyedBy fun i => (tasks i).pair :=
  keyedByPair fun pair i queued => ((sound.queue pair i).mp queued).1

theorem holderQueued {locks : LockTable (Fin n) (UserId × CourseId)} {pair : UserId × CourseId}
    (holds : i ∈ locks.holders pair) : i ∈ locks.queue pair :=
  List.mem_append_left _ holds

theorem Sound.holderOwn (sound : Sound setting tasks b s) {pair : UserId × CourseId}
    (holds : i ∈ s.locks.holders pair) : (tasks i).pair = pair :=
  ((sound.queue pair i).mp (holderQueued holds)).1

theorem Sound.agreesStill (sound : Sound setting tasks b s) {after : State n}
    {pair : UserId × CourseId}
    (reserved : ∀ i, (tasks i).request.Reserved (tasks i).user (tasks i).course
      after.backend.repository)
    (holders : after.locks.holders pair = s.locks.holders pair)
    (turns : turnsOf tasks pair after.order = turnsOf tasks pair s.order)
    (phase : ∀ i ∈ s.locks.holders pair, after.phase i = s.phase i)
    (alike : after.backend.only pair.1 pair.2 = s.backend.only pair.1 pair.2) :
    Agrees setting tasks b after pair := by
  cases sound.agrees pair with
  | free none same =>
    refine .free (holders.trans none) ?_
    rw [alike,turns]
    exact same
  | held i rest past holds begun order reply same =>
    have holder : i ∈ s.locks.holders pair := by rw [holds]; exact List.mem_singleton_self i
    cases sound.holderOwn holder
    obtain ⟨replies,leaves⟩ := finishAlike setting (sound.within i rest begun)
      (reserved i) (sound.reserved i) alike
    exact .held i rest past (holders.trans holds) ((phase i holder).trans begun) (turns.trans order)
      (replies.trans reply) (leaves.trans same)

theorem agreesNext (fresh : Fresh tasks b) {after : State n} (past : List (Fin n))
    {pair : UserId × CourseId} (own : (tasks i).pair = pair)
    (reserved : (tasks i).request.Reserved (tasks i).user (tasks i).course after.backend.repository)
    (holds : after.locks.holders pair = [i])
    (begun : after.phase i = .begun ((tasks i).script setting.now))
    (turns : turnsOf tasks pair after.order = past ++ [i])
    (alike : after.backend.only pair.1 pair.2 =
      (served setting tasks b past).only pair.1 pair.2) :
    Agrees setting tasks b after pair := by
  subst own
  obtain ⟨reply,leaves⟩ := serveAlike setting reserved
    (servedReserves fresh past i) alike
  refine .held i _ past holds begun turns ?_ ?_
  · rw [Task.scriptServes]
    exact reply
  · rw [Task.scriptServes]
    exact leaves

theorem turnsMoved {phase : Phase} {locks : LockTable (Fin n) (UserId × CourseId)}
    {backend : Backend} (keyed : s.locks.KeyedBy fun i => (tasks i).pair)
    (keyedAfter : locks.KeyedBy fun i => (tasks i).pair) (pair : UserId × CourseId) :
    turnsOf tasks pair (s.move i phase locks backend).order =
      turnsOf tasks pair s.order ++ LockTable.newHolders pair s.locks locks := by
  rw [State.move,turnsOf,List.filter_append]
  exact congrArg _ (LockTable.newcomersOn keyed keyedAfter pair)

end Sound

section Move

variable {setting tasks} {b : Backend} {s : State n} {i : Fin n} {phase : Phase}
  {locks : LockTable (Fin n) (UserId × CourseId)} {backend : Backend}

theorem Proper.keyed (proper : Proper setting tasks b s i phase locks backend) :
    locks.KeyedBy fun i => (tasks i).pair :=
  keyedByPair fun pair j queued => ((proper.queue pair j).mp queued).1

theorem Proper.holders (proper : Proper setting tasks b s i phase locks backend)
    (sound : Sound setting tasks b s) {pair : UserId × CourseId} (other : (tasks i).pair ≠ pair) :
    locks.holders pair = s.locks.holders pair := by
  rw [proper.table.first,sound.locks.first,(proper.elsewhere pair other).1]

theorem Proper.holds (proper : Proper setting tasks b s i phase locks backend)
    (sound : Sound setting tasks b s) {j : Fin n} (holder : j ∈ s.locks.holders (tasks j).pair) :
    j ∈ locks.holders (tasks j).pair ∨ j = i ∧ ∃ reply, phase = .returned reply := by
  by_cases own : (tasks i).pair = (tasks j).pair
  · rw [← own] at holder ⊢
    exact proper.stays j holder
  · rw [proper.holders sound own]
    exact .inl holder

theorem Proper.once (proper : Proper setting tasks b s i phase locks backend)
    (sound : Sound setting tasks b s) : (s.move i phase locks backend).order.Nodup := by
  refine List.nodup_append.mpr ⟨sound.once,LockTable.newcomersOnce proper.table,?_⟩
  rintro j old _ new rfl
  obtain ⟨holds,held⟩ := (LockTable.newcomer sound.keyed proper.keyed).mp new
  obtain ⟨_,rest,begun⟩ := (proper.queue _ j).mp (holderQueued holds)
  rcases (sound.ordered j).mp old with ⟨reply,returned⟩ | holder
  · have other : j ≠ i := by
      rintro rfl
      exact proper.underWay reply returned
    rw [State.moveOther _ other] at begun
    cases returned.symm.trans begun
  · exact held holder

theorem Proper.ordered (proper : Proper setting tasks b s i phase locks backend)
    (sound : Sound setting tasks b s) (j : Fin n) : j ∈ (s.move i phase locks backend).order ↔
      (∃ reply, (s.move i phase locks backend).phase j = .returned reply) ∨
        j ∈ locks.holders (tasks j).pair := by
  have new : j ∈ s.locks.newcomers locks ↔
      j ∈ locks.holders (tasks j).pair ∧ j ∉ s.locks.holders (tasks j).pair :=
    LockTable.newcomer sound.keyed proper.keyed
  rw [State.move,List.mem_append,new]
  constructor
  · rintro (old | ⟨holds,_⟩)
    · rcases (sound.ordered j).mp old with ⟨reply,returned⟩ | holder
      · have other : j ≠ i := by
          rintro rfl
          exact proper.underWay reply returned
        exact .inl ⟨reply,(s.moveOther other phase locks backend).trans returned⟩
      · rcases proper.holds sound holder with holds | ⟨rfl,reply,returned⟩
        · exact .inr holds
        · exact .inl ⟨reply,(s.moveSelf j phase locks backend).trans returned⟩
    · exact .inr holds
  · rintro (⟨reply,returned⟩ | holds)
    · refine .inl ((sound.ordered j).mpr ?_)
      by_cases same : j = i
      · subst same
        exact .inr (proper.replied reply
          ((s.moveSelf j phase locks backend).symm.trans returned)).1
      · exact .inl ⟨reply,(s.moveOther same phase locks backend).symm.trans returned⟩
    · by_cases holder : j ∈ s.locks.holders (tasks j).pair
      · exact .inl ((sound.ordered j).mpr (.inr holder))
      · exact .inr ⟨holds,holder⟩

theorem Proper.sound (proper : Proper setting tasks b s i phase locks backend)
    (sound : Sound setting tasks b s) : Sound setting tasks b (s.move i phase locks backend) := by
  refine ⟨proper.table,proper.queue,?_,?_,proper.once sound,proper.ordered sound,proper.reserved,
    ?_,?_⟩
  · intro j rest begun
    by_cases same : j = i
    · subst same
      exact proper.within rest ((s.moveSelf j phase locks backend).symm.trans begun)
    · exact sound.within j rest ((s.moveOther same phase locks backend).symm.trans begun)
  · intro j rest begun waits
    by_cases same : j = i
    · subst same
      exact proper.whole rest ((s.moveSelf j phase locks backend).symm.trans begun) waits
    · refine sound.whole j rest ((s.moveOther same phase locks backend).symm.trans begun) ?_
      intro holder
      rcases proper.holds sound holder with holds | ⟨self,_⟩
      · exact waits holds
      · exact same self
  · intro j reply done
    rw [turnsMoved sound.keyed proper.keyed,repliesAppend]
    refine List.mem_append_left _ ?_
    by_cases same : j = i
    · subst same
      exact (proper.replied reply ((s.moveSelf j phase locks backend).symm.trans done)).2
    · exact sound.returned j reply ((s.moveOther same phase locks backend).symm.trans done)
  · intro pair
    by_cases own : (tasks i).pair = pair
    · subst own
      exact proper.agrees
    · have holders := proper.holders sound own
      refine sound.agreesStill proper.reserved holders ?_ ?_ (proper.elsewhere pair own).2
      · rw [turnsMoved sound.keyed proper.keyed,LockTable.noneNew holders,List.append_nil]
      · intro j holder
        refine s.moveOther ?_ phase locks backend
        rintro rfl
        exact own (sound.holderOwn holder)

end Move

section Moves

variable {setting tasks} {b : Backend} {s : State n} {i : Fin n}

theorem Sound.notIdle (sound : Sound setting tasks b s) {pair : UserId × CourseId}
    (queued : i ∈ s.locks.queue pair) : s.phase i ≠ .idle := by
  intro idle
  obtain ⟨_,rest,begun⟩ := (sound.queue pair i).mp queued
  cases idle.symm.trans begun

section Asking

variable (sound : Sound setting tasks b s) (idle : s.phase i = .idle)

include sound idle

theorem Sound.asked : (s.locks.lock i (tasks i).pair).Sound ∧
    ∀ pair, (s.locks.lock i (tasks i).pair).queue pair =
      s.locks.queue pair ++ if (tasks i).pair = pair then [i] else [] := by
  refine LockTable.locked sound.locks ?_
  rintro e used rfl
  have queued : e.1 ∈ s.locks.queue e.2.key := by
    rw [LockTable.queueOn]
    exact LockTable.memOn.mpr ⟨e,used,rfl,rfl⟩
  exact sound.notIdle queued idle

theorem Sound.queuedAsking (pair : UserId × CourseId) (j : Fin n) :
    j ∈ (s.locks.lock i (tasks i).pair).queue pair ↔ (tasks j).pair = pair ∧
      ∃ rest, (s.move i (.begun ((tasks i).script setting.now)) (s.locks.lock i (tasks i).pair)
        s.backend).phase j = .begun rest := by
  rw [(sound.asked idle).2,List.mem_append]
  by_cases same : j = i
  · subst same
    rw [State.moveSelf]
    have absent : j ∉ s.locks.queue pair := fun queued => sound.notIdle queued idle
    by_cases own : (tasks j).pair = pair
    · simp [own]
    · simp [own,absent]
  · rw [State.moveOther _ same,← sound.queue]
    split <;> simp [same]

theorem Sound.agreesAsking (fresh : Fresh tasks b) : Agrees setting tasks b
    (s.move i (.begun ((tasks i).script setting.now)) (s.locks.lock i (tasks i).pair) s.backend)
    (tasks i).pair := by
  obtain ⟨table,queues⟩ := sound.asked idle
  have keyed := keyedByPair fun pair j queued => ((sound.queuedAsking idle pair j).mp queued).1
  have own : (s.locks.lock i (tasks i).pair).queue (tasks i).pair =
      s.locks.queue (tasks i).pair ++ [i] := by rw [queues,if_pos rfl]
  cases ahead : s.locks.queue (tasks i).pair with
  | nil =>
    have none : s.locks.holders (tasks i).pair = [] := by
      rw [sound.locks.first,ahead]
      rfl
    have holds : (s.locks.lock i (tasks i).pair).holders (tasks i).pair = [i] := by
      rw [table.first,own,ahead]
      rfl
    refine agreesNext fresh (turnsOf tasks (tasks i).pair s.order) rfl (sound.reserved i) holds
      (State.moveSelf _ _ _ _ _) ?_ ?_
    · rw [turnsMoved sound.keyed keyed,LockTable.newHolders,holds,none]
      rfl
    · cases sound.agrees (tasks i).pair with
      | free _ alike => exact alike
      | held j rest past holds => cases none.symm.trans holds
  | cons first others =>
    have holders : (s.locks.lock i (tasks i).pair).holders (tasks i).pair =
        s.locks.holders (tasks i).pair := by
      rw [table.first,sound.locks.first,own,ahead]
      rfl
    refine sound.agreesStill sound.reserved holders ?_ ?_ rfl
    · rw [turnsMoved sound.keyed keyed,LockTable.noneNew holders,List.append_nil]
    · intro j holder
      refine State.moveOther _ ?_ _ _ _
      rintro rfl
      exact sound.notIdle (holderQueued holder) idle

theorem Sound.asks (fresh : Fresh tasks b) :
    Proper setting tasks b s i (.begun ((tasks i).script setting.now))
      (s.locks.lock i (tasks i).pair) s.backend := by
  obtain ⟨table,queues⟩ := sound.asked idle
  refine ⟨table,sound.queuedAsking idle,fun pair other => ⟨?_,rfl⟩,fun reply done => ?_,
    fun j holder => .inl ?_,fun rest begun => ?_,fun rest begun _ => ?_,fun reply done => ?_,
    sound.reserved,sound.agreesAsking idle fresh⟩
  · rw [queues,if_neg other,List.append_nil]
  · cases idle.symm.trans done
  · rw [sound.locks.first] at holder
    rw [table.first,queues,List.take_append]
    exact List.mem_append_left _ holder
  · cases begun
    exact Task.scriptWithin _ _
  · cases begun
    rfl
  · cases done

end Asking

theorem Sound.works (sound : Sound setting tasks b s) (fresh : Fresh tasks b) {op : Operation}
    {resume : op.Outcome → Script Empty Reply} (begun : s.phase i = .begun (.ask op resume))
    (holds : i ∈ s.locks.holders (tasks i).pair) :
    Proper setting tasks b s i (.begun (resume (setting.handler op s.backend).1)) s.locks
      (setting.handler op s.backend).2 := by
  have within := sound.within i _ begun
  have sole := (sound.locks.holderFirst holds).1
  refine ⟨sound.locks,fun pair j => ?_,fun pair other => ⟨rfl,?_⟩,fun reply done => ?_,
    fun j holder => .inl holder,?_,?_,fun reply done => ?_,fun j id own => ?_,?_⟩
  · rw [sound.queue]
    by_cases same : j = i
    · subst same
      simp [State.moveSelf,begun]
    · rw [State.moveOther _ same]
  · exact Setting.handledElsewhere within.1 other s.backend
  · cases begun.symm.trans done
  · intro rest same
    cases same
    exact within.2 _ (setting.answered op s.backend)
  · intro rest _ waits
    exact absurd holds waits
  · cases done
  · refine Setting.handledReserves within.1 (fun same => ?_) (sound.reserved j id own)
    cases fresh.apart j i id own same
    exact ⟨rfl,rfl⟩
  · cases sound.agrees (tasks i).pair with
    | free none => cases none.symm.trans sole
    | held j rest past holder started order reply alike =>
      cases List.singleton_inj.mp (holder.symm.trans sole)
      cases Phase.begun.inj (begun.symm.trans started)
      refine .held i _ past sole (State.moveSelf _ _ _ _ _) ?_ reply alike
      rw [turnsMoved sound.keyed sound.keyed,LockTable.noneNew rfl,List.append_nil]
      exact order

theorem Sound.concluded (sound : Sound setting tasks b s) {reply : Reply}
    (begun : s.phase i = .begun (.done reply)) (holds : i ∈ s.locks.holders (tasks i).pair) :
    (i,reply) ∈ replies setting tasks b (turnsOf tasks (tasks i).pair s.order) ∧
      s.backend.only (tasks i).user (tasks i).course =
        (served setting tasks b (turnsOf tasks (tasks i).pair s.order)).only (tasks i).user
          (tasks i).course := by
  have sole := (sound.locks.holderFirst holds).1
  cases sound.agrees (tasks i).pair with
  | free none => cases none.symm.trans sole
  | held j rest past holder started order reply alike =>
    cases List.singleton_inj.mp (holder.symm.trans sole)
    cases Phase.begun.inj (begun.symm.trans started)
    rw [order,repliesAppend,servedAppend]
    refine ⟨List.mem_append_right _ ?_,alike⟩
    exact List.mem_singleton.mpr (congrArg (Prod.mk i) reply)

theorem Sound.queuedReturning (sound : Sound setting tasks b s) (i : Fin n) (reply : Reply)
    (pair : UserId × CourseId) (j : Fin n) :
    j ∈ (s.locks.drop i).queue pair ↔ (tasks j).pair = pair ∧
      ∃ rest, (s.move i (.returned reply) (s.locks.drop i) s.backend).phase j = .begun rest := by
  rw [(LockTable.dropped sound.locks i).2,List.mem_filter]
  by_cases same : j = i
  · subst same
    simp [State.moveSelf]
  · rw [State.moveOther _ same,← sound.queue]
    simp [same]

section Returning

variable (sound : Sound setting tasks b s) {reply : Reply}
  (begun : s.phase i = .begun (.done reply)) (holds : i ∈ s.locks.holders (tasks i).pair)

include sound begun holds

theorem Sound.agreesReturning (fresh : Fresh tasks b) : Agrees setting tasks b
    (s.move i (.returned reply) (s.locks.drop i) s.backend) (tasks i).pair := by
  obtain ⟨sole,others,ahead,absent⟩ := sound.locks.holderFirst holds
  obtain ⟨table,queues⟩ := LockTable.dropped sound.locks i
  have left := (sound.concluded begun holds).2
  have keyed := keyedByPair fun pair j queued =>
    ((sound.queuedReturning i reply pair j).mp queued).1
  have behind : (s.locks.drop i).queue (tasks i).pair = others := by
    rw [queues,ahead,List.filter_cons_of_neg (by simp),List.filter_eq_self]
    exact fun j member => by simpa using ne_of_mem_of_not_mem member absent
  have turns : turnsOf tasks (tasks i).pair
      (s.move i (.returned reply) (s.locks.drop i) s.backend).order =
        turnsOf tasks (tasks i).pair s.order ++ others.take 1 := by
    rw [turnsMoved sound.keyed keyed,LockTable.newHolders,table.first,behind,sole]
    refine congrArg _ (List.filter_eq_self.mpr fun j member => ?_)
    simpa using ne_of_mem_of_not_mem (List.mem_of_mem_take member) absent
  cases others with
  | nil =>
    refine .free ((table.first _).trans ?_) ?_
    · rw [behind]
      rfl
    · rw [turns,List.take_nil,List.append_nil]
      exact left
  | cons j others =>
    have queued : j ∈ s.locks.queue (tasks i).pair := by
      rw [ahead]
      exact List.mem_cons_of_mem _ List.mem_cons_self
    obtain ⟨own,rest,started⟩ := (sound.queue _ j).mp queued
    have different : j ≠ i := ne_of_mem_of_not_mem List.mem_cons_self absent
    have waits : j ∉ s.locks.holders (tasks j).pair := by
      rw [own,sole]
      simpa using different
    cases sound.whole j rest started waits
    refine agreesNext fresh _ own (sound.reserved j) ?_ ?_ turns left
    · exact (table.first _).trans (by rw [behind]; rfl)
    · exact (State.moveOther _ different _ _ _).trans started

theorem Sound.returns (fresh : Fresh tasks b) :
    Proper setting tasks b s i (.returned reply) (s.locks.drop i) s.backend := by
  have sole := (sound.locks.holderFirst holds).1
  obtain ⟨table,queues⟩ := LockTable.dropped sound.locks i
  refine ⟨table,sound.queuedReturning i reply,fun pair other => ⟨?_,rfl⟩,fun reply done => ?_,
    fun j holder => .inr ?_,fun rest started => ?_,fun rest started => ?_,fun other done => ?_,
    sound.reserved,sound.agreesReturning begun holds fresh⟩
  · rw [queues,List.filter_eq_self]
    intro j queued
    have different : j ≠ i := by
      rintro rfl
      exact other ((sound.queue pair j).mp queued).1
    simpa using different
  · cases begun.symm.trans done
  · rw [sole] at holder
    exact ⟨List.mem_singleton.mp holder,reply,rfl⟩
  · cases started
  · cases started
  · cases done
    exact ⟨holds,(sound.concluded begun holds).1⟩

end Returning

theorem Sound.advanced (sound : Sound setting tasks b s) (fresh : Fresh tasks b) (i : Fin n) :
    Sound setting tasks b (advance setting tasks s i) := by
  have moved := advances setting tasks s i
  generalize advance setting tasks s i = after at moved ⊢
  cases moved with
  | asks idle => exact (sound.asks idle fresh).sound sound
  | works op resume begun holds => exact (sound.works fresh begun holds).sound sound
  | returns reply begun holds => exact (sound.returns begun holds fresh).sound sound
  | stays => exact sound

theorem Sound.followed (sound : Sound setting tasks b s) (fresh : Fresh tasks b)
    (schedule : List (Fin n)) : Sound setting tasks b (follow setting tasks s schedule) := by
  induction schedule generalizing s with
  | nil => exact sound
  | cons i schedule ih => exact ih (sound.advanced fresh i)

theorem Sound.keeps (sound : Sound setting tasks b s) (fresh : Fresh tasks b) {j : Fin n}
    (holds : i ∈ s.locks.holders (tasks i).pair) (other : j ≠ i) :
    i ∈ (advance setting tasks s j).locks.holders (tasks i).pair := by
  have kept : ∀ {phase locks backend}, Proper setting tasks b s j phase locks backend →
      i ∈ locks.holders (tasks i).pair := by
    intro phase locks backend proper
    rcases proper.holds sound holds with still | ⟨same,_⟩
    · exact still
    · exact absurd same.symm other
  have moved := advances setting tasks s j
  generalize advance setting tasks s j = after at moved ⊢
  cases moved with
  | asks idle => exact kept (sound.asks idle fresh)
  | works op resume begun holder => exact kept (sound.works fresh begun holder)
  | returns reply begun holder => exact kept (sound.returns begun holder fresh)
  | stays => exact holds

theorem Sound.apart (sound : Sound setting tasks b s) {j : Fin n}
    (holds : i ∈ s.locks.holders (tasks i).pair) (other : j ≠ i) :
    (advance setting tasks s j).backend.only (tasks i).user (tasks i).course =
      s.backend.only (tasks i).user (tasks i).course := by
  have moved := advances setting tasks s j
  generalize advance setting tasks s j = after at moved ⊢
  cases moved with
  | asks idle => rfl
  | returns reply begun holder => rfl
  | stays => rfl
  | works op resume begun holder =>
    refine Setting.handledElsewhere (sound.within j _ begun).1 (fun own => ?_) s.backend
    have same : (tasks j).pair = (tasks i).pair := own
    rw [same,(sound.locks.holderFirst holds).1] at holder
    exact other (List.mem_singleton.mp holder)

theorem Sound.undisturbed (sound : Sound setting tasks b s) (fresh : Fresh tasks b)
    (holds : i ∈ s.locks.holders (tasks i).pair) {others : List (Fin n)} (absent : i ∉ others) :
    (follow setting tasks s others).backend.only (tasks i).user (tasks i).course =
      s.backend.only (tasks i).user (tasks i).course := by
  induction others generalizing s with
  | nil => rfl
  | cons j others ih =>
    have other : j ≠ i := fun same => absent (by simp [same])
    have rest : i ∉ others := fun member => absent (List.mem_cons_of_mem j member)
    exact (ih (sound.advanced fresh j) (sound.keeps fresh holds other) rest).trans
      (sound.apart holds other)

end Moves

section Progress

variable {setting tasks} {b : Backend} {s : State n} {i : Fin n}

def State.Through (s : State n) (i : Fin n) : Prop := ∃ reply, s.phase i = .returned reply

theorem throughOnce (through : s.Through i) (j : Fin n) :
    (advance setting tasks s j).Through i := by
  obtain ⟨reply,returned⟩ := through
  have moved := advances setting tasks s j
  generalize advance setting tasks s j = after at moved ⊢
  have still : s.phase j ≠ s.phase i → ∀ phase locks backend,
      (s.move j phase locks backend).Through i := by
    intro different phase locks backend
    have other : i ≠ j := by
      rintro rfl
      exact different rfl
    exact ⟨reply,(s.moveOther other phase locks backend).trans returned⟩
  cases moved with
  | asks idle => exact still (by simp [idle,returned]) _ _ _
  | works op resume begun holds => exact still (by simp [begun,returned]) _ _ _
  | returns other begun holds => exact still (by simp [begun,returned]) _ _ _
  | stays => exact ⟨reply,returned⟩

theorem throughLater (through : s.Through i) (schedule : List (Fin n)) :
    (follow setting tasks s schedule).Through i := by
  induction schedule generalizing s with
  | nil => exact through
  | cons j schedule ih => exact ih (throughOnce through j)

theorem holderGetsThrough (setting : Setting) {rest : Script Empty Reply} (begun : s.phase i = .begun rest)
    (holds : i ∈ s.locks.holders (tasks i).pair) :
    ∃ more, (follow setting tasks s more).Through i := by
  induction rest generalizing s with
  | done reply =>
    refine ⟨[i],reply,?_⟩
    simp only [follow,List.foldl_cons,List.foldl_nil,advance,begun,if_pos holds]
    exact s.moveSelf i _ _ _
  | fail e => exact e.elim
  | ask op resume ih =>
    obtain ⟨more,through⟩ := ih (setting.handler op s.backend).1
      (s.moveSelf i _ s.locks (setting.handler op s.backend).2) holds
    refine ⟨i :: more,?_⟩
    simp only [follow,List.foldl_cons,advance,begun,if_pos holds]
    exact through

theorem Sound.someoneGetsThrough (sound : Sound setting tasks b s) (fresh : Fresh tasks b)
    (waiting : ¬s.Through i) :
    ∃ j more, ¬s.Through j ∧ (follow setting tasks s more).Through j := by
  have fromBegun : ∀ {s : State n}, Sound setting tasks b s → ∀ {rest}, s.phase i = .begun rest →
      ∃ j more, ¬s.Through j ∧ (follow setting tasks s more).Through j := by
    intro s sound rest begun
    have queued : i ∈ s.locks.queue (tasks i).pair := (sound.queue _ i).mpr ⟨rfl,rest,begun⟩
    obtain ⟨j,others,ahead⟩ := List.exists_cons_of_ne_nil (List.ne_nil_of_mem queued)
    have holds : j ∈ s.locks.holders (tasks i).pair := by
      rw [sound.locks.first,ahead]
      exact List.mem_singleton_self j
    obtain ⟨own,last,started⟩ := (sound.queue _ j).mp (holderQueued holds)
    obtain ⟨more,through⟩ := holderGetsThrough setting started (own ▸ holds)
    refine ⟨j,more,?_,through⟩
    rintro ⟨reply,returned⟩
    cases started.symm.trans returned
  cases phase : s.phase i with
  | returned reply => exact absurd ⟨reply,phase⟩ waiting
  | begun rest => exact fromBegun sound phase
  | idle =>
    have asked : (advance setting tasks s i).phase i = .begun ((tasks i).script setting.now) := by
      simp only [advance,phase]
      exact s.moveSelf i _ _ _
    obtain ⟨j,more,held,through⟩ := fromBegun (sound.advanced fresh i) asked
    exact ⟨j,i :: more,fun before => held (throughOnce before i),through⟩

theorem Sound.allGetThrough (sound : Sound setting tasks b s) (fresh : Fresh tasks b) :
    ∃ more, ∀ i, (follow setting tasks s more).Through i := by
  classical
  induction waiting : (Finset.univ.filter fun i => ¬s.Through i).card using Nat.strongRecOn
    generalizing s with
  | ind count ih =>
    by_cases all : ∀ i, s.Through i
    · exact ⟨[],all⟩
    · obtain ⟨i,stuck⟩ := not_forall.mp all
      obtain ⟨j,first,before,through⟩ := sound.someoneGetsThrough fresh stuck
      have fewer : (Finset.univ.filter fun i =>
          ¬(follow setting tasks s first).Through i).card < count := by
        rw [← waiting]
        refine Finset.card_lt_card ⟨fun i member => ?_,fun sub => ?_⟩
        · have still := (Finset.mem_filter.mp member).2
          exact Finset.mem_filter.mpr ⟨Finset.mem_univ i,fun old => still (throughLater old first)⟩
        · have gone := sub (Finset.mem_filter.mpr ⟨Finset.mem_univ j,before⟩)
          exact (Finset.mem_filter.mp gone).2 through
      obtain ⟨more,done⟩ := ih _ fewer (sound.followed fresh first) rfl
      refine ⟨first ++ more,fun i => ?_⟩
      rw [follow,List.foldl_append]
      exact done i

end Progress

structure Serial (b : Backend) (s : State n) : Prop where
  once : s.order.Nodup
  replies : ∀ i reply, s.phase i = .returned reply → (i,reply) ∈ replies setting tasks b s.order
  stored : ∀ user course, s.locks.holders (user,course) = [] →
    s.backend.repository.stored user course =
      (served setting tasks b s.order).repository.stored user course
  undisturbed : ∀ i ∈ s.locks.holders (tasks i).pair, ∀ others, i ∉ others →
    (follow setting tasks s others).backend.repository.stored (tasks i).user (tasks i).course =
      s.backend.repository.stored (tasks i).user (tasks i).course
  finished : (∀ i, s.Through i) → s.order.Perm (List.finRange n) ∧
    ∀ user course, s.backend.repository.stored user course =
      (served setting tasks b s.order).repository.stored user course
  finishes : ∃ more, ∀ i, (follow setting tasks s more).Through i

/-- However the tasks take turns, each that has returned replied what it replies when they are
served one after the other in the order in which they got their locks, and what is stored for a pair
is what they leave then. -/
theorem tasksAreSerial {setting : Setting} {tasks : Fin n → Task} {b : Backend}
    (fresh : Fresh tasks b) (schedule : List (Fin n)) :
    Serial setting tasks b (run setting tasks b schedule) := by
  have sound : Sound setting tasks b (run setting tasks b schedule) :=
    (soundStart fresh).followed fresh schedule
  generalize run setting tasks b schedule = s at sound ⊢
  have stored : ∀ user course, s.locks.holders (user,course) = [] →
      s.backend.repository.stored user course =
        (served setting tasks b s.order).repository.stored user course := by
    intro user course none
    refine Backend.storedAlike ?_
    rw [(servedByPair fresh s.order user course).1]
    cases sound.agrees (user,course) with
    | free _ alike => exact alike
    | held i rest past holds => cases none.symm.trans holds
  refine ⟨sound.once,fun i reply returned => ?_,stored,fun i holds others absent => ?_,
    fun all => ?_,sound.allGetThrough fresh⟩
  · have own := sound.returned i reply returned
    rw [Task.pair,← (servedByPair fresh s.order (tasks i).user (tasks i).course).2] at own
    exact List.mem_of_mem_filter own
  · exact Backend.storedAlike (sound.undisturbed fresh holds absent)
  · refine ⟨?_,fun user course => stored user course ?_⟩
    · refine (List.perm_ext_iff_of_nodup sound.once (List.nodup_finRange n)).mpr fun i => ?_
      simp only [List.mem_finRange,iff_true]
      exact (sound.ordered i).mpr (.inl (all i))
    · refine List.eq_nil_iff_forall_not_mem.mpr fun i holds => ?_
      obtain ⟨_,rest,begun⟩ := (sound.queue _ i).mp (holderQueued holds)
      obtain ⟨reply,returned⟩ := all i
      cases begun.symm.trans returned

namespace Sample

open Coursework.Sample

def calls : Fin 3 → Task
  | 0 => ⟨user,course,enrolling⟩
  | 1 => ⟨user,course,answering⟩
  | 2 => ⟨⟨.ofNat 9⟩,course,.enroll (.ofNat 10)⟩

def schedule : List (Fin 3) := [0,1,2,1,0,2,1,0,2,2,0,1,0,1,2,1,1,1]

def ended : State 3 := run Coursework.Sample.setting calls opened schedule

theorem fresh : Fresh calls opened := by
  refine ⟨fun i j id first second => ?_,fun _ _ _ => trivial⟩
  match i,j with
  | 0,0 => rfl
  | 2,2 => rfl
  | 0,2 =>
    cases first
    cases second
  | 2,0 =>
    cases first
    cases second
  | 1,_ => cases first
  | 0,1 => cases second
  | 2,1 => cases second

end Sample

theorem sampleTasksAreSerial :
    Fresh Sample.calls Coursework.Sample.opened ∧
      Serial Coursework.Sample.setting Sample.calls Coursework.Sample.opened
        Sample.ended ∧
      Sample.ended.order = [0,2,1] ∧ ∀ i, Sample.ended.Through i := by
  have all : ∀ i, (match Sample.ended.phase i with
      | .returned _ => true
      | _ => false) = true := by decide +kernel
  refine ⟨Sample.fresh,tasksAreSerial Sample.fresh _,by decide +kernel,fun i => ?_⟩
  have done := all i
  split at done
  · rename_i reply returned
    exact ⟨reply,returned⟩
  · cases done

end Tasks

end Coursework
