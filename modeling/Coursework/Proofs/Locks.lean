import Coursework.Lock
import Mathlib.Data.List.Dedup
import Mathlib.Data.List.Induction
import Mathlib.Data.List.Perm.Subperm

/-! Locks over a whole run of the table. For each key there is one queue of those who asked and did
not drop out; its first holds the lock and the others wait. What is proved of slots, which may come
and go, is that nobody refers to a slot that the table has lost or has twice. -/
namespace Coursework

inductive LockStep (Name Key : Type) where
  | lock (name : Name) (key : Key)
  | drop (name : Name)
  deriving DecidableEq, Repr

namespace LockTable

variable {Name Key : Type}

def entries (t : LockTable Name Key) : List (Name × Slot Key) := t.held ++ t.waiting

def NamesApart (entries : List (Name × Slot Key)) : Prop := (entries.map (·.1)).Nodup

def SlotsAgree (entries : List (Name × Slot Key)) : Prop :=
  ∀ a ∈ entries, ∀ b ∈ entries, a.2.key = b.2.key → a.2 = b.2

theorem SlotsAgree.mono {few many : List (Name × Slot Key)} (agree : SlotsAgree many)
    (within : ∀ e ∈ few, e ∈ many) : SlotsAgree few :=
  fun a first b second => agree a (within a first) b (within b second)

theorem slotsAgree {t : LockTable Name Key} (oneEach : (t.slots.map (·.key)).Nodup)
    (listed : ∀ e ∈ t.entries, e.2 ∈ t.slots) : SlotsAgree t.entries :=
  fun a first b second => List.inj_on_of_nodup_map oneEach (listed a first) (listed b second)

theorem headFresh {held waiting : List (Name × Slot Key)} {w : Name × Slot Key}
    (apart : NamesApart (held ++ w :: waiting)) : ∀ e ∈ held, e.1 ≠ w.1 := by
  intro e member same
  rw [NamesApart,List.map_append,List.nodup_append] at apart
  exact apart.2.2 e.1 (List.mem_map_of_mem member) w.1 (by simp) same

theorem apartPassed {held waiting : List (Name × Slot Key)} {w : Name × Slot Key}
    (apart : NamesApart (held ++ w :: waiting)) : NamesApart (held ++ waiting) :=
  apart.sublist (((List.sublist_cons_self w waiting).append_left held).map _)

variable [DecidableEq Key]

def on (key : Key) (entries : List (Name × Slot Key)) : List Name :=
  (entries.filter (·.2.key == key)).map (·.1)

def holders (t : LockTable Name Key) (key : Key) : List Name := on key t.held

def waiters (t : LockTable Name Key) (key : Key) : List Name := on key t.waiting

def queue (t : LockTable Name Key) (key : Key) : List Name := t.holders key ++ t.waiters key

def keysInUse (t : LockTable Name Key) : List Key := (t.entries.map (·.2.key)).dedup

@[simp] theorem onNil (key : Key) : on key ([] : List (Name × Slot Key)) = [] := rfl

theorem onAppend (key : Key) (first second : List (Name × Slot Key)) :
    on key (first ++ second) = on key first ++ on key second := by
  simp [on]

theorem onHere {key : Key} {e : Name × Slot Key} (here : e.2.key = key)
    (rest : List (Name × Slot Key)) : on key (e :: rest) = e.1 :: on key rest := by
  simp [on,here]

theorem onElsewhere {key : Key} {e : Name × Slot Key} (other : e.2.key ≠ key)
    (rest : List (Name × Slot Key)) : on key (e :: rest) = on key rest := by
  simp [on,other]

theorem memOn {key : Key} {name : Name} {entries : List (Name × Slot Key)} :
    name ∈ on key entries ↔ ∃ e ∈ entries, e.2.key = key ∧ e.1 = name := by
  simp [on,and_assoc]

theorem queueOn (t : LockTable Name Key) (key : Key) : t.queue key = on key t.entries :=
  (onAppend key t.held t.waiting).symm

theorem takenIff {held passed waiting : List (Name × Slot Key)} {w : Name × Slot Key}
    (agree : SlotsAgree (held ++ passed ++ w :: waiting)) :
    (held.any (·.2 == w.2) || passed.any (·.2 == w.2)) = true ↔
      on w.2.key held ++ on w.2.key passed ≠ [] := by
  rw [← onAppend,← List.any_append,List.any_eq_true]
  constructor
  · rintro ⟨e,member,same⟩
    have here : e.1 ∈ on w.2.key (held ++ passed) :=
      memOn.mpr ⟨e,member,congrArg Slot.key (by simpa using same),rfl⟩
    exact List.ne_nil_of_mem here
  · intro some
    obtain ⟨name,member⟩ := List.exists_mem_of_ne_nil _ some
    obtain ⟨e,inside,key,_⟩ := memOn.mp member
    refine ⟨e,inside,?_⟩
    simpa using agree e (List.mem_append_left _ inside) w (by simp) key

structure Sound (t : LockTable Name Key) : Prop where
  oneEach : (t.slots.map (·.key)).Nodup
  listed : ∀ e ∈ t.entries, e.2 ∈ t.slots
  apart : NamesApart t.entries
  first : ∀ key, t.holders key = (t.queue key).take 1

/- What holds before the waiters are tried: a lock may be free that somebody waits for. -/
structure Ready (t : LockTable Name Key) : Prop where
  oneEach : (t.slots.map (·.key)).Nodup
  listed : ∀ e ∈ t.entries, e.2 ∈ t.slots
  apart : NamesApart t.entries
  few : ∀ key, (t.holders key).length ≤ 1

theorem soundEmpty : ({} : LockTable Name Key).Sound :=
  ⟨List.nodup_nil,fun _ member => (nomatch member),List.nodup_nil,fun _ => rfl⟩

theorem Sound.few {t : LockTable Name Key} (sound : t.Sound) (key : Key) :
    (t.holders key).length ≤ 1 := by
  rw [sound.first key]
  exact List.length_take_le _ _

theorem Sound.waiters {t : LockTable Name Key} (sound : t.Sound) (key : Key) :
    t.waiters key = (t.queue key).drop 1 := by
  have whole : t.holders key ++ t.waiters key = (t.queue key).take 1 ++ (t.queue key).drop 1 :=
    (List.take_append_drop 1 (t.queue key)).symm
  rw [← sound.first key] at whole
  exact List.append_cancel_left whole

section Slots

variable {t : LockTable Name Key}

theorem sharedIff (sound : t.Sound) {slot : Slot Key} (member : slot ∈ t.slots) :
    t.isShared slot = true ↔ ∃ e ∈ t.entries, e.2 = slot := by
  have once : t.slots.count slot = 1 := List.count_eq_one_of_mem sound.oneEach.of_map member
  have some := List.countP_pos_iff (p := fun e : Name × Slot Key => e.2 == slot) (l := t.entries)
  simp only [beq_iff_eq] at some
  rw [← some,isShared,decide_eq_true_eq,references,once]
  change 1 < 1 + t.entries.countP (fun e => e.2 == slot) ↔ _
  omega

theorem keyInUse {key : Key} : key ∈ t.keysInUse ↔ ∃ e ∈ t.entries, e.2.key = key := by
  simp [keysInUse]

theorem prunedKeys (sound : t.Sound) : (t.prune.slots.map (·.key)).Perm t.keysInUse := by
  have oneEach : (t.prune.slots.map (·.key)).Nodup :=
    sound.oneEach.sublist (List.filter_sublist.map _)
  refine (List.perm_ext_iff_of_nodup oneEach (List.nodup_dedup _)).mpr fun key => ?_
  rw [← keysInUse,keyInUse,List.mem_map]
  constructor
  · rintro ⟨slot,member,rfl⟩
    obtain ⟨inside,shared⟩ := List.mem_filter.mp member
    obtain ⟨e,used,rfl⟩ := (sharedIff sound inside).mp shared
    exact ⟨e,used,rfl⟩
  · rintro ⟨e,used,rfl⟩
    have inside := sound.listed e used
    exact ⟨e.2,List.mem_filter.mpr ⟨inside,(sharedIff sound inside).mpr ⟨e,used,rfl⟩⟩,rfl⟩

theorem activeIs (sound : t.Sound) : t.active = t.keysInUse.length := by
  rw [active,List.countP_eq_length_filter,← (prunedKeys sound).length_eq,List.length_map]
  rfl

theorem prunedSound (sound : t.Sound) : t.prune.Sound := by
  refine ⟨(prunedKeys sound).nodup_iff.mpr (List.nodup_dedup _),fun e used => ?_,sound.apart,
    sound.first⟩
  have inside := sound.listed e used
  exact List.mem_filter.mpr ⟨inside,(sharedIff sound inside).mpr ⟨e,used,rfl⟩⟩

structure Given (t : LockTable Name Key) (key : Key) (slot : Slot Key)
    (after : LockTable Name Key) : Prop where
  keyed : slot.key = key
  listed : slot ∈ after.slots
  kept : ∀ s ∈ t.slots, s ∈ after.slots
  oneEach : (after.slots.map (·.key)).Nodup
  keys : ∀ k, k ∈ after.slots.map (·.key) ↔ k ∈ t.slots.map (·.key) ∨ k = key
  held : after.held = t.held
  waiting : after.waiting = t.waiting

theorem slotGiven (oneEach : (t.slots.map (·.key)).Nodup) (key : Key) :
    t.Given key (t.slotFor key).1 (t.slotFor key).2 := by
  unfold slotFor
  split
  · rename_i slot found
    have member := List.mem_of_find?_eq_some found
    have keyed : slot.key = key := by simpa using List.find?_some found
    refine ⟨keyed,member,fun _ inside => inside,oneEach,fun k => ?_,rfl,rfl⟩
    refine ⟨.inl,?_⟩
    rintro (inside | rfl)
    · exact inside
    · exact List.mem_map.mpr ⟨slot,member,keyed⟩
  · rename_i missing
    have fresh : key ∉ t.slots.map (·.key) := by
      rintro inside
      obtain ⟨slot,member,keyed⟩ := List.mem_map.mp inside
      exact List.find?_eq_none.mp missing slot member (by simpa using keyed)
    refine ⟨rfl,by simp,fun s inside => List.mem_append_left _ inside,?_,fun k => by simp,rfl,rfl⟩
    rw [List.map_append]
    refine List.nodup_append.mpr ⟨oneEach,List.nodup_singleton _,fun a inside b single => ?_⟩
    rintro rfl
    rw [List.mem_singleton.mp single] at inside
    exact fresh inside

end Slots

variable [DecidableEq Name]

theorem onWithout (key : Key) (name : Name) (entries : List (Name × Slot Key)) :
    on key (entries.filter (·.1 != name)) = (on key entries).filter (· != name) := by
  simp only [on,List.filter_map,List.filter_filter]
  refine congrArg _ (List.filter_congr fun e _ => ?_)
  simp only [Function.comp_apply]
  exact Bool.and_comm _ _

section Round

variable {held passed waiting : List (Name × Slot Key)} {w : Name × Slot Key}

omit [DecidableEq Key] in
theorem grantFresh (fresh : ∀ e ∈ held, e.1 ≠ w.1) : grant held w = held ++ [w] := by
  have kept : held.filter (·.1 != w.1) = held :=
    List.filter_eq_self.mpr fun e member => by simpa using fresh e member
  rw [grant,kept]

omit [DecidableEq Key] in
theorem apartGranted (apart : NamesApart (held ++ w :: waiting)) :
    NamesApart (grant held w ++ waiting) := by
  rw [grantFresh (headFresh apart),List.append_assoc]
  exact apart

theorem settledPerm (passed : List (Name × Slot Key)) (apart : NamesApart (held ++ waiting)) :
    ((settle held passed waiting).1 ++ (settle held passed waiting).2).Perm
      (held ++ passed ++ waiting) := by
  induction waiting generalizing held passed with
  | nil => simp [settle]
  | cons w waiting ih =>
    unfold settle
    split
    · refine (ih _ (apartPassed apart)).trans (.of_eq ?_)
      simp
    · refine (ih _ (apartGranted apart)).trans ?_
      rw [grantFresh (headFresh apart)]
      have moved : (held ++ ([w] ++ passed) ++ waiting).Perm (held ++ (passed ++ [w]) ++ waiting) :=
        (List.perm_append_comm.append_left held).append_right waiting
      simpa using moved

theorem settledOn (agree : SlotsAgree (held ++ passed ++ waiting))
    (apart : NamesApart (held ++ waiting)) (key : Key) :
    (on key (settle held passed waiting).1,on key (settle held passed waiting).2) =
      if on key held ++ on key passed = [] then ((on key waiting).take 1,(on key waiting).drop 1)
      else (on key held,on key passed ++ on key waiting) := by
  induction waiting generalizing held passed with
  | nil =>
    unfold settle
    split
    · rename_i free
      obtain ⟨noneHeld,nonePassed⟩ := List.append_eq_nil_iff.mp free
      rw [noneHeld,nonePassed]
      rfl
    · simp [on]
  | cons w waiting ih =>
    have taken := takenIff agree
    unfold settle
    split
    · rename_i blocked
      have agreed : SlotsAgree (held ++ (passed ++ [w]) ++ waiting) :=
        agree.mono fun e member => by simpa [or_assoc] using member
      have later := ih agreed (apartPassed apart)
      rw [later,onAppend key passed]
      by_cases here : w.2.key = key
      · subst here
        rw [onHere rfl,onHere rfl,if_neg (taken.mp blocked),if_neg (by simp)]
        simp [on]
      · simp only [onElsewhere here,onNil,List.append_nil]
    · rename_i free
      have none : on w.2.key held ++ on w.2.key passed = [] := by
        by_contra some
        exact free (taken.mpr some)
      have agreed : SlotsAgree (grant held w ++ passed ++ waiting) := by
        refine agree.mono fun e member => ?_
        rw [grantFresh (headFresh apart)] at member
        simp only [List.mem_append,List.mem_cons,List.not_mem_nil,or_false] at member ⊢
        tauto
      have later := ih agreed (apartGranted apart)
      rw [later,grantFresh (headFresh apart),onAppend]
      by_cases here : w.2.key = key
      · subst here
        obtain ⟨noneHeld,nonePassed⟩ := List.append_eq_nil_iff.mp none
        rw [onHere rfl,onHere rfl,if_pos none,if_neg (by simp),noneHeld,nonePassed]
        rfl
      · simp only [onElsewhere here,onNil,List.append_nil]

end Round

theorem Ready.polled {t : LockTable Name Key} (ready : t.Ready) :
    t.poll.Sound ∧ ∀ key, t.poll.queue key = t.queue key := by
  have perm : t.poll.entries.Perm t.entries := by
    have moved := settledPerm [] ready.apart
    rwa [List.append_nil] at moved
  have queues : ∀ key, t.poll.holders key = (t.queue key).take 1 ∧
      t.poll.queue key = t.queue key := by
    intro key
    have agree : SlotsAgree (t.held ++ [] ++ t.waiting) := by
      rw [List.append_nil]
      exact slotsAgree ready.oneEach ready.listed
    have settled := settledOn agree ready.apart key
    obtain ⟨heldOn,waitingOn⟩ := Prod.ext_iff.mp settled
    have few := ready.few key
    simp only [queue,holders,waiters,poll] at few heldOn waitingOn ⊢
    rw [heldOn,waitingOn]
    cases first : on key t.held with
    | nil =>
      simp only [onNil,List.append_nil,List.nil_append,if_true]
      exact ⟨trivial,List.take_append_drop 1 (on key t.waiting)⟩
    | cons name others =>
      rw [first] at few
      have alone : others = [] := List.length_eq_zero_iff.mp (by simpa using few)
      simp [alone,on]
  refine ⟨⟨ready.oneEach,fun e member => ready.listed e (perm.mem_iff.mp member),?_,fun key => ?_⟩,
    fun key => (queues key).2⟩
  · exact (perm.map _).nodup_iff.mpr ready.apart
  · rw [(queues key).1,(queues key).2]

section Steps

variable {t : LockTable Name Key} {name : Name} {key : Key}

def join (t : LockTable Name Key) (name : Name) (key : Key) : LockTable Name Key :=
  { (t.prune.slotFor key).2 with
    waiting := (t.prune.slotFor key).2.waiting ++ [(name,(t.prune.slotFor key).1)] }

theorem lockJoins (t : LockTable Name Key) (name : Name) (key : Key) :
    t.lock name key = (t.join name key).poll :=
  rfl

omit [DecidableEq Name] in
theorem joined (sound : t.Sound) (fresh : ∀ e ∈ t.entries, e.1 ≠ name) (key : Key) :
    (t.join name key).Ready ∧
      (∀ k, (t.join name key).queue k = t.queue k ++ if key = k then [name] else []) ∧
      (∀ k, (t.join name key).holders k = t.holders k) ∧
      (t.join name key).entries = t.entries ++ [(name,(t.prune.slotFor key).1)] := by
  have given := slotGiven (prunedSound sound).oneEach key
  have entriesAre : (t.join name key).entries = t.entries ++ [(name,(t.prune.slotFor key).1)] := by
    simp only [join,entries,given.held,given.waiting,List.append_assoc]
    rfl
  have heldAre : ∀ k, (t.join name key).holders k = t.holders k := by
    intro k
    simp only [join,holders,given.held]
    rfl
  refine ⟨⟨given.oneEach,fun e member => ?_,?_,fun k => heldAre k ▸ sound.few k⟩,fun k => ?_,
    heldAre,entriesAre⟩
  · rw [entriesAre] at member
    rcases List.mem_append.mp member with old | new
    · exact given.kept _ ((prunedSound sound).listed e old)
    · rw [List.mem_singleton.mp new]
      exact given.listed
  · rw [NamesApart,entriesAre,List.map_append]
    refine List.nodup_append.mpr ⟨sound.apart,List.nodup_singleton _,fun a inside b single => ?_⟩
    obtain ⟨e,used,rfl⟩ := List.mem_map.mp inside
    rw [List.mem_singleton.mp single]
    exact fresh e used
  · rw [queueOn,entriesAre,onAppend,← queueOn]
    by_cases here : key = k
    · rw [if_pos here,onHere (given.keyed.trans here)]
      rfl
    · rw [if_neg here,onElsewhere fun same => here (given.keyed.symm.trans same)]
      rfl

theorem locked (sound : t.Sound) (fresh : ∀ e ∈ t.entries, e.1 ≠ name) :
    (t.lock name key).Sound ∧
      ∀ k, (t.lock name key).queue k = t.queue k ++ if key = k then [name] else [] := by
  obtain ⟨ready,queues,_⟩ := joined sound fresh key
  rw [lockJoins]
  exact ⟨ready.polled.1,fun k => (ready.polled.2 k).trans (queues k)⟩

theorem dropped (sound : t.Sound) (name : Name) :
    (t.drop name).Sound ∧ ∀ k, (t.drop name).queue k = (t.queue k).filter (· != name) := by
  let left : LockTable Name Key :=
    { t with held := t.held.filter (·.1 != name), waiting := t.waiting.filter (·.1 != name) }
  have entriesAre : left.entries = t.entries.filter (·.1 != name) := by
    simp only [left,entries,List.filter_append]
  have ready : left.Ready := by
    refine ⟨sound.oneEach,fun e member => ?_,?_,fun k => ?_⟩
    · rw [entriesAre] at member
      exact sound.listed e (List.mem_of_mem_filter member)
    · rw [NamesApart,entriesAre]
      exact sound.apart.sublist (List.filter_sublist.map _)
    · have fewer : (left.holders k).length ≤ (t.holders k).length := by
        simp only [left,holders,onWithout]
        exact List.length_filter_le _ _
      exact Nat.le_trans fewer (sound.few k)
  refine ⟨ready.polled.1,fun k => (ready.polled.2 k).trans ?_⟩
  rw [queueOn,entriesAre,onWithout,← queueOn]

theorem lockedSlots (sound : t.Sound) (fresh : ∀ e ∈ t.entries, e.1 ≠ name) (key : Key) :
    ((t.lock name key).slots.map (·.key)).Perm (t.lock name key).keysInUse := by
  have given := slotGiven (prunedSound sound).oneEach key
  obtain ⟨ready,_,_,entriesAre⟩ := joined sound fresh key
  have perm : (t.lock name key).entries.Perm (t.join name key).entries := by
    have moved := settledPerm [] ready.apart
    rwa [List.append_nil] at moved
  refine (List.perm_ext_iff_of_nodup ready.oneEach (List.nodup_dedup _)).mpr fun k => ?_
  have before := (prunedKeys sound).mem_iff (a := k)
  rw [← keysInUse,keyInUse]
  refine (given.keys k).trans ?_
  rw [before,keyInUse]
  constructor
  · rintro (⟨e,used,keyed⟩ | rfl)
    · exact ⟨e,perm.mem_iff.mpr (entriesAre ▸ List.mem_append_left _ used),keyed⟩
    · exact ⟨_,perm.mem_iff.mpr (entriesAre ▸ List.mem_append_right _ (List.mem_singleton_self _)),
        given.keyed⟩
  · rintro ⟨e,used,keyed⟩
    rw [perm.mem_iff,entriesAre] at used
    rcases List.mem_append.mp used with old | new
    · exact .inl ⟨e,old,keyed⟩
    · rw [List.mem_singleton.mp new] at keyed
      exact .inr (keyed.symm.trans given.keyed)

end Steps

def step (t : LockTable Name Key) : LockStep Name Key → LockTable Name Key
  | .lock name key => t.lock name key
  | .drop name => t.drop name

def after (steps : List (LockStep Name Key)) : LockTable Name Key := steps.foldl step {}

end LockTable

namespace LockStep

variable {Name Key : Type}

def asking : List (LockStep Name Key) → List Name
  | [] => []
  | .lock name _ :: steps => name :: asking steps
  | .drop _ :: steps => asking steps

theorem askingAppend (first second : List (LockStep Name Key)) :
    asking (first ++ second) = asking first ++ asking second := by
  induction first with
  | nil => rfl
  | cons step steps ih => cases step <;> simp [asking,ih]

def Fresh (steps : List (LockStep Name Key)) : Prop := (asking steps).Nodup

theorem Fresh.before {steps : List (LockStep Name Key)} {last : LockStep Name Key}
    (fresh : Fresh (steps ++ [last])) : Fresh steps := by
  rw [Fresh,askingAppend] at fresh
  exact (List.nodup_append.mp fresh).1

theorem Fresh.last {steps : List (LockStep Name Key)} {name : Name} {key : Key}
    (fresh : Fresh (steps ++ [.lock name key])) : name ∉ asking steps := by
  rw [Fresh,askingAppend] at fresh
  exact fun member => (List.nodup_append.mp fresh).2.2 name member name (by simp [asking]) rfl

variable [DecidableEq Key]

def askingFor (key : Key) : List (LockStep Name Key) → List Name
  | [] => []
  | .lock name k :: steps => (if k = key then [name] else []) ++ askingFor key steps
  | .drop _ :: steps => askingFor key steps

theorem askingForAppend (key : Key) (first second : List (LockStep Name Key)) :
    askingFor key (first ++ second) = askingFor key first ++ askingFor key second := by
  induction first with
  | nil => rfl
  | cons step steps ih => cases step <;> simp [askingFor,ih]

variable [DecidableEq Name]

/- Those who asked for a key and did not drop out since, in the order in which they asked. -/
def stay (key : Key) (names : List Name) : LockStep Name Key → List Name
  | .lock name k => names ++ if k = key then [name] else []
  | .drop name => names.filter (· != name)

def staying (key : Key) (steps : List (LockStep Name Key)) : List Name := steps.foldl (stay key) []

theorem stayingLast (key : Key) (steps : List (LockStep Name Key)) (last : LockStep Name Key) :
    staying key (steps ++ [last]) = stay key (staying key steps) last := by
  rw [staying,List.foldl_append]
  rfl

theorem stayingAsked {key : Key} {name : Name} {steps : List (LockStep Name Key)}
    (stays : name ∈ staying key steps) : name ∈ asking steps := by
  induction steps using List.reverseRecOn with
  | nil => cases stays
  | append_singleton steps last ih =>
    rw [stayingLast] at stays
    rw [askingAppend]
    cases last with
    | lock other k =>
      rcases List.mem_append.mp stays with old | new
      · exact List.mem_append_left _ (ih old)
      · split at new
        · exact List.mem_append_right _ (by simpa [asking] using new)
        · cases new
    | drop other => exact List.mem_append_left _ (ih (List.mem_of_mem_filter stays))

end LockStep

namespace LockTable

open LockStep

variable {Name Key : Type} [DecidableEq Name] [DecidableEq Key] {steps : List (LockStep Name Key)}

theorem afterLast (steps : List (LockStep Name Key)) (last : LockStep Name Key) :
    after (steps ++ [last]) = (after steps).step last := by
  rw [after,List.foldl_append]
  rfl

theorem namesAsked (queues : ∀ key, (after steps).queue key = staying key steps) :
    ∀ e ∈ (after steps).entries, e.1 ∈ asking steps := by
  intro e used
  have queued : e.1 ∈ (after steps).queue e.2.key := by
    rw [queueOn]
    exact memOn.mpr ⟨e,used,rfl,rfl⟩
  rw [queues] at queued
  exact stayingAsked queued

theorem stepped {t : LockTable Name Key} {step : LockStep Name Key} (sound : t.Sound)
    (fresh : ∀ name key, step = .lock name key → ∀ e ∈ t.entries, e.1 ≠ name) :
    (t.step step).Sound ∧ ∀ key, (t.step step).queue key = stay key (t.queue key) step := by
  cases step with
  | lock name key => exact locked sound (fresh name key rfl)
  | drop name => exact dropped sound name

theorem queued (fresh : Fresh steps) :
    (after steps).Sound ∧ ∀ key, (after steps).queue key = staying key steps := by
  induction steps using List.reverseRecOn with
  | nil => exact ⟨soundEmpty,fun _ => rfl⟩
  | append_singleton steps last ih =>
    obtain ⟨sound,queues⟩ := ih fresh.before
    have unused : ∀ name key, last = .lock name key → ∀ e ∈ (after steps).entries, e.1 ≠ name := by
      rintro name key rfl e used rfl
      exact fresh.last (namesAsked queues e used)
    obtain ⟨next,moved⟩ := stepped sound unused
    rw [afterLast]
    refine ⟨next,fun key => ?_⟩
    rw [moved,queues,stayingLast]

def newHolders (key : Key) (before after : LockTable Name Key) : List Name :=
  (after.holders key).filter fun name => !(before.holders key).contains name

def granted (key : Key) : LockTable Name Key → List (LockStep Name Key) → List Name
  | _,[] => []
  | t,step :: steps => newHolders key t (t.step step) ++ granted key (t.step step) steps

theorem grantedLast (key : Key) (t : LockTable Name Key) (steps : List (LockStep Name Key))
    (last : LockStep Name Key) :
    granted key t (steps ++ [last]) = granted key t steps ++
      newHolders key (steps.foldl step t) ((steps.foldl step t).step last) := by
  induction steps generalizing t with
  | nil => simp [granted]
  | cons first steps ih => simp [granted,ih]

theorem headMoves (key : Key) (queue : List Name) (step : LockStep Name Key) :
    (((stay key queue step).take 1).filter fun name => !(queue.take 1).contains name) ++
      (stay key queue step).drop 1 = stay key (queue.drop 1) step := by
  cases queue with
  | nil =>
    cases step with
    | lock name k => by_cases here : k = key <;> simp [stay,here]
    | drop name => rfl
  | cons first others =>
    cases step with
    | lock name k => simp [stay]
    | drop name =>
      by_cases leaves : first = name
      · subst leaves
        have kept : ((others.filter (· != first)).take 1).filter
            (fun other => !([first] : List Name).contains other) =
              (others.filter (· != first)).take 1 := by
          refine List.filter_eq_self.mpr fun other member => ?_
          simpa using (List.mem_filter.mp (List.mem_of_mem_take member)).2
        simp only [stay,List.filter_cons,bne_self_eq_false,Bool.false_eq_true,if_false,
          List.take_succ_cons,List.take_zero,List.drop_succ_cons,List.drop_zero]
        rw [kept,List.take_append_drop]
      · simp [stay,leaves]

theorem grantedInOrder (fresh : Fresh steps) (key : Key) :
    (granted key {} steps ++ (after steps).waiters key).Sublist (askingFor key steps) := by
  induction steps using List.reverseRecOn with
  | nil => exact .refl _
  | append_singleton steps last ih =>
    obtain ⟨sound,queues⟩ := queued fresh.before
    obtain ⟨next,moved⟩ := queued fresh
    have head := headMoves key ((after steps).queue key) last
    have turn : (after (steps ++ [last])).queue key = stay key ((after steps).queue key) last := by
      rw [moved,queues,stayingLast]
    rw [← turn,← sound.first,← next.first,← next.waiters,← sound.waiters] at head
    rw [grantedLast,List.append_assoc,askingForAppend,← after,← afterLast]
    change (granted key {} steps ++ (List.filter _ _ ++ _)).Sublist _
    rw [head]
    cases last with
    | lock name k =>
      rw [stay,← List.append_assoc,askingFor,askingFor,List.append_nil]
      exact (ih fresh.before).append (.refl _)
    | drop name =>
      rw [askingFor,askingFor,List.append_nil]
      exact ((List.Sublist.refl _).append List.filter_sublist).trans (ih fresh.before)

/- A step that has nothing to do with a key: it asks for another one, or drops a name that neither
holds the lock on the key nor waits for it. -/
def Elsewhere (t : LockTable Name Key) (key : Key) : LockStep Name Key → Prop
  | .lock _ k => k ≠ key
  | .drop name => name ∉ t.queue key

theorem elsewhere {t : LockTable Name Key} {key : Key} {step : LockStep Name Key} (sound : t.Sound)
    (fresh : ∀ name key, step = .lock name key → ∀ e ∈ t.entries, e.1 ≠ name)
    (apart : t.Elsewhere key step) :
    (t.step step).holders key = t.holders key ∧ (t.step step).waiters key = t.waiters key := by
  obtain ⟨next,moved⟩ := stepped sound fresh
  have same : (t.step step).queue key = t.queue key := by
    rw [moved]
    cases step with
    | lock name k => rw [stay,if_neg apart,List.append_nil]
    | drop name =>
      refine List.filter_eq_self.mpr fun other member => ?_
      simp only [bne_iff_ne]
      rintro rfl
      exact apart member
  rw [next.first,sound.first,next.waiters,sound.waiters,same]
  exact ⟨rfl,rfl⟩

structure Orderly (steps : List (LockStep Name Key)) : Prop where
  exclusive : ∀ key, ((after steps).holders key).length ≤ 1
  awake : ∀ key, (after steps).waiters key ≠ [] → (after steps).holders key ≠ []
  queue : ∀ key, (after steps).holders key ++ (after steps).waiters key = staying key steps
  granted : ∀ key, (granted key {} steps ++ (after steps).waiters key).Sublist (askingFor key steps)
  elsewhere : ∀ key next, Fresh (steps ++ [next]) → (after steps).Elsewhere key next →
    ((after steps).step next).holders key = (after steps).holders key ∧
      ((after steps).step next).waiters key = (after steps).waiters key
  active : (after steps).active = (after steps).keysInUse.length
  listed : ∀ e ∈ (after steps).entries, e.2 ∈ (after steps).slots
  slots : ∀ name key, Fresh (steps ++ [.lock name key]) →
    (((after steps).lock name key).slots.map (·.key)).Perm ((after steps).lock name key).keysInUse

/-- Whatever is asked for and dropped, in whatever order: nobody shares a lock, nobody sleeps before
a free one, each key is served in the order of asking and for itself, and the table has the slots
that somebody refers to, each once, and after a lock no others. -/
theorem locksAreOrderly (fresh : Fresh steps) : Orderly steps := by
  obtain ⟨sound,queues⟩ := queued fresh
  have names : ∀ {next : LockStep Name Key}, Fresh (steps ++ [next]) →
      ∀ name key, next = .lock name key → ∀ e ∈ (after steps).entries, e.1 ≠ name := by
    rintro next again name key rfl e used rfl
    exact again.last (namesAsked queues e used)
  constructor
  · exact sound.few
  · intro key some none
    rw [sound.first] at none
    rw [sound.waiters] at some
    cases whole : (after steps).queue key with
    | nil =>
      rw [whole] at some
      exact some rfl
    | cons first others =>
      rw [whole] at none
      cases none
  · exact queues
  · exact grantedInOrder fresh
  · exact fun key next again apart => LockTable.elsewhere sound (names again) apart
  · exact activeIs sound
  · exact sound.listed
  · exact fun name key again => lockedSlots sound (names again name key rfl) key

def sampleSteps : List (LockStep Nat Nat) :=
  [.lock 1 7,.lock 2 7,.lock 3 8,.lock 4 7,.lock 5 7,.drop 2,.drop 1]

theorem sampleLocksAreOrderly :
    Fresh sampleSteps ∧ Orderly sampleSteps ∧ (after sampleSteps).holders 7 = [4] ∧
      (after sampleSteps).waiters 7 = [5] := by
  have fresh : Fresh sampleSteps := by
    unfold Fresh
    decide
  exact ⟨fresh,locksAreOrderly fresh,by decide,by decide⟩

end LockTable

end Coursework
