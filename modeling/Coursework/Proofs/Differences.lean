import Coursework.Proofs.Embedding
import Mathlib.Data.List.Induction
import Mathlib.Data.List.Nodup

/-! Differences of keys. One walk along the live keys finds the difference: it splits them into those
that are tracked and those that are not, each by their first appearances, and tells the tracked keys
that are live no more, and nothing else does. After it is applied the live keys are tracked and no
others, and the next difference has nothing left to apply. -/
namespace Coursework

section Appearances

variable {α : Type} [BEq α]

def AppearsBefore (as : List α) (a b : α) : Prop := as.idxOf a < as.idxOf b

theorem AppearsBefore.apart {as : List α} {a b : α} (first : AppearsBefore as a b) : a ≠ b := by
  rintro rfl
  exact Nat.lt_irrefl _ first

variable [LawfulBEq α]

theorem firstAppearances (as : List α) : as.eraseDups.Pairwise (AppearsBefore as) := by
  induction as using List.reverseRecOn with
  | nil => exact .nil
  | append_singleton as b ih =>
    have longer : as.eraseDups.Pairwise (AppearsBefore (as ++ [b])) := by
      refine ih.imp_of_mem fun here there first => ?_
      rw [AppearsBefore,List.idxOf_append_of_mem (List.mem_eraseDups.mp here),
        List.idxOf_append_of_mem (List.mem_eraseDups.mp there)]
      exact first
    rw [List.eraseDups_append]
    by_cases known : b ∈ as
    · have nothing : [b].removeAll as = [] := by simp [List.removeAll,known]
      rw [nothing,List.eraseDups_nil,List.append_nil]
      exact longer
    · have last : [b].removeAll as = [b] := by simp [List.removeAll,known]
      rw [last,eraseDupsDistinct (List.nodup_singleton b)]
      refine List.pairwise_append.mpr ⟨longer,List.pairwise_singleton _ _,?_⟩
      intro a here c only
      cases List.mem_singleton.mp only
      have early := List.mem_eraseDups.mp here
      rw [AppearsBefore,List.idxOf_append_of_mem early,List.idxOf_append_of_notMem known]
      exact Nat.lt_of_lt_of_le (List.idxOf_lt_length_iff.mpr early) (Nat.le_add_right _ _)

end Appearances

theorem orderedAlike {α : Type} {before : α → α → Prop} (strict : ∀ a b, before a b → ¬before b a)
    {as bs : List α} (ordered : as.Pairwise before) (orderedToo : bs.Pairwise before)
    (members : ∀ a, a ∈ as ↔ a ∈ bs) : as = bs := by
  have distinct {cs : List α} (sorted : cs.Pairwise before) : cs.Nodup := by
    refine sorted.imp fun {a b} first => ?_
    rintro rfl
    exact strict a a first first
  refine List.Perm.eq_of_pairwise (fun a b _ _ first back => absurd back (strict a b first))
    ordered orderedToo ?_
  exact (List.perm_ext_iff_of_nodup (distinct ordered) (distinct orderedToo)).mpr members

variable {V : Type}

structure KeyDiff.Splits (d : KeyDiff) (tracked : KeyMap V) (live : List String) : Prop where
  whole : (d.missing ++ d.matching).Perm live.eraseDups
  missing : ∀ key, key ∈ d.missing ↔ key ∈ live ∧ key ∉ tracked.keys
  matching : ∀ key, key ∈ d.matching ↔ key ∈ live ∧ key ∈ tracked.keys
  missingOrder : d.missing.Pairwise (AppearsBefore live)
  matchingOrder : d.matching.Pairwise (AppearsBefore live)
  extra : ∀ key, key ∈ d.extra ↔ key ∈ tracked.keys ∧ key ∉ live
  extraOrder : d.extra.Pairwise (· < ·)

namespace KeyMap

variable (tracked : KeyMap V) (live : List String)

/- The walk along the live keys. A key that was seen is passed over; what was not seen in the end is
extra. -/
def sortOut (seen : List String) : List String → KeyDiff
  | [] => ⟨[],[],tracked.keys.filter fun key => !seen.contains key⟩
  | key :: live =>
    if key ∈ seen then sortOut seen live
    else
      let later := sortOut (key :: seen) live
      if tracked.contains key then { later with matching := key :: later.matching }
      else { later with missing := key :: later.missing }

theorem sortOutRest (seen : List String) : tracked.sortOut seen live =
    { missing := (live.filter (! seen.contains ·)).eraseDups.filter (! tracked.contains ·)
      matching := (live.filter (! seen.contains ·)).eraseDups.filter (tracked.contains ·)
      extra := tracked.keys.filter fun key => !(seen.contains key || live.contains key) } := by
  induction live generalizing seen with
  | nil => simp [sortOut]
  | cons key live ih =>
    rw [sortOut]
    split
    · next known =>
      have passed : (key :: live).filter (!seen.contains ·) = live.filter (!seen.contains ·) :=
        List.filter_cons_of_neg (by simp [known])
      have extra : (fun k => !(seen.contains k || (key :: live).contains k)) =
          fun k => !(seen.contains k || live.contains k) := by
        funext k
        by_cases same : k = key
        · subst same
          simp [known]
        · simp [same]
      rw [ih,passed,extra]
    · next new =>
      have taken : (key :: live).filter (!seen.contains ·) =
          key :: live.filter (!seen.contains ·) := List.filter_cons_of_pos (by simp [new])
      have rest : live.filter (!(key :: seen).contains ·) =
          (live.filter (!seen.contains ·)).filter fun k => !k == key := by
        rw [List.filter_filter]
        refine List.filter_congr fun k _ => ?_
        rw [List.contains_cons,Bool.not_or]
      have extra : (fun k => !((key :: seen).contains k || live.contains k)) =
          fun k => !(seen.contains k || (key :: live).contains k) := by
        funext k
        simp only [List.contains_cons,Bool.or_assoc,Bool.or_left_comm]
      rw [ih,rest,extra,taken,List.eraseDups_cons]
      cases held : tracked.contains key <;> simp [held]

theorem sortOutAll : tracked.sortOut [] live = tracked.diff live := by
  rw [sortOutRest]
  simp [diff]

theorem diffSplits : (tracked.diff live).Splits tracked live where
  whole := by
    refine List.perm_append_comm.trans ?_
    exact List.filter_append_perm (fun key => tracked.contains key) live.eraseDups
  missing key := by simp [diff,containsIff,← Bool.not_eq_true]
  matching key := by simp [diff,containsIff]
  missingOrder := (firstAppearances live).filter _
  matchingOrder := (firstAppearances live).filter _
  extra key := by simp [diff]
  extraOrder := tracked.keysAscending.filter _

variable {tracked live}

theorem splitsUnique {d : KeyDiff} (splits : d.Splits tracked live) : d = tracked.diff live := by
  have own := diffSplits tracked live
  have asymmetric : ∀ a b, AppearsBefore live a b → ¬AppearsBefore live b a :=
    fun a b first => Nat.lt_asymm first
  have missing : d.missing = (tracked.diff live).missing :=
    orderedAlike asymmetric splits.missingOrder own.missingOrder fun key => by
      rw [splits.missing,own.missing]
  have matching : d.matching = (tracked.diff live).matching :=
    orderedAlike asymmetric splits.matchingOrder own.matchingOrder fun key => by
      rw [splits.matching,own.matching]
  have extra : d.extra = (tracked.diff live).extra :=
    orderedAlike (fun a b first => String.lt_asymm first) splits.extraOrder own.extraOrder
      fun key => by rw [splits.extra,own.extra]
  cases d
  cases missing
  cases matching
  cases extra
  rfl

theorem getTracked {make : Nat → V} {n : Nat} {keys : List String} {m : KeyMap V}
    (distinct : keys.Nodup) {place : Nat} {key : String} (there : keys[place]? = some key) :
    (track make n keys m).get? key = some (make (n + place)) := by
  induction keys generalizing n m place with
  | nil => cases there
  | cons k keys ih =>
    obtain ⟨fresh,distinct⟩ := List.nodup_cons.mp distinct
    rw [track]
    cases place with
    | zero =>
      cases Option.some.inj there
      rw [getTrackOther _ _ _ _ fresh,getInsert,if_pos rfl,Nat.add_zero]
    | succ place =>
      rw [ih distinct there,Nat.add_right_comm,Nat.add_assoc]

variable (make : Nat → V)

theorem getMatching {key : String} (matching : key ∈ (tracked.diff live).matching) :
    (tracked.applyDiff (tracked.diff live) make).get? key = tracked.get? key := by
  obtain ⟨isLive,held⟩ := ((diffSplits tracked live).matching key).mp matching
  have notMissing : key ∉ (tracked.diff live).missing := fun missing =>
    (((diffSplits tracked live).missing key).mp missing).2 held
  have notExtra : key ∉ (tracked.diff live).extra := fun extra =>
    (((diffSplits tracked live).extra key).mp extra).2 isLive
  rw [applyDiff,getPruned,if_neg notExtra,getTrackOther _ _ _ _ notMissing]

theorem getMissing {place : Nat} {key : String}
    (there : (tracked.diff live).missing[place]? = some key) :
    (tracked.applyDiff (tracked.diff live) make).get? key = some (make place) := by
  have splits := diffSplits tracked live
  have isLive := ((splits.missing key).mp (List.mem_of_getElem? there)).1
  have notExtra : key ∉ (tracked.diff live).extra := fun extra =>
    ((splits.extra key).mp extra).2 isLive
  have distinct := splits.missingOrder.imp AppearsBefore.apart
  rw [applyDiff,getPruned,if_neg notExtra,getTracked distinct there,Nat.zero_add]

theorem getDropped {key : String} (gone : key ∉ live) :
    (tracked.applyDiff (tracked.diff live) make).get? key = none := by
  have splits := diffSplits tracked live
  rw [applyDiff,getPruned]
  split
  · rfl
  · next notExtra =>
    have notMissing : key ∉ (tracked.diff live).missing := fun missing =>
      gone ((splits.missing key).mp missing).1
    rw [getTrackOther _ _ _ _ notMissing,getNoneIff]
    exact fun held => notExtra ((splits.extra key).mpr ⟨held,gone⟩)

theorem appliedKeys {key : String} :
    key ∈ (tracked.applyDiff (tracked.diff live) make).keys ↔ key ∈ live := by
  have splits := diffSplits tracked live
  constructor
  · intro held
    by_contra gone
    exact absurd (getDropped make gone) (by rw [getNoneIff]; exact not_not_intro held)
  · intro isLive
    rw [memKeysIff]
    by_cases held : key ∈ tracked.keys
    · rw [getMatching make ((splits.matching key).mpr ⟨isLive,held⟩)]
      exact memKeysIff.mp held
    · have missing := (splits.missing key).mpr ⟨isLive,held⟩
      obtain ⟨place,there⟩ := List.getElem?_of_mem missing
      rw [getMissing make there]
      rfl

end KeyMap

structure KeyDiff.Settles (d : KeyDiff) (tracked : KeyMap V) (live : List String) (make : Nat → V)
    (after : KeyMap V) : Prop where
  keys : after.keys.Perm live.eraseDups
  kept : ∀ key ∈ d.matching, after.get? key = tracked.get? key
  made : ∀ place key, d.missing[place]? = some key → after.get? key = some (make place)
  madeOnly : ∀ other, (∀ place < d.missing.length, other place = make place) →
    tracked.applyDiff d other = after
  unchanged : (after.diff live).isUnchanged = true
  nothing : (after.diff live).missing = [] ∧ (after.diff live).extra = []
  allMatch : (after.diff live).matching = live.eraseDups
  stays : ∀ other, after.applyDiff (after.diff live) other = after

namespace KeyMap

variable (tracked : KeyMap V) (live : List String) (make : Nat → V)

theorem appliedAlike {other : Nat → V}
    (alike : ∀ place < (tracked.diff live).missing.length, other place = make place) :
    tracked.applyDiff (tracked.diff live) other = tracked.applyDiff (tracked.diff live) make := by
  have splits := diffSplits tracked live
  refine ext fun key => ?_
  by_cases isLive : key ∈ live
  · by_cases held : key ∈ tracked.keys
    · have matching := (splits.matching key).mpr ⟨isLive,held⟩
      rw [getMatching other matching,getMatching make matching]
    · obtain ⟨place,there⟩ := List.getElem?_of_mem ((splits.missing key).mpr ⟨isLive,held⟩)
      rw [getMissing other there,getMissing make there,
        alike place (List.getElem?_eq_some_iff.mp there).1]
  · rw [getDropped other isLive,getDropped make isLive]

theorem nothingMissing :
    ((tracked.applyDiff (tracked.diff live) make).diff live).missing = [] := by
  refine List.eq_nil_iff_forall_not_mem.mpr fun key missing => ?_
  obtain ⟨isLive,fresh⟩ := ((diffSplits _ live).missing key).mp missing
  exact fresh ((appliedKeys make).mpr isLive)

theorem nothingExtra :
    ((tracked.applyDiff (tracked.diff live) make).diff live).extra = [] := by
  refine List.eq_nil_iff_forall_not_mem.mpr fun key extra => ?_
  obtain ⟨held,gone⟩ := ((diffSplits _ live).extra key).mp extra
  exact gone ((appliedKeys make).mp held)

theorem diffSettles : (tracked.diff live).Settles tracked live make
    (tracked.applyDiff (tracked.diff live) make) where
  keys := by
    refine (List.perm_ext_iff_of_nodup (keysApart _) (nodupEraseDups live)).mpr fun key => ?_
    rw [appliedKeys,List.mem_eraseDups]
  kept key := getMatching make
  made place key := getMissing make
  madeOnly other := appliedAlike tracked live make
  unchanged := by
    rw [KeyDiff.isUnchanged,nothingMissing,nothingExtra]
    rfl
  nothing := ⟨nothingMissing tracked live make,nothingExtra tracked live make⟩
  allMatch := by
    refine List.filter_eq_self.mpr fun key isLive => ?_
    rw [containsIff,appliedKeys]
    exact List.mem_eraseDups.mp isLive
  stays other := by
    rw [applyDiff,nothingMissing,nothingExtra]
    rfl

/-- A difference is what one walk along the live keys finds, and nothing else splits the keys as it
does. Applied once it leaves the live keys, old values under the keys that matched and new ones under
those that were missing, and nothing to apply. -/
theorem differencesSettle (tracked : KeyMap V) (live : List String) (make : Nat → V) :
    tracked.sortOut [] live = tracked.diff live ∧
      (∀ d : KeyDiff, d.Splits tracked live ↔ d = tracked.diff live) ∧
      (tracked.diff live).Settles tracked live make
        (tracked.applyDiff (tracked.diff live) make) := by
  refine ⟨sortOutAll tracked live,fun d => ⟨splitsUnique,?_⟩,diffSettles tracked live make⟩
  rintro rfl
  exact diffSplits tracked live

end KeyMap

end Coursework
