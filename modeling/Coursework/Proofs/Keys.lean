import Coursework.KeyDiff

/-! Keyed maps through their look-ups. Whatever is said of a map later on is said of `get?`:
being empty, a test on all values, maps built from entries, and the two uses of a key diff. -/
namespace Coursework.KeyMap

variable {V : Type}

theorem memberOfLookup {key : String} {v : V} {entries : List (String × V)}
    (found : lookup key entries = some v) : (key,v) ∈ entries := by
  induction entries with
  | nil => simp [lookup] at found
  | cons e rest ih =>
    obtain ⟨k,w⟩ := e
    by_cases here : k = key
    · subst here
      have same : w = v := by simpa [lookup] using found
      exact List.mem_cons.mpr (.inl (by rw [same]))
    · exact List.mem_cons_of_mem _ (ih (by simpa [lookup,here] using found))

theorem lookupOfMember {key : String} {v : V} {entries : List (String × V)}
    (ascending : entries.Pairwise fun a b => a.1 < b.1) (member : (key,v) ∈ entries) :
    lookup key entries = some v := by
  induction entries with
  | nil => simp at member
  | cons e rest ih =>
    obtain ⟨before,later⟩ := List.pairwise_cons.mp ascending
    rcases List.mem_cons.mp member with rfl | inside
    · simp [lookup]
    · have below : e.1 < key := before _ inside
      have apart : e.1 ≠ key := fun same => String.lt_irrefl key (by rwa [same] at below)
      simpa [lookup,apart] using ih later inside

theorem getIffMember {m : KeyMap V} {key : String} {v : V} :
    m.get? key = some v ↔ (key,v) ∈ m.entries :=
  ⟨memberOfLookup,lookupOfMember m.ascending⟩

theorem isEmptyIff {m : KeyMap V} : m.isEmpty = true ↔ ∀ key, m.get? key = none := by
  rw [isEmpty,List.isEmpty_iff]
  constructor
  · intro none key
    rw [get?,none]
    rfl
  · intro absent
    refine List.eq_nil_iff_forall_not_mem.mpr fun e member => ?_
    have found := getIffMember.mpr member
    rw [absent] at found
    cases found

theorem notEmptyIff {m : KeyMap V} : m.isEmpty = false ↔ ∃ key v, m.get? key = some v := by
  rw [← Bool.not_eq_true,isEmptyIff]
  simp [← ne_eq,Option.ne_none_iff_exists']

theorem eachValueIff {m : KeyMap V} {P : V → Prop} :
    (∀ v ∈ m.values, P v) ↔ ∀ key v, m.get? key = some v → P v := by
  constructor
  · intro all key v found
    exact all v (List.mem_map.mpr ⟨(key,v),getIffMember.mp found,rfl⟩)
  · intro all v member
    obtain ⟨e,inside,rfl⟩ := List.mem_map.mp member
    exact all e.1 e.2 (getIffMember.mpr inside)

theorem allValuesIff {m : KeyMap V} {p : V → Bool} :
    m.values.all p = true ↔ ∀ key v, m.get? key = some v → p v = true := by
  rw [List.all_eq_true,eachValueIff]

theorem getFoldAbsent {entries : List (String × V)} {m : KeyMap V} {key : String}
    (absent : key ∉ entries.map Prod.fst) :
    (entries.foldl (fun m e => m.insert e.1 e.2) m).get? key = m.get? key := by
  induction entries generalizing m with
  | nil => rfl
  | cons e rest ih =>
    simp only [List.map_cons,List.mem_cons,not_or] at absent
    rw [List.foldl_cons,ih absent.2,getInsert,if_neg fun same => absent.1 same.symm]

theorem getFoldHolds {entries : List (String × V)} {m : KeyMap V} {key : String} {v : V}
    (found : (entries.foldl (fun m e => m.insert e.1 e.2) m).get? key = some v) :
    (key,v) ∈ entries ∨ m.get? key = some v := by
  induction entries generalizing m with
  | nil => exact .inr found
  | cons e rest ih =>
    rcases ih found with inside | before
    · exact .inl (List.mem_cons_of_mem _ inside)
    · rw [getInsert] at before
      split at before
      · rename_i here
        cases Option.some.inj before
        exact .inl (here ▸ List.mem_cons_self)
      · exact .inr before

theorem getOfListAbsent {entries : List (String × V)} {key : String}
    (absent : key ∉ entries.map Prod.fst) : (ofList entries).get? key = none := by
  rw [ofList,getFoldAbsent absent,getEmpty]

theorem getFoldMember {entries : List (String × V)} {m : KeyMap V} {key : String} {v : V}
    (distinct : (entries.map Prod.fst).Nodup) (member : (key,v) ∈ entries) :
    (entries.foldl (fun m e => m.insert e.1 e.2) m).get? key = some v := by
  induction entries generalizing m with
  | nil => simp at member
  | cons e rest ih =>
    obtain ⟨fresh,distinct⟩ := List.nodup_cons.mp distinct
    rw [List.foldl_cons]
    rcases List.mem_cons.mp member with rfl | inside
    · rw [getFoldAbsent fresh,getInsert,if_pos rfl]
    · exact ih distinct inside

theorem getOfListMember {entries : List (String × V)} {key : String} {v : V}
    (distinct : (entries.map Prod.fst).Nodup) (member : (key,v) ∈ entries) :
    (ofList entries).get? key = some v :=
  getFoldMember distinct member

theorem getFoldTabulated (f : String → V) (keys : List String) (m : KeyMap V) (key : String) :
    ((keys.map fun k => (k,f k)).foldl (fun m e => m.insert e.1 e.2) m).get? key =
      if key ∈ keys then some (f key) else m.get? key := by
  induction keys generalizing m with
  | nil => rfl
  | cons k keys ih =>
    rw [List.map_cons,List.foldl_cons,ih,getInsert]
    by_cases here : k = key
    · subst here
      simp
    · have apart : key ≠ k := fun same => here same.symm
      simp [here,apart]

theorem getTabulated (f : String → V) (keys : List String) (key : String) :
    (ofList (keys.map fun k => (k,f k))).get? key = if key ∈ keys then some (f key) else none :=
  getFoldTabulated f keys empty key

theorem getTrackConstant (v : V) (n : Nat) (keys : List String) (m : KeyMap V) (key : String) :
    (track (fun _ => v) n keys m).get? key = if key ∈ keys then some v else m.get? key := by
  induction keys generalizing n m with
  | nil => rfl
  | cons k keys ih =>
    rw [track,ih,getInsert]
    by_cases here : k = key
    · subst here
      simp
    · have apart : key ≠ k := fun same => here same.symm
      simp [here,apart]

theorem memMissing {m : KeyMap V} {live : List String} {key : String} :
    key ∈ (m.diff live).missing ↔ key ∈ live ∧ m.get? key = none := by
  simp [diff,contains]

theorem memExtra {m : KeyMap V} {live : List String} {key : String} :
    key ∈ (m.diff live).extra ↔ (m.get? key).isSome = true ∧ key ∉ live := by
  simp [diff,memKeysIff]

def lacks (m : KeyMap V) (live : List String) : Bool := live.any fun key => (m.get? key).isNone

theorem lacksIff {m : KeyMap V} {live : List String} :
    m.lacks live = true ↔ ∃ key ∈ live, m.get? key = none := by
  simp [lacks]

theorem missingNonempty (m : KeyMap V) (live : List String) :
    (!(m.diff live).missing.isEmpty) = m.lacks live := by
  rw [Bool.eq_iff_iff,Bool.not_eq_true',List.isEmpty_eq_false_iff_exists_mem,lacksIff]
  simp only [memMissing]

theorem getReconciled (m : KeyMap V) (live : List String) (v : V) (key : String) :
    (m.applyDiff (m.diff live) fun _ => v).get? key =
      if key ∈ live then some ((m.get? key).getD v) else none := by
  rw [applyDiff,getPruned,getTrackConstant]
  simp only [memMissing,memExtra]
  cases found : m.get? key with
  | none => by_cases isLive : key ∈ live <;> simp [isLive]
  | some w => by_cases isLive : key ∈ live <;> simp [isLive]

theorem reconciledIsEmpty (m : KeyMap V) (live : List String) (v : V) :
    (m.applyDiff (m.diff live) fun _ => v).isEmpty = live.isEmpty := by
  rw [Bool.eq_iff_iff,isEmptyIff,List.isEmpty_iff,List.eq_nil_iff_forall_not_mem]
  refine forall_congr' fun key => ?_
  rw [getReconciled]
  by_cases isLive : key ∈ live <;> simp [isLive]

theorem getRetained (m : KeyMap V) (live : List String) (key : String) :
    (m.prune (m.diff live).extra).get? key = if key ∈ live then m.get? key else none := by
  rw [getPruned]
  simp only [memExtra]
  cases found : m.get? key with
  | none => simp
  | some w => by_cases isLive : key ∈ live <;> simp [isLive]

end Coursework.KeyMap
