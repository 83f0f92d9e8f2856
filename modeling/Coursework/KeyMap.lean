/-!
Maps with text keys, kept as entries in ascending order of the keys. The order of keys is the
order of their code points, which is also that of their UTF-8 bytes. Two maps are equal exactly
when every look-up agrees (`KeyMap.ext`).
-/
namespace Coursework

/-- Entries in strictly ascending order of their keys. -/
structure KeyMap (V : Type) where
  entries : List (String × V)
  ascending : entries.Pairwise fun a b => a.1 < b.1
  deriving DecidableEq, Repr

namespace KeyMap

variable {V W : Type}

def empty : KeyMap V := ⟨[],.nil⟩

instance : EmptyCollection (KeyMap V) := ⟨empty⟩
instance : Inhabited (KeyMap V) := ⟨empty⟩

def keys (m : KeyMap V) : List String := m.entries.map Prod.fst

def values (m : KeyMap V) : List V := m.entries.map Prod.snd

def size (m : KeyMap V) : Nat := m.entries.length

def isEmpty (m : KeyMap V) : Bool := m.entries.isEmpty

def lookup (key : String) : List (String × V) → Option V
  | [] => none
  | (k,v) :: rest => if k = key then some v else lookup key rest

def get? (m : KeyMap V) (key : String) : Option V := lookup key m.entries

def contains (m : KeyMap V) (key : String) : Bool := (m.get? key).isSome

def put (key : String) (value : V) : List (String × V) → List (String × V)
  | [] => [(key,value)]
  | (k,v) :: rest =>
    if key < k then (key,value) :: (k,v) :: rest
    else if k < key then (k,v) :: put key value rest
    else (key,value) :: rest

theorem sameOfNotBefore {a b : String} (h : ¬a < b) (h' : ¬b < a) : a = b :=
  String.le_antisymm (String.not_lt.1 h') (String.not_lt.1 h)

theorem putKeys {key k : String} {value : V} {entries : List (String × V)}
    (h : k ∈ (put key value entries).map Prod.fst) : k = key ∨ k ∈ entries.map Prod.fst := by
  induction entries with
  | nil => simpa [put] using h
  | cons e rest ih =>
    obtain ⟨k',v'⟩ := e
    unfold put at h
    split at h
    · simpa using h
    · split at h
      · simp only [List.map_cons,List.mem_cons] at h ⊢
        rcases h with h | h
        · exact .inr (.inl h)
        · rcases ih h with h | h
          · exact .inl h
          · exact .inr (.inr h)
      · simp only [List.map_cons,List.mem_cons] at h ⊢
        rcases h with h | h
        · exact .inl h
        · exact .inr (.inr h)

theorem putAscending (key : String) (value : V) {entries : List (String × V)}
    (h : entries.Pairwise fun a b => a.1 < b.1) :
    (put key value entries).Pairwise fun a b => a.1 < b.1 := by
  induction entries with
  | nil => simp [put]
  | cons e rest ih =>
    obtain ⟨k,v⟩ := e
    rw [List.pairwise_cons] at h
    unfold put
    split
    · next below =>
      refine List.pairwise_cons.2 ⟨?_,List.pairwise_cons.2 h⟩
      intro entry mem
      rcases List.mem_cons.1 mem with rfl | mem
      · exact below
      · exact String.lt_trans below (h.1 entry mem)
    · split
      · next above =>
        refine List.pairwise_cons.2 ⟨?_,ih h.2⟩
        intro entry mem
        rcases putKeys (List.mem_map_of_mem mem) with same | old
        · exact same ▸ above
        · obtain ⟨other,otherMem,same⟩ := List.mem_map.1 old
          exact same ▸ h.1 other otherMem
      · next notBelow notAbove =>
        have same := sameOfNotBefore notBelow notAbove
        exact List.pairwise_cons.2 ⟨fun entry mem => same ▸ h.1 entry mem,h.2⟩

def insert (m : KeyMap V) (key : String) (value : V) : KeyMap V :=
  ⟨put key value m.entries,putAscending key value m.ascending⟩

def erase (m : KeyMap V) (key : String) : KeyMap V :=
  ⟨m.entries.filter fun e => e.1 != key,m.ascending.filter _⟩

def map (f : V → W) (m : KeyMap V) : KeyMap W :=
  ⟨m.entries.map fun e => (e.1,f e.2),by
    simpa [List.pairwise_map] using m.ascending⟩

def modify (m : KeyMap V) (key : String) (f : V → V) : KeyMap V :=
  match m.get? key with
  | some v => m.insert key (f v)
  | none => m

def ofList (entries : List (String × V)) : KeyMap V :=
  entries.foldl (fun m e => m.insert e.1 e.2) empty

theorem lookupPut (key k : String) (value : V) {entries : List (String × V)}
    (h : entries.Pairwise fun a b => a.1 < b.1) :
    lookup k (put key value entries) = if key = k then some value else lookup k entries := by
  induction entries with
  | nil => simp [put,lookup]
  | cons e rest ih =>
    obtain ⟨k',v'⟩ := e
    rw [List.pairwise_cons] at h
    unfold put
    split
    · simp [lookup]
    · split
      · next above =>
        simp only [lookup,ih h.2]
        split
        · next same =>
          subst same
          have apart : key ≠ k' := fun same => by
            subst same; exact String.lt_irrefl key above
          rw [if_neg apart]
        · rfl
      · next notBelow notAbove =>
        have same := sameOfNotBefore notBelow notAbove
        subst same
        simp only [lookup]
        split <;> rfl

@[simp] theorem getEmpty (key : String) : (empty : KeyMap V).get? key = none := rfl

theorem getInsert (m : KeyMap V) (key k : String) (value : V) :
    (m.insert key value).get? k = if key = k then some value else m.get? k :=
  lookupPut key k value m.ascending

theorem lookupWithout (key k : String) (entries : List (String × V)) :
    lookup k (entries.filter fun e => e.1 != key) =
      if key = k then none else lookup k entries := by
  induction entries with
  | nil => simp [lookup]
  | cons e rest ih =>
    obtain ⟨k',v'⟩ := e
    by_cases dropped : k' = key <;> by_cases same : key = k <;>
      by_cases found : k' = k <;> simp_all [lookup]

theorem getErase (m : KeyMap V) (key k : String) :
    (m.erase key).get? k = if key = k then none else m.get? k :=
  lookupWithout key k m.entries

theorem lookupMap (f : V → W) (key : String) (entries : List (String × V)) :
    lookup key (entries.map fun e => (e.1,f e.2)) = (lookup key entries).map f := by
  induction entries with
  | nil => rfl
  | cons e rest ih => by_cases h : e.1 = key <;> simp_all [lookup]

theorem getMap (f : V → W) (m : KeyMap V) (key : String) :
    (m.map f).get? key = (m.get? key).map f :=
  lookupMap f key m.entries

theorem lookupNoneIff {key : String} {entries : List (String × V)} :
    lookup key entries = none ↔ key ∉ entries.map Prod.fst := by
  induction entries with
  | nil => simp [lookup]
  | cons e rest ih =>
    by_cases h : e.1 = key
    · simp [lookup,h]
    · have h' : key ≠ e.1 := fun same => h same.symm
      simp [lookup,h,h',ih]

theorem getNoneIff {m : KeyMap V} {key : String} : m.get? key = none ↔ key ∉ m.keys :=
  lookupNoneIff

theorem memKeysIff {m : KeyMap V} {key : String} : key ∈ m.keys ↔ (m.get? key).isSome := by
  cases h : m.get? key with
  | none => simp [getNoneIff.1 h]
  | some v =>
    have found : ¬key ∉ m.keys := fun absent => by simp [getNoneIff.2 absent] at h
    simpa using found

theorem containsIff {m : KeyMap V} {key : String} : m.contains key = true ↔ key ∈ m.keys :=
  memKeysIff.symm

theorem lookupBelow {key : String} {entries : List (String × V)}
    (h : ∀ e ∈ entries, key < e.1) : lookup key entries = none := by
  refine lookupNoneIff.2 fun mem => ?_
  obtain ⟨e,eMem,same⟩ := List.mem_map.1 mem
  exact String.lt_irrefl key (same ▸ h e eMem)

theorem sameLookUps {a b : List (String × V)}
    (ha : a.Pairwise fun x y => x.1 < y.1) (hb : b.Pairwise fun x y => x.1 < y.1)
    (h : ∀ key, lookup key a = lookup key b) : a = b := by
  induction a generalizing b with
  | nil =>
    cases b with
    | nil => rfl
    | cons e rest => have := h e.1; simp [lookup] at this
  | cons e rest ih =>
    obtain ⟨k,v⟩ := e
    cases b with
    | nil => have := h k; simp [lookup] at this
    | cons e' rest' =>
      obtain ⟨k',v'⟩ := e'
      rw [List.pairwise_cons] at ha hb
      have same : k = k' := by
        refine sameOfNotBefore (fun below => ?_) (fun below => ?_)
        · have gone : lookup k ((k',v') :: rest') = none :=
            lookupBelow fun e mem => by
              rcases List.mem_cons.1 mem with rfl | mem
              · exact below
              · exact String.lt_trans below (hb.1 e mem)
          have := h k
          rw [gone] at this
          simp [lookup] at this
        · have gone : lookup k' ((k,v) :: rest) = none :=
            lookupBelow fun e mem => by
              rcases List.mem_cons.1 mem with rfl | mem
              · exact below
              · exact String.lt_trans below (ha.1 e mem)
          have := h k'
          rw [gone] at this
          simp [lookup] at this
      subst same
      have value := h k
      simp only [lookup,if_true] at value
      have tails : rest = rest' := by
        refine ih ha.2 hb.2 fun key => ?_
        by_cases here : k = key
        · subst here
          rw [lookupBelow ha.1,lookupBelow hb.1]
        · have := h key
          simpa [lookup,here] using this
      rw [tails,Option.some.inj value]

theorem ext {a b : KeyMap V} (h : ∀ key, a.get? key = b.get? key) : a = b := by
  have same := sameLookUps a.ascending b.ascending h
  cases a; cases b; cases same; rfl

theorem keysAscending (m : KeyMap V) : m.keys.Pairwise (· < ·) := by
  simpa [keys,List.pairwise_map] using m.ascending

theorem keysApart (m : KeyMap V) : m.keys.Nodup :=
  m.keysAscending.imp fun below => by
    rintro rfl; exact String.lt_irrefl _ below

end KeyMap

end Coursework
