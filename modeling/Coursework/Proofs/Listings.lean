import Coursework.Listing
import Mathlib.Data.List.Nodup

/-! Lists whose items have keys of their own: what is found and what is filtered under a key, what a
replacement leaves, and what sorting makes of a list that is mapped or already in order. -/
namespace Coursework

section Sorted

variable {α β : Type} {before : α → α → Bool}

theorem insertOrderedFirst {a : α} {as : List α} (first : ∀ b ∈ as, before b a = false) :
    insertOrdered before a as = a :: as := by
  cases as with
  | nil => rfl
  | cons b bs => simp [insertOrdered,first b List.mem_cons_self]

theorem sortOrderedSorted {as : List α} (sorted : as.Pairwise fun a b => before b a = false) :
    sortOrdered before as = as := by
  induction as with
  | nil => rfl
  | cons a as ih =>
    obtain ⟨first,rest⟩ := List.pairwise_cons.mp sorted
    rw [sortOrdered,ih rest,insertOrderedFirst first]

section Told

variable {as : List α} (passes : ∀ a b c, before a b = true → before b c = true → before a c = true)
  (told : as.Pairwise fun a b => before a b = true ∨ before b a = true)

include passes

theorem insertOrderedPairwise {a : α} (apart : ∀ b ∈ as, before a b = true ∨ before b a = true)
    (sorted : as.Pairwise (before · · = true)) :
    (insertOrdered before a as).Pairwise (before · · = true) := by
  induction as with
  | nil => exact List.pairwise_singleton _ a
  | cons b bs ih =>
    obtain ⟨here,rest⟩ := List.forall_mem_cons.mp apart
    obtain ⟨first,others⟩ := List.pairwise_cons.mp sorted
    unfold insertOrdered
    split
    · rename_i behind
      refine List.pairwise_cons.mpr ⟨fun c member => ?_,ih rest others⟩
      rcases List.mem_cons.mp ((insertOrderedPerm before a bs).mem_iff.mp member) with rfl | inside
      · exact behind
      · exact first c inside
    · rename_i notBehind
      have ahead : before a b = true := here.resolve_right notBehind
      refine List.pairwise_cons.mpr ⟨fun c member => ?_,sorted⟩
      rcases List.mem_cons.mp member with rfl | inside
      · exact ahead
      · exact passes a b c ahead (first c inside)

include told

theorem sortOrderedPairwise : (sortOrdered before as).Pairwise (before · · = true) := by
  induction as with
  | nil => exact .nil
  | cons a as ih =>
    obtain ⟨here,rest⟩ := List.pairwise_cons.mp told
    refine insertOrderedPairwise passes (fun b member => ?_) (ih rest)
    exact here b ((sortOrderedPerm before as).mem_iff.mp member)

theorem sortOrderedBackwards (notBack : ∀ a b, before a b = true → before b a = false) :
    sortOrdered (fun a b => before b a) as = (sortOrdered before as).reverse := by
  have falling : (sortOrdered (fun a b => before b a) as).Pairwise fun a b => before b a = true :=
    sortOrderedPairwise (fun a b c first next => passes c b a next first)
      (told.imp fun either => either.symm)
  have risen : (sortOrdered before as).reverse.Pairwise fun a b => before b a = true :=
    List.pairwise_reverse.mpr (sortOrderedPairwise passes told)
  have same : (sortOrdered (fun a b => before b a) as).Perm (sortOrdered before as).reverse :=
    (sortOrderedPerm _ as).trans ((List.reverse_perm _).trans (sortOrderedPerm before as)).symm
  refine same.eq_of_pairwise (fun a b _ _ first back => ?_) falling risen
  rw [notBack b a first] at back
  cases back

end Told

variable {after : β → β → Bool} {f : α → β}

theorem insertOrderedMapped {a : α} {as : List α}
    (agree : ∀ b ∈ as, after (f b) (f a) = before b a) :
    insertOrdered after (f a) (as.map f) = (insertOrdered before a as).map f := by
  induction as with
  | nil => rfl
  | cons b bs ih =>
    obtain ⟨here,rest⟩ := List.forall_mem_cons.mp agree
    rw [List.map_cons,insertOrdered,insertOrdered,here,ih rest]
    split <;> rfl

theorem sortOrderedMapped {as : List α} (agree : ∀ a ∈ as, ∀ b ∈ as, after (f a) (f b) = before a b) :
    sortOrdered after (as.map f) = (sortOrdered before as).map f := by
  induction as with
  | nil => rfl
  | cons a as ih =>
    have rest := ih fun b there c also =>
      agree b (List.mem_cons_of_mem a there) c (List.mem_cons_of_mem a also)
    rw [List.map_cons,sortOrdered,sortOrdered,rest]
    refine insertOrderedMapped fun b member => ?_
    have there : b ∈ as := (sortOrderedPerm before as).mem_iff.mp member
    exact agree b (List.mem_cons_of_mem a there) a List.mem_cons_self

end Sorted

theorem replacedAll {α : Type} {same : α → Bool} {P : α → Prop} {a : α} {as : List α} (new : P a)
    (all : ∀ b ∈ as, P b) : ∀ b ∈ replaceOrAppend same a as, P b := by
  induction as with
  | nil => exact List.forall_mem_cons.mpr ⟨new,all⟩
  | cons c as ih =>
    obtain ⟨here,rest⟩ := List.forall_mem_cons.mp all
    rw [replaceOrAppend]
    split
    · exact List.forall_mem_cons.mpr ⟨new,rest⟩
    · exact List.forall_mem_cons.mpr ⟨here,ih rest⟩

section Keyed

variable {α β κ : Type} {key : α → κ} {as bs : List α}

theorem keyedSame (distinct : (as.map key).Nodup) {a b : α} (here : a ∈ as) (there : b ∈ as)
    (same : key a = key b) : a = b :=
  List.inj_on_of_nodup_map distinct here there same

theorem foundIff (distinct : (as.map key).Nodup) {same : α → Bool} {k : κ}
    (tests : ∀ a, same a = true ↔ key a = k) {a : α} :
    as.find? same = some a ↔ a ∈ as ∧ key a = k := by
  constructor
  · intro found
    exact ⟨List.mem_of_find?_eq_some found,(tests a).mp (List.find?_some found)⟩
  · rintro ⟨member,rfl⟩
    cases found : as.find? same with
    | none => exact absurd ((tests a).mpr rfl) (List.find?_eq_none.mp found a member)
    | some b =>
      have equal := (tests b).mp (List.find?_some found)
      rw [keyedSame distinct (List.mem_of_find?_eq_some found) member equal]

theorem foundAlike (distinct : (as.map key).Nodup) (perm : as.Perm bs) {same : α → Bool} {k : κ}
    (tests : ∀ a, same a = true ↔ key a = k) : as.find? same = bs.find? same := by
  have distinctToo : (bs.map key).Nodup := (perm.map key).nodup_iff.mp distinct
  refine Option.ext fun a => ?_
  rw [foundIff distinct tests,foundIff distinctToo tests,perm.mem_iff]

theorem filteredKey (distinct : (as.map key).Nodup) {same : α → Bool} {k : κ}
    (tests : ∀ a, same a = true ↔ key a = k) : as.filter same = (as.find? same).toList := by
  induction as with
  | nil => rfl
  | cons a as ih =>
    rw [List.map_cons,List.nodup_cons] at distinct
    cases here : same a with
    | true =>
      have none : as.filter same = [] := by
        refine List.filter_eq_nil_iff.mpr fun b member also => distinct.1 ?_
        have equal := ((tests b).mp also).trans ((tests a).mp here).symm
        exact List.mem_map.mpr ⟨b,member,equal⟩
      rw [List.filter_cons_of_pos here,List.find?_cons_of_pos here,none]
      rfl
    | false =>
      have open_ : ¬same a = true := by simp [here]
      rw [List.filter_cons_of_neg open_,List.find?_cons_of_neg open_,ih distinct.2]

theorem unusedKey [BEq κ] [LawfulBEq κ] {k : κ} {ks : List κ} (fresh : (as.map key ++ k :: ks).Nodup) :
    ¬as.any (fun a => key a == k) = true := by
  intro taken
  obtain ⟨a,member,same⟩ := List.any_eq_true.mp taken
  exact (List.nodup_append.mp fresh).2.2 _ (List.mem_map_of_mem member) _ List.mem_cons_self
    (eq_of_beq same)

section Under

variable [BEq κ] [LawfulBEq κ] {keys : List κ}

def foundUnder (key : α → κ) (as : List α) (keys : List κ) : List α :=
  keys.flatMap fun k => (as.find? fun a => key a == k).toList

theorem memFoundUnder (distinct : (as.map key).Nodup) {a : α} :
    a ∈ foundUnder key as keys ↔ a ∈ as ∧ key a ∈ keys := by
  simp only [foundUnder,List.mem_flatMap,Option.mem_toList,
    foundIff distinct fun _ => beq_iff_eq]
  constructor
  · rintro ⟨k,listed,member,rfl⟩
    exact ⟨member,listed⟩
  · rintro ⟨member,listed⟩
    exact ⟨_,listed,member,rfl⟩

theorem foundUnderDistinct (apart : keys.Nodup) : ((foundUnder key as keys).map key).Nodup := by
  have under : ∀ k, ∀ found ∈ ((as.find? fun a => key a == k).toList).map key, found = k := by
    intro k found member
    obtain ⟨a,inside,rfl⟩ := List.mem_map.mp member
    have hit := List.find?_some (Option.mem_toList.mp inside)
    exact eq_of_beq hit
  rw [foundUnder,List.map_flatMap,List.nodup_flatMap]
  refine ⟨fun k _ => ?_,apart.imp fun other found first second => other ?_⟩
  · cases as.find? fun a => key a == k <;> simp
  · exact (under _ found first).symm.trans (under _ found second)

end Under

theorem replacedKey (distinct : (as.map key).Nodup) {same : α → Bool} {a : α}
    (tests : ∀ b, same b = true ↔ key b = key a) :
    replaceOrAppend same a as =
      if as.any same then as.map fun b => if same b then a else b else as ++ [a] := by
  induction as with
  | nil => rfl
  | cons b as ih =>
    rw [List.map_cons,List.nodup_cons] at distinct
    rw [replaceOrAppend,List.any_cons,List.map_cons]
    cases here : same b with
    | true =>
      have others : (as.map fun c => if same c then a else c) = as := by
        refine (List.map_congr_left fun c member => if_neg fun also => ?_).trans (List.map_id as)
        have equal := ((tests c).mp also).trans ((tests b).mp here).symm
        exact distinct.1 (List.mem_map.mpr ⟨c,member,equal⟩)
      simp [others]
    | false =>
      rw [ih distinct.2]
      cases as.any same <;> simp

theorem replacedPerm (distinct : (as.map key).Nodup) {same : α → Bool} {a : α}
    (tests : ∀ b, same b = true ↔ key b = key a) :
    (replaceOrAppend same a as).Perm ((as.filter fun b => !same b) ++ [a]) := by
  induction as with
  | nil => exact .refl _
  | cons b as ih =>
    rw [List.map_cons,List.nodup_cons] at distinct
    rw [replaceOrAppend]
    cases here : same b with
    | true =>
      have others : (as.filter fun c => !same c) = as := by
        refine List.filter_eq_self.mpr fun c member => ?_
        rw [Bool.not_eq_true',← Bool.not_eq_true]
        intro also
        have equal := ((tests c).mp also).trans ((tests b).mp here).symm
        exact distinct.1 (List.mem_map.mpr ⟨c,member,equal⟩)
      simpa [here,others] using (List.perm_append_singleton a as).symm
    | false => simpa [here] using ih distinct.2

theorem replacedDistinct (distinct : (as.map key).Nodup) {same : α → Bool} {a : α}
    (tests : ∀ b, same b = true ↔ key b = key a) :
    ((replaceOrAppend same a as).map key).Nodup := by
  refine ((replacedPerm distinct tests).map key).nodup_iff.mpr ?_
  rw [List.map_append,List.map_singleton,List.nodup_append]
  refine ⟨distinct.sublist (List.filter_sublist.map key),List.nodup_singleton _,?_⟩
  intro k kept other last equal
  obtain ⟨b,member,rfl⟩ := List.mem_map.mp kept
  have hit := (tests b).mpr (equal.trans (List.mem_singleton.mp last))
  simp [hit] at member

theorem ownerUnique {f : α → List β} (distinct : (as.flatMap f).Nodup) {a b : α} (here : a ∈ as)
    (there : b ∈ as) {x : β} (inside : x ∈ f a) (also : x ∈ f b) : a = b := by
  induction as with
  | nil => cases here
  | cons c as ih =>
    rw [List.flatMap_cons,List.nodup_append] at distinct
    obtain ⟨_,rest,disjoint⟩ := distinct
    have apart : ∀ d ∈ as, x ∈ f c → x ∉ f d := fun d member first later =>
      disjoint x first x (List.mem_flatMap.mpr ⟨d,member,later⟩) rfl
    rcases List.mem_cons.mp here with rfl | later <;> rcases List.mem_cons.mp there with rfl | last
    · rfl
    · exact absurd also (apart b last inside)
    · exact absurd inside (apart a later also)
    · exact ih rest later last

theorem flatMapFiltered {f : α → List β} {p : β → Bool} {q : α → Bool}
    (agree : ∀ a ∈ as, ∀ b ∈ f a, p b = q a) : (as.flatMap f).filter p = (as.filter q).flatMap f := by
  induction as with
  | nil => rfl
  | cons a as ih =>
    obtain ⟨here,rest⟩ := List.forall_mem_cons.mp agree
    rw [List.flatMap_cons,List.filter_append,ih rest,List.filter_cons]
    cases kept : q a with
    | true =>
      rw [List.filter_eq_self.mpr fun b member => (here b member).trans kept]
      simp
    | false =>
      rw [List.filter_eq_nil_iff.mpr fun b member => by simp [here b member,kept]]
      simp

end Keyed

end Coursework
