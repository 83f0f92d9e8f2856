import Coursework.Proofs.TextOrder

/-! Texts compared byte by byte in UTF-8, as tables compare them. A character with more bytes begins with
a greater one, and of as many bytes the greater character has the greater ones; so texts stand in the
order of their bytes as they do in that of their characters. -/
namespace Coursework.Text

def bytes (s : String) : List UInt8 := s.toUTF8.data.toList

theorem bytesAre (s : String) : bytes s = s.toList.flatMap String.utf8EncodeChar := by
  have encoded : s.toUTF8 = s.toList.utf8Encode := by
    rw [String.toUTF8_eq_toByteArray,← String.toByteArray_ofList,String.ofList_toList]
  rw [bytes,encoded,List.utf8Encode,List.data_toByteArray]

theorem bytesSame {s t : String} : bytes s = bytes t ↔ s = t :=
  ⟨fun same => String.toByteArray_inj.mp (ByteArray.ext (Array.toList_inj.mp same)),congrArg bytes⟩

theorem byteBefore {n m : Nat} {as bs : List UInt8} (small : m < 256) (most : n ≤ m)
    (next : n = m → as < bs) : UInt8.ofNat n :: as < UInt8.ofNat m :: bs := by
  rw [List.cons_lt_cons_iff]
  rcases Nat.lt_or_eq_of_le most with less | same
  · refine .inl (UInt8.lt_iff_toNat_lt.mpr ?_)
    rw [UInt8.toNat_ofNat',UInt8.toNat_ofNat',Nat.mod_eq_of_lt small,
      Nat.mod_eq_of_lt (Nat.lt_trans less small)]
    exact less
  · exact .inr ⟨congrArg UInt8.ofNat same,next same⟩

theorem leadBefore {n m : Nat} {as bs : List UInt8} (small : m < 256) (less : n < m) :
    UInt8.ofNat n :: as < UInt8.ofNat m :: bs :=
  byteBefore small (Nat.le_of_lt less) fun same => absurd same (Nat.ne_of_lt less)

theorem charBytesBefore {c d : Char} (first : c < d) (as bs : List UInt8) :
    String.utf8EncodeChar c ++ as < String.utf8EncodeChar d ++ bs := by
  have less : c.val.toNat < d.val.toNat := first
  have top : d.val.toNat < 1114112 := by
    have valid : d.val.toNat < 55296 ∨ 57343 < d.val.toNat ∧ d.val.toNat < 1114112 := d.valid
    omega
  simp only [String.utf8EncodeChar]
  generalize c.val.toNat = n at less
  generalize d.val.toNat = m at less top
  -- in one class of characters the bytes decide in turn, and of two classes the first byte
  by_cases one : n ≤ 127
  · rw [if_pos one]
    by_cases other : m ≤ 127
    · rw [if_pos other]
      exact leadBefore (by omega) less
    · rw [if_neg other]
      split
      · exact leadBefore (by omega) (by omega)
      · split <;> exact leadBefore (by omega) (by omega)
  · have alsoOne : ¬m ≤ 127 := by omega
    rw [if_neg one,if_neg alsoOne]
    by_cases two : n ≤ 2047
    · rw [if_pos two]
      by_cases other : m ≤ 2047
      · rw [if_pos other]
        refine byteBefore (by omega) (by omega) fun high => ?_
        exact leadBefore (by omega) (by omega)
      · rw [if_neg other]
        split <;> exact leadBefore (by omega) (by omega)
    · have alsoTwo : ¬m ≤ 2047 := by omega
      rw [if_neg two,if_neg alsoTwo]
      by_cases three : n ≤ 65535
      · rw [if_pos three]
        by_cases other : m ≤ 65535
        · rw [if_pos other]
          refine byteBefore (by omega) (by omega) fun high => ?_
          refine byteBefore (by omega) (by omega) fun middle => ?_
          exact leadBefore (by omega) (by omega)
        · rw [if_neg other]
          exact leadBefore (by omega) (by omega)
      · have alsoThree : ¬m ≤ 65535 := by omega
        rw [if_neg three,if_neg alsoThree]
        refine byteBefore (by omega) (by omega) fun high => ?_
        refine byteBefore (by omega) (by omega) fun upper => ?_
        refine byteBefore (by omega) (by omega) fun middle => ?_
        exact leadBefore (by omega) (by omega)

theorem bytesBefore {s t : String} (first : s < t) : bytes s < bytes t := by
  rw [bytesAre,bytesAre]
  rw [String.lt_iff] at first
  generalize s.toList = cs at first
  generalize t.toList = ds at first
  induction cs generalizing ds with
  | nil =>
    cases ds with
    | nil => cases first
    | cons d ds =>
      cases encoded : String.utf8EncodeChar d with
      | nil => cases String.utf8EncodeChar_ne_nil encoded
      | cons byte rest =>
        rw [List.flatMap_nil,List.flatMap_cons,encoded]
        exact List.nil_lt_cons _ _
  | cons c cs ih =>
    cases ds with
    | nil => cases first
    | cons d ds =>
      rw [List.flatMap_cons,List.flatMap_cons]
      rcases List.cons_lt_cons_iff.mp first with here | ⟨rfl,later⟩
      · exact charBytesBefore here _ _
      · exact sameBefore _ (ih ds later)

theorem bytesOrdered {s t : String} : bytes s < bytes t ↔ s < t := by
  refine ⟨fun first => Decidable.byContradiction fun later => ?_,bytesBefore⟩
  by_cases back : t < s
  · exact List.lt_asymm first (bytesBefore back)
  · have same : s = t := String.le_antisymm back later
    exact List.lt_irrefl _ (same ▸ first)

end Coursework.Text
