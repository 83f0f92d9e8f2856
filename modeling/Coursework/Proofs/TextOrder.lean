import Coursework.Id
import Coursework.Proofs.StoredText

/-! Texts in the order of what they say. Of identifiers, and of stored instants whose years have four
digits, the texts stand in the order of their code points as the identifiers and the instants do. -/
namespace Coursework

namespace Text

section Lists

variable {α β : Type} [LT α] [LT β]

theorem appendBefore {xs ys : List α} (as bs : List α) (same : xs.length = ys.length)
    (first : xs < ys) : xs ++ as < ys ++ bs := by
  induction xs generalizing ys with
  | nil =>
    cases ys with
    | nil => cases first
    | cons y ys => cases same
  | cons x xs ih =>
    cases ys with
    | nil => cases same
    | cons y ys =>
      rw [List.cons_append,List.cons_append,List.cons_lt_cons_iff]
      rcases List.cons_lt_cons_iff.mp first with here | ⟨equal,later⟩
      · exact .inl here
      · exact .inr ⟨equal,ih (Nat.succ.inj same) later⟩

theorem sameBefore (xs : List α) {as bs : List α} (later : as < bs) : xs ++ as < xs ++ bs := by
  induction xs with
  | nil => exact later
  | cons x xs ih => exact List.cons_lt_cons_iff.mpr (.inr ⟨rfl,ih⟩)

theorem mapBefore {f : α → β} (ordered : ∀ a b, a < b → f a < f b) {xs ys : List α}
    (first : xs < ys) : xs.map f < ys.map f := by
  induction xs generalizing ys with
  | nil =>
    cases ys with
    | nil => cases first
    | cons y ys => exact List.nil_lt_cons _ _
  | cons x xs ih =>
    cases ys with
    | nil => cases first
    | cons y ys =>
      rw [List.map_cons,List.map_cons,List.cons_lt_cons_iff]
      rcases List.cons_lt_cons_iff.mp first with here | ⟨rfl,later⟩
      · exact .inl (ordered x y here)
      · exact .inr ⟨rfl,ih later⟩

theorem splitBefore (count : Nat) {xs ys : List α} (same : xs.length = ys.length)
    (first : xs < ys) : xs.take count < ys.take count ∨
      xs.take count = ys.take count ∧ xs.drop count < ys.drop count := by
  induction count generalizing xs ys with
  | zero => exact .inr ⟨by simp,by simpa using first⟩
  | succ count ih =>
    cases xs with
    | nil =>
      cases ys with
      | nil => cases first
      | cons y ys => cases same
    | cons x xs =>
      cases ys with
      | nil => cases same
      | cons y ys =>
        simp only [List.take_succ_cons,List.drop_succ_cons,List.cons_lt_cons_iff,
          List.cons.injEq]
        rcases List.cons_lt_cons_iff.mp first with here | ⟨rfl,later⟩
        · exact .inl (.inl here)
        · rcases ih (Nat.succ.inj same) later with here | ⟨equal,rest⟩
          · exact .inl (.inr ⟨rfl,here⟩)
          · exact .inr ⟨⟨rfl,equal⟩,rest⟩

end Lists

theorem digitCharBefore {a b : Nat} (first : a < b) (small : b < 10) : digitChar a < digitChar b := by
  have table : ∀ b, b < 10 → ∀ a, a < b → digitChar a < digitChar b := by decide
  exact table b small a first

theorem fixedBefore {width n m : Nat} (first : n < m) (small : m < powerOfTen width) :
    fixed width n < fixed width m := by
  induction width generalizing n m with
  | zero =>
    simp only [powerOfTen] at small
    omega
  | succ width ih =>
    simp only [powerOfTen] at small
    rw [fixed,fixed]
    by_cases front : n / 10 < m / 10
    · exact appendBefore _ _ (by simp) (ih front (by omega))
    · have same : n / 10 = m / 10 := by omega
      rw [same]
      refine sameBefore _ (List.cons_lt_cons_iff.mpr (.inl ?_))
      exact digitCharBefore (by omega) (Nat.mod_lt _ (by decide))

theorem fieldBefore {width n m : Nat} {as bs : List Char} (small : m < powerOfTen width)
    (first : n < m ∨ n = m ∧ as < bs) : fixed width n ++ as < fixed width m ++ bs := by
  rcases first with here | ⟨rfl,later⟩
  · exact appendBefore as bs (by simp) (fixedBefore here small)
  · exact sameBefore _ later

theorem charBefore (c : Char) {as bs : List Char} (later : as < bs) : c :: as < c :: bs :=
  List.cons_lt_cons_iff.mpr (.inr ⟨rfl,later⟩)

theorem fixedSplit (front back n : Nat) :
    fixed (front + back) n = fixed front (n / powerOfTen back) ++ fixed back n := by
  induction back generalizing n with
  | zero => simp [fixed,powerOfTen]
  | succ back ih =>
    have shift : n / 10 / powerOfTen back = n / powerOfTen (back + 1) := by
      rw [Nat.div_div_eq_div_mul,powerOfTen]
    rw [← Nat.add_assoc,fixed,fixed,ih,shift,List.append_assoc]

theorem plusBefore (width n : Nat) (as bs : List Char) : '+' :: as < fixed (width + 1) n ++ bs := by
  cases digits : fixed (width + 1) n with
  | nil =>
    have length := fixedLength (width + 1) n
    rw [digits] at length
    cases length
  | cons c cs =>
    have digit : isDigit c = true := fixedAreDigits (digits ▸ List.mem_cons_self)
    refine List.cons_lt_cons_iff.mpr (.inl ?_)
    simp only [isDigit,digit?] at digit
    split at digit
    · rename_i range
      have less : ('+' : Char).toNat < c.toNat := Nat.lt_of_lt_of_le (by decide) range.1
      exact less
    · cases digit

theorem shorterBefore (more : Nat) {width v w : Nat} (as bs : List Char)
    (small : w / powerOfTen (more + 1) < powerOfTen width) (first : v ≤ w / powerOfTen (more + 1)) :
    fixed width v ++ '+' :: as < fixed (width + (more + 1)) w ++ bs := by
  rw [fixedSplit,List.append_assoc]
  refine fieldBefore small ?_
  rcases Nat.lt_or_eq_of_le first with here | same
  · exact .inl here
  · exact .inr ⟨same,plusBefore more w as bs⟩

theorem longerBefore (more : Nat) {width v w : Nat} (as bs : List Char) (small : w < powerOfTen width)
    (first : v / powerOfTen more < w) :
    fixed (width + more) v ++ as < fixed width w ++ bs := by
  rw [fixedSplit,List.append_assoc]
  exact fieldBefore small (.inl first)

end Text

namespace Date

def Precedes (d e : Date) : Prop :=
  d.year < e.year ∨ d.year = e.year ∧ (d.month < e.month ∨ d.month = e.month ∧ d.day < e.day)

theorem monthsPrecede (leap : Bool) {month other : Nat} (positive : 1 ≤ month)
    (first : month < other) (last : other ≤ 12) :
    total ((monthLengths leap).take (month - 1)) + (monthLengths leap)[month - 1]?.getD 0 ≤
      total ((monthLengths leap).take (other - 1)) := by
  have table : ∀ leap : Bool, ∀ other, other < 13 → ∀ month, month < other → 1 ≤ month →
      total ((monthLengths leap).take (month - 1)) + (monthLengths leap)[month - 1]?.getD 0 ≤
        total ((monthLengths leap).take (other - 1)) := by decide
  exact table leap other (by omega) month first positive

theorem withinYear {d : Date} (valid : d.isValid = true) :
    daysBeforeMonth d.year d.month + d.day ≤ total (monthLengths (isLeapYear d.year)) := by
  simp only [isValid,Bool.and_eq_true,decide_eq_true_eq] at valid
  obtain ⟨⟨⟨positive,last⟩,_⟩,fits⟩ := valid
  rw [daysInMonth] at fits
  have table : ∀ leap : Bool, ∀ month, month < 13 → 1 ≤ month →
      total ((monthLengths leap).take (month - 1)) + (monthLengths leap)[month - 1]?.getD 0 ≤
        total (monthLengths leap) := by decide
  have inside := table (isLeapYear d.year) d.month (by omega) positive
  simp only [daysBeforeMonth]
  omega

theorem yearsPrecede {year other : Int} (first : year < other) :
    daysBeforeYear (year + 1) ≤ daysBeforeYear other := by
  simp only [daysBeforeYear]
  omega

theorem precedesNumbered {d e : Date} (valid : d.isValid = true) (validOther : e.isValid = true)
    (first : d.Precedes e) : d.dayNumber < e.dayNumber := by
  have inside := withinYear valid
  have fields := valid
  have otherFields := validOther
  simp only [isValid,Bool.and_eq_true,decide_eq_true_eq] at fields otherFields
  obtain ⟨⟨⟨positive,_⟩,_⟩,fits⟩ := fields
  obtain ⟨⟨⟨_,last⟩,dayPositive⟩,_⟩ := otherFields
  rw [daysInMonth] at fits
  unfold dayNumber
  rcases first with years | ⟨sameYear,months | ⟨sameMonth,days⟩⟩
  · have before := yearsPrecede years
    rw [yearLength] at before
    omega
  · have before := monthsPrecede (isLeapYear d.year) positive months last
    simp only [daysBeforeMonth] at inside ⊢
    rw [← sameYear]
    omega
  · rw [← sameYear,← sameMonth]
    omega

theorem numberedPrecede {n m : Int} (first : n < m) : (ofDayNumber n).Precedes (ofDayNumber m) := by
  have names := ofDayNumberNames n
  have others := ofDayNumberNames m
  have back : ¬(ofDayNumber m).Precedes (ofDayNumber n) := fun back => by
    have number := precedesNumbered others.valid names.valid back
    rw [names.number,others.number] at number
    omega
  have apart : ofDayNumber n ≠ ofDayNumber m := fun same => by
    have number := congrArg dayNumber same
    rw [names.number,others.number] at number
    omega
  have fields : (ofDayNumber n).year = (ofDayNumber m).year →
      (ofDayNumber n).month = (ofDayNumber m).month →
      (ofDayNumber n).day ≠ (ofDayNumber m).day := by
    intro years months days
    apply apart
    cases one : ofDayNumber n
    cases other : ofDayNumber m
    simp_all
  unfold Precedes at back ⊢
  omega

end Date

namespace Instant

open Text

def HasShortYear (t : Instant) : Prop := 0 ≤ t.shown.date.year ∧ t.shown.date.year ≤ 9999

instance (t : Instant) : Decidable t.HasShortYear :=
  inferInstanceAs (Decidable (0 ≤ t.shown.date.year ∧ t.shown.date.year ≤ 9999))

theorem HasShortYear.named {t : Instant} (short : t.HasShortYear) : t.isNamed = true := by
  have names := Date.ofDayNumberNames (t.seconds / 86400)
  have inside := Date.withinYear names.valid
  have valid := names.valid
  have number := names.number
  obtain ⟨low,high⟩ := short
  simp only [shown] at low high
  simp only [Date.isValid,Bool.and_eq_true,decide_eq_true_eq] at valid
  have length : total (Date.monthLengths (Date.isLeapYear
      (Date.ofDayNumber (t.seconds / 86400)).year)) ≤ 366 := by
    cases Date.isLeapYear (Date.ofDayNumber (t.seconds / 86400)).year <;> decide
  have first : firstDay ≤ -800000 := by decide
  have last : 3000000 ≤ lastDay := by decide
  simp only [Date.dayNumber,Date.daysBeforeYear,Date.epochDays] at number
  simp only [isNamed,Bool.and_eq_true,decide_eq_true_eq]
  omega

theorem fractionShape {nanos : Nat} (some : nanos ≠ 0) :
    fractionChars nanos = '.' :: fixed 3 (nanos / 1000000) ∧ nanos % 1000000 = 0 ∨
      fractionChars nanos = '.' :: fixed 6 (nanos / 1000) ∧ nanos % 1000 = 0 ∧
        nanos % 1000000 ≠ 0 ∨
      fractionChars nanos = '.' :: fixed 9 nanos ∧ nanos % 1000 ≠ 0 := by
  by_cases millis : nanos % 1000000 = 0
  · exact .inl ⟨by rw [fractionChars,if_neg some,if_pos millis],millis⟩
  · by_cases micros : nanos % 1000 = 0
    · exact .inr (.inl ⟨by rw [fractionChars,if_neg some,if_neg millis,if_pos micros],micros,millis⟩)
    · exact .inr (.inr ⟨by rw [fractionChars,if_neg some,if_neg millis,if_neg micros],micros⟩)

theorem fractionBefore {n m : Nat} (first : n < m) (small : m < nanosPerSecond) (as : List Char) :
    fractionChars n ++ '+' :: as < fractionChars m ++ '+' :: as := by
  simp only [nanosPerSecond] at small
  have later : m ≠ 0 := by omega
  -- behind the shorter of two fractions stands a sign, which is less than any digit
  by_cases none : n = 0
  · have dot (bs : List Char) : '+' :: as < '.' :: bs :=
      List.cons_lt_cons_iff.mpr (.inl (by decide))
    have empty : fractionChars n = [] := if_pos none
    rw [empty]
    rcases fractionShape later with ⟨shape,_⟩ | ⟨shape,_⟩ | ⟨shape,_⟩ <;>
      rw [shape] <;> exact dot _
  · rcases fractionShape none with ⟨shape,_⟩ | ⟨shape,_,_⟩ | ⟨shape,_⟩ <;>
      rcases fractionShape later with ⟨other,_⟩ | ⟨other,_,_⟩ | ⟨other,_⟩ <;>
      rw [shape,other] <;> refine charBefore '.' ?_
    · exact fieldBefore (by simp only [powerOfTen]; omega) (.inl (by omega))
    · exact shorterBefore 2 _ _ (by simp only [powerOfTen]; omega)
        (by simp only [powerOfTen]; omega)
    · exact shorterBefore 5 _ _ (by simp only [powerOfTen]; omega)
        (by simp only [powerOfTen]; omega)
    · exact longerBefore 3 _ _ (by simp only [powerOfTen]; omega)
        (by simp only [powerOfTen]; omega)
    · exact fieldBefore (by simp only [powerOfTen]; omega) (.inl (by omega))
    · exact shorterBefore 2 _ _ (by simp only [powerOfTen]; omega)
        (by simp only [powerOfTen]; omega)
    · exact longerBefore 6 _ _ (by simp only [powerOfTen]; omega)
        (by simp only [powerOfTen]; omega)
    · exact longerBefore 3 _ _ (by simp only [powerOfTen]; omega)
        (by simp only [powerOfTen]; omega)
    · exact fieldBefore (by simp only [powerOfTen]; omega) (.inl (by omega))

theorem shortLayout {t : Instant} (short : t.HasShortYear) :
    t.storedText.toList = fixed 4 t.shown.date.year.toNat ++
      '-' :: (fixed 2 t.shown.date.month ++ '-' :: (fixed 2 t.shown.date.day ++
      'T' :: (fixed 2 t.shown.hour ++ ':' :: (fixed 2 t.shown.minute ++
      ':' :: (fixed 2 t.shown.second ++
      (fractionChars t.shown.nanos ++ '+' :: ['0','0',':','0','0'])))))) := by
  have year := short
  simp only [HasShortYear,shown] at year
  simp [storedText,charsWith,dateChars,yearChars,shown,year]

theorem clocksPrecede {a b : Instant} (first : a < b) (sameDay : a.seconds / 86400 = b.seconds / 86400) :
    a.shown.hour < b.shown.hour ∨ a.shown.hour = b.shown.hour ∧
      (a.shown.minute < b.shown.minute ∨ a.shown.minute = b.shown.minute ∧
        (a.shown.second < b.shown.second ∨ a.shown.second = b.shown.second ∧
          a.shown.nanos < b.shown.nanos)) := by
  have order : a.seconds < b.seconds ∨ a.seconds = b.seconds ∧ a.nanos < b.nanos := first
  have leap := a.leapEndsMinute
  have small := a.nanosBelow
  have smallOther := b.nanosBelow
  simp only [nanosPerSecond] at leap small smallOther
  simp only [shown,nanosPerSecond]
  omega

theorem storedBefore {a b : Instant} (short : a.HasShortYear) (shortOther : b.HasShortYear)
    (first : a < b) : a.storedText < b.storedText := by
  obtain ⟨month,day,hour,minute,second,nanos⟩ := b.smallFields
  have year : b.shown.date.year.toNat < powerOfTen 4 := by
    have bound := shortOther.2
    simp only [powerOfTen]
    omega
  rw [String.lt_iff,shortLayout short,shortLayout shortOther]
  by_cases days : a.seconds / 86400 < b.seconds / 86400
  · have dates : a.shown.date.Precedes b.shown.date := Date.numberedPrecede days
    have low := short.1
    rcases dates with years | ⟨sameYear,months | ⟨sameMonth,inMonth⟩⟩
    · exact fieldBefore year (.inl (by omega))
    · rw [sameYear]
      refine fieldBefore year (.inr ⟨rfl,charBefore '-' (fieldBefore month (.inl months))⟩)
    · rw [sameYear,sameMonth]
      refine fieldBefore year (.inr ⟨rfl,charBefore '-' (fieldBefore month (.inr ⟨rfl,?_⟩))⟩)
      exact charBefore '-' (fieldBefore day (.inl inMonth))
  · have order : a.seconds < b.seconds ∨ a.seconds = b.seconds ∧ a.nanos < b.nanos := first
    have sameDay : a.seconds / 86400 = b.seconds / 86400 := by omega
    have dates : a.shown.date = b.shown.date := congrArg Date.ofDayNumber sameDay
    rw [dates]
    refine fieldBefore year (.inr ⟨rfl,charBefore '-' (fieldBefore month (.inr ⟨rfl,?_⟩))⟩)
    refine charBefore '-' (fieldBefore day (.inr ⟨rfl,charBefore 'T' (fieldBefore hour ?_)⟩))
    refine (clocksPrecede first sameDay).imp_right (And.imp_right fun minutes => ?_)
    refine charBefore ':' (fieldBefore minute (minutes.imp_right (And.imp_right fun seconds => ?_)))
    refine charBefore ':' (fieldBefore second (seconds.imp_right (And.imp_right fun rest => ?_)))
    exact fractionBefore rest nanos _

theorem storedOrdered {a b : Instant} (short : a.HasShortYear) (shortOther : b.HasShortYear) :
    a.storedText < b.storedText ↔ a < b := by
  refine ⟨fun first => ?_,storedBefore short shortOther⟩
  have order : ¬(b < a) := fun back =>
    String.lt_asymm first (storedBefore shortOther short back)
  have apart : a ≠ b := fun same => String.lt_irrefl _ (same ▸ first)
  have fields : a.seconds = b.seconds → a.nanos ≠ b.nanos :=
    fun seconds nanos => apart (Instant.ext seconds nanos)
  have back : ¬(b.seconds < a.seconds ∨ b.seconds = a.seconds ∧ b.nanos < a.nanos) := order
  show a.seconds < b.seconds ∨ a.seconds = b.seconds ∧ a.nanos < b.nanos
  omega

theorem storedInjective {a b : Instant} (short : a.HasShortYear)
    (same : a.storedText = b.storedText) : a = b := by
  have read := parseStored a
  rw [if_pos short.named,same] at read
  exact storedFaithful read

end Instant

namespace Uuid

open Text

theorem groupedBefore (sizes : List Nat) {ds es : List HexDigit} (length : ds.length = total sizes)
    (lengthOther : es.length = total sizes) (first : ds < es) :
    grouped sizes ds < grouped sizes es := by
  have ordered : ∀ a b : HexDigit, a < b → a.char < b.char := by decide
  induction sizes generalizing ds es with
  | nil =>
    rw [List.length_eq_zero_iff.mp length,List.length_eq_zero_iff.mp lengthOther] at first
    cases first
  | cons size sizes ih =>
    rw [total] at length lengthOther
    cases sizes with
    | nil =>
      simp only [total,Nat.add_zero] at length lengthOther
      simp only [grouped,List.take_of_length_le (Nat.le_of_eq length),
        List.take_of_length_le (Nat.le_of_eq lengthOther)]
      exact mapBefore ordered first
    | cons next sizes =>
      simp only [grouped]
      rcases splitBefore size (length.trans lengthOther.symm) first with here | ⟨same,later⟩
      · refine appendBefore _ _ ?_ (mapBefore ordered here)
        simp only [List.length_map,List.length_take,length,lengthOther]
      · rw [same]
        refine sameBefore _ (charBefore '-' (ih ?_ ?_ later))
        · rw [List.length_drop,length]
          omega
        · rw [List.length_drop,lengthOther]
          omega

theorem textBefore {a b : Uuid} (first : a < b) : a.text < b.text := by
  rw [String.lt_iff]
  simp only [text,String.toList_ofList]
  exact groupedBefore groups a.digitsLength b.digitsLength first

end Uuid

namespace Id

variable {entity : Entity}

theorem keyOrdered {a b : Id entity} : a.key < b.key ↔ a < b := by
  refine ⟨fun first => ?_,fun first => Uuid.textBefore first⟩
  have order : ¬a.uuid.digits < b.uuid.digits → a.uuid.digits = b.uuid.digits := by
    intro late
    refine (List.le_antisymm (List.not_lt.mp late) (List.not_lt.mp fun back => ?_)).symm
    exact String.lt_asymm first (Uuid.textBefore back)
  by_cases early : a.uuid.digits < b.uuid.digits
  · exact early
  · have same : a = b := Id.ext (Uuid.ext (order early))
    exact absurd (same ▸ first) (String.lt_irrefl a.key)

end Id

end Coursework
