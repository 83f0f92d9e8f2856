import Coursework.Proofs.InstantText

/-! An instant is read back from its stored form, which is tried in several layouts, unless its day
has no name in the calendar of the reader. No layout takes it for another instant. -/
namespace Coursework

namespace Text.Scan

theorem stopThen {α β : Type} {scan : Scan α} {f : α → Scan β} {cs : List Char}
    (stops : scan cs = none) : (scan >>= f) cs = none := by
  simp only [bind,StateT.bind,stops,Option.bind_none]

theorem noNumber {least most : Nat} {c : Char} {cs : List Char} (other : isDigit c = false) :
    number (least + 1) most (c :: cs) = none := by
  cases most <;> simp [number,number?,leadingDigits,other]

end Text.Scan

namespace Instant

open Text Text.Scan

def clockChars (t : Instant) : List Char :=
  fixed 2 t.shown.hour ++ ':' :: (fixed 2 t.shown.minute ++ ':' :: (fixed 2 t.shown.second ++
    (fractionChars t.shown.nanos ++ ['+','0','0',':','0','0'])))

theorem storedLayout (t : Instant) :
    t.storedText.toList = dateChars t.shown.date ++ 'T' :: t.clockChars := by
  simp [storedText,charsWith,clockChars,shown]

theorem smallFields (t : Instant) : t.shown.date.month < 100 ∧ t.shown.date.day < 100 ∧
    t.shown.hour < 100 ∧ t.shown.minute < 100 ∧ t.shown.second < 100 ∧
    t.shown.nanos < nanosPerSecond := by
  have named := Date.ofDayNumberNames (t.seconds / 86400)
  have month := named.monthFits
  have day := named.dayFits
  have leap := t.nanosBelow
  simp only [nanosPerSecond] at leap
  refine ⟨Nat.lt_of_le_of_lt month (by decide),Nat.lt_of_le_of_lt day (by decide),?_,?_,?_,
    Nat.mod_lt _ (by decide)⟩
  · simp only [shown]
    omega
  · simp only [shown]
    omega
  · simp only [shown,nanosPerSecond]
    omega

theorem fractionStops (nanos : Nat) {c : Char} (rest : List Char) (other : isDigit c = false) :
    ∀ d ∈ (fractionChars nanos ++ c :: rest).head?, isDigit d = false := by
  unfold fractionChars
  split
  · exact noDigitHead other
  · split
    · exact noDigitHead (by decide)
    · split <;> exact noDigitHead (by decide)

section Strict

theorem fixedScanned {width n : Nat} {rest : List Char} (small : n < powerOfTen width)
    (stops : ∀ c ∈ rest.head?, isDigit c = false) :
    Scan.number width width (fixed width n ++ rest) = some (n,rest) :=
  fixedRead small stops (Nat.le_refl _) (Nat.le_refl _)

theorem strictScanned {t : Instant} (low : 0 ≤ t.shown.date.year)
    (high : t.shown.date.year ≤ 9999) :
    Scan.whole scanStrict t.storedText = some (t.shown,0) := by
  obtain ⟨month,day,hour,minute,second,nanos⟩ := t.smallFields
  have year : t.shown.date.year.toNat < powerOfTen 4 := by
    simp only [powerOfTen]
    omega
  have sameYear : ((t.shown.date.year.toNat : Nat) : Int) = t.shown.date.year := by omega
  have colon : isDigit ':' = false := by decide
  have hyphen : isDigit '-' = false := by decide
  have date : dateChars t.shown.date = fixed 4 t.shown.date.year.toNat ++
      '-' :: (fixed 2 t.shown.date.month ++ '-' :: fixed 2 t.shown.date.day) := by
    simp [dateChars,yearChars,low,high]
  have between (cs : List Char) : Scan.oneOf ['T','t',' '] ('T' :: cs) = some ((),cs) := rfl
  have zone : scanOffset (Scan.char ':') ['+','0','0',':','0','0'] = some (0,[]) := rfl
  have scanned : scanStrict t.storedText.toList = some ((t.shown,0),[]) := by
    rw [storedLayout,date,clockChars]
    simp only [List.append_assoc,List.cons_append]
    rw [scanStrict,scanThen (fixedScanned year (noDigitHead hyphen)),scanThen (charTaken _ _),
      scanThen (fixedScanned month (noDigitHead hyphen)),scanThen (charTaken _ _),
      scanThen (fixedScanned day (noDigitHead (by decide))),scanThen (between _),
      scanThen (fixedScanned hour (noDigitHead colon)),scanThen (charTaken _ _),
      scanThen (fixedScanned minute (noDigitHead colon)),scanThen (charTaken _ _),
      scanThen (fixedScanned second (fractionStops _ _ (by decide))),
      scanThen (fractionScanned nanos (by decide) (by decide)),scanThen (peekHead _ _)]
    refine (scanThen zone).trans ?_
    rw [sameYear]
    rfl
  rw [Scan.whole,scanned]

theorem strictRefused {t : Instant}
    (long : ¬(0 ≤ t.shown.date.year ∧ t.shown.date.year ≤ 9999)) :
    Scan.whole scanStrict t.storedText = none := by
  have stopped : scanStrict t.storedText.toList = none := by
    rw [storedLayout,dateChars,yearChars,if_neg long,scanStrict]
    refine stopThen ?_
    by_cases negative : t.shown.date.year < 0
    · rw [if_pos negative]
      exact noNumber (by decide)
    · rw [if_neg negative]
      exact noNumber (by decide)
  rw [Scan.whole,stopped]

end Strict

section Layouts

theorem layoutDated (t : Instant) :
    scanDate (pure ()) t.storedText.toList = some (t.shown.date,'T' :: t.clockChars) := by
  obtain ⟨month,day,_⟩ := t.smallFields
  rw [storedLayout]
  exact dateScanned (fun _ => rfl) month day (noDigitHead (by decide))

theorem blankRefused (withSeconds : Bool) (zone : ZoneMark) (t : Instant) :
    parseLayout? ⟨none,withSeconds,zone⟩ t.storedText = none := by
  have noField : scanField ('T' :: t.clockChars) = none :=
    (scanThen (blanksStop (by decide))).trans (noNumber (by decide))
  have stopped : scanLayout ⟨none,withSeconds,zone⟩ t.storedText.toList = none := by
    rw [scanLayout,scanThen t.layoutDated]
    refine (scanThen (blanksStop (by decide))).trans ?_
    exact stopThen noField
  rw [parseLayout?,Scan.whole,stopped]
  rfl

theorem shortRefused (zone : ZoneMark) (t : Instant) :
    parseLayout? ⟨some 'T',false,zone⟩ t.storedText = none := by
  obtain ⟨_,_,hour,minute,_⟩ := t.smallFields
  have colon : isDigit ':' = false := by decide
  have refused : Scan.whole (scanLayout ⟨some 'T',false,zone⟩) t.storedText = none := by
    rw [Scan.whole,scanLayout,scanThen t.layoutDated]
    simp only [clockChars]
    rw [scanThen (charTaken _ _),scanThen (fieldScanned hour (noDigitHead colon)),
      scanThen (charTaken _ _),scanThen (fieldScanned minute (noDigitHead colon))]
    simp only [Bool.false_eq_true,if_false]
    cases zone with
    | absent => rfl
    | letter => rfl
    | offset => rfl
  rw [parseLayout?,refused]
  rfl

theorem longScanned (zone : ZoneMark) (t : Instant) :
    scanLayout ⟨some 'T',true,zone⟩ t.storedText.toList = (do
      let offset ← match zone with
        | .absent => pure none
        | .letter => do Scan.char 'Z'; pure none
        | .offset => do Scan.blanks; some <$> scanOffset skipColons
      pure (t.shown,offset) : Scan (LocalTime × Option Int)) ['+','0','0',':','0','0'] := by
  obtain ⟨_,_,hour,minute,second,nanos⟩ := t.smallFields
  have colon : isDigit ':' = false := by decide
  rw [scanLayout,scanThen t.layoutDated]
  simp only [clockChars]
  rw [scanThen (charTaken _ _),scanThen (fieldScanned hour (noDigitHead colon)),
    scanThen (charTaken _ _),scanThen (fieldScanned minute (noDigitHead colon))]
  simp only [if_true]
  rw [scanThen (charTaken _ _),scanThen (fieldScanned second (fractionStops _ _ (by decide)))]
  refine (scanThen (fractionScanned nanos (by decide) (by decide))).trans ?_
  cases zone <;> rfl

theorem unzonedRefused (zone : ZoneMark) (other : zone ≠ .offset) (t : Instant) :
    parseLayout? ⟨some 'T',true,zone⟩ t.storedText = none := by
  have refused : Scan.whole (scanLayout ⟨some 'T',true,zone⟩) t.storedText = none := by
    rw [Scan.whole,longScanned]
    cases zone with
    | absent => rfl
    | letter => rfl
    | offset => contradiction
  rw [parseLayout?,refused]
  rfl

theorem zonedRead (t : Instant) :
    parseLayout? ⟨some 'T',true,.offset⟩ t.storedText = t.shown.toInstant? 0 := by
  have read : Scan.whole (scanLayout ⟨some 'T',true,.offset⟩) t.storedText =
      some (t.shown,some 0) := by
    rw [Scan.whole,longScanned]
    rfl
  rw [parseLayout?,read]
  change (t.shown.toInstant? 0 <|> t.shown.toInstant? 0) = _
  cases t.shown.toInstant? 0 <;> rfl

theorem layoutsRead (t : Instant) :
    (layouts.findSome? fun layout => parseLayout? layout t.storedText) = t.shown.toInstant? 0 := by
  simp only [layouts,List.findSome?_cons,List.findSome?_nil,blankRefused,shortRefused,
    unzonedRefused .absent (by decide),unzonedRefused .letter (by decide),zonedRead]
  cases t.shown.toInstant? 0 <;> rfl

end Layouts

theorem parseStored (t : Instant) :
    parseStored? t.storedText = if t.isNamed then some t else none := by
  rw [parseStored?,layoutsRead,shownToInstant]
  by_cases short : 0 ≤ t.shown.date.year ∧ t.shown.date.year ≤ 9999
  · rw [strictScanned short.1 short.2]
    simp only [Option.bind_eq_bind,Option.bind_some,shownToInstant]
    split <;> rfl
  · rw [strictRefused short]
    rfl

theorem storedFaithful {t found : Instant} (read : parseStored? t.storedText = some found) :
    found = t := by
  rw [parseStored] at read
  split at read
  · exact (Option.some.inj read).symm
  · cases read

end Instant

end Coursework
