import Coursework.Instant.Read
import Coursework.Proofs.Dates
import Coursework.Proofs.Digits

/-! An instant is read back from its written form, unless its day has no name in the calendar of the
reader. Such an instant is refused and never taken for another one. -/
namespace Coursework

namespace Text.Scan

variable {α β : Type}

theorem scanThen {scan : Scan α} {f : α → Scan β} {cs rest : List Char} {a : α}
    (first : scan cs = some (a,rest)) : (scan >>= f) cs = f a rest := by
  simp only [bind,StateT.bind,first,Option.bind_some]

theorem blanksStop {c : Char} {cs : List Char} (solid : isBlank c = false) :
    blanks (c :: cs) = some ((),c :: cs) := by
  rw [blanks,trimStartSolid solid]

theorem blanksBeforeDigits {digits rest : List Char} (nonempty : digits ≠ [])
    (all : ∀ c ∈ digits, isDigit c = true) :
    blanks (digits ++ rest) = some ((),digits ++ rest) := by
  cases digits with
  | nil => contradiction
  | cons d digits => exact blanksStop (digitIsNotBlank (all d List.mem_cons_self))

theorem charTaken (c : Char) (cs : List Char) : char c (c :: cs) = some ((),cs) := if_pos rfl

theorem peekHead (c : Char) (cs : List Char) : peek (c :: cs) = some (some c,c :: cs) := rfl

theorem dropHead (c : Char) (cs : List Char) : drop (c :: cs) = some ((),cs) := rfl

end Text.Scan

namespace Instant

open Text Text.Scan

theorem fixedNonempty (width n : Nat) : fixed (width + 1) n ≠ [] := by
  intro none
  have length := fixedLength (width + 1) n
  rw [none] at length
  cases length

theorem fieldScanned {n : Nat} {rest : List Char} (small : n < 100)
    (stops : ∀ c ∈ rest.head?, isDigit c = false) :
    scanField (fixed 2 n ++ rest) = some (n,rest) := by
  have solid : blanks (fixed 2 n ++ rest) = some ((),fixed 2 n ++ rest) :=
    blanksBeforeDigits (fixedNonempty 1 n) fun _ => fixedAreDigits
  have read : number? 1 2 (fixed 2 n ++ rest) = some (n,rest) :=
    fixedRead small stops (by decide) (by decide)
  exact (scanThen solid).trans read

theorem separatorScanned {c : Char} (solid : isBlank c = false) (rest : List Char) :
    scanSeparator blanks c (c :: rest) = some ((),rest) :=
  (scanThen (blanksStop solid)).trans (charTaken c rest)

theorem longYearScanned (n : Nat) {rest : List Char} (stops : ∀ c ∈ rest.head?, isDigit c = false) :
    longNumber (List.replicate (4 - (decimal n).length) '0' ++ decimal n ++ rest) =
      some (n,rest) := by
  have digits : ∀ c ∈ List.replicate (4 - (decimal n).length) '0' ++ decimal n,
      isDigit c = true := by
    intro c member
    rcases List.mem_append.mp member with zero | digit
    · rw [List.eq_of_mem_replicate zero]
      decide
    · exact decimalAreDigits digit
  have positive := List.length_pos_iff.mpr (decimalNonempty n)
  refine (numberOf digits stops ?_ ?_).trans ?_
  · simp only [List.length_append]
    omega
  · simp
  · rw [valuePadded,valueOfDecimal]

theorem shortYearScanned {n : Nat} {rest : List Char} (small : n < powerOfTen 4)
    (stops : ∀ c ∈ rest.head?, isDigit c = false) :
    scanYear (fixed 4 n ++ rest) = some ((n : Int),rest) := by
  have solid : blanks (fixed 4 n ++ rest) = some ((),fixed 4 n ++ rest) :=
    blanksBeforeDigits (fixedNonempty 3 _) fun _ => fixedAreDigits
  have read : Scan.number 1 4 (fixed 4 n ++ rest) = some (n,rest) :=
    fixedRead small stops (by decide) (by decide)
  cases digits : fixed 4 n with
  | nil => exact absurd digits (fixedNonempty 3 _)
  | cons d ds =>
    rw [digits,List.cons_append] at solid read
    have inside : d ∈ fixed 4 n := by
      rw [digits]
      exact List.mem_cons_self
    have digit := fixedAreDigits inside
    have notMinus : d ≠ '-' := by
      rintro rfl
      revert digit
      decide
    have notPlus : d ≠ '+' := by
      rintro rfl
      revert digit
      decide
    rw [List.cons_append,scanYear,scanThen solid,scanThen (peekHead d (ds ++ rest))]
    simp only [Option.some.injEq,notMinus,notPlus,imp_self]
    exact scanThen read

theorem yearScanned (year : Int) {rest : List Char}
    (stops : ∀ c ∈ rest.head?, isDigit c = false) :
    scanYear (yearChars year ++ rest) = some (year,rest) := by
  unfold yearChars
  split
  · rename_i short
    have small : year.toNat < powerOfTen 4 := by
      simp only [powerOfTen]
      omega
    have same : ((year.toNat : Nat) : Int) = year := by omega
    rw [shortYearScanned small stops,same]
  · simp only
    by_cases negative : year < 0
    · have same : -((year.natAbs : Nat) : Int) = year := by omega
      rw [if_pos negative,List.cons_append,scanYear,scanThen (blanksStop (by decide)),
        scanThen (peekHead _ _)]
      refine (scanThen (dropHead _ _)).trans ((scanThen (longYearScanned _ stops)).trans ?_)
      rw [same]
      rfl
    · have same : ((year.natAbs : Nat) : Int) = year := by omega
      rw [if_neg negative,List.cons_append,scanYear,scanThen (blanksStop (by decide)),
        scanThen (peekHead _ _)]
      refine (scanThen (dropHead _ _)).trans ((scanThen (longYearScanned _ stops)).trans ?_)
      rw [same]
      rfl

theorem noDigitHead {c : Char} {cs : List Char} (other : isDigit c = false) :
    ∀ d ∈ (c :: cs).head?, isDigit d = false := by
  intro d head
  cases head
  exact other

theorem dateScanned {before : Scan Unit} {d : Date} {rest : List Char}
    (stays : ∀ cs, before ('-' :: cs) = some ((),'-' :: cs)) (month : d.month < 100)
    (day : d.day < 100) (stops : ∀ c ∈ rest.head?, isDigit c = false) :
    scanDate before (dateChars d ++ rest) = some (d,rest) := by
  have layout : dateChars d ++ rest =
      yearChars d.year ++ '-' :: (fixed 2 d.month ++ '-' :: (fixed 2 d.day ++ rest)) := by
    simp [dateChars]
  have hyphen : isDigit '-' = false := by decide
  have separator (cs : List Char) : scanSeparator before '-' ('-' :: cs) = some ((),cs) :=
    (scanThen (stays cs)).trans (charTaken '-' cs)
  rw [layout,scanDate,scanThen (yearScanned d.year (noDigitHead hyphen)),scanThen (separator _),
    scanThen (fieldScanned month (noDigitHead hyphen)),scanThen (separator _),
    scanThen (fieldScanned day stops)]
  rfl

theorem takenFraction {width value : Nat} {rest : List Char} (positive : 1 ≤ width)
    (fits : width ≤ 9) (small : value < powerOfTen width)
    (stops : ∀ c ∈ rest.head?, isDigit c = false) :
    scanFraction ('.' :: fixed width value ++ rest) =
      some (value * powerOfTen (9 - width),rest) := by
  have read : Scan.number 1 9 (fixed width value ++ rest) = some (value,rest) :=
    fixedRead small stops positive fits
  have consumed : (fixed width value ++ rest).length - rest.length = width := by simp
  have kept : rest.dropWhile isDigit = rest := by
    cases rest with
    | nil => rfl
    | cons c rest => simp [stops c rfl]
  have rests (cs : List Char) : (get : Scan (List Char)) cs = some (cs,cs) := rfl
  have skipped : Scan.skip isDigit rest = some ((),rest) := by
    rw [Scan.skip,kept]
  rw [List.cons_append,scanFraction,scanThen (peekHead _ _)]
  refine (scanThen (dropHead _ _)).trans ?_
  refine (scanThen (rests (fixed width value ++ rest))).trans ?_
  refine (scanThen read).trans ?_
  refine (scanThen (rests rest)).trans ?_
  refine (scanThen skipped).trans ?_
  rw [consumed]
  rfl

theorem fractionScanned {nanos : Nat} {c : Char} {rest : List Char} (small : nanos < nanosPerSecond)
    (digit : isDigit c = false) (point : c ≠ '.') :
    scanFraction (fractionChars nanos ++ c :: rest) = some (nanos,c :: rest) := by
  have stops : ∀ d ∈ (c :: rest).head?, isDigit d = false := noDigitHead digit
  rw [nanosPerSecond] at small
  unfold fractionChars
  split
  · rename_i zero
    rw [List.nil_append,scanFraction,scanThen (peekHead _ _),zero]
    simp only [Option.some.injEq,point,imp_self]
    rfl
  split
  · rename_i millis
    have scaled : nanos / 1000000 * powerOfTen (9 - 3) = nanos := by
      simp only [powerOfTen]
      omega
    rw [takenFraction (by decide) (by decide) (by simp only [powerOfTen]; omega) stops,scaled]
  split
  · rename_i micros
    have scaled : nanos / 1000 * powerOfTen (9 - 6) = nanos := by
      simp only [powerOfTen]
      omega
    rw [takenFraction (by decide) (by decide) (by simp only [powerOfTen]; omega) stops,scaled]
  · have scaled : nanos * powerOfTen (9 - 9) = nanos := Nat.mul_one nanos
    rw [takenFraction (by decide) (by decide) (by simp only [powerOfTen]; omega) stops,scaled]

def shown (t : Instant) : LocalTime :=
  { date := .ofDayNumber (t.seconds / 86400),
    hour := (t.seconds % 86400).toNat / 3600,
    minute := (t.seconds % 86400).toNat / 60 % 60,
    second := (t.seconds % 86400).toNat % 60 + t.nanos / nanosPerSecond,
    nanos := t.nanos % nanosPerSecond }

theorem textScanned (t : Instant) : Scan.whole scanLenient t.text = some (t.shown,0) := by
  have named := Date.ofDayNumberNames (t.seconds / 86400)
  have month := named.monthFits
  have day := named.dayFits
  have leap := t.nanosBelow
  simp only [nanosPerSecond] at leap
  have letter : isDigit 'T' = false := by decide
  have colon : isDigit ':' = false := by decide
  have dash : isBlank ':' = false := by decide
  have hour : (t.seconds % 86400).toNat / 3600 < 100 := by omega
  have minute : (t.seconds % 86400).toNat / 60 % 60 < 100 := by omega
  have second : (t.seconds % 86400).toNat % 60 + t.nanos / nanosPerSecond < 100 := by
    simp only [nanosPerSecond]
    omega
  have nanos : t.nanos % nanosPerSecond < nanosPerSecond := Nat.mod_lt _ (by decide)
  have behind : ∀ c ∈ (fractionChars (t.nanos % nanosPerSecond) ++ ['Z']).head?,
      isDigit c = false := by
    unfold fractionChars
    split
    · exact noDigitHead (by decide)
    · split
      · exact noDigitHead (by decide)
      · split <;> exact noDigitHead (by decide)
  have layout : t.text.toList = dateChars (Date.ofDayNumber (t.seconds / 86400)) ++
      'T' :: (fixed 2 ((t.seconds % 86400).toNat / 3600) ++
      ':' :: (fixed 2 ((t.seconds % 86400).toNat / 60 % 60) ++
      ':' :: (fixed 2 ((t.seconds % 86400).toNat % 60 + t.nanos / nanosPerSecond) ++
      (fractionChars (t.nanos % nanosPerSecond) ++ ['Z'])))) := by
    simp [text,charsWith]
  have between (cs : List Char) : Scan.oneOf ['T','t',' '] ('T' :: cs) = some ((),cs) := rfl
  have zone : scanZone ['Z'] = some (0,[]) := rfl
  have ending : Scan.blanks [] = some ((),[]) := rfl
  have scanned : scanLenient t.text.toList = some ((t.shown,0),[]) := by
    rw [layout,scanLenient,
      scanThen (dateScanned (fun _ => blanksStop (by decide)) (by omega) (by omega)
        (noDigitHead letter)),
      scanThen (between _),
      scanThen (fieldScanned hour (noDigitHead colon)),scanThen (separatorScanned dash _),
      scanThen (fieldScanned minute (noDigitHead colon)),scanThen (separatorScanned dash _),
      scanThen (fieldScanned second behind),
      scanThen (fractionScanned nanos (by decide) (by decide)),
      scanThen (blanksStop (by decide)),
      scanThen zone,scanThen ending]
    rfl
  rw [Scan.whole,scanned]

def isNamed (t : Instant) : Bool :=
  firstDay ≤ t.seconds / 86400 && t.seconds / 86400 ≤ lastDay

theorem shownToInstant (t : Instant) :
    t.shown.toInstant? 0 = if t.isNamed then some t else none := by
  obtain ⟨valid,number,_,_⟩ := Date.ofDayNumberNames (t.seconds / 86400)
  have small := t.nanosBelow
  have leapEnds := t.leapEndsMinute
  simp only [nanosPerSecond] at small leapEnds
  have validDate : t.shown.date.isValid = true := valid
  have day : t.shown.date.dayNumber = t.seconds / 86400 := number
  have hour : t.shown.hour ≤ 23 := by
    simp only [shown]
    omega
  have minute : t.shown.minute ≤ 59 := by
    simp only [shown]
    omega
  have second : t.shown.second ≤ 60 := by
    simp only [shown,nanosPerSecond]
    omega
  have seconds : t.seconds / 86400 * 86400 +
      ((t.shown.hour * 3600 + t.shown.minute * 60 + min t.shown.second 59 : Nat) : Int) - 0 =
      t.seconds := by
    simp only [shown,nanosPerSecond]
    omega
  have nanos : (if t.shown.second = 60 then t.shown.nanos + nanosPerSecond else t.shown.nanos) =
      t.nanos := by
    by_cases leap : t.shown.second = 60
    · rw [if_pos leap]
      simp only [shown,nanosPerSecond] at leap ⊢
      omega
    · rw [if_neg leap]
      simp only [shown,nanosPerSecond] at leap ⊢
      omega
  have here : of? t.seconds t.nanos = some t := dif_pos ⟨t.nanosBelow,t.leapEndsMinute⟩
  simp only [LocalTime.toInstant?,validDate,day,seconds,nanos,here,hour,minute,second,isNamed]
  by_cases first : firstDay ≤ t.seconds / 86400
  · by_cases last : t.seconds / 86400 ≤ lastDay
    · simp [first,last]
    · simp [last]
  · simp [first]

theorem parseText (t : Instant) : parse? t.text = if t.isNamed then some t else none := by
  rw [parse?,textScanned]
  exact shownToInstant t

theorem textFaithful {t found : Instant} (read : parse? t.text = some found) : found = t := by
  rw [parseText] at read
  split at read
  · exact (Option.some.inj read).symm
  · cases read

end Instant

end Coursework
