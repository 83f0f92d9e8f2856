import Coursework.Calendar

/-! The date of a day is in the calendar, and its day number is that day. -/
namespace Coursework.Date

theorem monthOfDaySpec {lengths : List Nat} (month : Nat) {day : Nat} (inside : day < total lengths) :
    ∃ i, i < lengths.length ∧
      monthOfDay lengths month day = (month + i,day - total (lengths.take i) + 1) ∧
      total (lengths.take i) ≤ day ∧ day - total (lengths.take i) < lengths[i]?.getD 0 := by
  induction lengths generalizing month day with
  | nil => cases inside
  | cons length lengths ih =>
    unfold monthOfDay
    split
    · rename_i here
      exact ⟨0,by simp,rfl,Nat.zero_le _,here⟩
    · rename_i later
      rw [total] at inside
      obtain ⟨i,bound,found,reached,fits⟩ := ih (month + 1)
        (show day - length < total lengths by omega)
      refine ⟨i + 1,by simpa using bound,?_,?_,?_⟩
      · rw [found,List.take_succ_cons,total]
        congr 1
        · omega
        · omega
      · rw [List.take_succ_cons,total]
        omega
      · rw [List.take_succ_cons,total,List.getElem?_cons_succ]
        omega

theorem yearLength (year : Int) :
    daysBeforeYear (year + 1) = daysBeforeYear year + total (monthLengths (isLeapYear year)) := by
  have lengths : total (monthLengths (isLeapYear year)) =
      if isLeapYear year = true then 366 else 365 := by
    cases isLeapYear year <;> rfl
  rw [lengths]
  simp only [isLeapYear,Bool.and_eq_true,Bool.or_eq_true,beq_iff_eq,bne_iff_ne,ne_eq]
  simp only [daysBeforeYear]
  split <;> omega

theorem shortMonths (leap : Bool) (i : Nat) : (monthLengths leap)[i]?.getD 0 ≤ 31 := by
  by_cases inside : i < 12
  · revert i
    cases leap <;> decide
  · rw [List.getElem?_eq_none (by cases leap <;> exact Nat.le_of_not_lt inside)]
    exact Nat.zero_le _

structure Names (d : Date) (n : Int) : Prop where
  valid : d.isValid = true
  number : d.dayNumber = n
  monthFits : d.month ≤ 12
  dayFits : d.day ≤ 31

theorem ofDayNumberNames (n : Int) : (ofDayNumber n).Names n := by
  obtain ⟨start,stop⟩ := yearOfDaySpec (n + epochDays)
  rw [yearLength] at stop
  have inside : (n + epochDays - daysBeforeYear (yearOfDay (n + epochDays))).toNat <
      total (monthLengths (isLeapYear (yearOfDay (n + epochDays)))) := by omega
  obtain ⟨i,bound,found,reached,fits⟩ := monthOfDaySpec 1 inside
  have short := shortMonths (isLeapYear (yearOfDay (n + epochDays))) i
  have twelve : (monthLengths (isLeapYear (yearOfDay (n + epochDays)))).length = 12 := rfl
  have index : 1 + i - 1 = i := by omega
  constructor
  · simp only [ofDayNumber,found,isValid,daysInMonth,index,Bool.and_eq_true,decide_eq_true_eq]
    omega
  · simp only [ofDayNumber,found,dayNumber,daysBeforeMonth,index]
    omega
  · simp only [ofDayNumber,found]
    omega
  · simp only [ofDayNumber,found]
    omega

end Coursework.Date
