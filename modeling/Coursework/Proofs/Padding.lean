import Coursework.Text.Blank

/-! Blanks around a text. Trimming takes off the blanks at both ends and nothing else, so blanks that
are put around a text do not change what it is trimmed to. -/
namespace Coursework.Text

variable {front cs back : List Char}

theorem endPadded (blank : back.all isBlank = true) : trimEnd (cs ++ back) = trimEnd cs := by
  have reversed : back.reverse.all isBlank = true := by rwa [List.all_reverse]
  have start : trimStart (back.reverse ++ cs.reverse) = trimStart cs.reverse :=
    trimStartBlank reversed
  simp only [trimEnd,List.reverse_append]
  exact congrArg List.reverse start

theorem trimPadded (blank : front.all isBlank = true) (blankToo : back.all isBlank = true) :
    trimChars (front ++ (cs ++ back)) = trimChars cs := by
  rw [trimChars,trimChars,trimStartBlank blank]
  by_cases none : cs.all isBlank = true
  · have both : (cs ++ back).all isBlank = true := by rw [List.all_append,none,blankToo]; rfl
    rw [trimStartNilIff.mpr none,trimStartNilIff.mpr both]
  · have inside : (cs.dropWhile isBlank).isEmpty = false := by
      rw [← Bool.not_eq_true,List.isEmpty_iff]
      exact fun nothing => none (trimStartNilIff.mp nothing)
    have kept : trimStart (cs ++ back) = trimStart cs ++ back := by
      rw [trimStart,List.dropWhile_append,inside]
      rfl
    rw [kept,endPadded blankToo]

theorem startKept (solid : ∀ c ds, cs = c :: ds → isBlank c = false) : trimStart cs = cs := by
  cases cs with
  | nil => rfl
  | cons c cs => exact trimStartSolid (solid c cs rfl)

theorem endKept (solid : ∀ c ds, cs = ds ++ [c] → isBlank c = false) : trimEnd cs = cs := by
  have reversed : trimStart cs.reverse = cs.reverse := by
    refine startKept fun c ds same => solid c ds.reverse ?_
    rw [← List.reverse_cons,← same,List.reverse_reverse]
  exact (congrArg List.reverse reversed).trans (List.reverse_reverse cs)

theorem startSolid {c : Char} {ds : List Char} (starts : trimStart cs = c :: ds) :
    isBlank c = false := by
  have first := List.head?_dropWhile_not isBlank cs
  rw [show cs.dropWhile isBlank = c :: ds from starts] at first
  exact first

theorem endSolid {c : Char} {ds : List Char} (ends : trimEnd cs = ds ++ [c]) :
    isBlank c = false := by
  have reversed : trimStart cs.reverse = c :: ds.reverse := by
    rw [← List.reverse_inj,List.reverse_cons,List.reverse_reverse]
    exact ends
  exact startSolid reversed

theorem trimSolid (solid : ∀ c ∈ cs, isBlank c = false) : trimChars cs = cs := by
  have first : trimStart cs = cs := startKept fun c ds same => solid c (by simp [same])
  have last : trimEnd cs = cs := endKept fun c ds same => solid c (by simp [same])
  rw [trimChars,first,last]

theorem solidOf (none : cs.any isBlank = false) : ∀ c ∈ cs, isBlank c = false := fun c member =>
  Bool.eq_false_iff.mpr (List.any_eq_false.mp none c member)

theorem trimSplit (cs : List Char) : ∃ front back, front.all isBlank = true ∧
    back.all isBlank = true ∧ cs = front ++ (trimChars cs ++ back) := by
  have blanks (ds : List Char) : (ds.takeWhile isBlank).all isBlank = true := List.all_takeWhile
  let tail := (trimStart cs).reverse.takeWhile isBlank
  refine ⟨cs.takeWhile isBlank,tail.reverse,blanks cs,?_,?_⟩
  · rw [List.all_reverse]
    exact blanks _
  · have ending : trimStart cs = trimEnd (trimStart cs) ++ tail.reverse := by
      rw [trimEnd,← List.reverse_append,List.takeWhile_append_dropWhile,List.reverse_reverse]
    have whole : cs.takeWhile isBlank ++ trimStart cs = cs := List.takeWhile_append_dropWhile
    rw [trimChars,← ending,whole]

end Coursework.Text
