/-!
Lists kept as collections. Sorting is by insertion, and items that stand in no order to each other
keep their places. An item is replaced where it stands, or joins behind all others.
-/
namespace Coursework

variable {α : Type}

def insertOrdered (before : α → α → Bool) (a : α) : List α → List α
  | [] => [a]
  | b :: bs => if before b a then b :: insertOrdered before a bs else a :: b :: bs

def sortOrdered (before : α → α → Bool) : List α → List α
  | [] => []
  | a :: as => insertOrdered before a (sortOrdered before as)

def replaceOrAppend (same : α → Bool) (a : α) : List α → List α
  | [] => [a]
  | b :: bs => if same b then a :: bs else b :: replaceOrAppend same a bs

def total : List Nat → Nat
  | [] => 0
  | n :: ns => n + total ns

theorem insertOrderedPerm (before : α → α → Bool) (a : α) (as : List α) :
    (insertOrdered before a as).Perm (a :: as) := by
  induction as with
  | nil => exact .refl _
  | cons b bs ih =>
    unfold insertOrdered
    split
    · exact (List.Perm.cons b ih).trans (.swap a b bs)
    · exact .refl _

theorem sortOrderedPerm (before : α → α → Bool) (as : List α) :
    (sortOrdered before as).Perm as := by
  induction as with
  | nil => exact .refl _
  | cons a as ih => exact (insertOrderedPerm before a _).trans (.cons a ih)

end Coursework
