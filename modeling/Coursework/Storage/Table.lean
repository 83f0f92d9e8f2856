import Coursework.Listing
/-!
Tables. Each row has a number, and the rows stand in the order of their numbers. A new row gets the
number behind the last one, so rows are read in the order in which they were inserted, unless they
are numbered anew. The numbers do not count for what is stored: `toList` is the view that all
operations are described by.
-/
namespace Coursework

structure Table (Row : Type) where
  entries : List (Int × Row) := []
  deriving DecidableEq, Repr, Inhabited

namespace Table

variable {Row : Type}

def toList (t : Table Row) : List Row := t.entries.map (·.2)

def numbers (t : Table Row) : List Int := t.entries.map (·.1)

def nextNumber (t : Table Row) : Int := (t.numbers.getLast?.getD 0) + 1

def insert (t : Table Row) (row : Row) : Table Row := ⟨t.entries ++ [(t.nextNumber,row)]⟩

def map (t : Table Row) (f : Row → Row) : Table Row := ⟨t.entries.map fun (n,row) => (n,f row)⟩

def filter (t : Table Row) (p : Row → Bool) : Table Row := ⟨t.entries.filter fun e => p e.2⟩

def upsert (t : Table Row) (same : Row → Bool) (change : Row → Row) (row : Row) : Table Row :=
  if t.toList.any same then t.map fun old => if same old then change old else old
  else t.insert row

def renumber (t : Table Row) (p : Row → Bool) (number : Int) : Table Row :=
  ⟨sortOrdered (fun a b => a.1 < b.1)
    (t.entries.map fun (n,row) => (if p row then number else n,row))⟩

@[simp] theorem insertRows (t : Table Row) (row : Row) :
    (t.insert row).toList = t.toList ++ [row] := by
  simp [toList,insert]

@[simp] theorem mapRows (t : Table Row) (f : Row → Row) :
    (t.map f).toList = t.toList.map f := by
  simp [toList,map]

@[simp] theorem filterRows (t : Table Row) (p : Row → Bool) :
    (t.filter p).toList = t.toList.filter p := by
  simp [toList,filter,List.filter_map,Function.comp_def]

theorem upsertRows (t : Table Row) (same : Row → Bool) (change : Row → Row) (row : Row) :
    (t.upsert same change row).toList =
      if t.toList.any same then t.toList.map fun old => if same old then change old else old
      else t.toList ++ [row] := by
  unfold upsert
  split <;> simp

end Table

end Coursework
