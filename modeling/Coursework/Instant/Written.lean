import Coursework.Instant
import Coursework.Text.Decimal
/-!
The written form of instants, RFC 3339 in universal time: `2023-11-14T22:13:20.500Z`. Fractions
have three, six or nine digits, the fewest that lose nothing, and none for a whole second. A leap
second is second 60. Years outside 0 to 9999 carry a sign. Stored instants write the offset
`+00:00` in place of `Z`.
-/
namespace Coursework.Instant

open Text

def yearChars (year : Int) : List Char :=
  if 0 ≤ year ∧ year ≤ 9999 then fixed 4 year.toNat
  else
    let digits := decimal year.natAbs
    (if year < 0 then '-' else '+') :: (List.replicate (4 - digits.length) '0' ++ digits)

def fractionChars (nanos : Nat) : List Char :=
  if nanos = 0 then []
  else if nanos % 1000000 = 0 then '.' :: fixed 3 (nanos / 1000000)
  else if nanos % 1000 = 0 then '.' :: fixed 6 (nanos / 1000)
  else '.' :: fixed 9 nanos

def dateChars (d : Date) : List Char :=
  yearChars d.year ++ '-' :: fixed 2 d.month ++ '-' :: fixed 2 d.day

def charsWith (zone : List Char) (t : Instant) : List Char :=
  let secondOfDay := (t.seconds % 86400).toNat
  let second := secondOfDay % 60 + t.nanos / nanosPerSecond
  dateChars (Date.ofDayNumber (t.seconds / 86400)) ++
    'T' :: fixed 2 (secondOfDay / 3600) ++ ':' :: fixed 2 (secondOfDay / 60 % 60) ++
    ':' :: fixed 2 second ++ fractionChars (t.nanos % nanosPerSecond) ++ zone

def text (t : Instant) : String := String.ofList (t.charsWith ['Z'])

def storedText (t : Instant) : String := String.ofList (t.charsWith ['+','0','0',':','0','0'])

end Coursework.Instant
