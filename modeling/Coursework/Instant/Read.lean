import Coursework.Instant.Written
import Coursework.Text.Scan
/-!
Reading instants. Documents are read leniently: RFC 3339 with a blank or `t` between date and
time, blanks around the separators, short fields and `UTC` for the offset; the offset itself may
not be missing. Stored columns are read strictly first and then by a list of layouts, some of
which have no seconds or no offset; without an offset the time is universal time. Both convert to
universal time and refuse days that are not in the calendar.
-/
namespace Coursework.Instant

open Text

structure LocalTime where
  date : Date
  hour : Nat
  minute : Nat
  second : Nat
  nanos : Nat
  deriving DecidableEq, Repr

def firstDay : Int := Date.dayNumber ⟨-262143,1,1⟩

def lastDay : Int := Date.dayNumber ⟨262142,12,31⟩

def LocalTime.toInstant? (l : LocalTime) (offset : Int) : Option Instant :=
  let day := l.date.dayNumber
  if l.date.isValid && firstDay ≤ day && day ≤ lastDay && l.hour ≤ 23 && l.minute ≤ 59 &&
      l.second ≤ 60 && -86400 < offset && offset < 86400 then
    let second := min l.second 59
    let nanos := if l.second = 60 then l.nanos + nanosPerSecond else l.nanos
    let seconds := day * 86400 + (l.hour * 3600 + l.minute * 60 + second : Nat) - offset
    if firstDay ≤ seconds / 86400 ∧ seconds / 86400 ≤ lastDay then of? seconds nanos else none
  else none

def scanFraction : Scan Nat := do
  match ← Scan.peek with
  | some '.' =>
    Scan.drop
    let before ← get
    let value ← Scan.number 1 9
    let after ← get
    Scan.skip isDigit
    pure (value * powerOfTen (9 - (before.length - after.length)))
  | _ => pure 0

def scanOffset (between : Scan Unit) : Scan Int := do
  let sign ← Scan.peek
  Scan.oneOf ['+','-','\u2212']
  let hours ← Scan.number 2 2
  between
  let minutes ← Scan.number 2 2
  Scan.check (minutes ≤ 59)
  let offset : Int := ((hours * 3600 + minutes * 60 : Nat) : Int)
  pure (if sign = some '+' then offset else -offset)

def skipColons : Scan Unit := Scan.skip fun c => c == ':' || isBlank c

def scanYear : Scan Int := do
  Scan.blanks
  match ← Scan.peek with
  | some '-' => Scan.drop; let n ← Scan.longNumber; pure (-(n : Int))
  | some '+' => Scan.drop; let n ← Scan.longNumber; pure n
  | _ => let n ← Scan.number 1 4; pure n

def scanField : Scan Nat := do
  Scan.blanks
  Scan.number 1 2

def scanSeparator (before : Scan Unit) (c : Char) : Scan Unit := do
  before
  Scan.char c

def scanDate (before : Scan Unit) : Scan Date := do
  let year ← scanYear
  scanSeparator before '-'
  let month ← scanField
  scanSeparator before '-'
  let day ← scanField
  pure ⟨year,month,day⟩

def scanZone : Scan Int := do
  let rest ← get
  if (rest.take 3).map Char.toUpper = ['U','T','C'] then
    set (rest.drop 3)
    pure 0
  else match rest with
    | 'Z' :: rest | 'z' :: rest => set rest; pure 0
    | _ => scanOffset skipColons

def scanLenient : Scan (LocalTime × Int) := do
  let date ← scanDate Scan.blanks
  Scan.oneOf ['T','t',' ']
  let hour ← scanField
  scanSeparator Scan.blanks ':'
  let minute ← scanField
  scanSeparator Scan.blanks ':'
  let second ← scanField
  let nanos ← scanFraction
  Scan.blanks
  let offset ← scanZone
  Scan.blanks
  pure (⟨date,hour,minute,second,nanos⟩,offset)

def parse? (s : String) : Option Instant := do
  let (localTime,offset) ← Scan.whole scanLenient s
  localTime.toInstant? offset

def scanStrict : Scan (LocalTime × Int) := do
  let year ← Scan.number 4 4
  Scan.char '-'
  let month ← Scan.number 2 2
  Scan.char '-'
  let day ← Scan.number 2 2
  Scan.oneOf ['T','t',' ']
  let hour ← Scan.number 2 2
  Scan.char ':'
  let minute ← Scan.number 2 2
  Scan.char ':'
  let second ← Scan.number 2 2
  let nanos ← scanFraction
  let offset ← match ← Scan.peek with
    | some 'Z' | some 'z' => Scan.drop; pure 0
    | _ => scanOffset (Scan.char ':')
  pure (⟨⟨year,month,day⟩,hour,minute,second,nanos⟩,offset)

inductive ZoneMark where
  | absent | letter | offset
  deriving DecidableEq, Repr

structure Layout where
  separator : Option Char
  withSeconds : Bool
  zone : ZoneMark
  deriving DecidableEq, Repr

def layouts : List Layout :=
  [⟨none,true,.absent⟩,⟨none,false,.absent⟩,⟨none,false,.letter⟩,⟨none,false,.offset⟩,
   ⟨none,true,.letter⟩,⟨none,true,.offset⟩,⟨some 'T',false,.absent⟩,
   ⟨some 'T',false,.letter⟩,⟨some 'T',false,.offset⟩,⟨some 'T',true,.absent⟩,
   ⟨some 'T',true,.letter⟩,⟨some 'T',true,.offset⟩]

def scanLayout (layout : Layout) : Scan (LocalTime × Option Int) := do
  let date ← scanDate (pure ())
  match layout.separator with
  | some c => Scan.char c
  | none => Scan.blanks
  let hour ← scanField
  Scan.char ':'
  let minute ← scanField
  let second ← if layout.withSeconds then do Scan.char ':'; scanField else pure 0
  let nanos ← if layout.withSeconds then scanFraction else pure 0
  let offset ← match layout.zone with
    | .absent => pure none
    | .letter => do Scan.char 'Z'; pure none
    | .offset => do Scan.blanks; some <$> scanOffset skipColons
  pure (⟨date,hour,minute,second,nanos⟩,offset)

/-- Reads an instant in a layout. An offset that is no offset of a clock counts as none. -/
def parseLayout? (layout : Layout) (s : String) : Option Instant := do
  let (localTime,offset) ← Scan.whole (scanLayout layout) s
  (offset.bind localTime.toInstant?) <|> localTime.toInstant? 0

def parseStored? (s : String) : Option Instant :=
  (do let (localTime,offset) ← Scan.whole scanStrict s
      localTime.toInstant? offset) <|>
    layouts.findSome? fun layout => parseLayout? layout s

end Coursework.Instant
