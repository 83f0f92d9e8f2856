import Coursework.CommandLine.Path
import Coursework.Text.Decimal
import Coursework.Text.Percent
/-!
Names of databases. A name that starts with `file:` is a URI: it may say that it is on this
machine, and behind a question mark it has parameters, up to a number sign. Names, parameters and
values are percent-encoded, and each one ends where it encodes the null character.
-/
namespace Coursework.CommandLine

open Text

structure DatabaseName where
  text : List Char
  isUri : Bool := false
  parameters : List (String × String) := []
  deriving DecidableEq, Repr

structure ForeignAuthority where
  name : String
  deriving DecidableEq, Repr

namespace DatabaseName

def uriScheme : List Char := "file:".toList

def isNull (c : Char) : Bool := c.toNat == 0

def decodePart (cs : List Char) : String :=
  utf8DecodeLossy ((percentBytes cs).takeWhile (· != 0))

def parameter (cs : List Char) : String × String :=
  let name := cs.takeWhile (· != '=')
  (decodePart name,decodePart (cs.drop (name.length + 1)))

def parametersOf (query : List Char) : List (String × String) :=
  ((splitAt '&' query).map parameter).filter (·.1 != "")

def ofUriPath (cs : List Char) : DatabaseName :=
  let cs := cs.takeWhile (· != '#')
  let name := cs.takeWhile (· != '?')
  { text := (decodePart name).toList, isUri := true,
    parameters := parametersOf (cs.drop (name.length + 1)) }

def parse (cs : List Char) : Except ForeignAuthority DatabaseName :=
  if uriScheme.isPrefixOf cs then
    let cs := cs.drop uriScheme.length
    if ['/','/'].isPrefixOf cs then
      let authority := (cs.drop 2).takeWhile (· != '/')
      if authority = [] ∨ authority = "localhost".toList then
        .ok (ofUriPath ((cs.drop 2).drop authority.length))
      else .error ⟨String.ofList authority⟩
    else .ok (ofUriPath cs)
  else .ok { text := cs }

/-- The URI with a name and parameters, as it is read back. A blank in a value is encoded as a plus
sign, which is not decoded. -/
def ofParts (name : List Char) (parameters : List (String × String)) : DatabaseName :=
  let part (s : String) : String :=
    String.ofList ((s.toList.map fun c => if c = ' ' then '+' else c).takeWhile (!isNull ·))
  { text := name.takeWhile (!isNull ·), isUri := true,
    parameters := parameters.map fun (parameter,value) => (parameter,part value) }

def parameter? (name : DatabaseName) (parameter : String) : Option String :=
  name.parameters.lookup parameter

def lastParameter? (name : DatabaseName) (parameter : String) : Option String :=
  name.parameters.reverse.lookup parameter

def leadingNumber (cs : List Char) : Nat :=
  let n := match cs with
    | '0' :: 'x' :: cs | '0' :: 'X' :: cs =>
      ((cs.map HexDigit.ofChar?).takeWhile Option.isSome).foldl
        (fun n d => 16 * n + (d.map Fin.val).getD 0) 0
    | cs => digitsValue (cs.takeWhile isDigit)
  if n < 2147483648 then n else 0

def isOn (value : String) : Bool :=
  if value.toList.head?.any isDigit then leadingNumber value.toList % 256 != 0
  else ["on","yes","true"].contains value.toLower

def isSwitchedOn (name : DatabaseName) (parameter : String) : Bool :=
  (name.parameter? parameter).any isOn

end DatabaseName

end Coursework.CommandLine
