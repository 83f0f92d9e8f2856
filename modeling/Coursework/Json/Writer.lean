import Coursework.Json.Value
import Coursework.Text.Decimal
import Coursework.Uuid
/-!
Writing JSON. Quotes, backslashes and control characters are escaped, all other characters stand
for themselves. The compact form has no blanks; the indented form has two spaces to a level and a
blank behind each colon.
-/
namespace Coursework.Json

open Text

def escapeChar (c : Char) : List Char :=
  if c = '"' then ['\\','"']
  else if c = '\\' then ['\\','\\']
  else if c = '\x08' then ['\\','b']
  else if c = '\x0c' then ['\\','f']
  else if c = '\n' then ['\\','n']
  else if c = '\r' then ['\\','r']
  else if c = '\t' then ['\\','t']
  else if c.toNat < 0x20 then
    ['\\','u','0','0'] ++ (Uuid.digitsOfNat 2 c.toNat).map HexDigit.char
  else [c]

def literalChars : Literal → List Char
  | some s => '"' :: s.toList.flatMap escapeChar ++ ['"']
  | none => ['"','\\','u','d','8','0','0','"']

def scalarChars : Value → List Char
  | .null => ['n','u','l','l']
  | .bool true => ['t','r','u','e']
  | .bool false => ['f','a','l','s','e']
  | .integer n => signed n
  | .fraction => ['0','.','0']
  | .string s => literalChars s
  | .array _ => ['[',']']
  | .object _ => ['{','}']

mutual
def Value.compactChars : Value → List Char
  | .array items => '[' :: compactItems items ++ [']']
  | .object members => '{' :: compactMembers members ++ ['}']
  | v => scalarChars v

def Value.compactItems : List Value → List Char
  | [] => []
  | [v] => v.compactChars
  | v :: items => v.compactChars ++ ',' :: compactItems items

def Value.compactMembers : List (Literal × Value) → List Char
  | [] => []
  | [(key,v)] => literalChars key ++ ':' :: v.compactChars
  | (key,v) :: members =>
    literalChars key ++ ':' :: v.compactChars ++ ',' :: compactMembers members
end

def Value.compact (v : Value) : String := String.ofList v.compactChars

def newLine (level : Nat) : List Char := '\n' :: List.replicate (2 * level) ' '

mutual
def Value.indentedChars (level : Nat) : Value → List Char
  | .array [] => ['[',']']
  | .array items => '[' :: indentedItems (level + 1) items ++ newLine level ++ [']']
  | .object [] => ['{','}']
  | .object members => '{' :: indentedMembers (level + 1) members ++ newLine level ++ ['}']
  | v => scalarChars v

def Value.indentedItems (level : Nat) : List Value → List Char
  | [] => []
  | [v] => newLine level ++ v.indentedChars level
  | v :: items => newLine level ++ v.indentedChars level ++ ',' :: indentedItems level items

def Value.indentedMembers (level : Nat) : List (Literal × Value) → List Char
  | [] => []
  | [(key,v)] => newLine level ++ literalChars key ++ ':' :: ' ' :: v.indentedChars level
  | (key,v) :: members =>
    newLine level ++ literalChars key ++ ':' :: ' ' :: v.indentedChars level ++
      ',' :: indentedMembers level members
end

def Value.indented (v : Value) : String := String.ofList (v.indentedChars 0)

end Coursework.Json
