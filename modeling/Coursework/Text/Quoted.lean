import Coursework.Text.Shapeless
/-!
Texts in double quotes, as messages show them. Quotes, backslashes and the usual controls stand
behind a backslash; characters without a shape of their own are written by their numbers.
-/
namespace Coursework.Text

def quoteChar (c : Char) : List Char :=
  match c with
  | '"' => ['\\','"']
  | '\\' => ['\\','\\']
  | '\n' => ['\\','n']
  | '\r' => ['\\','r']
  | '\t' => ['\\','t']
  | c =>
    if c.toNat = 0 then ['\\','0']
    else if isShapeless c then ['\\','u','\x7b'] ++ Nat.toDigits 16 c.toNat ++ ['\x7d']
    else [c]

def quoted (s : String) : String :=
  String.ofList ('"' :: s.toList.flatMap quoteChar ++ ['"'])

end Coursework.Text
