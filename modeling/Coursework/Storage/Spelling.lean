/-!
Names of tables and columns as the statements of other programs spell them. A name is a word or
stands in quotes of one of four kinds; blanks and comments may stand around it, and the case of
ASCII letters makes no difference. A table may stand behind the name of its schema, and a column in
parentheses.
-/
namespace Coursework.Spelling

inductive Token where
  | name (s : String)
  | sign (c : Char)
  deriving DecidableEq, Repr

def isBlank (c : Char) : Bool := [' ','\t','\n','\x0c','\r','\ufeff'].contains c

def isWordChar (c : Char) : Bool := c.isAlphanum || c == '_' || c == '$' || 128 ≤ c.toNat

def closing? : Char → Option Char
  | '[' => some ']'
  | c => if ['"','\'','\x60'].contains c then some c else none

def behind? (word : List Char) : List Char → Option (List Char)
  | [] => none
  | c :: cs =>
    if word.isPrefixOf (c :: cs) then some ((c :: cs).drop word.length) else behind? word cs

def scan? : List Char → Option (Option Token × List Char)
  | [] => none
  | '-' :: '-' :: cs => (behind? ['\n'] cs).map (none,·)
  | '/' :: '*' :: cs => (behind? ['*','/'] cs).map (none,·)
  | c :: cs =>
    match closing? c with
    | some close =>
      let name := cs.takeWhile (· != close)
      if name.length = cs.length then none
      else some (some (.name (String.ofList name).toLower),cs.drop (name.length + 1))
    | none =>
      if isWordChar c then
        let word := c :: cs.takeWhile isWordChar
        some (some (.name (String.ofList word).toLower),cs.dropWhile isWordChar)
      else some (some (.sign c),cs)

def tokens? : (fuel : Nat) → List Char → Option (List Token)
  | 0, _ => none
  | fuel + 1, cs =>
    match cs.dropWhile isBlank with
    | [] => some []
    | c :: cs => do
      let (token,rest) ← scan? (c :: cs)
      let tokens ← tokens? fuel rest
      some (token.toList ++ tokens)

def tokensOf? (s : String) : Option (List Token) := tokens? (s.length + 1) s.toList

def mainSchema : String := "main"

def table? (s : String) : Option String :=
  match tokensOf? s with
  | some [.name table] => some table
  | some [.name schema,.sign '.',.name table] =>
    if schema = mainSchema then some table else none
  | _ => none

def column? (s : String) : Option String :=
  match tokensOf? s with
  | some [.name column] => some column
  | some [.sign '(',.name column,.sign ')'] => some column
  | _ => none

end Coursework.Spelling
