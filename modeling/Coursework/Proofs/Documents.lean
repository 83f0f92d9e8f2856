import Coursework.Json.Reader
import Coursework.Json.Writer
import Coursework.Proofs.Digits

/-! Every document is read back from its compact text. Numbers need care only at their ends, so a
value is scanned in front of a comma, a closing bracket or the end of the line. -/
namespace Coursework

namespace Json

open Text

theorem escapeScanned (c : Char) (rest : List Char) :
    scanString .plain (escapeChar c ++ rest) =
      (scanString .plain rest).map fun (units,rest) => (c.toNat :: units,rest) := by
  have bound : ∀ o : Option (List Nat × List Char),
      (do let (units,rest) ← o; some (c.toNat :: units,rest)) =
        o.map fun (units,rest) => (c.toNat :: units,rest) := by
    intro o
    cases o <;> rfl
  unfold escapeChar
  split
  · rename_i same; cases same; exact bound _
  split
  · rename_i same; cases same; exact bound _
  split
  · rename_i same; cases same; exact bound _
  split
  · rename_i same; cases same; exact bound _
  split
  · rename_i same; cases same; exact bound _
  split
  · rename_i same; cases same; exact bound _
  split
  · rename_i same; cases same; exact bound _
  split
  · rename_i control
    have high := HexDigit.ofOwnChar ⟨c.toNat / 16 % 16,Nat.mod_lt _ (by decide)⟩
    have low := HexDigit.ofOwnChar ⟨c.toNat % 16,Nat.mod_lt _ (by decide)⟩
    have zero : HexDigit.ofChar? '0' = some 0 := by decide
    have whole : c.toNat / 16 % 16 * 16 + c.toNat % 16 = c.toNat := by omega
    simp [scanString,Uuid.digitsOfNat,high,low,zero,whole]
    cases scanString .plain rest <;> rfl
  · rename_i notQuote notBackslash _ _ _ _ _ notControl
    simp [scanString,notQuote,notBackslash,notControl]

theorem charsScanned (cs rest : List Char) :
    scanString .plain (cs.flatMap escapeChar ++ '"' :: rest) = some (cs.map Char.toNat,rest) := by
  induction cs with
  | nil => rfl
  | cons c cs ih => rw [List.flatMap_cons,List.append_assoc,escapeScanned,ih]; rfl

theorem charsJoined (cs : List Char) : joinSurrogates (cs.map Char.toNat) = some cs := by
  induction cs with
  | nil => rfl
  | cons c cs ih =>
    have valid : c.toNat < 0xD800 ∨ 0xDFFF < c.toNat := by
      rcases c.valid with low | high
      · exact .inl low
      · exact .inr high.1
    have notHigh : isHighSurrogate c.toNat = false := by
      simp only [isHighSurrogate,Bool.and_eq_false_iff,decide_eq_false_iff_not]
      omega
    have notLow : isLowSurrogate c.toNat = false := by
      simp only [isLowSurrogate,Bool.and_eq_false_iff,decide_eq_false_iff_not]
      omega
    rw [List.map_cons]
    unfold joinSurrogates
    simp [notHigh,notLow,ih]

theorem literalScanned (s : Literal) (rest : List Char) :
    ∃ cs, literalChars s ++ rest = '"' :: cs ∧ scanLiteral cs = some (s,rest) := by
  cases s with
  | none => exact ⟨_,rfl,rfl⟩
  | some s =>
    refine ⟨s.toList.flatMap escapeChar ++ '"' :: rest,by simp [literalChars],?_⟩
    simp [scanLiteral,charsScanned,charsJoined]

def Closing (c : Char) : Prop := c = ',' ∨ c = ']' ∨ c = '}' ∨ c = '\n'

def Closes (rest : List Char) : Prop := ∀ c ∈ rest.head?, Closing c

theorem closesCons {c : Char} {rest : List Char} (closing : Closing c) : Closes (c :: rest) := by
  intro d head
  cases head
  exact closing

theorem closesEnd : Closes [] := by
  intro c head
  cases head

theorem closesNoDigit {rest : List Char} (closes : Closes rest) :
    ∀ c ∈ rest.head?, isDigit c = false := by
  intro c head
  rcases closes c head with rfl | rfl | rfl | rfl <;> decide

theorem digitsScanned {digits rest : List Char} (all : ∀ c ∈ digits, isDigit c = true)
    (nonempty : digits ≠ []) (stops : ∀ c ∈ rest.head?, isDigit c = false) :
    scanDigits (digits ++ rest) = some (digits,rest) := by
  have scanned : leadingDigits (digits ++ rest).length (digits ++ rest) = (digits,rest) :=
    leadingDigitsOf all stops (by simp)
  simp only [scanDigits,scanned]
  rw [if_neg (by simpa using nonempty)]

theorem magnitudeScanned (negative : Bool) (n : Nat) {rest : List Char} (closes : Closes rest)
    (signed : negative = true → 0 < n) :
    scanMagnitude negative (decimal n ++ rest) =
      some (.integer (if negative then -(n : Int) else n),rest) := by
  have digits : scanDigits (decimal n ++ rest) = some (decimal n,rest) :=
    digitsScanned (fun _ => decimalAreDigits) (decimalNonempty n) (closesNoDigit closes)
  have canonical : ¬((decimal n).head? = some '0' ∧ (decimal n).length ≠ 1) := by
    rintro ⟨zero,long⟩
    by_cases positive : 0 < n
    · exact digitsWithinHead positive (Nat.lt_succ_self n) zero
    · obtain rfl : n = 0 := by omega
      exact long rfl
  have noFraction : scanFractionPart rest = some (false,rest) := by
    cases rest with
    | nil => rfl
    | cons c rest => rcases closes c rfl with rfl | rfl | rfl | rfl <;> rfl
  have noExponent : scanExponent rest = some (false,rest) := by
    cases rest with
    | nil => rfl
    | cons c rest => rcases closes c rfl with rfl | rfl | rfl | rfl <;> rfl
  have noNegativeZero : (negative && (n : Int) == 0) = false := by
    cases negative with
    | false => rfl
    | true =>
      have := signed rfl
      simp only [Bool.true_and,beq_eq_false_iff_ne]
      omega
  simp only [scanMagnitude,digits,canonical,noFraction,noExponent,valueOfDecimal,
    noNegativeZero,Option.bind_eq_bind,Option.bind_some,if_false,Bool.or_false,Bool.false_or,
    Bool.false_eq_true]

theorem spaceStops {c : Char} (solid : isSpace c = false) (cs : List Char) :
    skipSpace (c :: cs) = c :: cs := by
  simp [skipSpace,solid]

theorem digitIsSolid {c : Char} (digit : isDigit c = true) :
    isSpace c = false ∧ c ≠ ']' ∧ c ≠ '"' ∧ c ≠ '[' ∧ c ≠ '{' ∧ c ≠ 'n' ∧ c ≠ 't' ∧ c ≠ 'f' ∧
      c ≠ '-' := by
  refine ⟨?_,?_,?_,?_,?_,?_,?_,?_,?_⟩
  · cases space : isSpace c with
    | false => rfl
    | true =>
      simp only [isSpace,Bool.or_eq_true,beq_iff_eq] at space
      rcases space with ((rfl | rfl) | rfl) | rfl <;> revert digit <;> decide
  all_goals
    rintro rfl
    revert digit
    decide

theorem signedHead (n : Int) :
    ∃ c cs, signed n = c :: cs ∧ (isDigit c = true ∨ c = '-') := by
  cases n with
  | negSucc n => exact ⟨'-',_,rfl,.inr rfl⟩
  | ofNat n =>
    cases digits : decimal n with
    | nil => exact absurd digits (decimalNonempty n)
    | cons c cs =>
      refine ⟨c,cs,digits,.inl (decimalAreDigits (n := n) ?_)⟩
      rw [digits]
      exact List.mem_cons_self

theorem valueHead (v : Value) :
    ∃ c cs, v.compactChars = c :: cs ∧ isSpace c = false ∧ c ≠ ']' := by
  cases v with
  | null => exact ⟨_,_,rfl,by decide,by decide⟩
  | bool b => cases b <;> exact ⟨_,_,rfl,by decide,by decide⟩
  | integer n =>
    obtain ⟨c,cs,head,kind⟩ := signedHead n
    refine ⟨c,cs,head,?_⟩
    rcases kind with digit | rfl
    · have solid := digitIsSolid digit
      exact ⟨solid.1,solid.2.1⟩
    · decide
  | fraction => exact ⟨_,_,rfl,by decide,by decide⟩
  | string s => cases s <;> exact ⟨_,_,rfl,by decide,by decide⟩
  | array items => exact ⟨_,_,rfl,by decide,by decide⟩
  | object members => exact ⟨_,_,rfl,by decide,by decide⟩

theorem integerScanned (fuel : Nat) (n : Int) {rest : List Char} (closes : Closes rest) :
    scanValue (fuel + 1) (signed n ++ rest) = some (.integer n,rest) := by
  cases n with
  | negSucc n =>
    have scanned := magnitudeScanned true (n + 1) closes (by omega)
    have solid := spaceStops (c := '-') (by decide) (decimal (n + 1) ++ rest)
    rw [signed,List.cons_append]
    unfold scanValue
    rw [solid]
    exact scanned
  | ofNat n =>
    have scanned := magnitudeScanned false n closes (by simp)
    obtain ⟨c,cs,head,_⟩ := signedHead (.ofNat n)
    have digits : decimal n = c :: cs := head
    have digit : isDigit c = true := by
      apply decimalAreDigits (n := n)
      rw [digits]
      exact List.mem_cons_self
    obtain ⟨solid,_,quote,bracket,brace,isNull,isTrue,isFalse,minus⟩ := digitIsSolid digit
    rw [digits,List.cons_append] at scanned
    rw [head,List.cons_append]
    simp [scanValue,spaceStops solid,quote,bracket,brace,isNull,isTrue,isFalse,scanNumber,minus,
      scanned]

theorem fractionScanned (fuel : Nat) {rest : List Char} (closes : Closes rest) :
    scanValue (fuel + 1) ('0' :: '.' :: '0' :: rest) = some (.fraction,rest) := by
  have zero : ∀ c ∈ ['0'], isDigit c = true := by
    intro c member
    cases List.mem_singleton.mp member
    decide
  have point : ∀ c ∈ ('.' :: '0' :: rest).head?, isDigit c = false := by
    intro c head
    cases head
    decide
  have whole : scanDigits ('0' :: '.' :: '0' :: rest) = some (['0'],'.' :: '0' :: rest) :=
    digitsScanned zero (List.cons_ne_nil _ _) point
  have decimals : scanDigits ('0' :: rest) = some (['0'],rest) :=
    digitsScanned zero (List.cons_ne_nil _ _) (closesNoDigit closes)
  have noExponent : scanExponent rest = some (false,rest) := by
    cases rest with
    | nil => rfl
    | cons c rest => rcases closes c rfl with rfl | rfl | rfl | rfl <;> rfl
  have solid := spaceStops (c := '0') (by decide) ('.' :: '0' :: rest)
  simp [scanValue,solid,scanNumber,scanMagnitude,whole,scanFractionPart,decimals,noExponent]

/- What the three readers do on written text, with enough fuel for its length. -/
structure ScansBack (fuel : Nat) : Prop where
  value : ∀ v rest, Closes rest → 2 * v.compactChars.length ≤ fuel →
    scanValue fuel (v.compactChars ++ rest) = some (v,rest)
  items : ∀ items rest, items ≠ [] → 2 * (Value.compactItems items).length + 1 ≤ fuel →
    scanItems fuel (Value.compactItems items ++ ']' :: rest) = some (items,rest)
  members : ∀ members rest, members ≠ [] →
    2 * (Value.compactMembers members).length + 1 ≤ fuel →
    scanMembers fuel (Value.compactMembers members ++ '}' :: rest) = some (members,rest)

section Step

variable {fuel : Nat} (ready : ScansBack fuel) (rest : List Char)

include ready

theorem valueScanned (v : Value) (closes : Closes rest)
    (enough : 2 * v.compactChars.length ≤ fuel + 1) :
    scanValue (fuel + 1) (v.compactChars ++ rest) = some (v,rest) := by
  match v with
  | .null => rfl
  | .bool true => rfl
  | .bool false => rfl
  | .integer n => exact integerScanned fuel n closes
  | .fraction => exact fractionScanned fuel closes
  | .string s =>
    obtain ⟨cs,written,scanned⟩ := literalScanned s rest
    have solid := spaceStops (c := '"') (by decide) cs
    simp only [Value.compactChars,scalarChars,written,scanValue,solid,scanned,Option.map_some]
  | .array [] => rfl
  | .array (item :: items) =>
    obtain ⟨c,cs,start,blank,bracket⟩ := valueHead item
    have size : (Value.array (item :: items)).compactChars.length =
        (Value.compactItems (item :: items)).length + 2 := by
      simp [Value.compactChars]
    have scanned := ready.items (item :: items) rest (by simp) (by omega)
    obtain ⟨tail,same⟩ : ∃ tail, Value.compactItems (item :: items) ++ ']' :: rest = c :: tail := by
      cases items <;> simp [Value.compactItems,start]
    have behind := spaceStops (c := '[') (by decide) (c :: tail)
    have inside := spaceStops blank tail
    have layout : (Value.array (item :: items)).compactChars ++ rest = '[' :: c :: tail := by
      rw [← same]
      simp [Value.compactChars]
    rw [same] at scanned
    rw [layout]
    simp [scanValue,behind,inside,bracket,scanned]
  | .object [] => rfl
  | .object ((key,member) :: members) =>
    have size : (Value.object ((key,member) :: members)).compactChars.length =
        (Value.compactMembers ((key,member) :: members)).length + 2 := by
      simp [Value.compactChars]
    have scanned := ready.members ((key,member) :: members) rest (by simp) (by omega)
    obtain ⟨tail,same⟩ : ∃ tail, Value.compactMembers ((key,member) :: members) ++ '}' :: rest =
        '"' :: tail := by
      cases key <;> cases members <;> simp [Value.compactMembers,literalChars]
    have behind := spaceStops (c := '{') (by decide) ('"' :: tail)
    have inside := spaceStops (c := '"') (by decide) tail
    have layout : (Value.object ((key,member) :: members)).compactChars ++ rest =
        '{' :: '"' :: tail := by
      rw [← same]
      simp [Value.compactChars]
    rw [same] at scanned
    rw [layout]
    simp [scanValue,behind,inside,scanned]

theorem itemsScanned (items : List Value) (nonempty : items ≠ [])
    (enough : 2 * (Value.compactItems items).length + 1 ≤ fuel + 1) :
    scanItems (fuel + 1) (Value.compactItems items ++ ']' :: rest) = some (items,rest) := by
  match items with
  | [] => contradiction
  | [item] =>
    have first := ready.value item (']' :: rest) (closesCons (by simp [Closing]))
      (by simp only [Value.compactItems] at enough; omega)
    have closed := spaceStops (c := ']') (by decide) rest
    simp [Value.compactItems,scanItems,first,closed]
  | item :: next :: items =>
    have size : (Value.compactItems (item :: next :: items)).length =
        item.compactChars.length + (Value.compactItems (next :: items)).length + 1 := by
      simp [Value.compactItems]
      omega
    have first := ready.value item
      (',' :: (Value.compactItems (next :: items) ++ ']' :: rest)) (closesCons (by simp [Closing]))
      (by omega)
    have later := ready.items (next :: items) rest (by simp) (by omega)
    have parted := spaceStops (c := ',') (by decide)
      (Value.compactItems (next :: items) ++ ']' :: rest)
    have layout : Value.compactItems (item :: next :: items) ++ ']' :: rest =
        item.compactChars ++ ',' :: (Value.compactItems (next :: items) ++ ']' :: rest) := by
      simp [Value.compactItems]
    rw [layout]
    simp [scanItems,first,parted,later]

theorem membersScanned (members : List (Literal × Value)) (nonempty : members ≠ [])
    (enough : 2 * (Value.compactMembers members).length + 1 ≤ fuel + 1) :
    scanMembers (fuel + 1) (Value.compactMembers members ++ '}' :: rest) = some (members,rest) := by
  match members with
  | [] => contradiction
  | [(key,v)] =>
    have size : (Value.compactMembers [(key,v)]).length =
        (literalChars key).length + v.compactChars.length + 1 := by
      simp [Value.compactMembers]
      omega
    have first := ready.value v ('}' :: rest) (closesCons (by simp [Closing])) (by omega)
    obtain ⟨cs,written,scanned⟩ := literalScanned key (':' :: (v.compactChars ++ '}' :: rest))
    have start := spaceStops (c := '"') (by decide) cs
    have colon := spaceStops (c := ':') (by decide) (v.compactChars ++ '}' :: rest)
    have closed := spaceStops (c := '}') (by decide) rest
    have layout : Value.compactMembers [(key,v)] ++ '}' :: rest = '"' :: cs := by
      rw [← written]
      simp [Value.compactMembers]
    rw [layout]
    simp [scanMembers,behind?,start,scanned,colon,first,closed]
  | (key,v) :: next :: members =>
    let others := Value.compactMembers (next :: members) ++ '}' :: rest
    have size : (Value.compactMembers ((key,v) :: next :: members)).length =
        (literalChars key).length + v.compactChars.length +
          (Value.compactMembers (next :: members)).length + 2 := by
      simp [Value.compactMembers]
      omega
    have first := ready.value v (',' :: others) (closesCons (by simp [Closing])) (by omega)
    have later := ready.members (next :: members) rest (by simp) (by omega)
    obtain ⟨cs,written,scanned⟩ := literalScanned key (':' :: (v.compactChars ++ ',' :: others))
    have start := spaceStops (c := '"') (by decide) cs
    have colon := spaceStops (c := ':') (by decide) (v.compactChars ++ ',' :: others)
    have parted := spaceStops (c := ',') (by decide) others
    have layout : Value.compactMembers ((key,v) :: next :: members) ++ '}' :: rest = '"' :: cs := by
      rw [← written]
      simp [Value.compactMembers,others]
    rw [layout]
    simp [scanMembers,behind?,start,scanned,colon,first,parted,others,later]

end Step

theorem scansBack (fuel : Nat) : ScansBack fuel := by
  induction fuel with
  | zero =>
    refine ⟨fun v _ _ enough => ?_,fun _ _ _ enough => by omega,fun _ _ _ enough => by omega⟩
    obtain ⟨_,_,head,_⟩ := valueHead v
    rw [head] at enough
    simp at enough
  | succ fuel ready =>
    exact ⟨fun v rest => valueScanned ready rest v,
      fun items rest => itemsScanned ready rest items,
      fun members rest => membersScanned ready rest members⟩

theorem parseBefore (v : Value) {rest : List Char} (closes : Closes rest)
    (blank : skipSpace rest = []) : Value.parseChars? (v.compactChars ++ rest) = some v := by
  have scanned := (scansBack (2 * (v.compactChars ++ rest).length + 2)).value v rest closes
    (by rw [List.length_append]; omega)
  rw [Value.parseChars?,scanned]
  simp only [blank,List.isEmpty_nil,if_true]

theorem parseCompact (v : Value) : Value.parse? v.compact = some v := by
  have parsed := parseBefore v closesEnd rfl
  rwa [List.append_nil,← String.toList_ofList (l := v.compactChars)] at parsed

theorem parseLine (v : Value) : Value.parse? (v.compact ++ "\n") = some v := by
  have closes : Closes ['\n'] := closesCons (.inr (.inr (.inr rfl)))
  have parsed := parseBefore v closes rfl
  rw [Value.parse?,String.toList_append,Value.compact,String.toList_ofList]
  exact parsed

end Json

end Coursework
