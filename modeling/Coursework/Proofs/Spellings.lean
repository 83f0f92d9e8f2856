import Coursework.Id
import Coursework.Proofs.Padding
import Mathlib.Data.List.Forall2

/-! The spellings of an identifier: its digits in either case, in one run or in groups, the groups also
in braces or behind a scheme. These are what is read as the identifier, and no other texts are. -/
namespace Coursework

open Text

namespace HexDigit

def SpelledBy (d : HexDigit) (c : Char) : Prop := c = d.char ∨ c = d.char.toUpper

theorem ofCharIff {d : HexDigit} {c : Char} : ofChar? c = some d ↔ d.SpelledBy c := by
  have table : ∀ n, n < 103 → ∀ d : HexDigit, ofChar? (Char.ofNat n) = some d →
      Char.ofNat n = d.char ∨ Char.ofNat n = d.char.toUpper := by decide
  have back : ∀ d : HexDigit, ofChar? d.char.toUpper = some d := by decide
  constructor
  · intro read
    have low : c.toNat < 103 := by
      by_contra high
      simp only [ofChar?] at read
      split at read
      · omega
      · split at read
        · omega
        · split at read
          · omega
          · cases read
    have found := table c.toNat low d
    rw [Char.ofNat_toNat] at found
    exact found read
  · rintro (rfl | rfl)
    · exact ofOwnChar d
    · exact back d

theorem spelledSolid {d : HexDigit} {c : Char} (spelled : d.SpelledBy c) :
    isBlank c = false ∧ c ≠ '=' := by
  have lower : ∀ d : HexDigit, isBlank d.char = false ∧ d.char ≠ '=' := by decide
  have upper : ∀ d : HexDigit, isBlank d.char.toUpper = false ∧ d.char.toUpper ≠ '=' := by decide
  rcases spelled with rfl | rfl
  · exact lower d
  · exact upper d

end HexDigit

namespace Uuid

abbrev Digits : List HexDigit → List Char → Prop := List.Forall₂ HexDigit.SpelledBy

inductive Groups : List Nat → List HexDigit → List Char → Prop where
  | none : Groups [] [] []
  | last {size ds cs} (length : ds.length = size) (digits : Digits ds cs) : Groups [size] ds cs
  | more {size next sizes ds es cs rest} (length : ds.length = size) (digits : Digits ds cs)
      (later : Groups (next :: sizes) es rest) :
      Groups (size :: next :: sizes) (ds ++ es) (cs ++ '-' :: rest)

def scheme : List Char := "urn:uuid:".toList

inductive Spelling (u : Uuid) : List Char → Prop where
  | grouped {cs} (digits : Groups groups u.digits cs) : Spelling u cs
  | plain {cs} (digits : Digits u.digits cs) : Spelling u cs
  | braced {cs} (digits : Groups groups u.digits cs) : Spelling u ('{' :: (cs ++ ['}']))
  | urn {front cs} (named : front.map Char.toLower = scheme) (digits : Groups groups u.digits cs) :
      Spelling u (front ++ cs)

theorem takeDigitsIff {count : Nat} {cs rest : List Char} {ds : List HexDigit} :
    takeDigits? count cs = some (ds,rest) ↔
      ds.length = count ∧ ∃ front, Digits ds front ∧ cs = front ++ rest := by
  induction count generalizing cs ds with
  | zero =>
    simp only [takeDigits?,Option.some.injEq,Prod.mk.injEq,List.length_eq_zero_iff]
    constructor
    · rintro ⟨rfl,rfl⟩
      exact ⟨rfl,[],.nil,rfl⟩
    · rintro ⟨rfl,front,digits,rfl⟩
      cases digits
      exact ⟨rfl,rfl⟩
  | succ count ih =>
    constructor
    · intro read
      cases cs with
      | nil => cases read
      | cons c cs =>
        simp only [takeDigits?,Option.bind_eq_bind,Option.bind_eq_some_iff] at read
        obtain ⟨d,digit,⟨others,behind⟩,taken,same⟩ := read
        cases Option.some.inj same
        obtain ⟨length,front,digits,rfl⟩ := ih.mp taken
        exact ⟨congrArg Nat.succ length,c :: front,.cons (HexDigit.ofCharIff.mp digit) digits,rfl⟩
    · rintro ⟨length,front,digits,rfl⟩
      cases digits with
      | nil => cases length
      | cons digit digits =>
        have taken := ih.mpr ⟨Nat.succ.inj length,_,digits,rfl⟩
        simp only [List.cons_append,takeDigits?,HexDigit.ofCharIff.mpr digit,taken]
        rfl

theorem takeGroupsIff {sizes : List Nat} {cs : List Char} {ds : List HexDigit} :
    takeGroups? sizes cs = some ds ↔ Groups sizes ds cs := by
  induction sizes generalizing cs ds with
  | nil =>
    simp only [takeGroups?]
    constructor
    · intro read
      split at read
      · rename_i nothing
        cases Option.some.inj read
        cases List.isEmpty_iff.mp nothing
        exact .none
      · cases read
    · intro spelled
      cases spelled
      rfl
  | cons size sizes ih =>
    cases sizes with
    | nil =>
      simp only [takeGroups?,Option.bind_eq_bind,Option.bind_eq_some_iff]
      constructor
      · rintro ⟨⟨front,rest⟩,taken,last⟩
        obtain ⟨length,text,digits,rfl⟩ := takeDigitsIff.mp taken
        split at last
        · rename_i nothing
          cases Option.some.inj last
          cases List.isEmpty_iff.mp nothing
          rw [List.append_nil]
          exact .last length digits
        · cases last
      · intro spelled
        cases spelled with
        | last length digits =>
          exact ⟨(ds,[]),takeDigitsIff.mpr ⟨length,cs,digits,(List.append_nil cs).symm⟩,rfl⟩
    | cons next sizes =>
      constructor
      · intro read
        simp only [takeGroups?,Option.bind_eq_bind,Option.bind_eq_some_iff] at read
        obtain ⟨⟨front,rest⟩,taken,last⟩ := read
        obtain ⟨length,text,digits,rfl⟩ := takeDigitsIff.mp taken
        split at last
        · rename_i hyphen
          cases hyphen
          obtain ⟨others,later,rfl⟩ := Option.map_eq_some_iff.mp last
          exact .more length digits (ih.mp later)
        · cases last
      · intro spelled
        cases spelled with
        | @more _ _ _ front others text rest length digits later =>
          have taken : takeDigits? size (text ++ '-' :: rest) = some (front,'-' :: rest) :=
            takeDigitsIff.mpr ⟨length,text,digits,rfl⟩
          rw [takeGroups?,taken]
          · simp [ih.mpr later]
          · simp

theorem Digits.length {ds : List HexDigit} {cs : List Char} (digits : Digits ds cs) :
    cs.length = ds.length :=
  (List.Forall₂.length_eq digits).symm

theorem Groups.counts {sizes : List Nat} {ds : List HexDigit} {cs : List Char}
    (spelled : Groups sizes ds cs) :
    ds.length = total sizes ∧ cs.length + 1 = total sizes + max 1 sizes.length := by
  induction spelled with
  | none => exact ⟨rfl,rfl⟩
  | last length digits =>
    have := digits.length
    simp only [total,List.length_cons,List.length_nil]
    omega
  | more length digits later ih =>
    have := digits.length
    simp only [List.length_append,List.length_cons,total] at ih ⊢
    omega

theorem Groups.length {ds : List HexDigit} {cs : List Char} (spelled : Groups groups ds cs) :
    ds.length = 32 ∧ cs.length = 36 := by
  have counts := spelled.counts
  have size : total groups = 32 ∧ groups.length = 5 := ⟨rfl,rfl⟩
  omega

theorem parseGroupedIff {cs : List Char} {u : Uuid} :
    parseGrouped? cs = some u ↔ Groups groups u.digits cs := by
  simp only [parseGrouped?,Option.bind_eq_bind,Option.bind_eq_some_iff,takeGroupsIff]
  constructor
  · rintro ⟨ds,spelled,made⟩
    rw [ofDigits?,dif_pos spelled.length.1] at made
    cases Option.some.inj made
    exact spelled
  · intro spelled
    exact ⟨u.digits,spelled,dif_pos u.digitsLength⟩

theorem parsePlainIff {cs : List Char} {u : Uuid} :
    parsePlain? cs = some u ↔ Digits u.digits cs := by
  simp only [parsePlain?,Option.bind_eq_bind,Option.bind_eq_some_iff,takeGroupsIff]
  constructor
  · rintro ⟨ds,spelled,made⟩
    cases spelled with
    | last length digits =>
      rw [ofDigits?,dif_pos length] at made
      cases Option.some.inj made
      exact digits
  · intro digits
    exact ⟨u.digits,.last u.digitsLength digits,dif_pos u.digitsLength⟩

theorem parseBracedIff {cs : List Char} {u : Uuid} :
    parseBraced? cs = some u ↔ ∃ inside, Groups groups u.digits inside ∧
      cs = '{' :: (inside ++ ['}']) := by
  constructor
  · intro read
    unfold parseBraced? at read
    split at read
    · rename_i rest
      split at read
      · rename_i closed
        obtain ⟨inside,rfl⟩ := List.getLast?_eq_some_iff.mp closed
        rw [List.dropLast_concat] at read
        exact ⟨inside,parseGroupedIff.mp read,rfl⟩
      · cases read
    · cases read
  · rintro ⟨inside,spelled,rfl⟩
    simp only [parseBraced?,List.getLast?_concat,if_true,List.dropLast_concat]
    exact parseGroupedIff.mpr spelled

theorem parseUrnIff {cs : List Char} {u : Uuid} :
    parseUrn? cs = some u ↔ ∃ front inside, front.map Char.toLower = scheme ∧
      Groups groups u.digits inside ∧ cs = front ++ inside := by
  have opens : parseUrn? cs =
      if (cs.take 9).map Char.toLower = scheme then parseGrouped? (cs.drop 9) else none := rfl
  rw [opens]
  constructor
  · intro read
    split at read
    · rename_i named
      exact ⟨cs.take 9,cs.drop 9,named,parseGroupedIff.mp read,(List.take_append_drop 9 cs).symm⟩
    · cases read
  · rintro ⟨front,inside,named,spelled,rfl⟩
    have size : front.length = 9 := by
      rw [← List.length_map Char.toLower,named]
      rfl
    rw [List.take_left' size,List.drop_left' size,if_pos named]
    exact parseGroupedIff.mpr spelled

theorem urnLength {front : List Char} (named : front.map Char.toLower = scheme) :
    front.length = 9 := by
  rw [← List.length_map Char.toLower,named]
  rfl

theorem parseCharsIff {cs : List Char} {u : Uuid} : parseChars? cs = some u ↔ u.Spelling cs := by
  -- the forms differ in their lengths, so a text is read in its own form only
  have notGrouped (other : cs.length ≠ 36) : parseGrouped? cs = none :=
    Option.eq_none_iff_forall_ne_some.mpr fun v read => other (parseGroupedIff.mp read).length.2
  have notPlain (other : cs.length ≠ 32) : parsePlain? cs = none :=
    Option.eq_none_iff_forall_ne_some.mpr fun v read =>
      other ((parsePlainIff.mp read).length.trans v.digitsLength)
  have notBraced (other : cs.length ≠ 38) : parseBraced? cs = none := by
    refine Option.eq_none_iff_forall_ne_some.mpr fun v read => other ?_
    obtain ⟨inside,spelled,rfl⟩ := parseBracedIff.mp read
    simp [spelled.length.2]
  have first : parseChars? cs = some u ↔ parseGrouped? cs = some u ∨ parseGrouped? cs = none ∧
      (parsePlain? cs = some u ∨ parsePlain? cs = none ∧
        (parseBraced? cs = some u ∨ parseBraced? cs = none ∧ parseUrn? cs = some u)) := by
    simp only [parseChars?,Option.orElse_eq_orElse,Option.orElse_eq_or,Option.or_eq_some_iff]
  rw [first]
  constructor
  · rintro (read | ⟨-,read | ⟨-,read | ⟨-,read⟩⟩⟩)
    · exact .grouped (parseGroupedIff.mp read)
    · exact .plain (parsePlainIff.mp read)
    · obtain ⟨inside,spelled,rfl⟩ := parseBracedIff.mp read
      exact .braced spelled
    · obtain ⟨front,inside,named,spelled,rfl⟩ := parseUrnIff.mp read
      exact .urn named spelled
  · intro spelled
    cases spelled with
    | grouped digits => exact .inl (parseGroupedIff.mpr digits)
    | plain digits =>
      have size : cs.length = 32 := digits.length.trans u.digitsLength
      exact .inr ⟨notGrouped (by omega),.inl (parsePlainIff.mpr digits)⟩
    | @braced inside digits =>
      have size : ('{' :: (inside ++ ['}'])).length = 38 := by simp [digits.length.2]
      exact .inr ⟨notGrouped (by omega),.inr ⟨notPlain (by omega),
        .inl (parseBracedIff.mpr ⟨inside,digits,rfl⟩)⟩⟩
    | @urn front inside named digits =>
      have size : (front ++ inside).length = 45 := by
        rw [List.length_append,urnLength named,digits.length.2]
      exact .inr ⟨notGrouped (by omega),.inr ⟨notPlain (by omega),.inr ⟨notBraced (by omega),
        parseUrnIff.mpr ⟨front,inside,named,digits,rfl⟩⟩⟩⟩

def Solid (cs : List Char) : Prop := ∀ c ∈ cs, isBlank c = false ∧ c ≠ '='

theorem Digits.solid {ds : List HexDigit} {cs : List Char} (digits : Digits ds cs) : Solid cs := by
  intro c member
  induction digits with
  | nil => cases member
  | cons spelled rest ih =>
    rcases List.mem_cons.mp member with rfl | later
    · exact HexDigit.spelledSolid spelled
    · exact ih later

theorem Groups.solid {sizes : List Nat} {ds : List HexDigit} {cs : List Char}
    (spelled : Groups sizes ds cs) : Solid cs := by
  induction spelled with
  | none => exact nofun
  | last length digits => exact digits.solid
  | more length digits later ih =>
    intro c member
    rcases List.mem_append.mp member with here | there
    · exact digits.solid c here
    · rcases List.mem_cons.mp there with rfl | rest
      · decide
      · exact ih c rest

theorem schemeSolid {front : List Char} (named : front.map Char.toLower = scheme) : Solid front := by
  have lower : (scheme.all fun c => !isBlank c && c != '=') = true := by decide
  have upper : ∀ n < 91, 65 ≤ n → isBlank (Char.ofNat n) = false ∧ Char.ofNat n ≠ '=' := by decide
  intro c member
  have inside : c.toLower ∈ scheme := named ▸ List.mem_map_of_mem member
  unfold Char.toLower at inside
  split at inside
  · rename_i capital
    have low : 65 ≤ c.toNat := capital.1
    have high : c.toNat ≤ 90 := capital.2
    have found := upper c.toNat (by omega) low
    rwa [Char.ofNat_toNat] at found
  · have found := List.all_eq_true.mp lower c inside
    simpa using found

theorem Spelling.solid {u : Uuid} {cs : List Char} (spelled : u.Spelling cs) : Solid cs := by
  cases spelled with
  | grouped digits => exact digits.solid
  | plain digits => exact digits.solid
  | braced digits =>
    intro c member
    rcases List.mem_cons.mp member with rfl | inside
    · decide
    · rcases List.mem_append.mp inside with here | last
      · exact digits.solid c here
      · cases List.mem_singleton.mp last
        decide
  | urn named digits =>
    intro c member
    rcases List.mem_append.mp member with here | there
    · exact schemeSolid named c here
    · exact digits.solid c there

def PaddedBy (u : Uuid) (cs : List Char) : Prop :=
  ∃ front inside back, front.all isBlank = true ∧ back.all isBlank = true ∧ u.Spelling inside ∧
    cs = front ++ (inside ++ back)

theorem parseTrimmedIff {cs : List Char} {u : Uuid} :
    parseChars? (trimChars cs) = some u ↔ u.PaddedBy cs := by
  rw [parseCharsIff]
  constructor
  · intro spelled
    obtain ⟨front,back,blank,blankToo,whole⟩ := trimSplit cs
    exact ⟨front,trimChars cs,back,blank,blankToo,spelled,whole⟩
  · rintro ⟨front,inside,back,blank,blankToo,spelled,rfl⟩
    rw [trimPadded blank blankToo,trimSolid fun c member => (spelled.solid c member).1]
    exact spelled

end Uuid

end Coursework
