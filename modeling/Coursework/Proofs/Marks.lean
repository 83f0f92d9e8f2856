import Coursework.Proofs.Contents
import Mathlib.Data.List.Forall2

/-! The marks of a text, and that the search for them misses none. A mark starts with a character
that it does not hold again, so no two marks overlap, and what the search takes in one go hides
nothing. The decks of a text are those of its marks, in the order of their first marks. -/
namespace Coursework

namespace Uuid

def SpelledBy (u : Uuid) (cs : List Char) : Prop :=
  ∃ a b c d e : List HexDigit,
    cs = a.map HexDigit.char ++ '-' :: (b.map HexDigit.char ++ '-' :: (c.map HexDigit.char ++
      '-' :: (d.map HexDigit.char ++ '-' :: e.map HexDigit.char))) ∧
    (a.length = 8 ∧ b.length = 4 ∧ c.length = 4 ∧ d.length = 4 ∧ e.length = 12) ∧
    u.digits = a ++ (b ++ (c ++ (d ++ e)))

theorem groupedFront {size next : Nat} {sizes : List Nat} {ds rest : List HexDigit}
    (length : ds.length = size) : grouped (size :: next :: sizes) (ds ++ rest) =
      ds.map HexDigit.char ++ '-' :: grouped (next :: sizes) rest := by
  subst length
  simp [grouped]

theorem groupedLast {size : Nat} {ds : List HexDigit} (length : ds.length = size) :
    grouped [size] ds = ds.map HexDigit.char := by
  subst length
  simp [grouped]

theorem spelledIff {u : Uuid} {cs : List Char} : u.SpelledBy cs ↔ cs = u.chars := by
  have written {a b c d e : List HexDigit}
      (lengths : a.length = 8 ∧ b.length = 4 ∧ c.length = 4 ∧ d.length = 4 ∧ e.length = 12)
      (digits : u.digits = a ++ (b ++ (c ++ (d ++ e)))) :
      u.chars = a.map HexDigit.char ++ '-' :: (b.map HexDigit.char ++ '-' ::
        (c.map HexDigit.char ++ '-' :: (d.map HexDigit.char ++ '-' :: e.map HexDigit.char))) := by
    obtain ⟨ha,hb,hc,hd,he⟩ := lengths
    rw [chars,groups,digits,groupedFront ha,groupedFront hb,groupedFront hc,groupedFront hd,
      groupedLast he]
  constructor
  · rintro ⟨a,b,c,d,e,rfl,lengths,digits⟩
    exact (written lengths digits).symm
  · rintro rfl
    let second := u.digits.drop 8
    let third := second.drop 4
    let fourth := third.drop 4
    have digits : u.digits = u.digits.take 8 ++ (second.take 4 ++ (third.take 4 ++
        (fourth.take 4 ++ fourth.drop 4))) := by
      simp only [second,third,fourth,List.take_append_drop]
    have lengths : (u.digits.take 8).length = 8 ∧ (second.take 4).length = 4 ∧
        (third.take 4).length = 4 ∧ (fourth.take 4).length = 4 ∧ (fourth.drop 4).length = 12 := by
      simp [second,third,fourth,u.digitsLength]
    exact ⟨_,_,_,_,_,written lengths digits,lengths,digits⟩

end Uuid

namespace DeckReference

theorem payloadCharIs {c : Char} (allowed : isPayloadChar c = true) :
    c = '-' ∨ ∃ d : HexDigit, c = d.char := by
  have table : ∀ n, n < 103 → (48 ≤ n ∧ n ≤ 57 ∨ 97 ≤ n ∧ n ≤ 102) →
      ∃ d : HexDigit, Char.ofNat n = d.char := by decide
  have same : Char.ofNat c.toNat = c := Char.ofNat_toNat c
  simp only [isPayloadChar,Bool.or_eq_true,Bool.and_eq_true,decide_eq_true_eq,beq_iff_eq] at allowed
  rcases allowed with range | hyphen
  · obtain ⟨d,found⟩ := table c.toNat (by omega) range
    exact .inr ⟨d,same.symm.trans found⟩
  · exact .inl hyphen

theorem digitIsPayload (d : HexDigit) : isPayloadChar d.char = true := by
  revert d
  decide

theorem payloadDigit {c : Char} {d : HexDigit} (allowed : isPayloadChar c = true)
    (read : HexDigit.ofChar? c = some d) : c = d.char := by
  rcases payloadCharIs allowed with rfl | ⟨other,rfl⟩
  · cases read
  · rw [HexDigit.ofOwnChar] at read
    rw [Option.some.inj read]

theorem digitsTaken {count : Nat} {cs rest : List Char} {ds : List HexDigit}
    (allowed : ∀ c ∈ cs, isPayloadChar c = true)
    (read : Uuid.takeDigits? count cs = some (ds,rest)) :
    cs = ds.map HexDigit.char ++ rest ∧ ds.length = count := by
  induction count generalizing cs ds with
  | zero =>
    cases Option.some.inj read
    exact ⟨rfl,rfl⟩
  | succ count ih =>
    cases cs with
    | nil => cases read
    | cons c cs =>
      obtain ⟨here,later⟩ := List.forall_mem_cons.mp allowed
      simp only [Uuid.takeDigits?,Option.bind_eq_bind,Option.bind_eq_some_iff] at read
      obtain ⟨d,digit,⟨others,behind⟩,taken,same⟩ := read
      cases Option.some.inj same
      obtain ⟨rfl,length⟩ := ih later taken
      exact ⟨by rw [payloadDigit here digit]; rfl,congrArg Nat.succ length⟩

theorem groupsTaken {sizes : List Nat} {cs : List Char} {ds : List HexDigit}
    (allowed : ∀ c ∈ cs, isPayloadChar c = true) (read : Uuid.takeGroups? sizes cs = some ds) :
    cs = Uuid.grouped sizes ds ∧ ds.length = total sizes := by
  induction sizes generalizing cs ds with
  | nil =>
    simp only [Uuid.takeGroups?] at read
    split at read
    · rename_i none
      cases Option.some.inj read
      exact ⟨List.isEmpty_iff.mp none,rfl⟩
    · cases read
  | cons size sizes ih =>
    cases sizes with
    | nil =>
      simp only [Uuid.takeGroups?,Option.bind_eq_bind,Option.bind_eq_some_iff] at read
      obtain ⟨⟨front,rest⟩,taken,last⟩ := read
      obtain ⟨rfl,length⟩ := digitsTaken allowed taken
      split at last
      · rename_i none
        cases Option.some.inj last
        cases List.isEmpty_iff.mp none
        exact ⟨by rw [List.append_nil,Uuid.groupedLast length],length⟩
      · cases last
    | cons next sizes =>
      simp only [Uuid.takeGroups?,Option.bind_eq_bind,Option.bind_eq_some_iff] at read
      obtain ⟨⟨front,rest⟩,taken,last⟩ := read
      obtain ⟨rfl,length⟩ := digitsTaken allowed taken
      split at last
      · rename_i hyphen
        cases hyphen
        obtain ⟨others,back,rfl⟩ := Option.map_eq_some_iff.mp last
        obtain ⟨rfl,rest⟩ := ih (fun c member => allowed c (by simp [member])) back
        refine ⟨(Uuid.groupedFront length).symm,?_⟩
        rw [List.length_append,length,rest]
        rfl
      · cases last

theorem payloadReadIff {payload : List Char} {u : Uuid} (length : payload.length = payloadLength)
    (allowed : ∀ c ∈ payload, isPayloadChar c = true) :
    Uuid.parseChars? payload = some u ↔ payload = u.chars := by
  have notPlain : Uuid.parsePlain? payload = none := by
    cases read : Uuid.takeGroups? [32] payload with
    | none => rw [Uuid.parsePlain?,read]; rfl
    | some ds =>
      obtain ⟨rfl,size⟩ := groupsTaken allowed read
      have whole : ds.length = 32 := size
      rw [Uuid.groupedLast whole,List.length_map,whole] at length
      cases length
  have notBraced : Uuid.parseBraced? payload = none := by
    unfold Uuid.parseBraced?
    split
    · cases allowed '{' List.mem_cons_self
    · rfl
  have notUrn : Uuid.parseUrn? payload = none := by
    refine if_neg fun scheme => ?_
    cases payload with
    | nil => cases length
    | cons c rest =>
      have first : c.toLower = 'u' := (List.cons.inj scheme).1
      have noDigit : ∀ d : HexDigit, d.char.toLower ≠ 'u' := by decide
      rcases payloadCharIs (allowed c List.mem_cons_self) with rfl | ⟨d,rfl⟩
      · cases first
      · exact noDigit d first
  have grouped : Uuid.parseGrouped? payload = some u ↔ payload = u.chars := by
    constructor
    · intro read
      obtain ⟨ds,taken,last⟩ := Option.bind_eq_some_iff.mp read
      unfold Uuid.ofDigits? at last
      split at last
      · cases Option.some.inj last
        exact (groupsTaken allowed taken).1
      · cases last
    · rintro rfl
      exact Uuid.parsesChars u
  rw [Uuid.parseChars?,notPlain,notBraced,notUrn,← grouped]
  cases Uuid.parseGrouped? payload <;> rfl

theorem payloadAtStartIff {cs payload : List Char} :
    payloadAtStart? cs = some payload ↔
      (payload.length = payloadLength ∧ ∀ c ∈ payload, isPayloadChar c = true) ∧
        opening ++ (payload ++ [')']) <+: cs := by
  have inside (rest : List Char) : (opening ++ rest).drop opening.length = rest := List.drop_left
  have behind (rest : List Char) :
      (opening ++ rest).drop (opening.length + payloadLength) = rest.drop payloadLength := by
    rw [← List.drop_drop,inside]
  constructor
  · intro found
    unfold payloadAtStart? at found
    split at found
    · rename_i opens
      obtain ⟨rest,rfl⟩ := List.isPrefixOf_iff_prefix.mp opens
      simp only [inside,behind] at found
      split at found
      · rename_i held
        cases Option.some.inj found
        obtain ⟨tail,closed⟩ := List.head?_eq_some_iff.mp held.2.2
        refine ⟨⟨held.1,List.all_eq_true.mp held.2.1⟩,tail,?_⟩
        rw [List.append_assoc,List.append_assoc,List.singleton_append,← closed,
          List.take_append_drop]
      · cases found
    · cases found
  · rintro ⟨⟨length,allowed⟩,rest,rfl⟩
    have opens : opening.isPrefixOf (opening ++ (payload ++ ([')'] ++ rest))) = true :=
      List.isPrefixOf_iff_prefix.mpr ⟨_,rfl⟩
    have taken : (payload ++ ([')'] ++ rest)).take payloadLength = payload :=
      length ▸ List.take_left
    have closed : (payload ++ ([')'] ++ rest)).drop payloadLength = [')'] ++ rest :=
      length ▸ List.drop_left
    rw [List.append_assoc,List.append_assoc]
    simp only [payloadAtStart?,opens,if_true,inside,behind,taken,closed]
    exact if_pos ⟨length,List.all_eq_true.mpr allowed,rfl⟩

def marked (cs : List Char) : List (List Char) :=
  (List.range cs.length).filterMap fun place => payloadAtStart? (cs.drop place)

theorem markedCons (c : Char) (cs : List Char) :
    marked (c :: cs) = (payloadAtStart? (c :: cs)).toList ++ marked cs := by
  rw [marked,List.length_cons,List.range_succ_eq_map,List.filterMap_cons,List.filterMap_map,
    List.drop_zero]
  cases payloadAtStart? (c :: cs) <;> rfl

theorem payloadCharNotMark {c : Char} (allowed : isPayloadChar c = true) : c ≠ '!' := by
  rintro rfl
  cases allowed

theorem markIs {payload : List Char} (length : payload.length = payloadLength)
    (allowed : ∀ c ∈ payload, isPayloadChar c = true) :
    ∃ others, opening ++ (payload ++ [')']) = '!' :: others ∧
      others.length = opening.length + payloadLength ∧ ∀ d ∈ others, d ≠ '!' := by
  refine ⟨opening.tail ++ (payload ++ [')']),rfl,?_,?_⟩
  · simp only [List.length_append,List.length_singleton,length]
    rfl
  · intro d member
    rcases List.mem_append.mp member with word | behind
    · exact (by simp [opening] : ∀ d ∈ opening.tail, d ≠ '!') d word
    · rcases List.mem_append.mp behind with held | closed
      · exact payloadCharNotMark (allowed d held)
      · exact (by simp : ∀ d ∈ [')'], d ≠ '!') d closed

theorem insideMark {c : Char} {cs payload : List Char}
    (found : payloadAtStart? (c :: cs) = some payload) :
    c = '!' ∧ ∀ d ∈ cs.take (opening.length + payloadLength), d ≠ '!' := by
  obtain ⟨⟨length,allowed⟩,rest,whole⟩ := payloadAtStartIff.mp found
  obtain ⟨others,is,size,quiet⟩ := markIs length allowed
  rw [is,List.cons_append] at whole
  cases whole
  rw [← size,List.take_left]
  exact ⟨rfl,quiet⟩

theorem payloadsFromIs {skip : Nat} {cs : List Char} (none : ∀ c ∈ cs.take skip, c ≠ '!') :
    payloadsFrom skip cs = marked cs := by
  induction cs generalizing skip with
  | nil => cases skip <;> rfl
  | cons c cs ih =>
    rw [markedCons]
    cases found : payloadAtStart? (c :: cs) with
    | none =>
      cases skip with
      | zero => rw [payloadsFrom,found]; exact ih (by simp)
      | succ skip =>
        exact ih fun d member => none d (List.mem_cons_of_mem c member)
    | some payload =>
      obtain ⟨starts,inside⟩ := insideMark found
      cases skip with
      | zero => rw [payloadsFrom,found]; exact congrArg (payload :: ·) (ih inside)
      | succ skip => exact absurd starts (none c List.mem_cons_self)

theorem payloadsAre (cs : List Char) : payloads cs = marked cs := payloadsFromIs (by simp)

/- The grammar of marks: a deck is marked at a place of the text. -/
def MarkedAt (text : List Char) (place : Nat) (deck : DeckId) : Prop :=
  ∃ payload, deck.uuid.SpelledBy payload ∧ opening ++ (payload ++ [')']) <+: text.drop place

def FirstMarkedAt (text : List Char) (place : Nat) (deck : DeckId) : Prop :=
  MarkedAt text place deck ∧ ∀ earlier < place, ¬MarkedAt text earlier deck

def payloadAt (text : List Char) (place : Nat) : List Char :=
  (text.drop (place + opening.length)).take payloadLength

def deckAt? (text : List Char) (place : Nat) : Option DeckId :=
  ((payloadAtStart? (text.drop place)).bind Uuid.parseChars?).map Id.mk

theorem charsArePayload (u : Uuid) :
    u.chars.length = payloadLength ∧ ∀ c ∈ u.chars, isPayloadChar c = true := by
  have digits (ds : List HexDigit) : ∀ c ∈ ds.map HexDigit.char, isPayloadChar c = true := by
    intro c member
    obtain ⟨d,_,rfl⟩ := List.mem_map.mp member
    exact digitIsPayload d
  have hyphen : isPayloadChar '-' = true := rfl
  obtain ⟨a,b,c,d,e,same,⟨ha,hb,hc,hd,he⟩,_⟩ := Uuid.spelledIff.mpr (rfl : u.chars = u.chars)
  rw [same]
  refine ⟨by simp [ha,hb,hc,hd,he,payloadLength],?_⟩
  simp only [List.forall_mem_append,List.forall_mem_cons]
  exact ⟨digits a,hyphen,digits b,hyphen,digits c,hyphen,digits d,hyphen,digits e⟩

theorem deckAtIff {text : List Char} {place : Nat} {deck : DeckId} :
    deckAt? text place = some deck ↔ MarkedAt text place deck := by
  simp only [deckAt?,Option.map_eq_some_iff,Option.bind_eq_some_iff]
  constructor
  · rintro ⟨u,⟨payload,found,read⟩,rfl⟩
    obtain ⟨⟨length,allowed⟩,here⟩ := payloadAtStartIff.mp found
    exact ⟨payload,Uuid.spelledIff.mpr ((payloadReadIff length allowed).mp read),here⟩
  · rintro ⟨payload,spelled,here⟩
    cases Uuid.spelledIff.mp spelled
    have shape := charsArePayload deck.uuid
    exact ⟨deck.uuid,⟨_,payloadAtStartIff.mpr ⟨shape,here⟩,
      (payloadReadIff shape.1 shape.2).mpr rfl⟩,rfl⟩

theorem markedPayload {text : List Char} {place : Nat} {deck : DeckId}
    (here : MarkedAt text place deck) : payloadAt text place = deck.uuid.chars := by
  obtain ⟨payload,spelled,rest,whole⟩ := here
  cases Uuid.spelledIff.mp spelled
  have length := (charsArePayload deck.uuid).1
  rw [payloadAt,← List.drop_drop,← whole,List.append_assoc,List.drop_left,List.append_assoc,
    ← length,List.take_left]

theorem allAre (body : String) :
    all body = ((List.range body.toList.length).filterMap (deckAt? body.toList)).eraseDups := by
  rw [all,payloadsAre,marked,List.filterMap_filterMap,List.map_filterMap]
  rfl

theorem firstPlaces {α : Type} [BEq α] [LawfulBEq α] (item : Nat → Option α) {places : List Nat}
    (ascending : places.Pairwise (· < ·)) :
    ∃ firsts, firsts.Pairwise (· < ·) ∧ (∀ p ∈ firsts, p ∈ places) ∧
      List.Forall₂ (fun p a => item p = some a ∧ ∀ q ∈ places, q < p → item q ≠ some a) firsts
        (places.filterMap item).eraseDups := by
  induction places generalizing item with
  | nil => exact ⟨[],.nil,by simp,.nil⟩
  | cons place places ih =>
    obtain ⟨before,ascending⟩ := List.pairwise_cons.mp ascending
    cases found : item place with
    | none =>
      obtain ⟨firsts,sorted,inside,each⟩ := ih item ascending
      rw [List.filterMap_cons_none found]
      refine ⟨firsts,sorted,fun p member => List.mem_cons_of_mem _ (inside p member),
        each.imp fun p a ⟨here,first⟩ => ⟨here,fun q member earlier => ?_⟩⟩
      rcases List.mem_cons.mp member with rfl | later
      · rw [found]
        exact Option.some_ne_none a ∘ Eq.symm
      · exact first q later earlier
    | some a =>
      -- behind its first place the item does not count any more
      obtain ⟨firsts,sorted,inside,each⟩ :=
        ih (fun p => (item p).filter fun b => !b == a) ascending
      rw [List.filterMap_cons_some found,List.eraseDups_cons,List.filter_filterMap]
      have others {p : Nat} {b : α} :
          (item p).filter (fun b => !b == a) = some b ↔ item p = some b ∧ b ≠ a := by
        simp [Option.filter_eq_some_iff]
      have start : ∀ q ∈ place :: places, q < place → item q ≠ some a := by
        intro q member earlier
        rcases List.mem_cons.mp member with rfl | later
        · exact absurd earlier (Nat.lt_irrefl q)
        · exact absurd earlier (Nat.lt_asymm (before q later))
      refine ⟨place :: firsts,.cons (fun p member => before p (inside p member)) sorted,
        fun p member => ?_,.cons ⟨found,start⟩ (each.imp fun p b ⟨here,first⟩ => ?_)⟩
      · exact List.mem_cons.mpr ((List.mem_cons.mp member).imp_right (inside p))
      · obtain ⟨here,apart⟩ := others.mp here
        refine ⟨here,fun q member earlier again => ?_⟩
        rcases List.mem_cons.mp member with rfl | later
        · exact apart (Option.some.inj (again.symm.trans found))
        · exact first q later earlier (others.mpr ⟨again,apart⟩)

theorem markedKeys {text : List Char} {places : List Nat} {decks : List DeckId}
    (first : List.Forall₂ (FirstMarkedAt text) places decks) :
    decks.map Id.key = places.map fun place => String.ofList (payloadAt text place) := by
  induction first with
  | nil => rfl
  | cons here _ ih =>
    rw [List.map_cons,List.map_cons,markedPayload here.1,ih]
    rfl

structure Extracted (body : String) (decks : List DeckId) (keys : List String) : Prop where
  members : ∀ deck, deck ∈ decks ↔ ∃ place, MarkedAt body.toList place deck
  distinct : decks.Nodup
  ordered : ∃ places, places.Pairwise (· < ·) ∧
    List.Forall₂ (FirstMarkedAt body.toList) places decks ∧
    keys = places.map fun place => String.ofList (payloadAt body.toList place)

/-- No mark is missed and nothing else is taken for one, whatever the text is. -/
theorem marksAreExtracted (body : String) : Extracted body (all body) (keys body) := by
  let places := List.range body.toList.length
  have inside {place : Nat} {deck : DeckId} (here : MarkedAt body.toList place deck) :
      place ∈ places := by
    obtain ⟨payload,_,here⟩ := here
    refine List.mem_range.mpr (Nat.lt_of_not_le fun behind => ?_)
    rw [List.drop_eq_nil_of_le behind] at here
    cases List.prefix_nil.mp here
  obtain ⟨firsts,sorted,within,each⟩ :=
    firstPlaces (deckAt? body.toList) (List.pairwise_lt_range : places.Pairwise (· < ·))
  rw [← allAre] at each
  have first : List.Forall₂ (FirstMarkedAt body.toList) firsts (all body) := by
    refine each.imp fun place deck ⟨here,first⟩ => ⟨deckAtIff.mp here,fun earlier before again => ?_⟩
    exact first earlier (inside again) before (deckAtIff.mpr again)
  refine ⟨fun deck => ?_,nodupEraseDups _,firsts,sorted,first,?_⟩
  · rw [allAre,List.mem_eraseDups,List.mem_filterMap]
    exact ⟨fun ⟨place,_,here⟩ => ⟨place,deckAtIff.mp here⟩,
      fun ⟨place,here⟩ => ⟨place,inside here,deckAtIff.mpr here⟩⟩
  · exact markedKeys first

example : keys "![deck](![deck](0b7c2a8e-5d1f-4c6a-9e3b-1f2d3c4b5a69)" =
    ["0b7c2a8e-5d1f-4c6a-9e3b-1f2d3c4b5a69"] := by decide +kernel

end DeckReference

end Coursework
