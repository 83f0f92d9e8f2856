import Coursework.Proofs.Sessions
import Mathlib.Data.List.Flatten

/-! Storing a deck in tables replaces it as a whole or not at all. After any session the tables hold the
rows of some decks that share no card and no answer, since a deck that would share one is refused. So a
deck is stored exactly if it brings no identifier twice and none of another deck; and what is read of
decks and cards afterwards is the new deck and the others, or what it was. -/
namespace Coursework

namespace Unshared

variable {decks : List Deck} {deck : Deck}

theorem filtered (unshared : Unshared decks) (p : Deck → Bool) : Unshared (decks.filter p) := by
  have cards : (cardsOf (decks.filter p)).Sublist (cardsOf decks) := List.filter_sublist.flatMap _
  exact ⟨unshared.own.sublist (List.filter_sublist.map _),unshared.cards.sublist (cards.map _),
    unshared.answers.sublist ((cards.flatMap _).map _)⟩

theorem behindIff (unshared : Unshared decks) :
    Unshared (decks.filter (·.id != deck.id) ++ [deck]) ↔
      ((cardsOf (decks.filter (·.id != deck.id))).map (·.id) ++ deck.cards.map (·.id)).Nodup ∧
      ((answersOf (cardsOf (decks.filter (·.id != deck.id)))).map (·.id) ++
        (answersOf deck.cards).map (·.id)).Nodup := by
  have cards : cardsOf (decks.filter (·.id != deck.id) ++ [deck]) =
      cardsOf (decks.filter (·.id != deck.id)) ++ deck.cards := by simp [cardsOf]
  have answers : answersOf (cardsOf (decks.filter (·.id != deck.id) ++ [deck])) =
      answersOf (cardsOf (decks.filter (·.id != deck.id))) ++ answersOf deck.cards := by
    rw [cards]
    exact List.flatMap_append
  constructor
  · intro behind
    rw [← List.map_append,← List.map_append,← cards,← answers]
    exact ⟨behind.cards,behind.answers⟩
  · rintro ⟨ownCards,ownAnswers⟩
    rw [← List.map_append,← cards] at ownCards
    rw [← List.map_append,← answers] at ownAnswers
    refine ⟨?_,ownCards,ownAnswers⟩
    rw [List.map_append,List.map_singleton,List.nodup_append]
    refine ⟨(unshared.filtered _).own,List.nodup_singleton _,?_⟩
    intro id kept last same equal
    obtain ⟨other,member,rfl⟩ := List.mem_map.mp kept
    have apart := (List.mem_filter.mp member).2
    rw [equal,List.mem_singleton.mp same] at apart
    simp at apart

end Unshared

namespace Database

theorem unusedIds {Row κ : Type} [BEq κ] [LawfulBEq κ] {rows : List Row} {key : Row → κ} {k : κ}
    (distinct : (rows.map key).Nodup) (unused : ¬rows.any (fun row => key row == k) = true) :
    (rows.map key ++ [k]).Nodup := by
  refine List.nodup_append.mpr ⟨distinct,List.nodup_singleton k,?_⟩
  intro other member last same equal
  obtain ⟨row,inside,rfl⟩ := List.mem_map.mp member
  exact unused (List.any_eq_true.mpr
    ⟨row,inside,beq_iff_eq.mpr (equal.trans (List.mem_singleton.mp same))⟩)

theorem insertAnswersFresh {card : CardId} {place : Nat} {answers : List PossibleAnswer}
    {d after : Database} (distinct : (d.answers.toList.map (·.id)).Nodup)
    (ok : insertAnswers card place answers d = .ok after) :
    (d.answers.toList.map (·.id) ++ answers.map (·.id.key)).Nodup := by
  induction answers generalizing place d with
  | nil => simpa using distinct
  | cons a answers ih =>
    rw [insertAnswers] at ok
    split at ok
    · cases ok
    · rename_i unused
      have more := unusedIds distinct unused
      have rest := ih (d := { d with answers := d.answers.insert (.ofAnswer card place a) })
        (by simpa [AnswerRow.ofAnswer] using more) ok
      simpa [AnswerRow.ofAnswer] using rest

theorem insertCardsFresh {deck : DeckId} {place : Nat} {cards : List Card} {d after : Database}
    (distinct : (d.cards.toList.map (·.id)).Nodup)
    (distinctAnswers : (d.answers.toList.map (·.id)).Nodup)
    (ok : insertCards deck place cards d = .ok after) :
    (d.cards.toList.map (·.id) ++ cards.map (·.id.key)).Nodup ∧
      (d.answers.toList.map (·.id) ++ (answersOf cards).map (·.id.key)).Nodup := by
  induction cards generalizing place d with
  | nil => exact ⟨by simpa using distinct,by simpa [answersOf] using distinctAnswers⟩
  | cons c cards ih =>
    rw [insertCards] at ok
    split at ok
    · cases ok
    · rename_i unused
      obtain ⟨middle,answered,rest⟩ := exceptBindOk.mp ok
      have more := unusedIds distinct unused
      have fresh := insertAnswersFresh
        (d := { d with cards := d.cards.insert (.ofCard deck place c) }) distinctAnswers answered
      obtain ⟨rows,made,layout⟩ := insertAnswersAppends c.id 0 fresh
      cases Except.ok.inj (made.symm.trans answered)
      have answerIds : rows.toList.map (·.id) =
          d.answers.toList.map (·.id) ++ c.possibleAnswers.map (·.id.key) := by
        rw [layout,List.map_append,answerRowsIds]
      obtain ⟨cardIds,ids⟩ := ih
        (d := { d with cards := d.cards.insert (.ofCard deck place c), answers := rows })
        (by simpa [CardRow.ofCard] using more) (answerIds ▸ fresh) rest
      refine ⟨by simpa [CardRow.ofCard] using cardIds,?_⟩
      simpa [answerIds,answersOf] using ids

theorem insertAnswersRefused {card : CardId} {place : Nat} {answers : List PossibleAnswer}
    {d : Database} {e : StorageError} (failed : insertAnswers card place answers d = .error e) :
    e = .connection .constraint := by
  induction answers generalizing place d with
  | nil => cases failed
  | cons a answers ih =>
    rw [insertAnswers] at failed
    split at failed
    · cases failed
      rfl
    · exact ih failed

theorem insertCardsRefused {deck : DeckId} {place : Nat} {cards : List Card} {d : Database}
    {e : StorageError} (failed : insertCards deck place cards d = .error e) :
    e = .connection .constraint := by
  induction cards generalizing place d with
  | nil => cases failed
  | cons c cards ih =>
    rw [insertCards] at failed
    split at failed
    · cases failed
      rfl
    · simp only [bind,Except.bind] at failed
      split at failed
      · rename_i refusal
        cases failed
        exact insertAnswersRefused refusal
      · exact ih failed

structure Keeps (d : Database) (decks : List Deck) : Prop where
  shelves : d.Shelves decks
  unshared : Unshared decks
  rows : d.decks.toList.Perm (decks.map DeckRow.ofDeck)

namespace Keeps

variable {d : Database} {decks : List Deck}

theorem rowIds (keeps : d.Keeps decks) : (d.decks.toList.map (·.id)).Nodup := by
  have ids := nodupKeys keeps.unshared.own
  rw [List.map_map] at ids
  refine (keeps.rows.map _).nodup_iff.mpr ?_
  rw [List.map_map]
  exact ids

theorem foundRow (keeps : d.Keeps decks) (id : DeckId) :
    d.decks.toList.find? (·.id == id.key) = (decks.find? (·.id == id)).map .ofDeck := by
  rw [foundAlike keeps.rowIds keeps.rows fun _ => beq_iff_eq,List.find?_map]
  exact congrArg (fun p => (decks.find? p).map DeckRow.ofDeck)
    (funext fun deck => Id.sameKeys deck.id id)

theorem gives (keeps : d.Keeps decks) (id : DeckId) :
    d.getDeck id = match decks.find? (·.id == id) with
      | some deck => .ok deck
      | none => .error .notFound := by
  have row := keeps.foundRow id
  cases found : decks.find? (·.id == id) with
  | none =>
    rw [found,Option.map_none] at row
    rw [getDeck,row]
  | some deck =>
    obtain ⟨there,rfl⟩ := (foundIff keeps.unshared.own fun _ => beq_iff_eq).mp found
    rw [found,Option.map_some] at row
    exact getsDeck keeps.shelves keeps.unshared there row

theorem givesIff (keeps : d.Keeps decks) {id : DeckId} {deck : Deck} :
    d.getDeck id = .ok deck ↔ deck ∈ decks ∧ deck.id = id := by
  rw [keeps.gives id,← foundIff keeps.unshared.own fun _ => beq_iff_eq]
  cases decks.find? (·.id == id) <;> simp

end Keeps

/- A deck that brings no identifier of a card or an answer twice, and none of another stored deck. -/
structure Fits (d : Database) (deck : Deck) : Prop where
  cards : (deck.cards.map (·.id)).Nodup
  answers : ((answersOf deck.cards).map (·.id)).Nodup
  otherCards : ∀ id other, id ≠ deck.id → d.getDeck id = .ok other →
    ∀ c ∈ deck.cards, ∀ c' ∈ other.cards, c.id ≠ c'.id
  otherAnswers : ∀ id other, id ≠ deck.id → d.getDeck id = .ok other →
    ∀ a ∈ answersOf deck.cards, ∀ a' ∈ answersOf other.cards, a.id ≠ a'.id

namespace Keeps

variable {d : Database} {decks : List Deck} {deck : Deck}

theorem memOther (keeps : d.Keeps decks) {other : Deck} :
    other ∈ decks.filter (·.id != deck.id) ↔
      other.id ≠ deck.id ∧ d.getDeck other.id = .ok other := by
  rw [List.mem_filter,keeps.givesIff,bne_iff_ne]
  simp [and_comm]

theorem fitsIff (keeps : d.Keeps decks) :
    d.Fits deck ↔ Unshared (decks.filter (·.id != deck.id) ++ [deck]) := by
  have rest := keeps.unshared.filtered (·.id != deck.id)
  rw [keeps.unshared.behindIff,List.nodup_append,List.nodup_append]
  constructor
  · intro fits
    refine ⟨⟨rest.cards,fits.cards,?_⟩,rest.answers,fits.answers,?_⟩
    · intro id first id' second same
      obtain ⟨c',there,rfl⟩ := List.mem_map.mp first
      obtain ⟨c,inside,rfl⟩ := List.mem_map.mp second
      obtain ⟨other,kept,also⟩ := List.mem_flatMap.mp there
      obtain ⟨apart,given⟩ := keeps.memOther.mp kept
      exact fits.otherCards _ other apart given c inside c' also same.symm
    · intro id first id' second same
      obtain ⟨a',there,rfl⟩ := List.mem_map.mp first
      obtain ⟨a,inside,rfl⟩ := List.mem_map.mp second
      obtain ⟨c',found,also⟩ := List.mem_flatMap.mp there
      obtain ⟨other,kept,own⟩ := List.mem_flatMap.mp found
      obtain ⟨apart,given⟩ := keeps.memOther.mp kept
      exact fits.otherAnswers _ other apart given a inside a'
        (List.mem_flatMap.mpr ⟨c',own,also⟩) same.symm
  · rintro ⟨⟨_,cards,cardsApart⟩,_,answers,answersApart⟩
    refine ⟨cards,answers,?_,?_⟩
    · intro id other apart given c inside c' also same
      obtain ⟨_,rfl⟩ := keeps.givesIff.mp given
      have kept := keeps.memOther.mpr ⟨apart,given⟩
      exact cardsApart _ (List.mem_map_of_mem (List.mem_flatMap.mpr ⟨other,kept,also⟩)) _
        (List.mem_map_of_mem inside) same.symm
    · intro id other apart given a inside a' also same
      obtain ⟨_,rfl⟩ := keeps.givesIff.mp given
      have kept := keeps.memOther.mpr ⟨apart,given⟩
      obtain ⟨c',own,inside'⟩ := List.mem_flatMap.mp also
      exact answersApart _ (List.mem_map_of_mem (List.mem_flatMap.mpr
        ⟨c',List.mem_flatMap.mpr ⟨other,kept,own⟩,inside'⟩)) _ (List.mem_map_of_mem inside) same.symm

theorem storesIff (keeps : d.Keeps decks) :
    (∃ after, d.upsertDeck deck = .ok after) ↔
      Unshared (decks.filter (·.id != deck.id) ++ [deck]) := by
  constructor
  · rintro ⟨after,ok⟩
    have shelved := deletedShelves (d := { d with
      decks := d.decks.upsert (·.id == (DeckRow.ofDeck deck).id) (fun _ => .ofDeck deck)
        (.ofDeck deck) }) ⟨keeps.shelves.cards,keeps.shelves.answers⟩ keeps.unshared deck.id
    have rest := keeps.unshared.filtered (·.id != deck.id)
    have cardIds := shelvesCardIds shelved
    have answerIds := shelvesAnswerIds shelved
    have answersDistinct := nodupKeys rest.answers
    rw [List.map_map] at answersDistinct
    obtain ⟨cards,answers⟩ := insertCardsFresh (cardIds ▸ nodupKeysOf rest.cards)
      (answerIds ▸ answersDistinct) ok
    rw [cardIds] at cards
    rw [answerIds] at answers
    refine keeps.unshared.behindIff.mpr ⟨.of_map Id.key ?_,.of_map Id.key ?_⟩
    · rw [List.map_append,List.map_map,List.map_map]
      exact cards
    · rw [List.map_append,List.map_map,List.map_map]
      exact answers
  · intro behind
    obtain ⟨after,ok,_⟩ := upsertsDeck keeps.shelves keeps.unshared behind
    exact ⟨after,ok⟩

theorem stored (keeps : d.Keeps decks) {after : Database} (ok : d.upsertDeck deck = .ok after) :
    after.Keeps (decks.filter (·.id != deck.id) ++ [deck]) := by
  have behind := keeps.storesIff.mp ⟨after,ok⟩
  obtain ⟨reached,made,shelved,rest⟩ := upsertsDeck keeps.shelves keeps.unshared behind
  cases Except.ok.inj (made.symm.trans ok)
  have tests (row : DeckRow) : (row.id == deck.id.key) = true ↔ row.id = (DeckRow.ofDeck deck).id :=
    beq_iff_eq
  have replaced : (d.decks.upsert (·.id == deck.id.key) (fun _ => .ofDeck deck) (.ofDeck deck)).toList =
      replaceOrAppend (·.id == deck.id.key) (.ofDeck deck) d.decks.toList := by
    rw [Table.upsertRows,replacedKey keeps.rowIds tests]
  have others : (decks.map DeckRow.ofDeck).filter (fun row => !(row.id == deck.id.key)) =
      (decks.filter (·.id != deck.id)).map DeckRow.ofDeck := by
    rw [List.filter_map]
    refine congrArg (fun p => (decks.filter p).map DeckRow.ofDeck) (funext fun other => ?_)
    exact congrArg (!·) (Id.sameKeys other.id deck.id)
  refine ⟨shelved,behind,?_⟩
  rw [rest,List.map_append,List.map_singleton,← others]
  change (d.decks.upsert (·.id == deck.id.key) (fun _ => .ofDeck deck) (.ofDeck deck)).toList.Perm _
  rw [replaced]
  exact (replacedPerm keeps.rowIds tests).trans ((keeps.rows.filter _).append_right _)

theorem alike (keeps : d.Keeps decks) {after : Database} (rows : after.decks = d.decks)
    (cards : after.cards = d.cards) (answers : after.answers = d.answers) : after.Keeps decks :=
  ⟨⟨cards ▸ keeps.shelves.cards,answers ▸ keeps.shelves.answers⟩,keeps.unshared,rows ▸ keeps.rows⟩

theorem performed (keeps : d.Keeps decks) (op : Operation) :
    ∃ later, (d.perform op).2.Keeps later := by
  cases op with
  | upsertDeck deck =>
    cases made : d.upsertDeck deck with
    | ok after =>
      simp only [perform,made]
      exact ⟨_,keeps.stored made⟩
    | error e =>
      simp only [perform,made]
      exact ⟨decks,keeps⟩
  | upsertCourse c => exact ⟨decks,keeps.alike rfl rfl rfl⟩
  | upsertLesson l =>
    refine ⟨decks,?_⟩
    simp only [perform,upsertLesson]
    split
    · exact keeps.alike rfl rfl rfl
    · exact keeps
  | createProgress e =>
    refine ⟨decks,?_⟩
    simp only [perform,createProgress]
    split
    · exact keeps
    · exact keeps.alike rfl rfl rfl
  | saveProgress e =>
    refine ⟨decks,?_⟩
    simp only [perform,saveProgress]
    split
    · exact keeps.alike rfl rfl rfl
    · exact keeps
  | _ =>
    refine ⟨decks,?_⟩
    rw [transactional.quiet _ d rfl]
    exact keeps

theorem reopened (keeps : d.Keeps decks) : d.reopen.Keeps decks := by
  unfold reopen
  split
  · exact keeps
  · exact keeps.alike rfl rfl rfl

end Keeps

def next (d : Database) : SessionStep → Database
  | .perform op => (d.perform op).2
  | .reopen => d.reopen

def reached (steps : List SessionStep) : Database := steps.foldl next {}

theorem keepsNothing : Keeps {} [] :=
  ⟨⟨rfl,rfl⟩,⟨.nil,.nil,.nil⟩,.nil⟩

theorem Keeps.session {d : Database} {decks : List Deck} (keeps : d.Keeps decks)
    (steps : List SessionStep) : ∃ later, (steps.foldl next d).Keeps later := by
  induction steps generalizing d decks with
  | nil => exact ⟨decks,keeps⟩
  | cons step steps ih =>
    cases step with
    | perform op =>
      obtain ⟨later,kept⟩ := keeps.performed op
      exact ih kept
    | reopen => exact ih keeps.reopened

structure InPlace (d after : Database) (deck : Deck) : Prop where
  own : after.getDeck deck.id = .ok deck
  others : ∀ id, id ≠ deck.id → after.getDeck id = d.getDeck id
  cards : ∀ ids : List CardId, ids.eraseDups.length ≤ largestVariable →
    ∃ cards, after.getCards ids = .ok cards ∧ ∀ c ∈ deck.cards, c.id ∈ ids → c ∈ cards
  dropped : ∀ old, d.getDeck deck.id = .ok old → ∀ gone ∈ old.cards,
    gone.id ∉ deck.cards.map (·.id) →
    ∀ ids cards, after.getCards ids = .ok cards → ∀ c ∈ cards, c.id ≠ gone.id

structure Replaces (d : Database) (deck : Deck) : Prop where
  succeeds : (d.perform (.upsertDeck deck)).1 = .ok () ↔ d.Fits deck
  stored : (d.perform (.upsertDeck deck)).1 = .ok () →
    d.InPlace (d.perform (.upsertDeck deck)).2 deck
  refused : ∀ e, (d.perform (.upsertDeck deck)).1 = .error e →
    e = .connection .constraint ∧ (d.perform (.upsertDeck deck)).2 = d

namespace Keeps

variable {d after : Database} {decks : List Deck} {deck : Deck}

theorem givesCards (keeps : d.Keeps decks) {ids : List CardId} {cards : List Card}
    (read : d.getCards ids = .ok cards) : ∀ c ∈ cards, c ∈ cardsOf decks := by
  intro c member
  by_cases few : ids.eraseDups.length ≤ largestVariable
  · rw [getsCards keeps.shelves keeps.unshared few] at read
    cases Except.ok.inj read
    obtain ⟨id,_,found⟩ := List.mem_filterMap.mp member
    exact List.mem_of_find?_eq_some found
  · simp only [getCards,if_neg few] at read
    cases read

theorem inPlace (keeps : d.Keeps decks) (ok : d.upsertDeck deck = .ok after) :
    d.InPlace after deck := by
  have kept := keeps.stored ok
  constructor
  case own => exact kept.givesIff.mpr ⟨by simp,rfl⟩
  case others =>
    intro id other
    have same : (decks.filter (·.id != deck.id) ++ [deck]).find? (·.id == id) =
        decks.find? (·.id == id) := by
      have last : [deck].find? (·.id == id) = none := by simp [other.symm]
      rw [List.find?_append,last,Option.or_none,List.find?_filter]
      refine List.find?_congr fun held _ => ?_
      by_cases here : held.id = id
      · simp [here,other]
      · simp [here]
    rw [kept.gives,keeps.gives,same]
  case cards =>
    intro ids few
    refine ⟨_,getsCards kept.shelves kept.unshared few,fun c inside asked => ?_⟩
    have there : c ∈ cardsOf (decks.filter (·.id != deck.id) ++ [deck]) :=
      List.mem_flatMap.mpr ⟨deck,by simp,inside⟩
    exact List.mem_filterMap.mpr ⟨c.id,List.mem_eraseDups.mpr asked,
      (foundIff kept.unshared.cards fun _ => beq_iff_eq).mpr ⟨there,rfl⟩⟩
  case dropped =>
    intro old given gone inside fresh ids cards read c member same
    obtain ⟨held,own⟩ := keeps.givesIff.mp given
    obtain ⟨deck',there,also⟩ := List.mem_flatMap.mp (kept.givesCards read c member)
    rcases List.mem_append.mp there with other | last
    · -- Another deck does not have the card, since the old deck had it.
      obtain ⟨heldToo,apart⟩ := List.mem_filter.mp other
      cases keeps.unshared.oneDeck heldToo held also inside same
      rw [own] at apart
      simp at apart
    · cases List.mem_singleton.mp last
      exact fresh (List.mem_map.mpr ⟨c,also,same⟩)

theorem replaces (keeps : d.Keeps decks) (deck : Deck) : d.Replaces deck := by
  refine ⟨?_,fun ok => keeps.inPlace (committed (Prod.ext ok rfl)),fun e failed => ?_⟩
  · rw [keeps.fitsIff,← keeps.storesIff,perform]
    cases d.upsertDeck deck <;> simp [commit]
  · rw [perform] at failed ⊢
    cases made : d.upsertDeck deck with
    | ok after =>
      rw [made] at failed
      cases failed
    | error why =>
      rw [made] at failed
      cases failed
      exact ⟨insertCardsRefused made,rfl⟩

end Keeps

/-- After any session, storing a deck is an exact replacement or has no effect. It is stored if and only
if it brings no identifier of a card or an answer twice and none of another stored deck. Then it is read
as it was given, the other decks as before, and the cards that it no longer has are gone. -/
theorem replacesDecks (steps : List SessionStep) (deck : Deck) : (reached steps).Replaces deck := by
  obtain ⟨decks,keeps⟩ := keepsNothing.session steps
  exact keeps.replaces deck

example :
    ((reached [.perform (.upsertDeck Sample.deck)]).perform
      (.upsertDeck { Sample.grown with id := ⟨.ofNat 9⟩ })).1 = .error (.connection .constraint) := by
  decide +kernel

end Database

end Coursework
