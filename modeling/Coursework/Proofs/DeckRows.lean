import Coursework.Proofs.Contents
import Coursework.Proofs.Listings
import Coursework.Proofs.ReadBack
import Coursework.Storage.Database
import Mathlib.Data.List.Forall2
import Mathlib.Data.List.Perm.Basic

/-! Decks in tables. A deck is stored as rows for its cards and rows for their answers, each with its
place; storing it again removes the old rows and puts the new ones last. As long as no two cards and
no two answers share an identifier, storing does not fail, and decks and cards are read back as they
were stored. -/
namespace Coursework

def answerRowsFrom (card : CardId) (place : Nat) (answers : List PossibleAnswer) : List AnswerRow :=
  (answers.zipIdx place).map fun p => .ofAnswer card p.2 p.1

def cardRowsFrom (deck : DeckId) (place : Nat) (cards : List Card) : List CardRow :=
  (cards.zipIdx place).map fun p => .ofCard deck p.2 p.1

def Card.answerRows (c : Card) : List AnswerRow := answerRowsFrom c.id 0 c.possibleAnswers

namespace Deck

def cardRows (d : Deck) : List CardRow := cardRowsFrom d.id 0 d.cards

def answerRows (d : Deck) : List AnswerRow := d.cards.flatMap Card.answerRows

end Deck

def cardsOf (decks : List Deck) : List Card := decks.flatMap (·.cards)

def answersOf (cards : List Card) : List PossibleAnswer := cards.flatMap (·.possibleAnswers)

structure Unshared (decks : List Deck) : Prop where
  own : (decks.map (·.id)).Nodup
  cards : ((cardsOf decks).map (·.id)).Nodup
  answers : ((answersOf (cardsOf decks)).map (·.id)).Nodup

structure Database.Shelves (d : Database) (decks : List Deck) : Prop where
  cards : d.cards.toList = decks.flatMap Deck.cardRows
  answers : d.answers.toList = decks.flatMap Deck.answerRows

theorem nodupKeysOf {cards : List Card} (distinct : (cards.map (·.id)).Nodup) :
    (cards.map (·.id.key)).Nodup := by
  have keys := nodupKeys distinct
  rwa [List.map_map] at keys

theorem placesAscend {α : Type} (as : List α) (place : Nat) :
    (as.zipIdx place).Pairwise fun p q => p.2 < q.2 := by
  have places : ((as.zipIdx place).map Prod.snd).Pairwise (· < ·) := by
    rw [List.zipIdx_map_snd]
    exact List.pairwise_lt_range'
  exact List.pairwise_map.mp places

section Rows

variable {card : CardId} {deck : DeckId} {place : Nat}

theorem answerRowsIds (answers : List PossibleAnswer) :
    (answerRowsFrom card place answers).map (·.id) = answers.map (·.id.key) := by
  rw [answerRowsFrom,List.map_map]
  induction answers generalizing place with
  | nil => rfl
  | cons a answers ih =>
    rw [List.zipIdx_cons,List.map_cons,ih,List.map_cons]
    rfl

theorem answerRowsCard {answers : List PossibleAnswer} {row : AnswerRow}
    (member : row ∈ answerRowsFrom card place answers) : row.cardId = card.key := by
  obtain ⟨p,_,rfl⟩ := List.mem_map.mp member
  rfl

theorem answerRowsOrdered (answers : List PossibleAnswer) :
    (answerRowsFrom card place answers).Pairwise fun a b =>
      b.position.before a.position = false := by
  refine List.pairwise_map.mpr ((placesAscend answers place).imp fun before => ?_)
  simp only [AnswerRow.ofAnswer,Cell.before,decide_eq_false_iff_not]
  omega

theorem answersReadBack (answers : List PossibleAnswer) :
    (answerRowsFrom card place answers).mapM AnswerRow.read =
      .ok (answers.map fun a => (card,a)) := by
  induction answers generalizing place with
  | nil => rfl
  | cons a answers ih =>
    have later := @ih (place + 1)
    rw [answerRowsFrom] at later ⊢
    rw [List.zipIdx_cons,List.map_cons,List.mapM_cons,AnswerRow.readBack,later]
    rfl

theorem cardRowsDeck {cards : List Card} {row : CardRow}
    (member : row ∈ cardRowsFrom deck place cards) : row.deckId = deck.key := by
  obtain ⟨p,_,rfl⟩ := List.mem_map.mp member
  rfl

theorem cardRowsOrdered (cards : List Card) :
    (cardRowsFrom deck place cards).Pairwise fun a b =>
      a.position.before b.position = true ∧ b.position.before a.position = false := by
  refine List.pairwise_map.mpr ((placesAscend cards place).imp fun before => ?_)
  simp only [CardRow.ofCard,Cell.before,decide_eq_true_eq,decide_eq_false_iff_not]
  omega

theorem cardRowSelf {cards : List Card} {row : CardRow}
    (member : row ∈ cardRowsFrom deck place cards) : row.position.before row.position = false := by
  obtain ⟨p,_,rfl⟩ := List.mem_map.mp member
  simp [CardRow.ofCard,Cell.before]

def Tell (rows : List CardRow) (cards : List Card) : Prop :=
  List.Forall₂ (fun row c => row.id = c.id.key ∧ row.read = .ok c.bare) rows cards

theorem cardRowsTell (cards : List Card) : Tell (cardRowsFrom deck place cards) cards := by
  induction cards generalizing place with
  | nil => exact .nil
  | cons c cards ih => exact .cons ⟨rfl,CardRow.readBack deck place c⟩ ih

theorem Tell.append {rows others : List CardRow} {cards rest : List Card} (first : Tell rows cards)
    (later : Tell others rest) : Tell (rows ++ others) (cards ++ rest) :=
  List.rel_append first later

theorem Tell.flatMap {α : Type} {keys : List α} {rows : α → List CardRow}
    {cards : α → List Card} (each : ∀ key, Tell (rows key) (cards key)) :
    Tell (keys.flatMap rows) (keys.flatMap cards) := by
  induction keys with
  | nil => exact .nil
  | cons key keys ih => exact (each key).append ih

theorem decksTell (decks : List Deck) : Tell (decks.flatMap Deck.cardRows) (cardsOf decks) := by
  induction decks with
  | nil => exact .nil
  | cons deck decks ih => exact (cardRowsTell deck.cards).append ih

theorem Tell.read {rows : List CardRow} {cards : List Card} (tell : Tell rows cards) :
    rows.mapM CardRow.read = .ok (cards.map Card.bare) := by
  induction tell with
  | nil => rfl
  | cons here _ ih =>
    rw [List.mapM_cons,here.2,ih]
    rfl

theorem Tell.ids {rows : List CardRow} {cards : List Card} (tell : Tell rows cards) :
    rows.map (·.id) = cards.map (·.id.key) := by
  induction tell with
  | nil => rfl
  | cons here _ ih => rw [List.map_cons,List.map_cons,here.1,ih]

theorem Tell.filter {rows : List CardRow} {cards : List Card} (tell : Tell rows cards)
    (key : String) : Tell (rows.filter (·.id == key)) (cards.filter (·.id.key == key)) := by
  induction tell with
  | nil => exact .nil
  | @cons row c rows cards here rest ih =>
    rw [List.filter_cons,List.filter_cons,here.1]
    split
    · exact .cons here ih
    · exact ih

end Rows

namespace Database

theorem insertAnswersAppends (card : CardId) (place : Nat) {answers : List PossibleAnswer}
    {d : Database}
    (fresh : (d.answers.toList.map (·.id) ++ answers.map (·.id.key)).Nodup) :
    ∃ rows : Table AnswerRow, insertAnswers card place answers d = .ok { d with answers := rows } ∧
      rows.toList = d.answers.toList ++ answerRowsFrom card place answers := by
  induction answers generalizing place d with
  | nil => exact ⟨d.answers,rfl,(List.append_nil _).symm⟩
  | cons a answers ih =>
    have unused : ¬d.answers.toList.any (·.id == a.id.key) = true := unusedKey fresh
    obtain ⟨rows,made,layout⟩ := @ih (place + 1)
      { d with answers := d.answers.insert (.ofAnswer card place a) } (by
        simpa [AnswerRow.ofAnswer] using fresh)
    refine ⟨rows,?_,?_⟩
    · rw [insertAnswers,if_neg unused,made]
    · rw [layout,Table.insertRows,List.append_assoc]
      rfl

theorem insertCardsAppends (deck : DeckId) (place : Nat) {cards : List Card} {d : Database}
    (fresh : (d.cards.toList.map (·.id) ++ cards.map (·.id.key)).Nodup)
    (freshAnswers : (d.answers.toList.map (·.id) ++ (answersOf cards).map (·.id.key)).Nodup) :
    ∃ (cardRows : Table CardRow) (answerRows : Table AnswerRow),
      insertCards deck place cards d =
        .ok { d with cards := cardRows, answers := answerRows } ∧
      cardRows.toList = d.cards.toList ++ cardRowsFrom deck place cards ∧
      answerRows.toList = d.answers.toList ++ cards.flatMap Card.answerRows := by
  induction cards generalizing place d with
  | nil => exact ⟨d.cards,d.answers,rfl,(List.append_nil _).symm,(List.append_nil _).symm⟩
  | cons c cards ih =>
    have unused : ¬d.cards.toList.any (·.id == c.id.key) = true := unusedKey fresh
    have split : (answersOf (c :: cards)).map (·.id.key) =
        c.possibleAnswers.map (·.id.key) ++ (answersOf cards).map (·.id.key) := by
      simp [answersOf]
    rw [split,← List.append_assoc] at freshAnswers
    obtain ⟨answered,made,answerLayout⟩ := insertAnswersAppends c.id 0
      (d := { d with cards := d.cards.insert (.ofCard deck place c) })
      (List.nodup_append.mp freshAnswers).1
    have answerIds : answered.toList.map (·.id) =
        d.answers.toList.map (·.id) ++ c.possibleAnswers.map (·.id.key) := by
      rw [answerLayout,List.map_append,answerRowsIds]
    obtain ⟨cardRows,answerRows,rest,cardLayout,lastLayout⟩ := @ih (place + 1)
      { d with cards := d.cards.insert (.ofCard deck place c), answers := answered }
      (by simpa [CardRow.ofCard] using fresh) (by simpa only [answerIds] using freshAnswers)
    refine ⟨cardRows,answerRows,?_,?_,?_⟩
    · rw [insertCards,if_neg unused]
      simp only [bind,Except.bind,made,rest]
    · rw [cardLayout,Table.insertRows,List.append_assoc]
      rfl
    · rw [lastLayout,answerLayout,List.append_assoc]
      rfl

end Database

namespace Unshared

variable {decks : List Deck}

theorem oneDeck (unshared : Unshared decks) {deck other : Deck} (here : deck ∈ decks)
    (there : other ∈ decks) {c c' : Card} (inside : c ∈ deck.cards) (also : c' ∈ other.cards)
    (same : c.id = c'.id) : deck = other := by
  have first : c ∈ cardsOf decks := List.mem_flatMap.mpr ⟨deck,here,inside⟩
  have second : c' ∈ cardsOf decks := List.mem_flatMap.mpr ⟨other,there,also⟩
  cases keyedSame unshared.cards first second same
  exact ownerUnique unshared.cards.of_map here there inside also

theorem perm {others : List Deck} (unshared : Unshared decks) (same : decks.Perm others) :
    Unshared others := by
  have cards : (cardsOf decks).Perm (cardsOf others) := same.flatMap_right _
  have answers : (answersOf (cardsOf decks)).Perm (answersOf (cardsOf others)) :=
    cards.flatMap_right _
  exact ⟨(same.map _).nodup_iff.mp unshared.own,(cards.map _).nodup_iff.mp unshared.cards,
    (answers.map _).nodup_iff.mp unshared.answers⟩

end Unshared

namespace Database

variable {d : Database} {decks : List Deck}

theorem deletedShelves (shelves : d.Shelves decks) (unshared : Unshared decks) (id : DeckId) :
    (d.deleteCards id).Shelves (decks.filter (·.id != id)) := by
  have own : ∀ deck ∈ decks, ∀ row ∈ deck.cardRows, (row.deckId == id.key) = (deck.id == id) := by
    intro deck _ row member
    rw [cardRowsDeck member,Id.sameKeys]
  have gone : (d.cards.toList.filter (·.deckId == id.key)).map (·.id) =
      (cardsOf (decks.filter (·.id == id))).map (·.id.key) := by
    rw [shelves.cards,flatMapFiltered own]
    exact (decksTell _).ids
  constructor
  · rw [deleteCards,Table.filterRows,shelves.cards]
    refine flatMapFiltered fun deck there row member => ?_
    rw [bne,own deck there row member]
    rfl
  · rw [deleteCards,Table.filterRows,shelves.answers,gone]
    refine flatMapFiltered fun deck there row member => ?_
    obtain ⟨c,inside,of⟩ := List.mem_flatMap.mp member
    rw [answerRowsCard of,bne,Bool.eq_iff_iff,Bool.not_eq_true',Bool.not_eq_true',
      ← Bool.not_eq_true,← Bool.not_eq_true,List.contains_iff_mem,beq_iff_eq]
    refine not_congr ⟨fun listed => ?_,fun same => ?_⟩
    · obtain ⟨other,found,key⟩ := List.mem_map.mp listed
      obtain ⟨otherDeck,kept,also⟩ := List.mem_flatMap.mp found
      obtain ⟨otherThere,hit⟩ := List.mem_filter.mp kept
      rw [unshared.oneDeck there otherThere inside also (Id.keyInjective key).symm]
      exact eq_of_beq hit
    · refine List.mem_map.mpr ⟨c,List.mem_flatMap.mpr ⟨deck,?_,inside⟩,rfl⟩
      exact List.mem_filter.mpr ⟨there,beq_iff_eq.mpr same⟩

theorem shelvesCardIds (shelves : d.Shelves decks) :
    d.cards.toList.map (·.id) = (cardsOf decks).map (·.id.key) := by
  rw [shelves.cards]
  exact (decksTell decks).ids

theorem shelvesAnswerRows (shelves : d.Shelves decks) :
    d.answers.toList = (cardsOf decks).flatMap Card.answerRows := by
  rw [shelves.answers,cardsOf,List.flatMap_assoc]
  rfl

theorem shelvesAnswerIds (shelves : d.Shelves decks) :
    d.answers.toList.map (·.id) = (answersOf (cardsOf decks)).map (·.id.key) := by
  rw [shelvesAnswerRows shelves,answersOf,List.map_flatMap,List.map_flatMap]
  exact List.flatMap_congr fun c _ => answerRowsIds c.possibleAnswers

theorem upsertsDeck (shelves : d.Shelves decks) (unshared : Unshared decks) {deck : Deck}
    (fits : Unshared (decks.filter (·.id != deck.id) ++ [deck])) :
    ∃ after, d.upsertDeck deck = .ok after ∧
      after.Shelves (decks.filter (·.id != deck.id) ++ [deck]) ∧
      after = { d with
        decks := d.decks.upsert (·.id == deck.id.key) (fun _ => .ofDeck deck) (.ofDeck deck),
        cards := after.cards, answers := after.answers } := by
  have kept := deletedShelves (d := { d with
    decks := d.decks.upsert (·.id == deck.id.key) (fun _ => .ofDeck deck) (.ofDeck deck) })
    ⟨shelves.cards,shelves.answers⟩ unshared deck.id
  have cardKeys : ((cardsOf (decks.filter (·.id != deck.id))).map (·.id.key) ++
      deck.cards.map (·.id.key)).Nodup := by
    have keys := nodupKeys fits.cards
    simpa [cardsOf,Function.comp_def] using keys
  have answerKeys : ((answersOf (cardsOf (decks.filter (·.id != deck.id)))).map (·.id.key) ++
      (answersOf deck.cards).map (·.id.key)).Nodup := by
    have keys := nodupKeys fits.answers
    simpa [cardsOf,answersOf,Function.comp_def] using keys
  obtain ⟨cardRows,answerRows,made,cardLayout,answerLayout⟩ := insertCardsAppends deck.id 0
    ((shelvesCardIds kept).symm ▸ cardKeys) ((shelvesAnswerIds kept).symm ▸ answerKeys)
  refine ⟨_,made,⟨?_,?_⟩,rfl⟩
  · rw [cardLayout,kept.cards]
    simp [Deck.cardRows]
  · rw [answerLayout,kept.answers]
    simp [Deck.answerRows]

theorem answersRead (cards : List Card) :
    (cards.flatMap Card.answerRows).mapM AnswerRow.read =
      .ok (cards.flatMap fun c => c.possibleAnswers.map fun a => (c.id,a)) := by
  induction cards with
  | nil => rfl
  | cons c cards ih =>
    rw [List.flatMap_cons,List.mapM_append,Card.answerRows,answersReadBack,ih]
    rfl

theorem attachedEach {answers : List (CardId × PossibleAnswer)} {cards : List Card}
    (distinct : (cards.map (·.id)).Nodup) :
    attachAnswers answers (cards.map Card.bare) = cards.map fun c =>
      { c with possibleAnswers := (answers.filter (·.1 == c.id)).map (·.2) } := by
  induction cards with
  | nil => rfl
  | cons c cards ih =>
    rw [List.map_cons,List.nodup_cons] at distinct
    have alone : ¬(cards.map Card.bare).any (·.id == c.bare.id) = true := by
      intro again
      obtain ⟨other,member,same⟩ := List.any_eq_true.mp again
      obtain ⟨c',inside,rfl⟩ := List.mem_map.mp member
      exact distinct.1 (List.mem_map.mpr ⟨c',inside,eq_of_beq same⟩)
    rw [List.map_cons,attachAnswers,ih distinct.2,if_neg alone,List.map_cons]
    rfl

theorem attachedBack {cards others : List Card} (same : cards.Perm others)
    (distinct : (others.map (·.id)).Nodup) :
    attachAnswers (others.flatMap fun c => c.possibleAnswers.map fun a => (c.id,a))
      (cards.map Card.bare) = cards := by
  rw [attachedEach ((same.map _).nodup_iff.mpr distinct)]
  refine (List.map_congr_left fun c member => ?_).trans (List.map_id cards)
  have own : ∀ c' ∈ others, ∀ p ∈ c'.possibleAnswers.map fun a => (c'.id,a),
      (p.1 == c.id) = (c'.id == c.id) := by
    intro c' _ p inside
    obtain ⟨a,_,rfl⟩ := List.mem_map.mp inside
    rfl
  have alone : others.filter (·.id == c.id) = [c] := by
    rw [filteredKey distinct fun _ => beq_iff_eq,(foundIff distinct fun _ => beq_iff_eq).mpr
      ⟨same.mem_iff.mp member,rfl⟩]
    rfl
  rw [flatMapFiltered own,alone]
  simp [Function.comp_def]

theorem cardsRead {rows : List CardRow} {cards others : List Card} (tell : Tell rows cards)
    (same : cards.Perm others) (distinct : (others.map (·.id)).Nodup) :
    readCards rows (others.flatMap Card.answerRows) = .ok cards := by
  rw [readCards,tell.read,answersRead]
  exact congrArg Except.ok (attachedBack same distinct)

theorem sameKey (key : String) : ∀ c : Card, (c.id.key == key) = true ↔ c.id.key = key :=
  fun _ => beq_iff_eq

theorem sameCardKey (key : String) :
    ∀ c ∈ cardsOf decks, ∀ row ∈ c.answerRows, (row.cardId == key) = (c.id.key == key) := by
  intro c _ row member
  rw [answerRowsCard member]

theorem foundRowsOrdered (found : Option Card) :
    (found.toList.flatMap Card.answerRows).Pairwise fun a b =>
      b.position.before a.position = false := by
  cases found with
  | none => exact .nil
  | some c =>
    rw [Option.toList_some,List.flatMap_singleton]
    exact answerRowsOrdered c.possibleAnswers

theorem answerRowsUnder (shelves : d.Shelves decks) (unshared : Unshared decks) (key : String) :
    d.answerRows key =
      ((cardsOf decks).find? (·.id.key == key)).toList.flatMap Card.answerRows := by
  rw [answerRows,shelvesAnswerRows shelves,flatMapFiltered (sameCardKey key),
    filteredKey (nodupKeysOf unshared.cards) (sameKey key)]
  exact sortOrderedSorted (foundRowsOrdered _)

theorem underOrdered (shelves : d.Shelves decks) (unshared : Unshared decks) (key : String) :
    (d.answerRows key).Pairwise fun a b => b.position.before a.position = false := by
  rw [answerRowsUnder shelves unshared]
  exact foundRowsOrdered _

theorem answerRowsOf (shelves : d.Shelves decks) (unshared : Unshared decks) {c : Card}
    (there : c ∈ cardsOf decks) : d.answerRows c.id.key = c.answerRows := by
  have found := (foundIff (nodupKeysOf unshared.cards) (sameKey c.id.key)).mpr ⟨there,rfl⟩
  rw [answerRowsUnder shelves unshared,found,Option.toList_some,List.flatMap_singleton]

/- The rows of a deck stand in the order of its cards, and those of the answers in the order of the
cards and then in their own. -/
theorem deckRows (shelves : d.Shelves decks) (unshared : Unshared decks) {deck : Deck}
    (there : deck ∈ decks) :
    d.cardRows deck.id = deck.cardRows ∧ d.deckAnswerRows deck.id = deck.answerRows := by
  have alone : decks.filter (·.id == deck.id) = [deck] := by
    rw [filteredKey unshared.own fun _ => beq_iff_eq,
      (foundIff unshared.own fun _ => beq_iff_eq).mpr ⟨there,rfl⟩]
    rfl
  have own : ∀ other ∈ decks, ∀ row ∈ other.cardRows,
      (row.deckId == deck.id.key) = (other.id == deck.id) := by
    intro other _ row member
    rw [cardRowsDeck member,Id.sameKeys]
  have cards : d.cardRows deck.id = deck.cardRows := by
    rw [cardRows,shelves.cards,flatMapFiltered own,alone,List.flatMap_singleton]
    exact sortOrderedSorted ((cardRowsOrdered deck.cards).imp fun before => before.2)
  refine ⟨cards,?_⟩
  have answers : deck.cardRows.flatMap (fun row => d.answerRows row.id) = deck.answerRows := by
    have ids : deck.cardRows.map (·.id) = deck.cards.map (·.id.key) :=
      (cardRowsTell deck.cards).ids
    have rows := congrArg (fun keys => keys.flatMap d.answerRows) ids
    simp only [List.flatMap_map] at rows
    rw [rows]
    exact List.flatMap_congr fun c inside =>
      answerRowsOf shelves unshared (List.mem_flatMap.mpr ⟨deck,there,inside⟩)
  rw [deckAnswerRows,cards,sortOrderedSorted]
  · rw [List.map_flatMap,← answers]
    simp [Function.comp_def]
  · refine List.pairwise_flatMap.mpr ⟨fun row member => ?_,?_⟩
    · refine List.pairwise_map.mpr ((underOrdered shelves unshared row.id).imp fun before => ?_)
      rw [before,cardRowSelf member]
      rfl
    · refine (cardRowsOrdered deck.cards).imp fun before x first y second => ?_
      obtain ⟨_,_,rfl⟩ := List.mem_map.mp first
      obtain ⟨_,_,rfl⟩ := List.mem_map.mp second
      rw [before.1,before.2]
      rfl

theorem getsDeck (shelves : d.Shelves decks) (unshared : Unshared decks) {deck : Deck}
    (there : deck ∈ decks)
    (found : d.decks.toList.find? (·.id == deck.id.key) = some (.ofDeck deck)) :
    d.getDeck deck.id = .ok deck := by
  obtain ⟨cards,answers⟩ := deckRows shelves unshared there
  have distinct : (deck.cards.map (·.id)).Nodup := by
    have each := unshared.cards
    rw [cardsOf,List.map_flatMap] at each
    exact (List.nodup_flatMap.mp each).1 deck there
  have read : readCards deck.cardRows deck.answerRows = .ok deck.cards :=
    cardsRead (cardRowsTell deck.cards) (.refl _) distinct
  simp only [getDeck,found,cards,answers,read,DeckRow.ofDeck,storedIdKey]
  rfl

variable {ids : List CardId}

def cardKeys (ids : List CardId) : List String :=
  sortOrdered (fun a b => a < b) (ids.eraseDups.map Id.key)

def rowsUnder (d : Database) (key : String) : List CardRow := d.cards.toList.filter (·.id == key)

theorem cardKeysPerm : (cardKeys ids).Perm (ids.eraseDups.map Id.key) := sortOrderedPerm _ _

theorem cardKeysNodup : (cardKeys ids).Nodup :=
  cardKeysPerm.nodup_iff.mpr (nodupKeys (nodupEraseDups ids))

theorem memCardKeys {key : String} : key ∈ cardKeys ids ↔ ∃ id ∈ ids, id.key = key := by
  rw [cardKeysPerm.mem_iff,List.mem_map]
  simp only [List.mem_eraseDups]

theorem readsCards (shelves : d.Shelves decks) (unshared : Unshared decks) {rows : List CardRow}
    (listed : rows.Perm ((cardKeys ids).flatMap d.rowsUnder)) :
    ∃ found, readCards rows ((cardKeys ids).flatMap d.answerRows) = .ok found ∧
      ∀ id ∈ ids, found.find? (·.id == id) = (cardsOf decks).find? (·.id == id) := by
  have keysDistinct := nodupKeysOf unshared.cards
  have tell : Tell ((cardKeys ids).flatMap d.rowsUnder)
      (foundUnder (·.id.key) (cardsOf decks) (cardKeys ids)) := by
    refine Tell.flatMap fun key => ?_
    rw [rowsUnder,shelves.cards,← filteredKey keysDistinct (sameKey key)]
    exact (decksTell decks).filter key
  have answers : (cardKeys ids).flatMap d.answerRows =
      (foundUnder (·.id.key) (cardsOf decks) (cardKeys ids)).flatMap Card.answerRows := by
    rw [foundUnder,List.flatMap_assoc]
    exact List.flatMap_congr fun key _ => answerRowsUnder shelves unshared key
  have apart : ((foundUnder (·.id.key) (cardsOf decks) (cardKeys ids)).map (·.id)).Nodup := by
    refine .of_map Id.key ?_
    rw [List.map_map]
    exact foundUnderDistinct cardKeysNodup
  obtain ⟨found,told,same⟩ := List.perm_comp_forall₂ listed tell
  refine ⟨found,answers ▸ cardsRead told same apart,fun id asked => Option.ext fun c => ?_⟩
  have listedKey : id.key ∈ cardKeys ids := memCardKeys.mpr ⟨id,asked,rfl⟩
  rw [foundIff ((same.map _).nodup_iff.mpr apart) fun _ => beq_iff_eq,
    foundIff unshared.cards fun _ => beq_iff_eq,same.mem_iff,memFoundUnder keysDistinct]
  constructor
  · rintro ⟨⟨there,_⟩,own⟩
    exact ⟨there,own⟩
  · rintro ⟨there,rfl⟩
    exact ⟨⟨there,listedKey⟩,rfl⟩

theorem getsCards (shelves : d.Shelves decks) (unshared : Unshared decks)
    (few : ids.eraseDups.length ≤ largestVariable) :
    d.getCards ids =
      .ok (ids.eraseDups.filterMap fun id => (cardsOf decks).find? (·.id == id)) := by
  obtain ⟨found,read,each⟩ :=
    readsCards shelves unshared (.refl ((cardKeys ids).flatMap d.rowsUnder))
  refine (if_pos few).trans (exceptBindOk.mpr ⟨found,read,?_⟩)
  exact congrArg Except.ok (List.filterMap_congr fun id member =>
    each id (List.mem_eraseDups.mp member))

end Database

end Coursework
