import Coursework.Proofs.DeckRows
import Coursework.Proofs.Stores
import Mathlib.Data.List.Perm.Subperm

/-! Catalogs that look up each card for itself. Which of the cards are found, and which answers are
right for them, does not hang on the other cards that are asked for with them. Both stores are such
catalogs, whatever they hold and however often a card stands in them. -/
namespace Coursework

/- Asked for fewer cards, the catalog finds those, and takes the same answers to them for right. -/
def Answers.CardsApart (answers : Answers) : Prop :=
  ∀ ids fewer cards, ids.Nodup → fewer.Nodup → fewer ⊆ ids → answers (.getCards ids) = .ok cards →
    ∃ own, answers (.getCards fewer) = .ok own ∧ ∀ id ∈ fewer,
      (AnswerKey.mk own).correctAnswers? id = (AnswerKey.mk cards).correctAnswers? id

theorem eraseDupsWithin {α : Type} [BEq α] [LawfulBEq α] {as fewer : List α}
    (within : fewer ⊆ as) : fewer.eraseDups ⊆ as.eraseDups := by
  intro a member
  rw [List.mem_eraseDups] at member ⊢
  exact within member

theorem Answers.CardsApart.graded {answers : Answers} (apart : answers.CardsApart)
    {batch part : List CardAnswer} {cards : List Card} (within : part ⊆ batch)
    (fetched : answers (.getCards (batch.map (·.cardId)).eraseDups) = .ok cards) :
    ∃ own, answers (.getCards (part.map (·.cardId)).eraseDups) = .ok own ∧ ∀ a ∈ part,
      (AnswerKey.mk own).grade a.cardId a.answerId =
        (AnswerKey.mk cards).grade a.cardId a.answerId := by
  obtain ⟨own,found,same⟩ := apart _ _ cards (nodupEraseDups _) (nodupEraseDups _)
    (eraseDupsWithin (List.map_subset _ within)) fetched
  refine ⟨own,found,fun a member => ?_⟩
  have asked : a.cardId ∈ (part.map (·.cardId)).eraseDups :=
    List.mem_eraseDups.mpr (List.mem_map_of_mem member)
  rw [AnswerKey.grade,AnswerKey.grade,same a.cardId asked]

theorem foundOwn {cards : List Card} {id : CardId} {c : Card}
    (found : cards.find? (·.id == id) = some c) : c.id = id := by
  simpa using List.find?_some found

theorem lookedUp {lookup : CardId → Option Card} (own : ∀ id c, lookup id = some c → c.id = id)
    {ids : List CardId} {id : CardId} (asked : id ∈ ids) :
    (AnswerKey.mk (ids.filterMap lookup)).correctAnswers? id =
      (lookup id).map Card.correctAnswers := by
  have member {c : Card} (there : c ∈ (ids.filterMap lookup).reverse) : lookup c.id = some c := by
    obtain ⟨other,_,found⟩ := List.mem_filterMap.mp (List.mem_reverse.mp there)
    rwa [own other c found]
  refine congrArg (Option.map Card.correctAnswers) ?_
  cases found : lookup id with
  | none =>
    refine List.find?_eq_none.mpr fun c there same => ?_
    rw [← eq_of_beq same,member there] at found
    cases found
  | some c =>
    have there : c ∈ (ids.filterMap lookup).reverse :=
      List.mem_reverse.mpr (List.mem_filterMap.mpr ⟨id,asked,found⟩)
    have hit : ((ids.filterMap lookup).reverse.find? (·.id == id)).isSome = true :=
      List.find?_isSome.mpr ⟨c,there,beq_iff_eq.mpr (own id c found)⟩
    obtain ⟨other,is⟩ := Option.isSome_iff_exists.mp hit
    have same := member (List.mem_of_find?_eq_some is)
    rw [foundOwn is,found] at same
    rw [is,same]

theorem Memory.looksUpApart (m : Memory) {ids fewer : List CardId} (within : fewer ⊆ ids)
    {id : CardId} (asked : id ∈ fewer) :
    (AnswerKey.mk (fewer.eraseDups.filterMap m.card?)).correctAnswers? id =
      (AnswerKey.mk (ids.eraseDups.filterMap m.card?)).correctAnswers? id := by
  have own : ∀ id c, m.card? id = some c → c.id = id := fun id c => foundOwn
  rw [lookedUp own (List.mem_eraseDups.mpr asked),lookedUp own (List.mem_eraseDups.mpr (within asked))]

section Read

variable {Row α : Type} {read : Row → Stored α} {rows fewer : List Row} {as : List α}

theorem rowsRead : (∃ as, rows.mapM read = .ok as) ↔ ∀ row ∈ rows, ∃ a, read row = .ok a := by
  induction rows with
  | nil => simp [pure,Except.pure]
  | cons row rows ih =>
    rw [List.forall_mem_cons,← ih]
    simp only [List.mapM_cons,exceptBindOk]
    constructor
    · rintro ⟨_,a,first,as,rest,_⟩
      exact ⟨⟨a,first⟩,as,rest⟩
    · rintro ⟨⟨a,first⟩,as,rest⟩
      exact ⟨a :: as,a,first,as,rest,rfl⟩

theorem readWithin (ok : rows.mapM read = .ok as) (within : fewer ⊆ rows) :
    ∃ own, fewer.mapM read = .ok own :=
  rowsRead.mpr fun row member => rowsRead.mp ⟨as,ok⟩ row (within member)

theorem readFiltered {p : Row → Bool} {q : α → Bool} (ok : rows.mapM read = .ok as)
    (same : ∀ row ∈ rows, ∀ a, read row = .ok a → q a = p row) :
    (rows.filter p).mapM read = .ok (as.filter q) := by
  induction rows generalizing as with
  | nil =>
    cases Except.ok.inj ok
    rfl
  | cons row rows ih =>
    obtain ⟨here,later⟩ := List.forall_mem_cons.mp same
    rw [List.mapM_cons] at ok
    obtain ⟨a,first,rest⟩ := exceptBindOk.mp ok
    obtain ⟨others,known,last⟩ := exceptBindOk.mp rest
    cases Except.ok.inj last
    have tail := ih known later
    rw [List.filter_cons,List.filter_cons,here a first]
    split
    · rw [List.mapM_cons,first,tail]
      rfl
    · exact tail

end Read

theorem attachedFind (answers : List (CardId × PossibleAnswer)) (cards : List Card) (id : CardId) :
    (Database.attachAnswers answers cards).find? (·.id == id) =
      (Database.attachAnswers (answers.filter (·.1 == id)) (cards.filter (·.id == id))).find?
        (·.id == id) := by
  induction cards with
  | nil => rfl
  | cons c cards ih =>
    by_cases here : c.id = id
    · subst here
      have kept : (c :: cards).filter (·.id == c.id) = c :: cards.filter (·.id == c.id) :=
        List.filter_cons_of_pos (beq_self_eq_true c.id)
      have others : (cards.filter (·.id == c.id)).any (·.id == c.id) = cards.any (·.id == c.id) := by
        simp [List.any_filter]
      simp only [kept,Database.attachAnswers,others,List.filter_filter,Bool.and_self]
      split
      · simp
      · simp
    · have away : (c :: cards).filter (·.id == id) = cards.filter (·.id == id) :=
        List.filter_cons_of_neg (by simpa using here)
      rw [away,← ih,Database.attachAnswers]
      split
      · simp [here]
      · simp [here]

theorem CardRow.readUnder {row : CardRow} {c : Card} {id : CardId} (under : row.id = id.key)
    (ok : row.read = .ok c) : c.id = id := by
  obtain ⟨own,known,rest⟩ := exceptBindOk.mp ok
  obtain ⟨_,_,last⟩ := exceptBindOk.mp rest
  rw [under,storedIdKey] at known
  cases Except.ok.inj known
  cases Except.ok.inj last
  rfl

theorem AnswerRow.readUnder {row : AnswerRow} {a : CardId × PossibleAnswer} {id : CardId}
    (under : row.cardId = id.key) (ok : row.read = .ok a) : a.1 = id := by
  obtain ⟨own,known,rest⟩ := exceptBindOk.mp ok
  obtain ⟨_,_,rest⟩ := exceptBindOk.mp rest
  obtain ⟨_,_,last⟩ := exceptBindOk.mp rest
  rw [under,storedIdKey] at known
  cases Except.ok.inj known
  cases Except.ok.inj last
  rfl

namespace Database

variable {d : Database} {ids fewer : List CardId} {cards : List Card} {id : CardId}

theorem cardKeysWithin (within : fewer ⊆ ids) : cardKeys fewer ⊆ cardKeys ids := by
  intro key member
  obtain ⟨id,asked,same⟩ := memCardKeys.mp member
  exact memCardKeys.mpr ⟨id,within asked,same⟩

theorem cardKeyAlone (asked : id ∈ ids) : (cardKeys ids).filter (· == id.key) = [id.key] := by
  rw [List.filter_beq,(List.nodup_iff_count_eq_one.mp cardKeysNodup) _ (memCardKeys.mpr ⟨id,asked,rfl⟩)]
  rfl

structure CardsRead (d : Database) (ids : List CardId) (cards : List Card)
    (found : List Card) (answers : List (CardId × PossibleAnswer)) : Prop where
  few : ids.eraseDups.length ≤ largestVariable
  rows : ((cardKeys ids).flatMap d.rowsUnder).mapM CardRow.read = .ok found
  answerRows : ((cardKeys ids).flatMap d.answerRows).mapM AnswerRow.read = .ok answers
  told : cards = ids.eraseDups.filterMap fun id =>
    (attachAnswers answers found).find? (·.id == id)

theorem getCardsIff :
    d.getCards ids = .ok cards ↔ ∃ found answers, d.CardsRead ids cards found answers := by
  rw [getCards]
  constructor
  · intro ok
    split at ok
    · rename_i few
      obtain ⟨read,known,last⟩ := exceptBindOk.mp ok
      obtain ⟨found,rows,rest⟩ := exceptBindOk.mp known
      obtain ⟨answers,answerRows,attached⟩ := exceptBindOk.mp rest
      cases Except.ok.inj attached
      exact ⟨found,answers,few,rows,answerRows,(Except.ok.inj last).symm⟩
    · cases ok
  · rintro ⟨found,answers,read⟩
    rw [read.told]
    refine (if_pos read.few).trans (exceptBindOk.mpr ⟨attachAnswers answers found,?_,rfl⟩)
    exact exceptBindOk.mpr ⟨found,read.rows,exceptBindOk.mpr ⟨answers,read.answerRows,rfl⟩⟩

theorem CardsRead.card {found : List Card} {answers : List (CardId × PossibleAnswer)}
    (read : d.CardsRead ids cards found answers) (asked : id ∈ ids) :
    (d.rowsUnder id.key).mapM CardRow.read = .ok (found.filter (·.id == id)) := by
  have under : ∀ key ∈ cardKeys ids, ∀ row ∈ d.rowsUnder key, (row.id == id.key) = (key == id.key) :=
    fun key _ row member => by rw [eq_of_beq (List.mem_filter.mp member).2]
  have filtered := readFiltered (p := (·.id == id.key)) (q := (·.id == id)) read.rows
    fun row member c ok => ?_
  · rwa [flatMapFiltered under,cardKeyAlone asked,List.flatMap_singleton] at filtered
  · obtain ⟨key,listed,inside⟩ := List.mem_flatMap.mp member
    obtain ⟨other,_,rfl⟩ := memCardKeys.mp listed
    have here : row.id = other.key := eq_of_beq (List.mem_filter.mp inside).2
    rw [CardRow.readUnder here ok,here,Id.sameKeys]

theorem CardsRead.answers {found : List Card} {answers : List (CardId × PossibleAnswer)}
    (read : d.CardsRead ids cards found answers) (asked : id ∈ ids) :
    (d.answerRows id.key).mapM AnswerRow.read = .ok (answers.filter (·.1 == id)) := by
  have own {key : String} {row : AnswerRow} (member : row ∈ d.answerRows key) : row.cardId = key :=
    eq_of_beq (List.mem_filter.mp ((sortOrderedPerm _ _).mem_iff.mp member)).2
  have under : ∀ key ∈ cardKeys ids, ∀ row ∈ d.answerRows key,
      (row.cardId == id.key) = (key == id.key) := fun key _ row member => by rw [own member]
  have filtered := readFiltered (p := (·.cardId == id.key)) (q := (·.1 == id)) read.answerRows
    fun row member a ok => ?_
  · rwa [flatMapFiltered under,cardKeyAlone asked,List.flatMap_singleton] at filtered
  · obtain ⟨key,listed,inside⟩ := List.mem_flatMap.mp member
    obtain ⟨other,_,rfl⟩ := memCardKeys.mp listed
    have here := own inside
    rw [AnswerRow.readUnder here ok,here,Id.sameKeys]

theorem CardsRead.within {found : List Card} {answers : List (CardId × PossibleAnswer)}
    (read : d.CardsRead ids cards found answers) (within : fewer ⊆ ids) :
    ∃ own ownFound ownAnswers, d.CardsRead fewer own ownFound ownAnswers := by
  have keys {Row : Type} (rows : String → List Row) :
      (cardKeys fewer).flatMap rows ⊆ (cardKeys ids).flatMap rows := by
    intro row member
    obtain ⟨key,listed,inside⟩ := List.mem_flatMap.mp member
    exact List.mem_flatMap.mpr ⟨key,cardKeysWithin within listed,inside⟩
  have shorter := (List.subperm_of_subset (nodupEraseDups fewer) (eraseDupsWithin within)).length_le
  obtain ⟨ownFound,rows⟩ := readWithin read.rows (keys d.rowsUnder)
  obtain ⟨ownAnswers,answerRows⟩ := readWithin read.answerRows (keys d.answerRows)
  exact ⟨_,ownFound,ownAnswers,shorter.trans read.few,rows,answerRows,rfl⟩

theorem looksUpApart (within : fewer ⊆ ids) (ok : d.getCards ids = .ok cards) :
    ∃ own, d.getCards fewer = .ok own ∧ ∀ id ∈ fewer,
      (AnswerKey.mk own).correctAnswers? id = (AnswerKey.mk cards).correctAnswers? id := by
  obtain ⟨found,answers,whole⟩ := getCardsIff.mp ok
  obtain ⟨own,ownFound,ownAnswers,part⟩ := whole.within within
  refine ⟨own,getCardsIff.mpr ⟨ownFound,ownAnswers,part⟩,fun id asked => ?_⟩
  have cardsAlike := Except.ok.inj ((part.card asked).symm.trans (whole.card (within asked)))
  have answersAlike :=
    Except.ok.inj ((part.answers asked).symm.trans (whole.answers (within asked)))
  rw [part.told,whole.told,lookedUp (fun _ _ => foundOwn) (List.mem_eraseDups.mpr asked),
    lookedUp (fun _ _ => foundOwn) (List.mem_eraseDups.mpr (within asked)),attachedFind,cardsAlike,
    answersAlike,← attachedFind]

end Database

theorem Setting.looksUpApart {setting : Setting} {b : Backend} (none : b.deckService = none) :
    (setting.handler.answers b).CardsApart := by
  intro ids fewer cards _ _ within fetched
  obtain ⟨repository,service⟩ := b
  cases none
  rw [cardsAnswered] at fetched
  simp only [cardsAnswered]
  cases fault : setting.faults.getCards with
  | some why =>
    rw [fault] at fetched
    cases fetched
  | none =>
    rw [fault] at fetched
    cases repository with
    | memory m =>
      cases Except.ok.inj fetched
      exact ⟨_,rfl,fun id asked => m.looksUpApart within asked⟩
    | tables d => exact Database.looksUpApart within fetched

end Coursework
