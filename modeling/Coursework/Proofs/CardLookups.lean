import Coursework.Proofs.Batch
import Coursework.Proofs.Catalogs
import Coursework.Proofs.DeckReplacement

/-! A card can be read with its deck and among the cards of a list. After any session with tables both
ways give the same card: a list of cards is looked up card by card, and each of them is what its deck
lists. So the answers of a batch are graded by the decks that hold their cards. -/
namespace Coursework

namespace Database

def Lists (d : Database) (id : CardId) (c : Card) : Prop :=
  ∃ deck, d.getDeck deck.id = .ok deck ∧ c ∈ deck.cards ∧ c.id = id

def Accepts (d : Database) (id : CardId) (answer : AnswerId) : Prop :=
  ∃ c, d.Lists id c ∧
    ∃ possible ∈ c.possibleAnswers, possible.id = answer ∧ possible.isCorrect = true

structure LooksUp (d : Database) (lookup : CardId → Option Card) : Prop where
  named : ∀ id deck, d.getDeck id = .ok deck → deck.id = id
  oneDeck : ∀ deck other c c', d.getDeck deck.id = .ok deck → d.getDeck other.id = .ok other →
    c ∈ deck.cards → c' ∈ other.cards → c.id = c'.id → deck = other ∧ c = c'
  listed : ∀ id c, lookup id = some c ↔ d.Lists id c
  cards : ∀ ids : List CardId, ids.eraseDups.length ≤ largestVariable →
    d.getCards ids = .ok (ids.eraseDups.filterMap lookup)
  anyOrder : ∀ (ids : List CardId) (rows : List CardRow),
    rows.Perm ((cardKeys ids).flatMap d.rowsUnder) →
    ∃ found, readCards rows ((cardKeys ids).flatMap d.answerRows) = .ok found ∧
      ∀ id ∈ ids, found.find? (·.id == id) = lookup id

namespace Keeps

variable {d : Database} {decks : List Deck}

theorem listsIff (keeps : d.Keeps decks) {id : CardId} {c : Card} :
    d.Lists id c ↔ c ∈ cardsOf decks ∧ c.id = id := by
  rw [cardsOf,List.mem_flatMap]
  constructor
  · rintro ⟨deck,given,inside,own⟩
    exact ⟨⟨deck,(keeps.givesIff.mp given).1,inside⟩,own⟩
  · rintro ⟨⟨deck,there,inside⟩,own⟩
    exact ⟨deck,keeps.givesIff.mpr ⟨there,rfl⟩,inside,own⟩

theorem looksUp (keeps : d.Keeps decks) :
    d.LooksUp fun id => (cardsOf decks).find? (·.id == id) := by
  constructor
  case named => exact fun id deck given => (keeps.givesIff.mp given).2
  case oneDeck =>
    intro deck other c c' given also inside inside' same
    have there := (keeps.givesIff.mp given).1
    have there' := (keeps.givesIff.mp also).1
    exact ⟨keeps.unshared.oneDeck there there' inside inside' same,
      keyedSame keeps.unshared.cards (List.mem_flatMap.mpr ⟨deck,there,inside⟩)
        (List.mem_flatMap.mpr ⟨other,there',inside'⟩) same⟩
  case listed =>
    intro id c
    rw [foundIff keeps.unshared.cards fun _ => beq_iff_eq,keeps.listsIff]
  case cards => exact fun ids few => getsCards keeps.shelves keeps.unshared few
  case anyOrder => exact fun ids rows order => readsCards keeps.shelves keeps.unshared order

end Keeps

namespace LooksUp

variable {d : Database} {lookup : CardId → Option Card}

theorem acceptsIff (looks : d.LooksUp lookup) {id : CardId} {c : Card} (listed : d.Lists id c)
    {answer : AnswerId} :
    d.Accepts id answer ↔ c.correctAnswers.contains answer = true := by
  rw [acceptedIff]
  constructor
  · rintro ⟨other,also,accepted⟩
    have same := ((looks.listed id c).mpr listed).symm.trans ((looks.listed id other).mpr also)
    cases Option.some.inj same
    exact accepted
  · exact fun accepted => ⟨c,listed,accepted⟩

theorem graded (looks : d.LooksUp lookup) {ids : List CardId} {cards : List Card}
    (read : d.getCards ids = .ok cards) {id : CardId} (asked : id ∈ ids) (answer : AnswerId) :
    (AnswerKey.mk cards).grade id answer = true ↔ d.Accepts id answer := by
  have few : ids.eraseDups.length ≤ largestVariable := by
    obtain ⟨_,_,steps⟩ := getCardsIff.mp read
    exact steps.few
  rw [looks.cards ids few] at read
  cases Except.ok.inj read
  have own : ∀ id c, lookup id = some c → c.id = id := by
    intro id c found
    obtain ⟨_,_,_,same⟩ := (looks.listed id c).mp found
    exact same
  rw [AnswerKey.grade,lookedUp own (List.mem_eraseDups.mpr asked)]
  cases found : lookup id with
  | none => simp [Accepts,← looks.listed,found]
  | some c =>
    rw [looks.acceptsIff ((looks.listed id c).mp found)]
    rfl

theorem ownKey (looks : d.LooksUp lookup) {deck : Deck} (given : d.getDeck deck.id = .ok deck)
    {c : Card} (inside : c ∈ deck.cards) (answer : AnswerId) :
    (AnswerKey.mk deck.cards).grade c.id answer = true ↔ d.Accepts c.id answer := by
  rw [looks.acceptsIff ⟨deck,given,inside,rfl⟩,AnswerKey.grade,AnswerKey.correctAnswers?]
  have hit : (deck.cards.reverse.find? (·.id == c.id)).isSome = true :=
    List.find?_isSome.mpr ⟨c,List.mem_reverse.mpr inside,beq_self_eq_true c.id⟩
  obtain ⟨other,found⟩ := Option.isSome_iff_exists.mp hit
  have also : other ∈ deck.cards := List.mem_reverse.mp (List.mem_of_find?_eq_some found)
  obtain ⟨_,rfl⟩ := looks.oneDeck deck deck other c given given also inside (foundOwn found)
  rw [found]
  rfl

theorem served (looks : d.LooksUp lookup) {setting : Setting} {user : UserId} {course : CourseId}
    {lesson : LessonId} {deck : DeckId} {answers : List CardAnswer} {outcome : AnswerOutcome}
    {after : Backend}
    (served : setting.serve user course ⟨.tables d,none⟩ (.answer lesson deck answers) =
      (.answered (.ok outcome),after)) :
    List.Forall₂ (fun a r => r.cardId = a.cardId ∧
      (r.correct = true ↔ d.Accepts a.cardId a.answerId)) answers outcome.results := by
  have ran := Setting.answeredIff.mp served
  by_cases given : answers = []
  · subst given
    obtain ⟨old,_,_,rfl,_⟩ := (emptyAnswerIff setting.transactional.quiet).mp ran
    exact .nil
  · obtain ⟨old,cards,state,steps⟩ := (answerStepsIff setting.transactional given).mp ran
    have read : d.getCards (answers.map (·.cardId)).eraseDups = .ok cards := by
      have fetched := steps.fetched
      rw [Setting.cardsAnswered] at fetched
      split at fetched
      · cases fetched
      · exact fetched
    have right : ∀ a ∈ answers, (a.RightBy cards ↔ d.Accepts a.cardId a.answerId) := by
      intro a member
      have asked : a.cardId ∈ (answers.map (·.cardId)).eraseDups :=
        List.mem_eraseDups.mpr (List.mem_map_of_mem member)
      rw [← gradeIff,looks.graded read asked]
    have both := (List.forall₂_and_left _ _).mpr
      ⟨right,CourseProgress.gradedByCatalog steps.recorded⟩
    exact both.imp fun a r told => ⟨told.2.1,told.2.2.trans told.1⟩

end LooksUp

/- The look-up of cards, and what follows for grading: whatever cards are asked for together, an answer
is right if the deck that holds its card says so, and this is what the key of that deck says. -/
structure AgreesWithDecks (d : Database) (lookup : CardId → Option Card) : Prop
    extends d.LooksUp lookup where
  graded : ∀ (ids : List CardId) (cards : List Card), d.getCards ids = .ok cards →
    ∀ id ∈ ids, ∀ answer, (AnswerKey.mk cards).grade id answer = true ↔ d.Accepts id answer
  ownKey : ∀ deck, d.getDeck deck.id = .ok deck → ∀ c ∈ deck.cards, ∀ answer,
    (AnswerKey.mk deck.cards).grade c.id answer = true ↔ d.Accepts c.id answer
  served : ∀ (setting : Setting) (user : UserId) (course : CourseId) (lesson : LessonId)
    (deck : DeckId) (answers : List CardAnswer) (outcome : AnswerOutcome) (after : Backend),
    setting.serve user course ⟨.tables d,none⟩ (.answer lesson deck answers) =
      (.answered (.ok outcome),after) →
    List.Forall₂ (fun a r => r.cardId = a.cardId ∧
      (r.correct = true ↔ d.Accepts a.cardId a.answerId)) answers outcome.results

/-- After any session, cards are looked up one by one as the decks list them: for each identifier that
is asked for, where it is first asked for, the card of the one deck that holds it, and nothing if no
deck does. A batch of answers is graded by these decks. -/
theorem cardsAgreeWithDecks (steps : List SessionStep) :
    ∃ lookup, (reached steps).AgreesWithDecks lookup := by
  obtain ⟨decks,keeps⟩ := keepsNothing.session steps
  have looks : (reached steps).LooksUp fun id => (cardsOf decks).find? (·.id == id) := keeps.looksUp
  exact ⟨_,{ toLooksUp := looks
             graded := fun _ _ read _ asked => looks.graded read asked
             ownKey := fun _ given _ inside => looks.ownKey given inside
             served := fun _ _ _ _ _ _ _ _ ok => looks.served ok }⟩

example :
    (reached Sample.visit).getCards [⟨.ofNat 6⟩,⟨.ofNat 9⟩,Sample.card.id,⟨.ofNat 6⟩] =
      .ok [{ id := ⟨.ofNat 6⟩, title := "leave" },Sample.card] := by decide +kernel

end Database

end Coursework
