import Coursework.Id
/-!
Decks of cards as their authors write them. A card offers possible answers, any number of which
are correct; the answer key of a list of cards says which.
-/
namespace Coursework

inductive CardKind where
  | singleChoice | fillInTheBlanks
  deriving DecidableEq, Repr, Inhabited

namespace CardKind

def text : CardKind → String
  | .singleChoice => "single_choice"
  | .fillInTheBlanks => "fill_in_the_blanks"

def describe : CardKind → String
  | .singleChoice => "SingleChoice"
  | .fillInTheBlanks => "FillInTheBlanks"

def parse? (raw : String) : Option CardKind :=
  if raw = text .singleChoice then some .singleChoice
  else if raw = text .fillInTheBlanks then some .fillInTheBlanks
  else none

theorem parsesText (kind : CardKind) : parse? kind.text = some kind := by
  cases kind <;> decide

end CardKind

structure PossibleAnswer where
  id : AnswerId
  text : String
  isCorrect : Bool
  deriving DecidableEq, Repr

structure Card where
  id : CardId
  title : String
  explanation : String := ""
  kind : CardKind := .singleChoice
  possibleAnswers : List PossibleAnswer := []
  deriving DecidableEq, Repr

def Card.correctAnswers (c : Card) : List AnswerId :=
  (c.possibleAnswers.filter (·.isCorrect)).map (·.id)

structure Deck where
  id : DeckId
  title : String
  description : String := ""
  cards : List Card := []
  deriving DecidableEq, Repr

def Deck.cardKeys (d : Deck) : List String := d.cards.map (·.id.key)

/-- The correct answers of every card of a list; of cards with one identifier the last counts. -/
structure AnswerKey where
  cards : List Card
  deriving DecidableEq, Repr

namespace AnswerKey

def correctAnswers? (k : AnswerKey) (card : CardId) : Option (List AnswerId) :=
  (k.cards.reverse.find? (·.id == card)).map Card.correctAnswers

def grade (k : AnswerKey) (card : CardId) (answer : AnswerId) : Bool :=
  ((k.correctAnswers? card).getD []).contains answer

end AnswerKey

end Coursework
