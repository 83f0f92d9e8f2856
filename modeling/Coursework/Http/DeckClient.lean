import Coursework.Json.Content
import Coursework.Storage.Operation
import Coursework.Text.Blank
/-!
The client of a deck service, as requests and what is made of their answers. Decks are fetched one
by one and cards in one batch, in which every card is asked for once. Of the cards that come back
only those that were asked for are kept, each as it is first listed.
-/
namespace Coursework.Http

structure Request where
  method : String
  url : String
  body : Option String
  deriving DecidableEq, Repr

structure Response where
  status : Nat
  body : String
  deriving DecidableEq, Repr

abbrev Exchange : Type := Request → Option Response

/-- Requests that are sent one after another, each with what is made of its answer. -/
inductive Dialogue (α : Type) where
  | done (a : α)
  | send (request : Request) (resume : Option Response → Dialogue α)

def Dialogue.run {α : Type} (exchange : Exchange) : Dialogue α → α
  | .done a => a
  | .send request resume => (resume (exchange request)).run exchange

structure DeckClientSettings where
  baseUrl : String
  timeoutMilliseconds : Nat := 10000
  deriving DecidableEq, Repr

def DeckClientSettings.ofVariable? (value : Option String) : Option DeckClientSettings :=
  match value with
  | none => none
  | some url => if Text.isAllBlank url then none else some { baseUrl := Text.trim url }

structure DeckClient where
  baseUrl : String
  deriving DecidableEq, Repr

namespace DeckClient

def ofSettings (s : DeckClientSettings) : DeckClient :=
  ⟨String.ofList (s.baseUrl.toList.reverse.dropWhile (· == '/')).reverse⟩

def deckRequest (c : DeckClient) (id : DeckId) : Request :=
  ⟨"GET",c.baseUrl ++ "/decks/" ++ id.key,none⟩

def cardsRequest (c : DeckClient) (ids : List CardId) : Request :=
  ⟨"POST",c.baseUrl ++ "/cards:batchGet",
    some (Json.Value.compact (.record [("card_ids",Json.encode ids)]))⟩

def received {α : Type} (decode? : Json.Value → Option α) : Option Response →
    Except StorageError α
  | none => .error (.connection .unreachable)
  | some r =>
    if r.status = 404 then .error .notFound
    else if isSuccess r.status then
      match (Json.Value.parse? r.body).bind decode? with
      | some a => .ok a
      | none => .error (.serialization .malformed)
    else .error (.connection (.status r.status))

def decodeBatch? (v : Json.Value) : Option (List Card) := do
  let [cards] ← Json.fields? ["cards"] v | none
  Json.optional? [] cards

def keepRequested (ids : List CardId) : (seen : List CardId) → List Card → List Card
  | _, [] => []
  | seen, c :: cs =>
    if ids.contains c.id && !seen.contains c.id then c :: keepRequested ids (c.id :: seen) cs
    else keepRequested ids seen cs

def fetchDeck (c : DeckClient) (id : DeckId) : Dialogue (Except StorageError Deck) :=
  .send (c.deckRequest id) fun response => .done (received Json.decode? response)

def fetchCards (c : DeckClient) (ids : List CardId) : Dialogue (Except StorageError (List Card)) :=
  match ids.eraseDups with
  | [] => .done (.ok [])
  | ids => .send (c.cardsRequest ids) fun response => .done do
    let cards ← received decodeBatch? response
    .ok (keepRequested ids [] cards)

def getDeck (c : DeckClient) (exchange : Exchange) (id : DeckId) : Except StorageError Deck :=
  (c.fetchDeck id).run exchange

def getCards (c : DeckClient) (exchange : Exchange) (ids : List CardId) :
    Except StorageError (List Card) :=
  (c.fetchCards ids).run exchange

end DeckClient

end Coursework.Http
