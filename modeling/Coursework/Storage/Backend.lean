import Coursework.Http.DeckClient
import Coursework.Storage.Column
import Coursework.Storage.Memory
/-!
A store together with the catalog of its decks, which is the store itself or a deck service. The
service answers the look-ups of decks and cards; all else is the store's.
-/
namespace Coursework

inductive Repository where
  | memory (m : Memory)
  | tables (d : Database)
  deriving DecidableEq

def Repository.perform : Handler Repository
  | op, .memory m => let (outcome,m) := m.perform op; (outcome,.memory m)
  | op, .tables d => let (outcome,d) := d.perform op; (outcome,.tables d)

structure Backend where
  repository : Repository
  deckService : Option Http.DeckClient := none
  deriving DecidableEq

namespace Backend

def perform (exchange : Http.Exchange) : Handler Backend
  | op, b =>
    match b.deckService, op with
    | some client, .getDeck id => (client.getDeck exchange id,b)
    | some client, .getCards ids => (client.getCards exchange ids,b)
    | _, op =>
      let (outcome,repository) := b.repository.perform op
      (outcome,{ b with repository })

end Backend

end Coursework
