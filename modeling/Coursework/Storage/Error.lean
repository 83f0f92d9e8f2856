import Coursework.Http.Status
/-!
What can go wrong where courses, decks and enrollments are kept.
-/
namespace Coursework

inductive StoredField where
  | cardKind | cardId | answerId | lessonId | courseId | userId | deckId | currentLesson
  deriving DecidableEq, Repr

def StoredField.name : StoredField → String
  | .cardKind => "card kind"
  | .cardId => "card id"
  | .answerId => "answer id"
  | .lessonId => "lesson id"
  | .courseId => "course id"
  | .userId => "user id"
  | .deckId => "deck id"
  | .currentLesson => "current lesson"

inductive ConnectionFailure where
  | constraint
  | readOnly
  | statement
  | unreachable
  | status (code : Nat)
  | injected
  deriving DecidableEq, Repr

def ConnectionFailure.message : ConnectionFailure → String
  | .constraint => "a rule of the tables forbids the write"
  | .readOnly => "error returned from database: (code: 8) attempt to write a readonly database"
  | .statement => "the statement does not fit the tables"
  | .unreachable => "the deck service does not answer"
  | .status code => "deck service responded with status " ++ Http.describeStatus code
  | .injected => "injected"

inductive ReadFailure where
  | invalid (field : StoredField) (raw : String)
  | malformed
  | injected
  deriving DecidableEq, Repr

def ReadFailure.message : ReadFailure → String
  | .invalid field raw => "invalid " ++ field.name ++ ": " ++ raw
  | .malformed => "malformed value"
  | .injected => "injected"

inductive StorageError where
  | notFound
  | conflict
  | connection (why : ConnectionFailure)
  | serialization (why : ReadFailure)
  deriving DecidableEq, Repr

def StorageError.message : StorageError → String
  | .notFound => "not found"
  | .conflict => "conflict"
  | .connection why => "connection error: " ++ why.message
  | .serialization why => "serialization error: " ++ why.message

end Coursework
