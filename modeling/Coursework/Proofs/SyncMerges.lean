import Coursework.Proofs.Calls

/-! A sync against a store. Whatever tree was stored and whatever the lessons and decks are now, the
tree that is saved is the merge of the two. -/
namespace Coursework

/- What is left of a sync: the old enrollment around the merge of its tree with the lessons and decks
that were read, returned and saved alike. -/
structure SyncMerged (setting : Setting) (user : UserId) (course : CourseId) (b : Backend)
    (lessons : List Lesson) (new : Enrollment) (after : Backend) : Prop where
  found : ∀ l ∈ lessons, ∀ id ∈ l.deckReferences, (setting.handler.answers b).HasDeck id
  merged : ∃ old, b.repository.stored user course = .ok old ∧
    new.state = Merge.course setting.now old.state
      (lessons.map (·.outline (setting.handler.answers b).deckCards)) ∧
    new.id = old.id ∧ new.userId = old.userId ∧ new.courseId = old.courseId ∧
    new.createdAt = old.createdAt
  current : new.currentLessonId = new.state.currentLessonId
  updated : new.updatedAt = setting.now
  saved : setting.handler (.saveProgress new) b = (.ok (),after)
  shown : ∀ found, after.repository.stored user course = .ok found → found.Shows new

/-- A successful sync of any stored tree with any contents is a merge. -/
theorem syncIsMerge {setting : Setting} {user : UserId} {course : CourseId} {b after : Backend}
    {lessons : List Lesson} {new : Enrollment}
    (listed : setting.handler.answers b (.listLessons course .ascending) = .ok lessons)
    (distinct : (lessons.map (·.id)).Nodup)
    (ok : (sync setting.now user course).run setting.handler b = (.ok new,after)) :
    SyncMerged setting user course b lessons new after := by
  have apart : (setting.handler.answers b).ListsApart course := by
    intro others found
    cases Except.ok.inj (listed.symm.trans found)
    exact distinct
  obtain ⟨live,ran⟩ := syncOk ok
  have served := syncServed setting.transactional apart ran
  cases Except.ok.inj (listed.symm.trans served.listed)
  obtain ⟨old,loaded,rfl⟩ := served.merged
  have stored := Setting.loads loaded
  obtain ⟨ownUser,ownCourse⟩ := Repository.storedBelongs stored
  have kept := Setting.saves served.saved
  refine ⟨served.found,⟨old,stored,rfl,rfl,rfl,rfl,rfl⟩,rfl,rfl,served.saved,fun found read => ?_⟩
  refine kept.shown found ?_
  rw [Enrollment.withState,ownUser,ownCourse]
  exact read

namespace Sample

def user : UserId := ⟨.ofNat 1⟩
def course : CourseId := ⟨.ofNat 2⟩
def right : PossibleAnswer := ⟨⟨.ofNat 3⟩,"hello",true⟩
def card : Card := { id := ⟨.ofNat 4⟩, title := "greet", possibleAnswers := [right] }
def deck : Deck := { id := ⟨.ofNat 5⟩, title := "greetings", cards := [card] }
def grown : Deck := { deck with cards := [card,{ id := ⟨.ofNat 6⟩, title := "leave" }] }

def lesson : Lesson :=
  { id := ⟨.ofNat 7⟩, courseId := course, order := 1, title := "hello", description := "",
    body := DeckReference.mark deck.id, createdAt := .ofNanos 0 }

def setting : Setting := { now := .ofNanos 5000000000, exchange := fun _ => none }

def opened : Backend := { repository := .memory { lessons := [lesson], decks := [deck] } }

def enrolling : Request := .enroll (.ofNat 8)
def answering : Request := .answer lesson.id deck.id [⟨card.id,right.id⟩]

def enrolled : Backend := (setting.serve user course opened enrolling).2
def answered : Backend := (setting.serve user course enrolled answering).2
def extended : Backend := (answered.onStore (.upsertDeck grown)).2

theorem outcomeOf {ε α σ : Type} {r : Except ε α × σ} (ok : r.1.isOk = true) :
    ∃ a s, r = (.ok a,s) := by
  obtain ⟨outcome,s⟩ := r
  cases outcome with
  | error e => cases ok
  | ok a => exact ⟨a,s,rfl⟩

end Sample

theorem sampleSyncIsMerge :
    ∃ new after,
      (sync Sample.setting.now Sample.user Sample.course).run Sample.setting.handler
        Sample.extended = (.ok new,after) ∧
      SyncMerged Sample.setting Sample.user Sample.course Sample.extended [Sample.lesson] new
        after := by
  have listed : Sample.setting.handler.answers Sample.extended
      (.listLessons Sample.course .ascending) = .ok [Sample.lesson] := by decide +kernel
  have distinct : ([Sample.lesson].map (·.id)).Nodup := by decide
  obtain ⟨new,after,ran⟩ := Sample.outcomeOf
    (r := (sync Sample.setting.now Sample.user Sample.course).run Sample.setting.handler
      Sample.extended) (by decide +kernel)
  exact ⟨new,after,ran,syncIsMerge listed distinct ran⟩

end Coursework
