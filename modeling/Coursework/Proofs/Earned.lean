import Coursework.Proofs.Runs
import Mathlib.Data.List.Forall2

/-! What a learner is shown against what the learner did. A lesson is shown as complete when each of
its cards, where it stands now, was answered correctly since it came to stand there. -/
namespace Coursework

namespace Merge

variable {now : Instant} {old : CourseProgress} {outline : List LessonOutline}

theorem deckCompleteIff {was : Option DeckProgress} {cards : List CardId}
    (consistent : ∀ d, was = some d → d.Consistent) :
    (deck now was cards).isCompleted = true ↔
      cards ≠ [] ∧ ∀ c ∈ cards, (card was c).isCompleted = true := by
  have same : (deck now was cards).isCompleted = deckDone was cards :=
    finishedDone now (deckMarkSound consistent)
  rw [same,deckDone,Bool.and_eq_true,Bool.not_eq_true',List.all_eq_true,List.isEmpty_eq_false_iff]

theorem lessonCompleteIff {was : Option LessonProgress} {decks : List (DeckId × List CardId)}
    (consistent : ∀ l, was = some l → l.Consistent) :
    (lesson now was decks).isCompleted = true ↔
      decks ≠ [] ∧ ∀ p ∈ decks, p.2 ≠ [] ∧
        ∀ c ∈ p.2, (card (oldDeck was p.1) c).isCompleted = true := by
  have same : (lesson now was decks).isCompleted = lessonDone now was decks :=
    finishedDone now (lessonMarkSound consistent)
  rw [same,lessonDone,Bool.and_eq_true,Bool.not_eq_true',List.all_eq_true,
    List.isEmpty_eq_false_iff]
  refine and_congr_right fun _ => forall_congr' fun p => imp_congr_right fun _ => ?_
  exact deckCompleteIff (oldDeckConsistent consistent p.1)

theorem reportedIff (now : Instant) (consistent : old.Consistent) (apart : Apart outline)
    {o : LessonOutline} (member : o ∈ outline) :
    (course now old outline).isLessonCompleted o.id.key = true ↔
      o.decks ≠ [] ∧ ∀ p ∈ o.decks, p.2 ≠ [] ∧ ∀ c ∈ p.2,
        ((old.at? ⟨o.id.key,p.1.key,c.key⟩).getD {}).isCompleted = true := by
  rw [CourseProgress.completedIff (courseConsistent consistent apart)
    (courseLessonAt now old apart.lessons member)]
  exact lessonCompleteIff fun l tracked => consistent.lessons _ l tracked

end Merge

/- A lesson is earned in the present contents: it refers to a deck, each deck that it refers to has a
card, and there is a correct trial for each card. -/
def Lesson.Earned (answers : Answers) (trials : CardPath → List Trial) (l : Lesson) : Prop :=
  l.deckReferences ≠ [] ∧ ∀ id ∈ l.deckReferences, ∃ deck, answers (.getDeck id) = .ok deck ∧
    deck.cards ≠ [] ∧ ∀ c ∈ deck.cards, ∃ t ∈ trials ⟨l.id.key,id.key,c.id.key⟩, t.correct = true

theorem Lesson.earnedIff {answers : Answers} {trials : CardPath → List Trial} {l : Lesson}
    {complete : CardPath → Prop} (found : ∀ id ∈ l.deckReferences, answers.HasDeck id)
    (trial : ∀ path, complete path ↔ ∃ t ∈ trials path, t.correct = true) :
    ((l.outline answers.deckCards).decks ≠ [] ∧ ∀ p ∈ (l.outline answers.deckCards).decks,
      p.2 ≠ [] ∧ ∀ c ∈ p.2, complete ⟨l.id.key,p.1.key,c.key⟩) ↔ l.Earned answers trials := by
  simp only [outline,Earned,ne_eq,List.map_eq_nil_iff,List.forall_mem_map]
  refine and_congr_right fun _ => forall_congr' fun id => imp_congr_right fun referred => ?_
  obtain ⟨deck,here⟩ := found id referred
  rw [Answers.deckCardsFound here]
  constructor
  · rintro ⟨nonempty,all⟩
    refine ⟨deck,here,by simpa using nonempty,fun c inside => ?_⟩
    exact (trial _).mp (all c.id (List.mem_map.mpr ⟨c,inside,rfl⟩))
  · rintro ⟨other,same,nonempty,all⟩
    cases Except.ok.inj (here.symm.trans same)
    refine ⟨by simpa using nonempty,fun card listed => ?_⟩
    obtain ⟨c,inside,rfl⟩ := List.mem_map.mp listed
    exact (trial _).mpr (all c inside)

structure LessonWithProgress.Tells (answers : Answers) (trials : CardPath → List Trial)
    (bodyless : Bool) (l : Lesson) (item : LessonWithProgress) : Prop where
  lesson : item.lesson = if bodyless then l.withoutBody else l
  earned : item.isCompleted = true ↔ l.Earned answers trials

structure LessonListing.Tells (answers : Answers) (course : CourseId)
    (trials : CardPath → List Trial) (bodyless : Bool) (listing : LessonListing) : Prop where
  lessons : ∃ lessons shown, answers (.listLessons course .ascending) = .ok lessons ∧
    listing = .withProgress shown ∧
    List.Forall₂ (LessonWithProgress.Tells answers trials bodyless) lessons shown

variable {user : UserId} {course : CourseId} {b after : Backend} {records : List Record}

theorem completeIffTrial {r : Record} {e : Enrollment} (path : CardPath)
    (known : Accounted user course records r.before)
    (stored : r.before.repository.stored user course = .ok e) (none : r.graded path = []) :
    ((e.state.at? path).getD {}).isCompleted = true ↔
      ∃ t ∈ submissions user course path (r :: records), t.correct = true := by
  cases held : e.state.at? path with
  | none =>
    have fresh : r.tracks user course path = false := by
      rw [tracksLoaded stored,held]
      rfl
    rw [submissionsFresh records fresh]
    constructor
    · intro done
      cases done
    · rintro ⟨t,member,_⟩
      cases member
  | some c =>
    have tracked : r.tracks user course path = true := by
      rw [tracksLoaded stored,held]
      rfl
    have same := known.replayed e stored path c held
    rw [submissionsTracked records tracked,none,List.append_nil,Option.getD_some,same,
      CardProgress.completedReplayed,Bool.or_eq_true,List.any_eq_true]
    constructor
    · rintro (fresh | found)
      · cases fresh
      · exact found
    · exact .inr

/-- Browsing shows the lessons as they are listed, each as complete exactly when it is earned. -/
theorem shownIsEarned {setting : Setting} {bodyless : Bool} {listing : LessonListing}
    (run : Run user course records b)
    (served : setting.serve user course b (.browse bodyless) = (.browsed (.ok listing),after)) :
    listing.Tells (setting.handler.answers b) course
      (fun path => submissions user course path
        (⟨b,setting,.browse bodyless,.browsed (.ok listing)⟩ :: records)) bodyless := by
  have known := accounted run
  have apart : (setting.handler.answers b).ListsApart course := Setting.listsApart known.apart
  have ran : (browse setting.now course { user := some user, bodyless }).run setting.handler b =
      (.ok listing,after) := by
    cases ran : (browse setting.now course { user := some user, bodyless }).run setting.handler b with
    | mk result reached =>
      rw [Setting.serve,ran] at served
      cases served
      rfl
  have trial (path : CardPath) {old : Enrollment}
      (stored : b.repository.stored user course = .ok old) := completeIffTrial
    (r := ⟨b,setting,.browse bodyless,.browsed (.ok listing)⟩) path known stored rfl
  obtain ⟨new,lessons,synced,rfl⟩ := browseOk rfl ran
  have done := syncServed setting.transactional apart synced
  obtain ⟨old,loaded,rfl⟩ := done.merged
  have stored := Setting.loads loaded
  have consistent := (known.consistent old stored).state
  have outlined := outlinesApart (setting.handler.answers b).deckCards (apart lessons done.listed)
  refine ⟨lessons,_,done.listed,rfl,?_⟩
  rw [List.forall₂_map_right_iff,List.forall₂_same]
  intro l member
  refine ⟨rfl,?_⟩
  have reported := Merge.reportedIff setting.now consistent outlined
    (List.mem_map.mpr ⟨l,member,rfl⟩)
  exact reported.trans (Lesson.earnedIff (done.found l member) fun path => trial path stored)

theorem sampleShownIsEarned :
    ∃ listing after, Sample.setting.serve Sample.user Sample.course Sample.answered (.browse true) =
        (.browsed (.ok listing),after) ∧
      listing.Tells (Sample.setting.handler.answers Sample.answered) Sample.course
        (fun path => submissions Sample.user Sample.course path
          (⟨Sample.answered,Sample.setting,.browse true,.browsed (.ok listing)⟩ :: Sample.records))
        true := by
  obtain ⟨listing,after,ran⟩ := Sample.outcomeOf
    (r := (browse Sample.setting.now Sample.course { user := some Sample.user, bodyless := true }).run
      Sample.setting.handler Sample.answered) (by decide +kernel)
  have served : Sample.setting.serve Sample.user Sample.course Sample.answered (.browse true) =
      (.browsed (.ok listing),after) := by
    rw [Setting.serve,ran]
    rfl
  exact ⟨listing,after,served,shownIsEarned Sample.ran served⟩

end Coursework
