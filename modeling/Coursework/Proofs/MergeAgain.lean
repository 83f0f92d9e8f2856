import Coursework.Proofs.AnswerMerge

/-! Merging the same contents again. A merged tree has exactly the listed keys and no mark that the
contents would clear, so reconciling it changes nothing, and there is nothing left to promote. Answers
keep a tree so. -/
namespace Coursework

namespace Merge

variable {now : Instant}

theorem markedNothing {m : Mark} {reopens done : Bool} (cleared : reopens = true)
    (open_ : done = false) : finished (if reopens then {} else m) done now = {} := by
  rw [cleared,open_]
  rfl

theorem reopensMerged (old : Option DeckProgress) (cards : List CardId) :
    reopensDeck (some (deck now old cards)) cards = cards.isEmpty := by
  have tracked : (cards.any fun id => ((deck now old cards).cards.get? id.key).isNone) = false := by
    rw [List.any_eq_false]
    intro id member
    rw [deckCards,if_pos (List.mem_map.mpr ⟨id,member,rfl⟩)]
    exact Bool.false_ne_true
  rw [reopensDeck,Option.isNone_some,Bool.false_or]
  simp only [Option.bind_some,tracked,Bool.or_false]

theorem emptyDeckMark (now : Instant) (old : Option DeckProgress) : (deck now old []).mark = {} := by
  have reopens : reopensDeck old [] = true := by simp [reopensDeck]
  rw [deckMarkFinished,deckMark]
  exact markedNothing reopens rfl

theorem deckMarkMerged (old : Option DeckProgress) (cards : List CardId) :
    deckMark (some (deck now old cards)) cards = (deck now old cards).mark := by
  rw [deckMark,reopensMerged]
  cases cards with
  | nil => exact (emptyDeckMark now old).symm
  | cons c rest => rfl

theorem deckReconciledAgain (old : Option DeckProgress) (cards : List CardId) :
    (deck now old cards).reconcileCards (cards.map Id.key) = deck now old cards := by
  have mark := @reconciledMark (some (deck now old cards)) cards
  refine DeckProgress.sameDeck (fun key => ?_) (mark.trans (deckMarkMerged old cards))
  rw [DeckProgress.cardsReconciled,deckCards]
  split <;> rfl

section Lesson

variable {old : Option LessonProgress} {decks : List (DeckId × List CardId)}

theorem mergedOldDeck (distinct : (decks.map fun p => p.1.key).Nodup) {p : DeckId × List CardId}
    (member : p ∈ decks) :
    oldDeck (some (lesson now old decks)) p.1 = some (deck now (oldDeck old p.1) p.2) :=
  lessonDeck distinct member

theorem lessonMarkMerged (distinct : (decks.map fun p => p.1.key).Nodup) :
    lessonMark (some (lesson now old decks)) decks = (lesson now old decks).mark := by
  cases reopens : reopensLesson (some (lesson now old decks)) decks with
  | false =>
    rw [lessonMark,reopens]
    rfl
  | true =>
    rw [lessonMark,reopens,lessonMarkFinished,lessonMark]
    simp only [reopensLesson,Option.isNone_some,Bool.false_or,Bool.or_eq_true,
      List.any_eq_true] at reopens
    refine (markedNothing ?_ ?_).symm
    · rcases reopens with none | ⟨p,member,again⟩
      · simp [reopensLesson,none]
      · rw [mergedOldDeck distinct member,reopensMerged] at again
        simp only [reopensLesson,Bool.or_eq_true,List.any_eq_true]
        exact .inr ⟨p,member,by simp [reopensDeck,again]⟩
    · rcases reopens with none | ⟨p,member,again⟩
      · simp [lessonDone,none]
      · rw [mergedOldDeck distinct member,reopensMerged,List.isEmpty_iff] at again
        have open_ : (deck now (oldDeck old p.1) p.2).isCompleted = false := by
          rw [again]
          exact congrArg Mark.isCompleted (emptyDeckMark now (oldDeck old p.1))
        rw [lessonDone,Bool.and_eq_false_iff,List.all_eq_false]
        exact .inr ⟨p,member,by simp [open_]⟩

theorem lessonReconciledAgain (distinct : (decks.map fun p => p.1.key).Nodup) :
    Reconciled (some (lesson now old decks)) decks (lesson now old decks) := by
  refine ⟨fun p member => ?_,fun key other => lessonOtherDeck other,(lessonMarkMerged distinct).symm⟩
  rw [mergedOldDeck distinct member,lessonDeck distinct member,Option.getD_some,
    deckReconciledAgain]

theorem reconciledUnique {l other : LessonProgress} (first : Reconciled old decks l)
    (second : Reconciled old decks other) : l = other := by
  refine LessonProgress.sameLesson (fun key => ?_) (first.mark.trans second.mark.symm)
  by_cases inside : key ∈ decks.map fun p => p.1.key
  · obtain ⟨p,member,rfl⟩ := List.mem_map.mp inside
    rw [first.tracked p member,second.tracked p member]
  · rw [first.others key inside,second.others key inside]

end Lesson

/- The lessons of a tree are a merge of the contents, into whatever tree and at whatever instant. -/
def Merged (outline : List LessonOutline) (p : CourseProgress) : Prop :=
  ∃ now old, p.lessons = (course now old outline).lessons

section Course

variable {outline : List LessonOutline} {p state after : CourseProgress}

theorem Merged.settled (merged : Merged outline p) (apart : Apart outline) : p.Settled := by
  obtain ⟨earlier,old,same⟩ := merged
  intro key l found
  rw [same] at found
  exact courseSettled old apart key l found

theorem retainedUnchanged (merged : Merged outline p) (apart : Apart outline)
    (reconciled : LessonsReconciled p outline state) :
    (state.retainLessons (outline.map fun l => l.id.key)).lessons = p.lessons := by
  obtain ⟨earlier,old,same⟩ := merged
  refine KeyMap.ext fun key => ?_
  rw [CourseProgress.retainLessons,CourseProgress.lessonDiff,KeyMap.getRetained]
  by_cases inside : key ∈ outline.map fun l => l.id.key
  · obtain ⟨l,member,rfl⟩ := List.mem_map.mp inside
    obtain ⟨progress,found,ready⟩ := reconciled l member
    have tracked : p.lesson? l.id.key = some (courseLesson earlier old l) := by
      rw [CourseProgress.lesson?,same]
      exact courseLessonAt earlier old apart.lessons member
    rw [tracked] at ready
    cases reconciledUnique ready (lessonReconciledAgain (apart.decks l member))
    rw [if_pos inside]
    exact found.trans tracked.symm
  · rw [if_neg inside,same]
    exact (courseOtherLesson earlier old inside).symm

theorem mergedReconciled (merged : Merged outline p) (apart : Apart outline) :
    LessonsReconciled p outline p := by
  obtain ⟨earlier,old,same⟩ := merged
  intro l member
  have tracked : p.lesson? l.id.key = some (courseLesson earlier old l) := by
    rw [CourseProgress.lesson?,same]
    exact courseLessonAt earlier old apart.lessons member
  refine ⟨_,tracked,?_⟩
  rw [tracked]
  exact lessonReconciledAgain (apart.decks l member)

theorem lessonsAgain (merged : Merged outline p) (apart : Apart outline) (later : Instant) :
    (course later p outline).lessons = p.lessons := by
  have reconciled := mergedReconciled merged apart
  have retained := retainedUnchanged merged apart reconciled
  have settled : (p.retainLessons (outline.map fun l => l.id.key)).Settled := by
    intro key l found
    rw [retained] at found
    exact merged.settled apart key l found
  rw [← rolledLessons later apart.lessons apart.decks reconciled,rolled,
    CourseProgress.rollUpSettled settled later,retained]

theorem mergeAgain (now later : Instant) (old : CourseProgress) (apart : Apart outline) :
    course later (course now old outline) outline = course now old outline := by
  have lessons := lessonsAgain ⟨now,old,rfl⟩ apart later
  have same : ∀ l ∈ outline,
      courseLesson later (course now old outline) l = courseLesson now old l := by
    intro l member
    have again := courseLessonAt later (course now old outline) apart.lessons member
    rw [CourseProgress.lesson?,lessons] at again
    exact Option.some.inj (again.symm.trans (courseLessonAt now old apart.lessons member))
  have current : current later (course now old outline) outline = current now old outline := by
    have open_ : (outline.find? fun l =>
          !(courseLesson later (course now old outline) l).isCompleted) =
        outline.find? fun l => !(courseLesson now old l).isCompleted :=
      List.find?_congr fun l member => by rw [same l member]
    rw [Merge.current,Merge.current,open_]
  exact congrArg₂ CourseProgress.mk lessons current

theorem answersKeepMerged {lesson deck : String} {key : AnswerKey} {answers : List CardAnswer}
    {results : List CardAnswerResult} (apart : Apart outline) (merged : Merged outline p)
    (ok : p.answerCards lesson deck key now answers = .ok (after,results)) :
    Merged outline after := by
  induction answers generalizing p results with
  | nil =>
    cases Except.ok.inj ok
    exact merged
  | cons a answers ih =>
    obtain ⟨middle,effect,rest,first,later,rfl⟩ := CourseProgress.answerCardsCons ok
    have same := (lessonsAgain merged apart now).symm
    obtain ⟨lessons,_⟩ := courseCommutes apart (merged.settled apart) same first first
    exact ih ⟨now,middle,lessons⟩ later

end Course

end Merge

end Coursework
