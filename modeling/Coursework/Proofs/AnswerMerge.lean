import Coursework.Proofs.Settled

/-! Answers and merges of a settled tree at one instant. A batch recorded before a merge, and the
same batch recorded after it, leave the same lessons, whatever the merge adds, drops and reopens. -/
namespace Coursework

/- A parent that an answer may finish and a merge may reopen. What is finished before the merge only
counts if the parent is kept, and then it is finished by the last one as well. -/
theorem Merge.finishedCommutes (m : Mark) {reopens before between last : Bool} (now : Instant)
    (kept : reopens = false → before = true → last = true)
    (stays : between = true → last = true) :
    finished (if reopens then {} else finished m before now) last now =
      finished (finished (if reopens then {} else m) between now) last now := by
  have after : (between || last) = last := by
    cases between with
    | false => rfl
    | true => rw [stays rfl,Bool.or_self]
  rw [finishedTwice,after]
  cases reopens with
  | true => rfl
  | false =>
    have before_ : (before || last) = last := by
      cases before with
      | false => rfl
      | true => rw [kept rfl rfl,Bool.or_self]
    exact (finishedTwice m before last now).trans (by rw [before_]; rfl)

namespace DeckProgress

variable {d : DeckProgress} {card : String} {c : CardProgress} {correct : Bool} {now : Instant}

theorem doneCongr {a b : DeckProgress} (same : a.cards = b.cards) :
    a.allCardsCompleted = b.allCardsCompleted := by
  rw [allCardsCompleted,allCardsCompleted,same]

theorem answeredMark (settled : d.isPromotable = false) (tracked : d.cards.get? card = some c) :
    (d.answered card c correct now).mark =
      Merge.finished d.mark (d.answered card c correct now).allCardsCompleted now := by
  cases completes : c.isCompletedBy correct with
  | true =>
    have promoted : d.answered card c correct now =
        (d.setCard card (c.recordAnswer correct now)).promote now := by
      simp only [answered,completes,if_true]
    rw [promoted,promotedMark,doneCongr (promotedCards _ now)]
    rfl
  | false =>
    have recorded : (d.answered card c correct now).mark = d.mark := by
      simp only [answered,completes,Bool.false_eq_true,if_false]
      rfl
    have flag : (c.recordAnswer correct now).isCompleted = c.isCompleted := by
      rw [CardProgress.recordedCompletion]
      simp only [CardProgress.isCompletedBy] at completes
      cases correct <;> cases was : c.isCompleted <;> simp_all
    have same : (d.answered card c correct now).allCardsCompleted = d.allCardsCompleted := by
      rw [Bool.eq_iff_iff,allCardsCompletedIff,allCardsCompletedIff,answeredCards]
      exact KeyMap.allDoneInsert (·.isCompleted) tracked flag
    rw [same,recorded,markSettled settled now]

theorem answeredStays (tracked : d.cards.get? card = some c) (done : d.allCardsCompleted = true) :
    (d.answered card c correct now).allCardsCompleted = true := by
  rw [allCardsCompletedIff] at done ⊢
  rw [answeredCards]
  refine ⟨⟨card,_,by rw [KeyMap.getInsert,if_pos rfl]⟩,KeyMap.everyInsert done.2 ?_⟩
  rw [CardProgress.recordedCompletion,done.2 card c tracked,Bool.true_or]

theorem answeredKeeps (done : d.isCompleted = true) :
    (d.answered card c correct now).isCompleted = true := by
  unfold answered
  simp only
  split
  · have mark := promotedMark (d.setCard card (c.recordAnswer correct now)) now
    exact (congrArg Mark.isCompleted mark).trans (finishedKeeps done)
  · exact done

end DeckProgress

namespace LessonProgress

def answeredCard (l : LessonProgress) (deck : String) (d : DeckProgress) (card : String)
    (c : CardProgress) (correct : Bool) (now : Instant) : LessonProgress :=
  l.answered deck (d.answered card c correct now) (c.isCompletedBy correct) now

variable {l : LessonProgress} {deck : String} {d : DeckProgress} {card : String} {c : CardProgress}
  {correct : Bool} {now : Instant}

theorem answeredCardDecks (l : LessonProgress) (deck : String) (d : DeckProgress) (card : String)
    (c : CardProgress) (correct : Bool) (now : Instant) :
    (l.answeredCard deck d card c correct now).decks =
      l.decks.insert deck (d.answered card c correct now) :=
  answeredDecks _ _ _ _ _

theorem doneCongr {a b : LessonProgress} (same : a.decks = b.decks) :
    a.allDecksCompleted = b.allDecksCompleted := by
  rw [allDecksCompleted,allDecksCompleted,same]

theorem answeredCardMark (settled : l.isPromotable = false)
    (tracked : l.decks.get? deck = some d) :
    (l.answeredCard deck d card c correct now).mark =
      Merge.finished l.mark (l.answeredCard deck d card c correct now).allDecksCompleted now := by
  cases completes : c.isCompletedBy correct with
  | true =>
    have promoted : l.answeredCard deck d card c correct now =
        (l.setDeck deck (d.answered card c correct now)).promote now := by
      rw [answeredCard,completes]
      rfl
    rw [promoted,promotedMark,doneCongr (promotedDecks _ now)]
    rfl
  | false =>
    have recorded : (l.answeredCard deck d card c correct now).mark = l.mark := by
      rw [answeredCard,completes]
      rfl
    have same : (l.answeredCard deck d card c correct now).allDecksCompleted =
        l.allDecksCompleted := by
      rw [Bool.eq_iff_iff,allDecksCompletedIff,allDecksCompletedIff,answeredCardDecks]
      exact KeyMap.allDoneInsert (·.isCompleted) tracked (DeckProgress.answeredFlag completes)
    rw [same,recorded,markSettled settled now]

theorem answeredCardStays (tracked : l.decks.get? deck = some d)
    (done : l.allDecksCompleted = true) :
    (l.answeredCard deck d card c correct now).allDecksCompleted = true := by
  rw [allDecksCompletedIff] at done ⊢
  rw [answeredCardDecks]
  refine ⟨⟨deck,_,by rw [KeyMap.getInsert,if_pos rfl]⟩,KeyMap.everyInsert done.2 ?_⟩
  exact DeckProgress.answeredKeeps (done.2 deck d tracked)

end LessonProgress

namespace Merge

section Deck

variable {d : DeckProgress} {card : String} {c : CardProgress} {correct : Bool} {now : Instant}
  {cards : List CardId}

theorem mergedCard (tracked : d.cards.get? card = some c) (listed : card ∈ cards.map Id.key) :
    (deck now (some d) cards).cards.get? card = some c := by
  rw [deckCards,if_pos listed,Option.bind_some,tracked,Option.getD_some]

theorem reopensAnswered (tracked : d.cards.get? card = some c) :
    reopensDeck (some (d.answered card c correct now)) cards = reopensDeck (some d) cards := by
  have held : ∀ key, ((d.answered card c correct now).cards.get? key).isNone =
      (d.cards.get? key).isNone := by
    intro key
    rw [DeckProgress.answeredCards,KeyMap.getInsert]
    split
    · rename_i same
      rw [← same,tracked]
      rfl
    · rfl
  simp only [reopensDeck,Option.bind_some,held,Option.isNone_some]

theorem deckCommutes (settled : d.isPromotable = false) (tracked : d.cards.get? card = some c)
    (listed : card ∈ cards.map Id.key) :
    deck now (some (d.answered card c correct now)) cards =
      (deck now (some d) cards).answered card c correct now := by
  have held : (deck now (some d) cards).cards.get? card = some c := mergedCard tracked listed
  have isDone : ∀ old, deckDone old cards = (deck now old cards).allCardsCompleted :=
    fun _ => deckDoneIs
  have sameCards : (deck now (some (d.answered card c correct now)) cards).cards =
      ((deck now (some d) cards).answered card c correct now).cards := by
    refine KeyMap.ext fun key => ?_
    rw [deckCards,DeckProgress.answeredCards,KeyMap.getInsert,deckCards,Option.bind_some,
      DeckProgress.answeredCards,KeyMap.getInsert]
    by_cases here : card = key
    · subst here
      rw [if_pos listed,if_pos rfl,if_pos rfl]
      rfl
    · rw [if_neg here,if_neg here]
      rfl
  have done := DeckProgress.doneCongr sameCards
  have marked : (Option.map DeckProgress.mark (some (d.answered card c correct now))).getD {} =
      finished d.mark (d.answered card c correct now).allCardsCompleted now :=
    DeckProgress.answeredMark settled tracked
  refine DeckProgress.sameDeck (fun key => by rw [sameCards]) ?_
  rw [DeckProgress.answeredMark (deckSettled _ _) held,deckMarkFinished,deckMarkFinished,← done,
    ← isDone,deckMark,deckMark,reopensAnswered tracked,marked]
  refine finishedCommutes d.mark now (fun kept => ?_) fun before => ?_
  · rw [← reopensAnswered tracked] at kept
    exact deckDoneKept kept
  · rw [isDone] at before
    rw [isDone,done]
    exact DeckProgress.answeredStays held before

end Deck

section Lesson

variable {l : LessonProgress} {d : DeckProgress} {card : String} {c : CardProgress} {correct : Bool}
  {now : Instant} {decks : List (DeckId × List CardId)} {p : DeckId × List CardId}

theorem oldDeckAnswered (key : DeckId) (deck : String) :
    oldDeck (some (l.answeredCard deck d card c correct now)) key =
      if deck = key.key then some (d.answered card c correct now) else oldDeck (some l) key := by
  rw [oldDeck,Option.bind_some,LessonProgress.answeredCardDecks,KeyMap.getInsert]
  rfl

theorem reopensLessonAnswered {deck : String} (tracked : l.decks.get? deck = some d)
    (held : d.cards.get? card = some c) :
    reopensLesson (some (l.answeredCard deck d card c correct now)) decks =
      reopensLesson (some l) decks := by
  have same : ∀ q : DeckId × List CardId,
      reopensDeck (oldDeck (some (l.answeredCard deck d card c correct now)) q.1) q.2 =
        reopensDeck (oldDeck (some l) q.1) q.2 := by
    intro q
    rw [oldDeckAnswered]
    split
    · rename_i here
      have old : oldDeck (some l) q.1 = some d := by rw [← tracked,here]; rfl
      rw [old,reopensAnswered held]
    · rfl
  simp only [reopensLesson,same,Option.isNone_some]

theorem lessonCommutes (settled : l.Settled) (tracked : l.decks.get? p.1.key = some d)
    (held : d.cards.get? card = some c) (distinct : (decks.map fun p => p.1.key).Nodup)
    (member : p ∈ decks) (listed : card ∈ p.2.map Id.key) :
    lesson now (some (l.answeredCard p.1.key d card c correct now)) decks =
      (lesson now (some l) decks).answeredCard p.1.key (deck now (some d) p.2) card c correct
        now := by
  have old : oldDeck (some l) p.1 = some d := tracked
  have merged : (lesson now (some l) decks).decks.get? p.1.key = some (deck now (some d) p.2) := by
    rw [lessonDeck distinct member,old]
  have sameDecks : (lesson now (some (l.answeredCard p.1.key d card c correct now)) decks).decks =
      ((lesson now (some l) decks).answeredCard p.1.key (deck now (some d) p.2) card c correct
        now).decks := by
    refine KeyMap.ext fun key => ?_
    rw [LessonProgress.answeredCardDecks,KeyMap.getInsert]
    by_cases here : p.1.key = key
    · subst here
      rw [if_pos rfl,lessonDeck distinct member,oldDeckAnswered,if_pos rfl,
        deckCommutes (settled.decks _ d tracked) held listed]
    · rw [if_neg here]
      by_cases inside : key ∈ decks.map fun p => p.1.key
      · obtain ⟨q,other,rfl⟩ := List.mem_map.mp inside
        rw [lessonDeck distinct other,lessonDeck distinct other,oldDeckAnswered,if_neg here]
      · rw [lessonOtherDeck inside,lessonOtherDeck inside]
  have done := LessonProgress.doneCongr sameDecks
  have marked : (Option.map LessonProgress.mark
      (some (l.answeredCard p.1.key d card c correct now))).getD {} =
      finished l.mark (l.answeredCard p.1.key d card c correct now).allDecksCompleted now :=
    LessonProgress.answeredCardMark settled.own tracked
  refine LessonProgress.sameLesson (fun key => by rw [sameDecks]) ?_
  rw [LessonProgress.answeredCardMark (lessonSettled _ distinct).own merged,lessonMarkFinished,
    lessonMarkFinished,← done,← lessonDoneIs distinct,lessonMark,lessonMark,
    reopensLessonAnswered tracked held,marked]
  refine finishedCommutes l.mark now (fun kept => ?_) fun before => ?_
  · rw [← reopensLessonAnswered tracked held] at kept
    exact lessonDoneKept kept
  · rw [lessonDoneIs distinct] at before
    rw [lessonDoneIs distinct,done]
    exact LessonProgress.answeredCardStays merged before

end Lesson

section Course

variable {p q after reached : CourseProgress} {outline : List LessonOutline} {now : Instant}

theorem courseCongr (now : Instant) (same : p.lessons = q.lessons) :
    course now p outline = course now q outline := by
  have lessons : p.lesson? = q.lesson? := by
    funext key
    rw [CourseProgress.lesson?,same,CourseProgress.lesson?]
  simp only [course,current,courseLesson,lessons]

theorem cardCompletedIs {lesson deck card : String} {correct : Bool} {effect : AnswerEffect}
    {l : LessonProgress} {d : DeckProgress} {c : CardProgress}
    (lessonFound : p.lesson? lesson = some l) (deckFound : l.decks.get? deck = some d)
    (cardFound : d.cards.get? card = some c)
    (ok : p.answerCard lesson deck card correct now = .ok (after,effect)) :
    effect.cardCompleted = (c.recordAnswer correct now).isCompleted := by
  rw [CourseProgress.lesson?] at lessonFound
  simp only [CourseProgress.answerCard,lessonFound,deckFound,cardFound] at ok
  cases Except.ok.inj ok
  rfl

theorem courseCommutes {lesson deck card : String} {correct : Bool} {effect other : AnswerEffect}
    (apart : Apart outline) (settled : p.Settled)
    (same : q.lessons = (course now p outline).lessons)
    (first : p.answerCard lesson deck card correct now = .ok (after,effect))
    (second : q.answerCard lesson deck card correct now = .ok (reached,other)) :
    reached.lessons = (course now after outline).lessons ∧
      other.cardCompleted = effect.cardCompleted := by
  obtain ⟨l,d,c,lessonFound,deckFound,cardFound,afterIs⟩ := CourseProgress.answerCardOk first
  obtain ⟨l',d',c',lessonHeld,deckHeld,cardHeld,reachedIs⟩ := CourseProgress.answerCardOk second
  have merged : (course now p outline).lesson? lesson = some l' := by
    rw [← lessonHeld,CourseProgress.lesson?,CourseProgress.lesson?,same]
  obtain ⟨o,member,rfl,lessonIs⟩ := mergedLesson apart.lessons merged
  rw [courseLesson,lessonFound] at lessonIs
  cases lessonIs
  have distinct := apart.decks o member
  obtain ⟨pr,listed,rfl,deckIs⟩ := mergedDeck distinct deckHeld
  have old : oldDeck (some l) pr.1 = some d := deckFound
  rw [old] at deckIs
  cases deckIs
  have inside : card ∈ pr.2.map Id.key := by
    rw [deckCards] at cardHeld
    split at cardHeld
    · assumption
    · cases cardHeld
  cases Option.some.inj ((mergedCard cardFound inside).symm.trans cardHeld)
  have commutes : lesson now (some (l.answeredCard pr.1.key d card c correct now)) o.decks =
      (lesson now (some l) o.decks).answeredCard pr.1.key (deck now (some d) pr.2) card c correct
        now :=
    lessonCommutes (settled _ l lessonFound) deckFound cardFound distinct listed inside
  constructor
  · refine KeyMap.ext fun key => ?_
    have answered : ∀ other, after.lesson? other =
        if o.id.key = other then some (l.answeredCard pr.1.key d card c correct now)
        else p.lesson? other := by
      intro other
      rw [afterIs]
      exact KeyMap.getInsert _ _ _ _
    rw [reachedIs,CourseProgress.setLesson,KeyMap.getInsert,same]
    by_cases here : o.id.key = key
    · subst here
      have at? := courseLessonAt now after apart.lessons member
      rw [courseLesson,answered,if_pos rfl,commutes] at at?
      rw [if_pos rfl]
      exact at?.symm
    · rw [if_neg here]
      by_cases listed : key ∈ outline.map fun l => l.id.key
      · obtain ⟨other,inside,rfl⟩ := List.mem_map.mp listed
        have at? := courseLessonAt now after apart.lessons inside
        rw [courseLesson,answered,if_neg here] at at?
        exact (courseLessonAt now p apart.lessons inside).trans at?.symm
      · exact (courseOtherLesson now p listed).trans (courseOtherLesson now after listed).symm
  · rw [cardCompletedIs lessonFound deckFound cardFound first,
      cardCompletedIs lessonHeld deckHeld cardHeld second]

theorem batchCommutes {lesson deck : String} {key : AnswerKey} {answers : List CardAnswer}
    {results others : List CardAnswerResult} (apart : Apart outline) (consistent : p.Consistent)
    (same : q.lessons = (course now p outline).lessons)
    (first : p.answerCards lesson deck key now answers = .ok (after,results))
    (second : q.answerCards lesson deck key now answers = .ok (reached,others)) :
    reached.lessons = (course now after outline).lessons ∧ others = results := by
  induction answers generalizing p q results others with
  | nil =>
    cases Except.ok.inj first
    cases Except.ok.inj second
    exact ⟨same,rfl⟩
  | cons a answers ih =>
    obtain ⟨middle,effect,rest,firstCard,firstRest,rfl⟩ := CourseProgress.answerCardsCons first
    obtain ⟨middle',effect',rest',secondCard,secondRest,rfl⟩ :=
      CourseProgress.answerCardsCons second
    obtain ⟨lessons,completed⟩ :=
      courseCommutes apart consistent.settled same firstCard secondCard
    obtain ⟨lessons,rfl⟩ := ih (CourseProgress.answerCardConsistent consistent firstCard) lessons
      firstRest secondRest
    rw [completed]
    exact ⟨lessons,rfl⟩

end Course

end Merge

end Coursework
