import Coursework.Proofs.Batch
import Coursework.Proofs.Catalogs

/-! How answers are put into batches does not matter, and neither does their order. A batch can be
given in two parts, and the answers of a batch in any order: what is stored in the end is the same,
although cards, decks and lessons are completed and saved at other moments. -/
namespace Coursework

namespace CourseProgress

variable {p q middle after : CourseProgress} {lesson deck : String} {now : Instant}
  {key : AnswerKey} {a : CardAnswer} {answers xs ys : List CardAnswer}
  {results : List CardAnswerResult}

theorem answerCardsStep {effect : AnswerEffect}
    (first : p.answerCard lesson deck a.cardId.key (key.grade a.cardId a.answerId) now =
      .ok (middle,effect))
    (later : middle.answerCards lesson deck key now answers = .ok (after,results)) :
    p.answerCards lesson deck key now (a :: answers) =
      .ok (after,⟨a.cardId,key.grade a.cardId a.answerId,effect.cardCompleted⟩ :: results) :=
  exceptBindOk.mpr ⟨_,first,exceptBindOk.mpr ⟨_,later,rfl⟩⟩

theorem answerCardsAppend
    (ok : p.answerCards lesson deck key now (xs ++ ys) = .ok (after,results)) :
    ∃ middle first second, p.answerCards lesson deck key now xs = .ok (middle,first) ∧
      middle.answerCards lesson deck key now ys = .ok (after,second) ∧
      results = first ++ second := by
  induction xs generalizing p results with
  | nil => exact ⟨p,[],results,rfl,ok,rfl⟩
  | cons x xs ih =>
    obtain ⟨next,effect,rest,one,others,rfl⟩ := answerCardsCons ok
    obtain ⟨middle,first,second,front,back,rfl⟩ := ih others
    exact ⟨middle,_,second,answerCardsStep one front,back,rfl⟩

theorem answerCardsAlike {other : AnswerKey}
    (same : ∀ a ∈ answers, other.grade a.cardId a.answerId = key.grade a.cardId a.answerId) :
    p.answerCards lesson deck other now answers = p.answerCards lesson deck key now answers := by
  induction answers generalizing p with
  | nil => rfl
  | cons a answers ih =>
    obtain ⟨here,rest⟩ := List.forall_mem_cons.mp same
    simp only [answerCards,here,ih rest]

theorem answerCardFrom {card : String} {correct : Bool} {effect : AnswerEffect}
    (same : q.lessons = p.lessons)
    (ok : p.answerCard lesson deck card correct now = .ok (after,effect)) :
    ∃ other, q.answerCard lesson deck card correct now = .ok (other,effect) ∧
      other.lessons = after.lessons := by
  obtain ⟨l,d,c,held,inside,tracked,_⟩ := answerCardOk ok
  cases ok.symm.trans (answerCardIs held inside tracked correct now)
  have too : q.lesson? lesson = some l := (congrFun (lessonAlike same) lesson).trans held
  refine ⟨_,answerCardIs too inside tracked correct now,?_⟩
  rw [setLesson,same]
  rfl

theorem answerCardsFrom (same : q.lessons = p.lessons)
    (ok : p.answerCards lesson deck key now answers = .ok (after,results)) :
    ∃ other, q.answerCards lesson deck key now answers = .ok (other,results) ∧
      other.lessons = after.lessons := by
  induction answers generalizing p q results with
  | nil =>
    cases Except.ok.inj ok
    exact ⟨q,rfl,same⟩
  | cons a answers ih =>
    obtain ⟨middle,effect,rest,first,others,rfl⟩ := answerCardsCons ok
    obtain ⟨next,firstToo,sameNext⟩ := answerCardFrom same first
    obtain ⟨other,othersToo,sameAfter⟩ := ih sameNext others
    exact ⟨other,answerCardsStep firstToo othersToo,sameAfter⟩

theorem trackedAnswered {card : String} {correct : Bool} {effect : AnswerEffect}
    (ok : p.answerCard lesson deck card correct now = .ok (after,effect)) (other : String) :
    (after.card? lesson deck other).isSome = (p.card? lesson deck other).isSome := by
  have answered := atAnswered ok ⟨lesson,deck,other⟩
  rw [at?,at?] at answered
  rw [answered]
  split
  · exact Option.isSome_map
  · rfl

theorem answersTracked (ok : p.answerCards lesson deck key now answers = .ok (after,results)) :
    ∀ a ∈ answers, (p.card? lesson deck a.cardId.key).isSome = true := by
  induction answers generalizing p results with
  | nil => exact fun _ member => nomatch member
  | cons a answers ih =>
    obtain ⟨middle,effect,rest,first,others,rfl⟩ := answerCardsCons ok
    obtain ⟨c,found,_⟩ := cardAnswered first
    refine List.forall_mem_cons.mpr ⟨Option.isSome_iff_exists.mpr ⟨c,found⟩,fun b member => ?_⟩
    rw [← trackedAnswered first]
    exact ih others b member

theorem answersRecorded (key : AnswerKey) (now : Instant)
    (tracked : ∀ a ∈ answers, (p.card? lesson deck a.cardId.key).isSome = true) :
    ∃ after results, p.answerCards lesson deck key now answers = .ok (after,results) := by
  induction answers generalizing p with
  | nil => exact ⟨p,[],rfl⟩
  | cons a answers ih =>
    obtain ⟨here,rest⟩ := List.forall_mem_cons.mp tracked
    obtain ⟨c,found⟩ := Option.isSome_iff_exists.mp here
    obtain ⟨d,inLesson,held⟩ := Option.bind_eq_some_iff.mp found
    obtain ⟨l,inCourse,inside⟩ := Option.bind_eq_some_iff.mp inLesson
    have first := answerCardIs inCourse inside held (key.grade a.cardId a.answerId) now
    obtain ⟨after,results,others⟩ := ih fun b member =>
      (trackedAnswered first b.cardId.key).trans (rest b member)
    exact ⟨after,_,answerCardsStep first others⟩

theorem tallyOf (results : List CardAnswerResult) :
    tally results = fun card correct => (results.map fun r => (r.cardId,r.correct)).countP
      fun g => g.1.key == card && g.2 == correct := by
  funext card correct
  rw [tally,List.countP_map]
  rfl

theorem Tallied.lessonStays {count : String → Bool → Nat}
    (tallied : p.Tallied now lesson deck count after)
    (complete : p.isLessonCompleted lesson = true) : after.isLessonCompleted lesson = true := by
  obtain ⟨l,l',held,kept,d,d',inside⟩ := tallied.inside
  rw [isLessonCompleted,held,Option.any_some,Bool.or_eq_true] at complete
  rw [isLessonCompleted,kept,Option.any_some,Bool.or_eq_true]
  rcases complete with marked | full
  · exact .inl (inside.mark.stays marked)
  · have all := (LessonProgress.allDecksCompletedIff.mp full).2
    exact .inr (LessonProgress.allDecksCompletedIff.mpr ⟨⟨deck,d',inside.kept⟩,inside.allStay all⟩)

theorem requiredIff : p.requireDeck lesson deck = .ok () ↔ (p.deck? lesson deck).isSome = true := by
  unfold requireDeck deck?
  cases p.lesson? lesson with
  | none => simp
  | some l => cases found : l.decks.get? deck <;> simp [found]

theorem Tallied.required {count : String → Bool → Nat}
    (tallied : p.Tallied now lesson deck count after) : after.requireDeck lesson deck = .ok () := by
  obtain ⟨l,l',_,kept,d,d',inside⟩ := tallied.inside
  rw [requiredIff,deck?,kept,Option.bind_some,inside.kept]
  rfl

theorem sameTree (lessons : p.lessons = q.lessons)
    (current : p.currentLessonId = q.currentLessonId) : p = q := by
  cases p
  cases q
  cases lessons
  cases current
  rfl

theorem resumedInTwo {count : String → Bool → Nat} {lesson : LessonId}
    (tallied : middle.Tallied now lesson.key deck count after)
    (lessons : q.lessons = after.lessons)
    (current : q.currentLessonId = (middle.resumeAt lesson).currentLessonId)
    (still : after.currentLessonId = middle.currentLessonId) :
    q.resumeAt lesson = after.resumeAt lesson := by
  have told : q.isLessonCompleted lesson.key = after.isLessonCompleted lesson.key := by
    rw [isLessonCompleted,lessonAlike lessons,isLessonCompleted]
  have same : (q.resumeAt lesson).currentLessonId = (after.resumeAt lesson).currentLessonId := by
    rw [currentResumed,currentResumed,told,current,currentResumed,still]
    cases early : middle.isLessonCompleted lesson.key with
    | false => rfl
    | true =>
      rw [tallied.lessonStays early]
      rfl
  exact sameTree ((q.resumedLessons lesson).trans (lessons.trans (after.resumedLessons lesson).symm))
    same

theorem answerCardsPerm (perm : ys.Perm xs)
    (ok : p.answerCards lesson deck key now xs = .ok (after,results)) :
    ∃ permuted, p.answerCards lesson deck key now ys = .ok (after,permuted) := by
  by_cases none : xs = []
  · subst none
    cases perm.eq_nil
    exact ⟨results,ok⟩
  · have given : ys ≠ [] := fun empty => none (List.Perm.eq_nil (empty ▸ perm.symm))
    obtain ⟨other,permuted,recorded⟩ := answersRecorded key now fun a member =>
      answersTracked ok a (perm.mem_iff.mp member)
    have counts : tally permuted = tally results := by
      rw [tallyOf,tallyOf,gradesOfBatch recorded,gradesOfBatch ok]
      funext card correct
      exact (perm.map _).countP_eq _
    have one := answerCardsTally given recorded
    rw [counts] at one
    have lessons := one.unique (answerCardsTally none ok)
    have current := (currentAnswered recorded).trans (currentAnswered ok).symm
    cases sameTree lessons current
    exact ⟨permuted,recorded⟩

end CourseProgress

namespace Setting

variable {setting : Setting} {b middle : Backend} {user : UserId} {course : CourseId}
  {old first e : Enrollment}

theorem loadsAgain (loaded : setting.handler.answers b (.getProgress user course) = .ok old)
    (stored : middle.repository.stored user course = .ok e) :
    setting.handler.answers middle (.getProgress user course) = .ok e := by
  rw [progressAnswered] at loaded ⊢
  cases fault : setting.faults.getProgress with
  | some why =>
    rw [fault] at loaded
    cases loaded
  | none => exact stored

theorem savesToo (stored : b.repository.stored user course = .ok old)
    (ok : (setting.handler (.saveProgress e) b).1 = .ok ()) (user_ : e.userId = user)
    (course_ : e.courseId = course) (firstUser : first.userId = user)
    (firstCourse : first.courseId = course) :
    ∃ reached, setting.handler (.saveProgress first) b = (.ok (),reached) := by
  subst user_ course_
  have one := setting.saveAnswered e stored
  have other := setting.saveAnswered first (firstUser.symm ▸ firstCourse.symm ▸ stored)
  exact ⟨_,Prod.ext (other.trans (one.symm.trans ok)) rfl⟩

theorem savedOver (e : Enrollment) (ok : setting.handler (.saveProgress first) b = (.ok (),middle))
    (user : first.userId = e.userId) (course : first.courseId = e.courseId) :
    setting.handler (.saveProgress e) middle = setting.handler (.saveProgress e) b := by
  have carried := congrArg Prod.fst ok
  have served := servedByStore (by simp) (by simp) carried
  rw [served] at ok
  obtain ⟨made,rfl⟩ := Prod.mk.inj ok
  have again := Repository.savedOver (Prod.ext made rfl) user course
  cases fault : setting.faults.saveProgress with
  | some why =>
    rw [storeActs (by simp) (by simp),Faults.of?,fault] at carried
    cases carried
  | none =>
    rw [storeActs (by simp) (by simp),storeActs (by simp) (by simp),Faults.of?,fault]
    simp only [Backend.onStore,again]

end Setting

section Regrouped

variable {setting : Setting} {user : UserId} {course : CourseId} {b after : Backend}
  {lesson : LessonId} {deck : DeckId} {answers xs ys zs : List CardAnswer}
  {outcome whole : AnswerOutcome} {old : Enrollment} {cards : List Card} {state : CourseProgress}

theorem batchLeft (named : setting.now.isNamed = true) (given : answers ≠ [])
    (steps : AnswerSteps setting.handler setting.now user course lesson deck answers b outcome after
      old cards state) :
    setting.handler.answers after (.getProgress user course) =
        .ok (old.withState (state.resumeAt lesson) setting.now) ∧
      (state.resumeAt lesson).requireDeck lesson.key deck.key = .ok () := by
  have tallied := (CourseProgress.answerCardsTally given steps.recorded).resumed lesson
  have reread := Setting.savedReread (Setting.loads steps.loaded) named (tallied.timed named)
    steps.saved
  exact ⟨Setting.loadsAgain steps.loaded reread,tallied.required⟩

theorem servedLoads
    (served : setting.serve user course b (.answer lesson deck answers) =
      (.answered (.ok outcome),after)) :
    ∃ old, setting.handler.answers b (.getProgress user course) = .ok old ∧
      old.state.requireDeck lesson.key deck.key = .ok () := by
  have ran := Setting.answeredIff.mp served
  by_cases given : answers = []
  · subst given
    obtain ⟨old,loaded,tracked,_⟩ := (emptyAnswerIff setting.transactional.quiet).mp ran
    exact ⟨old,loaded,tracked⟩
  · obtain ⟨old,_,_,steps⟩ := (answerStepsIff setting.transactional given).mp ran
    exact ⟨old,steps.loaded,steps.tracked⟩

theorem emptyServed (loaded : setting.handler.answers b (.getProgress user course) = .ok old)
    (tracked : old.state.requireDeck lesson.key deck.key = .ok ()) :
    setting.serve user course b (.answer lesson deck []) =
      (.answered (.ok (old.state.outcome lesson.key deck.key [])),b) :=
  Setting.answeredIff.mpr
    ((emptyAnswerIff setting.transactional.quiet).mpr ⟨old,loaded,tracked,rfl,rfl⟩)

structure ServedInTwo (setting : Setting) (user : UserId) (course : CourseId) (lesson : LessonId)
    (deck : DeckId) (xs ys : List CardAnswer) (b : Backend) (whole : AnswerOutcome) (after : Backend)
    (first : AnswerOutcome) (middle : Backend) (second : AnswerOutcome) : Prop where
  earlier : setting.serve user course b (.answer lesson deck xs) = (.answered (.ok first),middle)
  later : setting.serve user course middle (.answer lesson deck ys) = (.answered (.ok second),after)
  results : whole.results = first.results ++ second.results
  lessonCompleted : whole.lessonCompleted = second.lessonCompleted
  deckCompleted : whole.deckCompleted = second.deckCompleted

theorem inTwoFromNone
    (served : setting.serve user course b (.answer lesson deck ys) = (.answered (.ok whole),after)) :
    ∃ first middle second,
      ServedInTwo setting user course lesson deck [] ys b whole after first middle second := by
  obtain ⟨old,loaded,tracked⟩ := servedLoads served
  exact ⟨_,b,whole,emptyServed loaded tracked,served,rfl,rfl,rfl⟩

theorem inTwoToNone (named : setting.now.isNamed = true) (given : xs ≠ [])
    (served : setting.serve user course b (.answer lesson deck xs) = (.answered (.ok whole),after)) :
    ∃ first middle second,
      ServedInTwo setting user course lesson deck xs [] b whole after first middle second := by
  obtain ⟨old,cards,state,steps⟩ :=
    (answerStepsIff setting.transactional given).mp (Setting.answeredIff.mp served)
  obtain ⟨loaded,tracked⟩ := batchLeft named given steps
  refine ⟨whole,after,_,served,emptyServed loaded tracked,(List.append_nil _).symm,?_,?_⟩
  · exact (congrArg AnswerOutcome.lessonCompleted steps.told).trans
      (state.lessonResumed lesson lesson.key).symm
  · exact (congrArg AnswerOutcome.deckCompleted steps.told).trans
      (state.deckResumed lesson lesson.key deck.key).symm

section Parts

variable {between : CourseProgress} {own : List Card} {early late : List CardAnswerResult}
  {middle : Backend}

theorem earlierPart (apart : (setting.handler.answers b).CardsApart)
    (steps : AnswerSteps setting.handler setting.now user course lesson deck (xs ++ ys) b whole
      after old cards state)
    (front : old.state.answerCards lesson.key deck.key ⟨cards⟩ setting.now xs =
      .ok (between,early)) :
    ∃ own middle, AnswerSteps setting.handler setting.now user course lesson deck xs b
      (between.outcome lesson.key deck.key early) middle old own between := by
  have stored := Setting.loads steps.loaded
  obtain ⟨user_,course_⟩ := Repository.storedBelongs stored
  obtain ⟨own,fetched,same⟩ := apart.graded (List.subset_append_left xs ys) steps.fetched
  obtain ⟨middle,saved⟩ : ∃ middle, setting.handler (.saveProgress
      (old.withState (between.resumeAt lesson) setting.now)) b = (.ok (),middle) :=
    Setting.savesToo stored (congrArg Prod.fst steps.saved) user_ course_ user_ course_
  have recorded := (CourseProgress.answerCardsAlike same).trans front
  exact ⟨own,middle,steps.loaded,steps.tracked,fetched,recorded,rfl,saved⟩

theorem laterPart (named : setting.now.isNamed = true)
    (apart : (setting.handler.answers b).CardsApart) (given : xs ≠ []) (more : ys ≠ [])
    (steps : AnswerSteps setting.handler setting.now user course lesson deck (xs ++ ys) b whole
      after old cards state)
    (first : AnswerSteps setting.handler setting.now user course lesson deck xs b
      (between.outcome lesson.key deck.key early) middle old own between)
    (back : between.answerCards lesson.key deck.key ⟨cards⟩ setting.now ys = .ok (state,late)) :
    ∃ reread ownToo other, AnswerSteps setting.handler setting.now user course lesson deck ys middle
      (state.outcome lesson.key deck.key late) after reread ownToo other := by
  obtain ⟨loaded,tracked⟩ := batchLeft named given first
  obtain ⟨ownToo,fetched,same⟩ := apart.graded (List.subset_append_right xs ys) steps.fetched
  have content : setting.handler.answers middle (.getCards (ys.map (·.cardId)).eraseDups) =
      setting.handler.answers b (.getCards (ys.map (·.cardId)).eraseDups) :=
    Setting.contentAlike (Setting.withStateFramed steps.loaded first.saved).others rfl
  obtain ⟨other,recorded,lessons⟩ := CourseProgress.answerCardsFrom
    (between.resumedLessons lesson) ((CourseProgress.answerCardsAlike same).trans back)
  have resumed := CourseProgress.resumedInTwo (CourseProgress.answerCardsTally more back) lessons
    (CourseProgress.currentAnswered recorded) (CourseProgress.currentAnswered back)
  have replaced := Setting.savedOver (old.withState (state.resumeAt lesson) setting.now)
    first.saved rfl rfl
  have told : state.outcome lesson.key deck.key late = other.outcome lesson.key deck.key late := by
    rw [CourseProgress.outcome,CourseProgress.isLessonCompleted,CourseProgress.isDeckCompleted,
      CourseProgress.deck?,← CourseProgress.lessonAlike lessons]
    rfl
  refine ⟨_,ownToo,other,loaded,tracked,content.trans fetched,recorded,told,?_⟩
  rw [resumed]
  exact replaced.trans steps.saved

end Parts

theorem inTwo (named : setting.now.isNamed = true) (apart : (setting.handler.answers b).CardsApart)
    (given : xs ≠ []) (more : ys ≠ [])
    (served : setting.serve user course b (.answer lesson deck (xs ++ ys)) =
      (.answered (.ok whole),after)) :
    ∃ first middle second,
      ServedInTwo setting user course lesson deck xs ys b whole after first middle second := by
  obtain ⟨old,cards,state,steps⟩ := (answerStepsIff setting.transactional
    (List.append_ne_nil_of_left_ne_nil given ys)).mp (Setting.answeredIff.mp served)
  obtain ⟨between,early,late,front,back,results⟩ := CourseProgress.answerCardsAppend steps.recorded
  obtain ⟨own,middle,first⟩ := earlierPart apart steps front
  obtain ⟨reread,ownToo,other,second⟩ := laterPart named apart given more steps first back
  have lessonTold := congrArg AnswerOutcome.lessonCompleted steps.told
  have deckTold := congrArg AnswerOutcome.deckCompleted steps.told
  exact ⟨_,middle,_,Setting.answeredIff.mpr ((answerStepsIff setting.transactional given).mpr
    ⟨old,own,between,first⟩),Setting.answeredIff.mpr ((answerStepsIff setting.transactional
    more).mpr ⟨reread,ownToo,other,second⟩),results,lessonTold,deckTold⟩

theorem servedPermuted (apart : (setting.handler.answers b).CardsApart) (perm : zs.Perm xs)
    (served : setting.serve user course b (.answer lesson deck xs) = (.answered (.ok whole),after)) :
    ∃ permuted, setting.serve user course b (.answer lesson deck zs) =
      (.answered (.ok permuted),after) := by
  by_cases given : xs = []
  · subst given
    cases perm.eq_nil
    exact ⟨whole,served⟩
  · have others : zs ≠ [] := fun none => given (List.Perm.eq_nil (none ▸ perm.symm))
    obtain ⟨old,cards,state,steps⟩ :=
      (answerStepsIff setting.transactional given).mp (Setting.answeredIff.mp served)
    obtain ⟨own,fetched,same⟩ := apart.graded perm.subset steps.fetched
    obtain ⟨results,recorded⟩ := CourseProgress.answerCardsPerm perm steps.recorded
    refine ⟨state.outcome lesson.key deck.key results,Setting.answeredIff.mpr
      ((answerStepsIff setting.transactional others).mpr ⟨old,own,state,?_⟩)⟩
    exact ⟨steps.loaded,steps.tracked,fetched,(CourseProgress.answerCardsAlike same).trans recorded,
      rfl,steps.saved⟩

/-- Answers may be given in one batch or in two, and in any order: the same is stored in the end. The
day of the clock is to be one that the calendar names, and each card is to be looked up for itself. -/
theorem answersRegroup (setting : Setting) (user : UserId) (course : CourseId) (b : Backend)
    (lesson : LessonId) (deck : DeckId) (named : setting.now.isNamed = true)
    (apart : (setting.handler.answers b).CardsApart) :
    (∀ xs ys whole after, setting.serve user course b (.answer lesson deck (xs ++ ys)) =
        (.answered (.ok whole),after) →
      ∃ first middle second,
        ServedInTwo setting user course lesson deck xs ys b whole after first middle second) ∧
    ∀ xs zs, zs.Perm xs → ∀ after,
      (∃ outcome, setting.serve user course b (.answer lesson deck zs) =
        (.answered (.ok outcome),after)) ↔
      ∃ outcome, setting.serve user course b (.answer lesson deck xs) =
        (.answered (.ok outcome),after) := by
  refine ⟨fun xs ys whole after served => ?_,fun xs zs perm after => ⟨?_,?_⟩⟩
  · by_cases given : xs = []
    · subst given
      exact inTwoFromNone served
    · by_cases more : ys = []
      · subst more
        rw [List.append_nil] at served
        exact inTwoToNone named given served
      · exact inTwo named apart given more served
  · rintro ⟨_,served⟩
    exact servedPermuted apart perm.symm served
  · rintro ⟨_,served⟩
    exact servedPermuted apart perm served

end Regrouped

theorem sampleAnswersRegroup :
    ∃ whole after, (∃ first middle second, ServedInTwo Sample.setting Sample.user Sample.course
        Sample.lesson.id Sample.deck.id (Sample.repeated.take 1) (Sample.repeated.drop 1)
        (Sample.holding Sample.stale) whole after first middle second) ∧
      ∃ outcome, Sample.setting.serve Sample.user Sample.course (Sample.holding Sample.stale)
        (.answer Sample.lesson.id Sample.deck.id Sample.repeated.reverse) =
          (.answered (.ok outcome),after) := by
  obtain ⟨whole,after,served⟩ := Sample.answersWith (Sample.holding Sample.stale)
    Sample.repeated (by decide +kernel)
  obtain ⟨parts,orders⟩ := answersRegroup Sample.setting Sample.user Sample.course
    (Sample.holding Sample.stale) Sample.lesson.id Sample.deck.id (by decide)
    (Setting.looksUpApart rfl)
  refine ⟨whole,after,parts _ _ whole after ?_,?_⟩
  · rw [List.take_append_drop]
    exact served
  · exact (orders _ _ (List.reverse_perm _) after).mpr ⟨whole,served⟩

end Coursework
