import Coursework.Proofs.MergeTree
import Coursework.Proofs.Reading
import Coursework.Service.Enroll
import Coursework.Service.Sync

/-! What enrolling and syncing make of the contents they read. The cache never holds anything but
what the catalog says, so each deck counts with the cards under which it is found. -/
namespace Coursework

theorem nodupEraseDups {α : Type} [BEq α] [LawfulBEq α] (as : List α) : as.eraseDups.Nodup := by
  induction size : as.length using Nat.strongRecOn generalizing as with
  | _ n ih =>
    cases as with
    | nil => simp
    | cons a as =>
      rw [List.eraseDups_cons,List.nodup_cons]
      have shorter : (as.filter fun b => !b == a).length < n := by
        have := List.length_filter_le (fun b => !b == a) as
        simp only [List.length_cons] at size
        omega
      exact ⟨by simp [List.mem_eraseDups],ih _ shorter _ rfl⟩

theorem eraseDupsDistinct {α : Type} [BEq α] [LawfulBEq α] {as : List α} (distinct : as.Nodup) :
    as.eraseDups = as := by
  induction as with
  | nil => rfl
  | cons a as ih =>
    obtain ⟨fresh,rest⟩ := List.nodup_cons.mp distinct
    have others : (as.filter fun b => !b == a) = as := by
      refine List.filter_eq_self.mpr fun b member => ?_
      have apart : b ≠ a := fun same => fresh (same ▸ member)
      simpa using apart
    rw [List.eraseDups_cons,others,ih rest]

theorem nodupKeys {entity : Entity} {ids : List (Id entity)} (distinct : ids.Nodup) :
    (ids.map Id.key).Nodup :=
  List.pairwise_map.mpr (distinct.imp fun apart same => apart (Id.keyInjective same))

theorem referencesDistinct (l : Lesson) : (l.deckReferences.map Id.key).Nodup :=
  nodupKeys (nodupEraseDups _)

namespace Answers

variable (answers : Answers)

def HasDeck (id : DeckId) : Prop := ∃ deck, answers (.getDeck id) = .ok deck

def deckCards (id : DeckId) : List CardId :=
  match answers (.getDeck id) with
  | .ok deck => deck.cards.map (·.id)
  | .error _ => []

theorem deckCardsFound {answers : Answers} {id : DeckId} {deck : Deck}
    (found : answers (.getDeck id) = .ok deck) : answers.deckCards id = deck.cards.map (·.id) := by
  simp [deckCards,found]

end Answers

variable {answers : Answers}

def DeckCache.Agrees (cache : DeckCache) (answers : Answers) : Prop :=
  ∀ id deck, cache.decks.lookup id = some deck → answers (.getDeck id) = .ok deck

theorem emptyCacheAgrees : ({} : DeckCache).Agrees answers := by
  intro id deck found
  cases found

theorem fetchOk {cache after : DeckCache} {id : DeckId} {deck : Deck}
    (agrees : cache.Agrees answers)
    (ok : (cache.fetch id).eval answers = .ok (deck,after)) :
    answers (.getDeck id) = .ok deck ∧ after.Agrees answers := by
  unfold DeckCache.fetch at ok
  split at ok
  · rename_i cached found
    cases Script.evalDoneOk.mp ok
    exact ⟨agrees id deck found,agrees⟩
  · obtain ⟨fetched,answered,last⟩ := Script.evalBindOk.mp ok
    cases Script.evalDoneOk.mp last
    have known := Script.evalCallOk.mp answered
    refine ⟨known,fun other d found => ?_⟩
    rw [List.lookup_cons] at found
    split at found
    · rename_i same
      cases Option.some.inj found
      rw [eq_of_beq same]
      exact known
    · exact agrees other d found

structure Tracked (answers : Answers) (before : KeyMap DeckProgress) (ids : List DeckId)
    (after : KeyMap DeckProgress) : Prop where
  found : ∀ id ∈ ids, answers.HasDeck id
  fresh : ∀ id ∈ ids, after.get? id.key =
    some (({} : DeckProgress).reconcileCards ((answers.deckCards id).map Id.key))
  others : ∀ key, key ∉ ids.map Id.key → after.get? key = before.get? key

theorem trackDecksOk {cache after : DeckCache} {before decks : KeyMap DeckProgress}
    {ids : List DeckId} (agrees : cache.Agrees answers)
    (ok : (trackDecks cache before ids).eval answers = .ok (decks,after)) :
    Tracked answers before ids decks ∧ after.Agrees answers := by
  induction ids generalizing cache before with
  | nil =>
    cases Script.evalDoneOk.mp ok
    exact ⟨⟨by simp,by simp,fun key _ => rfl⟩,agrees⟩
  | cons id ids ih =>
    obtain ⟨⟨deck,next⟩,fetched,rest⟩ := Script.evalBindOk.mp ok
    obtain ⟨known,nextAgrees⟩ := fetchOk agrees fetched
    obtain ⟨tracked,afterAgrees⟩ := ih nextAgrees rest
    have head : (before.insert id.key (.ofDeck deck)).get? id.key =
        some (({} : DeckProgress).reconcileCards ((answers.deckCards id).map Id.key)) := by
      rw [KeyMap.getInsert,if_pos rfl,Merge.freshDeck,Answers.deckCardsFound known]
    refine ⟨⟨?_,?_,?_⟩,afterAgrees⟩
    · intro other member
      rcases List.mem_cons.mp member with rfl | inside
      · exact ⟨deck,known⟩
      · exact tracked.found other inside
    · intro other member
      rcases List.mem_cons.mp member with rfl | inside
      · by_cases again : other.key ∈ ids.map Id.key
        · obtain ⟨twin,inside,same⟩ := List.mem_map.mp again
          cases Id.keyInjective same
          exact tracked.fresh other inside
        · rw [tracked.others _ again,head]
      · exact tracked.fresh other inside
    · intro key other
      simp only [List.map_cons,List.mem_cons,not_or] at other
      rw [tracked.others key other.2,KeyMap.getInsert,if_neg fun same => other.1 same.symm]

theorem outlineKeys (l : Lesson) (cards : DeckId → List CardId) :
    (l.outline cards).decks.map (fun p => p.1.key) = l.deckReferences.map Id.key := by
  simp [Lesson.outline,Function.comp_def]

theorem outlineDistinct (l : Lesson) (cards : DeckId → List CardId) :
    ((l.outline cards).decks.map fun p => p.1.key).Nodup := by
  rw [outlineKeys]
  exact referencesDistinct l

theorem memOutlineDecks {l : Lesson} {cards : DeckId → List CardId} {p : DeckId × List CardId} :
    p ∈ (l.outline cards).decks ↔ ∃ id ∈ l.deckReferences, (id,cards id) = p :=
  List.mem_map

theorem materializeOk {cache after : DeckCache} {l : Lesson} {progress : LessonProgress}
    (agrees : cache.Agrees answers)
    (ok : (materialize l cache).eval answers = .ok (progress,after)) :
    l.deckReferences ≠ [] ∧ (∀ id ∈ l.deckReferences, answers.HasDeck id) ∧
      Merge.Reconciled none (l.outline answers.deckCards).decks progress ∧
      after.Agrees answers := by
  unfold materialize at ok
  split at ok
  · cases ok
  · rename_i nonempty
    obtain ⟨⟨decks,next⟩,looked,last⟩ := Script.evalBindOk.mp ok
    cases Script.evalDoneOk.mp last
    obtain ⟨tracked,nextAgrees⟩ := trackDecksOk agrees (Script.evalMapErrorOk.mp looked)
    refine ⟨nonempty,tracked.found,⟨?_,?_,rfl⟩,nextAgrees⟩
    · intro p member
      obtain ⟨id,inside,rfl⟩ := memOutlineDecks.mp member
      exact tracked.fresh id inside
    · intro key other
      rw [outlineKeys] at other
      exact tracked.others key other

def reopensAny (answers : Answers) (progress : LessonProgress) (ids : List DeckId) : Bool :=
  ids.any fun id => ((progress.decks.get? id.key).getD {}).reopensFor
    ((answers.deckCards id).map Id.key)

theorem reopensAnyCongr {p q : LessonProgress} {ids : List DeckId}
    (same : ∀ id ∈ ids, (p.decks.get? id.key).getD {} = (q.decks.get? id.key).getD {}) :
    reopensAny answers p ids = reopensAny answers q ids := by
  rw [Bool.eq_iff_iff,reopensAny,reopensAny,List.any_eq_true,List.any_eq_true]
  refine exists_congr fun id => and_congr_right fun inside => ?_
  rw [same id inside]

structure CardsMerged (answers : Answers) (before : LessonProgress) (ids : List DeckId)
    (after : LessonProgress) : Prop where
  found : ∀ id ∈ ids, answers.HasDeck id
  merged : ∀ id ∈ ids, ∀ d, before.decks.get? id.key = some d →
    after.decks.get? id.key = some (d.reconcileCards ((answers.deckCards id).map Id.key))
  others : ∀ key, key ∉ ids.map Id.key → after.decks.get? key = before.decks.get? key
  mark : after.mark = if reopensAny answers before ids then {} else before.mark

theorem cardsMergedCons {before middle after : LessonProgress} {id : DeckId} {ids : List DeckId}
    {d : DeckProgress} (known : answers.HasDeck id) (fresh : id.key ∉ ids.map Id.key)
    (here : before.decks.get? id.key = some d)
    (step : LessonProgress.CardsReconciled before id.key ((answers.deckCards id).map Id.key) d
      middle)
    (merged : CardsMerged answers middle ids after) :
    CardsMerged answers before (id :: ids) after := by
  have untouched : ∀ other, other ≠ id.key →
      middle.decks.get? other = before.decks.get? other := by
    intro other apart
    rw [step.decks,KeyMap.getInsert,if_neg apart.symm]
  have apart : ∀ other ∈ ids, other.key ≠ id.key := fun other inside same =>
    fresh (List.mem_map.mpr ⟨other,inside,same⟩)
  constructor
  · intro other member
    rcases List.mem_cons.mp member with rfl | inside
    · exact known
    · exact merged.found other inside
  · intro other member d' found
    rcases List.mem_cons.mp member with rfl | inside
    · cases Option.some.inj (here.symm.trans found)
      rw [merged.others _ fresh,step.decks,KeyMap.getInsert,if_pos rfl]
    · exact merged.merged other inside d' ((untouched _ (apart other inside)).trans found)
  · intro key other
    simp only [List.map_cons,List.mem_cons,not_or] at other
    rw [merged.others key other.2,untouched key other.1]
  · have later : reopensAny answers middle ids = reopensAny answers before ids :=
      reopensAnyCongr fun other inside => by rw [untouched _ (apart other inside)]
    have first : reopensAny answers before (id :: ids) =
        (d.reopensFor ((answers.deckCards id).map Id.key) || reopensAny answers before ids) := by
      rw [reopensAny,List.any_cons,here,Option.getD_some,reopensAny]
    rw [merged.mark,later,step.mark,first]
    cases d.reopensFor ((answers.deckCards id).map Id.key) with
    | true => simp
    | false => simp

theorem reconcileDeckCardsOk {cache afterCache : DeckCache} {before after : LessonProgress}
    {lesson : String} {ids : List DeckId} (agrees : cache.Agrees answers)
    (distinct : (ids.map Id.key).Nodup)
    (tracked : ∀ id ∈ ids, ∃ d, before.decks.get? id.key = some d)
    (ok : (reconcileDeckCards lesson cache before ids).eval answers = .ok (after,afterCache)) :
    CardsMerged answers before ids after ∧ afterCache.Agrees answers := by
  induction ids generalizing cache before with
  | nil =>
    cases Script.evalDoneOk.mp ok
    exact ⟨⟨by simp,by simp,fun key _ => rfl,rfl⟩,agrees⟩
  | cons id ids ih =>
    obtain ⟨⟨deck,next⟩,fetched,ok⟩ := Script.evalBindOk.mp ok
    obtain ⟨known,nextAgrees⟩ := fetchOk agrees (Script.evalMapErrorOk.mp fetched)
    obtain ⟨⟨middle,diff⟩,stepped,rest⟩ := Script.evalBindOk.mp ok
    obtain ⟨d,here⟩ := tracked id List.mem_cons_self
    obtain ⟨fresh,distinct⟩ := List.nodup_cons.mp distinct
    have cards : deck.cardKeys = (answers.deckCards id).map Id.key := by
      rw [Answers.deckCardsFound known,List.map_map]
      rfl
    obtain ⟨reached,computed,step⟩ :=
      LessonProgress.reconcileCardsTracked lesson deck.cardKeys here
    have result := Script.evalOfExceptOk.mp (Script.evalMapErrorOk.mp stepped)
    cases computed.symm.trans result
    rw [cards] at step
    have stillTracked : ∀ other ∈ ids, ∃ d, middle.decks.get? other.key = some d := by
      intro other inside
      rw [step.decks,KeyMap.getInsert]
      split
      · exact ⟨_,rfl⟩
      · exact tracked other (List.mem_cons_of_mem _ inside)
    obtain ⟨merged,afterAgrees⟩ := ih nextAgrees distinct stillTracked rest
    exact ⟨cardsMergedCons ⟨deck,known⟩ fresh here step merged,afterAgrees⟩

theorem reopensLessonEq (before : LessonProgress) (l : Lesson) :
    Merge.reopensLesson (some before) (l.outline answers.deckCards).decks =
      (reopensAny answers before l.deckReferences ||
        before.reopensFor (l.deckReferences.map Id.key)) := by
  have decks : ((l.outline answers.deckCards).decks.any fun p =>
      Merge.reopensDeck (Merge.oldDeck (some before) p.1) p.2) =
      reopensAny answers before l.deckReferences := by
    simp only [Lesson.outline,List.any_map,Function.comp_def,Merge.reopensDeckEq]
    rfl
  have empty : (l.outline answers.deckCards).decks.isEmpty = l.deckReferences.isEmpty := by
    simp [Lesson.outline]
  have lacking : before.decks.lacks (l.deckReferences.map Id.key) = true →
      reopensAny answers before l.deckReferences = true := by
    intro lacks
    obtain ⟨key,member,absent⟩ := KeyMap.lacksIff.mp lacks
    obtain ⟨id,referred,rfl⟩ := List.mem_map.mp member
    refine List.any_eq_true.mpr ⟨id,referred,?_⟩
    rw [absent,Option.getD_none]
    cases (answers.deckCards id) <;> rfl
  rw [Merge.reopensLesson,decks,empty,LessonProgress.reopensFor,List.isEmpty_map]
  rw [Bool.eq_iff_iff]
  simp only [Option.isNone_some,Bool.false_or,Bool.or_eq_true]
  constructor
  · rintro (none | reopened)
    · exact .inr (.inr none)
    · exact .inl reopened
  · rintro (reopened | lacks | none)
    · exact .inr reopened
    · exact .inr (lacking lacks)
    · exact .inl none

theorem reconcileTrackedOk {cache afterCache : DeckCache} {l : Lesson}
    {before after : LessonProgress} (agrees : cache.Agrees answers)
    (ok : (reconcileDeckCards l.id.key cache
      (before.reconcileDecks (l.deckReferences.map Id.key)) l.deckReferences).eval answers =
        .ok (after,afterCache)) :
    (∀ id ∈ l.deckReferences, answers.HasDeck id) ∧
      Merge.Reconciled (some before) (l.outline answers.deckCards).decks after ∧
      afterCache.Agrees answers := by
  have decks := before.decksReconciled (l.deckReferences.map Id.key)
  have inside : ∀ id ∈ l.deckReferences, id.key ∈ l.deckReferences.map Id.key :=
    fun id member => List.mem_map.mpr ⟨id,member,rfl⟩
  have tracked : ∀ id ∈ l.deckReferences,
      (before.reconcileDecks (l.deckReferences.map Id.key)).decks.get? id.key =
        some ((before.decks.get? id.key).getD {}) := by
    intro id member
    rw [decks,if_pos (inside id member)]
    rfl
  obtain ⟨merged,afterAgrees⟩ := reconcileDeckCardsOk agrees (referencesDistinct l)
    (fun id member => ⟨_,tracked id member⟩) ok
  refine ⟨merged.found,⟨?_,?_,?_⟩,afterAgrees⟩
  · intro p member
    obtain ⟨id,referred,rfl⟩ := memOutlineDecks.mp member
    exact merged.merged id referred _ (tracked id referred)
  · intro key other
    rw [outlineKeys] at other
    rw [merged.others key other,decks,if_neg other]
  · have later : reopensAny answers (before.reconcileDecks (l.deckReferences.map Id.key))
        l.deckReferences = reopensAny answers before l.deckReferences :=
      reopensAnyCongr fun id member => by rw [tracked id member,Option.getD_some]
    rw [merged.mark,later,LessonProgress.markReconciled,Merge.lessonMark,reopensLessonEq]
    simp only [Bool.or_eq_true]
    split
    · rename_i reopened
      rw [if_pos (.inl reopened)]
    · rename_i kept
      simp [kept]

theorem reconcileLessonOk {cache afterCache : DeckCache} {l : Lesson}
    {before after : CourseProgress} (agrees : cache.Agrees answers)
    (ok : (reconcileLesson l cache before).eval answers = .ok (after,afterCache)) :
    ∃ progress, after = before.setLesson l.id.key progress ∧
      (∀ id ∈ l.deckReferences, answers.HasDeck id) ∧
      Merge.Reconciled (before.lesson? l.id.key) (l.outline answers.deckCards).decks progress ∧
      afterCache.Agrees answers := by
  unfold reconcileLesson at ok
  split at ok
  · rename_i untracked
    obtain ⟨⟨progress,next⟩,materialized,last⟩ := Script.evalBindOk.mp ok
    cases Script.evalDoneOk.mp last
    obtain ⟨_,found,reconciled,agrees⟩ := materializeOk agrees (Script.evalMapErrorOk.mp materialized)
    exact ⟨progress,rfl,found,untracked ▸ reconciled,agrees⟩
  · rename_i old tracked
    obtain ⟨⟨progress,next⟩,merged,last⟩ := Script.evalBindOk.mp ok
    cases Script.evalDoneOk.mp last
    obtain ⟨found,reconciled,agrees⟩ := reconcileTrackedOk agrees merged
    exact ⟨progress,rfl,found,tracked ▸ reconciled,agrees⟩

structure LessonsMerged (answers : Answers) (old : String → Option LessonProgress)
    (before : CourseProgress) (lessons : List Lesson) (after : CourseProgress) : Prop where
  found : ∀ l ∈ lessons, ∀ id ∈ l.deckReferences, answers.HasDeck id
  merged : ∀ l ∈ lessons, ∃ progress, after.lesson? l.id.key = some progress ∧
    Merge.Reconciled (old l.id.key) (l.outline answers.deckCards).decks progress
  others : ∀ key, key ∉ lessons.map (·.id.key) → after.lesson? key = before.lesson? key

theorem lessonAfterSet (p : CourseProgress) (key other : String) (l : LessonProgress) :
    (p.setLesson key l).lesson? other = if key = other then some l else p.lesson? other :=
  KeyMap.getInsert _ _ _ _

theorem reconcileLessonsOk {cache : DeckCache} {lessons : List Lesson}
    {before after : CourseProgress} (agrees : cache.Agrees answers)
    (distinct : (lessons.map (·.id.key)).Nodup)
    (ok : (reconcileLessons cache before lessons).eval answers = .ok after) :
    LessonsMerged answers before.lesson? before lessons after := by
  induction lessons generalizing cache before with
  | nil =>
    cases Script.evalDoneOk.mp ok
    exact ⟨by simp,by simp,fun key _ => rfl⟩
  | cons l lessons ih =>
    obtain ⟨⟨middle,next⟩,first,rest⟩ := Script.evalBindOk.mp ok
    obtain ⟨fresh,distinct⟩ := List.nodup_cons.mp distinct
    obtain ⟨progress,rfl,found,reconciled,nextAgrees⟩ := reconcileLessonOk agrees first
    have later := ih nextAgrees distinct rest
    refine ⟨?_,?_,?_⟩
    · intro other member
      rcases List.mem_cons.mp member with rfl | inside
      · exact found
      · exact later.found other inside
    · intro other member
      rcases List.mem_cons.mp member with rfl | inside
      · refine ⟨progress,?_,reconciled⟩
        rw [later.others _ fresh,lessonAfterSet,if_pos rfl]
      · obtain ⟨own,tracked,ready⟩ := later.merged other inside
        have apart : l.id.key ≠ other.id.key := fun same =>
          fresh (List.mem_map.mpr ⟨other,inside,same.symm⟩)
        rw [lessonAfterSet,if_neg apart] at ready
        exact ⟨own,tracked,ready⟩
    · intro key other
      simp only [List.map_cons,List.mem_cons,not_or] at other
      rw [later.others key other.2,lessonAfterSet,if_neg fun same => other.1 same.symm]

theorem materializeLessonsOk {cache : DeckCache} {lessons : List Lesson}
    {before after : CourseProgress} (agrees : cache.Agrees answers)
    (distinct : (lessons.map (·.id.key)).Nodup)
    (ok : (materializeLessons cache before lessons).eval answers = .ok after) :
    LessonsMerged answers (fun _ => none) before lessons after ∧
      ∀ l ∈ lessons, l.deckReferences ≠ [] := by
  induction lessons generalizing cache before with
  | nil =>
    cases Script.evalDoneOk.mp ok
    exact ⟨⟨by simp,by simp,fun key _ => rfl⟩,by simp⟩
  | cons l lessons ih =>
    obtain ⟨⟨progress,next⟩,first,rest⟩ := Script.evalBindOk.mp ok
    obtain ⟨fresh,distinct⟩ := List.nodup_cons.mp distinct
    obtain ⟨referring,found,reconciled,nextAgrees⟩ := materializeOk agrees first
    obtain ⟨later,laterReferring⟩ := ih nextAgrees distinct rest
    refine ⟨⟨?_,?_,?_⟩,?_⟩
    · intro other member
      rcases List.mem_cons.mp member with rfl | inside
      · exact found
      · exact later.found other inside
    · intro other member
      rcases List.mem_cons.mp member with rfl | inside
      · refine ⟨progress,?_,reconciled⟩
        rw [later.others _ fresh,lessonAfterSet,if_pos rfl]
      · exact later.merged other inside
    · intro key other
      simp only [List.map_cons,List.mem_cons,not_or] at other
      rw [later.others key other.2,lessonAfterSet,if_neg fun same => other.1 same.symm]
    · intro other member
      rcases List.mem_cons.mp member with rfl | inside
      · exact referring
      · exact laterReferring other inside

theorem outlinesKeys (lessons : List Lesson) (cards : DeckId → List CardId) :
    (lessons.map (·.outline cards)).map (fun l => l.id.key) = lessons.map (·.id.key) := by
  simp [Function.comp_def,Lesson.outline]

theorem lessonKeysDistinct {lessons : List Lesson} (distinct : (lessons.map (·.id)).Nodup) :
    (lessons.map (·.id.key)).Nodup := by
  have keys := nodupKeys distinct
  rwa [List.map_map] at keys

theorem settledIsMerge (now : Instant) {lessons : List Lesson} {before after : CourseProgress}
    (distinct : (lessons.map (·.id)).Nodup)
    (ok : (reconcileLessons {} before lessons).eval answers = .ok after) :
    after.settle lessons now =
      Merge.course now before (lessons.map (·.outline answers.deckCards)) := by
  have keys := lessonKeysDistinct distinct
  have merged := reconcileLessonsOk emptyCacheAgrees keys ok
  have outlines := outlinesKeys lessons answers.deckCards
  have ids : (lessons.map (·.outline answers.deckCards)).map (·.id) = lessons.map (·.id) := by
    simp [Function.comp_def,Lesson.outline]
  have meets := Merge.courseMeetsMerge now (outlines ▸ keys)
    (fun o member => by
      obtain ⟨l,_,rfl⟩ := List.mem_map.mp member
      exact outlineDistinct l _)
    (fun o member => by
      obtain ⟨l,inside,rfl⟩ := List.mem_map.mp member
      exact merged.merged l inside)
  rw [Merge.rolled,outlines,ids] at meets
  exact meets

theorem materializedIsMerge (now : Instant) {first : Lesson} {rest : List Lesson}
    {after : CourseProgress} (distinct : ((first :: rest).map (·.id)).Nodup)
    (ok : (materializeLessons {} {} (first :: rest)).eval answers = .ok after) :
    { after with currentLessonId := some first.id } =
      Merge.course now {} ((first :: rest).map (·.outline answers.deckCards)) := by
  have keys := lessonKeysDistinct distinct
  have outlines := outlinesKeys (first :: rest) answers.deckCards
  obtain ⟨merged,_⟩ := materializeLessonsOk emptyCacheAgrees keys ok
  have sameLessons : after.lessons =
      (Merge.course now {} ((first :: rest).map (·.outline answers.deckCards))).lessons := by
    refine KeyMap.ext fun key => ?_
    by_cases inside : key ∈ (first :: rest).map (·.id.key)
    · obtain ⟨l,member,rfl⟩ := List.mem_map.mp inside
      obtain ⟨progress,tracked,ready⟩ := merged.merged l member
      have meets := Merge.lessonMeetsMerge now (outlineDistinct l _) ready
      rw [Merge.freshLessonSettled ready] at meets
      have listed : l.outline answers.deckCards ∈
          (first :: rest).map (·.outline answers.deckCards) := List.mem_map.mpr ⟨l,member,rfl⟩
      have at? := Merge.courseLessonAt now {} (outlines ▸ keys) listed
      exact (tracked.trans (congrArg some meets)).trans at?.symm
    · have untracked := merged.others key inside
      rw [← outlines] at inside
      exact untracked.trans (Merge.courseOtherLesson now {} inside).symm
  have fresh : (Merge.courseLesson now {} (first.outline answers.deckCards)).isCompleted = false :=
    Merge.freshLessonOpen now _
  have current : Merge.current now {} ((first :: rest).map (·.outline answers.deckCards)) =
      some first.id := by
    rw [Merge.current,List.map_cons,List.find?_cons_of_pos (by simp [fresh])]
    rfl
  rw [sameLessons,← current]
  rfl

end Coursework
