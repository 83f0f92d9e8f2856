import Coursework.Proofs.NewContent

/-! The walk over a course. Enrolling and syncing go through the lessons as they are listed and through
the references of each lesson as they stand in its text. A deck is looked up where it is first referred
to. The walk stops at the first look-up that fails, or at the first new lesson that refers to no deck;
nothing else stops it, and only behind a whole walk is anything written. -/
namespace Coursework

/- What comes up on a walk: a deck that a lesson refers to, or a lesson that refers to none but has
to. -/
inductive WalkStep where
  | deck (id : DeckId)
  | bare (lesson : LessonId)

def Lesson.steps (tracked : Bool) (l : Lesson) : List WalkStep :=
  match l.deckReferences with
  | [] => if tracked then [] else [.bare l.id]
  | references => references.map .deck

def walkOver (tracked : Lesson → Bool) (lessons : List Lesson) : List WalkStep :=
  lessons.flatMap fun l => l.steps (tracked l)

theorem stepsOfTracked (l : Lesson) : l.steps true = l.deckReferences.map .deck := by
  unfold Lesson.steps
  split
  · rename_i none
    rw [none]
    rfl
  · rfl

namespace Answers

variable (answers : Answers)

def failure : WalkStep → Option MaterializeError
  | .deck id =>
    match answers (.getDeck id) with
    | .ok _ => none
    | .error why => some (.storage why)
  | .bare lesson => some (.noDecksReferenced lesson)

def stopOf (steps : List WalkStep) : Option MaterializeError := steps.findSome? answers.failure

def reached : List WalkStep → List DeckId
  | [] => []
  | .bare _ :: _ => []
  | .deck id :: steps => id :: if (answers.failure (.deck id)).isNone then reached steps else []

def lookUps (steps : List WalkStep) : List Operation :=
  (answers.reached steps).eraseDups.map .getDeck

variable {answers}

theorem stopOfCons (step : WalkStep) (steps : List WalkStep) :
    answers.stopOf (step :: steps) = (answers.failure step).or (answers.stopOf steps) := by
  rw [stopOf,List.findSome?_cons]
  cases answers.failure step <;> rfl

theorem stopOfAppend (steps later : List WalkStep) :
    answers.stopOf (steps ++ later) = (answers.stopOf steps).or (answers.stopOf later) :=
  List.findSome?_append

theorem reachedAppend (steps later : List WalkStep) :
    answers.reached (steps ++ later) =
      answers.reached steps ++ if (answers.stopOf steps).isNone then answers.reached later else [] := by
  induction steps with
  | nil => rfl
  | cons step steps ih =>
    cases step with
    | bare lesson => rfl
    | deck id =>
      rw [List.cons_append,reached,reached,stopOfCons]
      cases answers.failure (.deck id) with
      | some why => rfl
      | none => exact congrArg (id :: ·) ih

theorem oneReached (id : DeckId) : answers.reached [.deck id] = [id] := by
  simp [reached]

end Answers

/- A script that goes through some steps with a cache of the decks seen before. It looks up those that
it sees first, fails with the walk, and leaves what is said of the decks seen by then. -/
structure Walks {ε α : Type} (answers : Answers) (seen : List DeckId) (steps : List WalkStep)
    (rename : MaterializeError → ε) (leaves : List DeckId → α → Prop) (script : Script ε α) : Prop where
  asks : script.asked answers = ((answers.reached steps).removeAll seen).eraseDups.map .getDeck
  stops : ∀ why, answers.stopOf steps = some why → script.eval answers = .error (rename why)
  passes : answers.stopOf steps = none →
    ∃ a, script.eval answers = .ok a ∧ leaves (seen ++ answers.reached steps) a

section Walking

variable {ε ε' α β : Type} {answers : Answers} {seen : List DeckId} {steps later : List WalkStep}
  {rename : MaterializeError → ε} {leaves : List DeckId → α → Prop} {ends : List DeckId → β → Prop}
  {script : Script ε α}

theorem firstSeenAppend (seen xs ys : List DeckId) :
    ((xs ++ ys).removeAll seen).eraseDups =
      (xs.removeAll seen).eraseDups ++ (ys.removeAll (seen ++ xs)).eraseDups := by
  have parts : (xs ++ ys).removeAll seen = xs.removeAll seen ++ ys.removeAll seen :=
    List.filter_append xs ys
  have rest : (ys.removeAll seen).removeAll (xs.removeAll seen) = ys.removeAll (seen ++ xs) := by
    simp only [List.removeAll,List.filter_filter]
    refine List.filter_congr fun id _ => ?_
    by_cases before : id ∈ seen <;> simp [before]
  rw [parts,List.eraseDups_append,rest]

theorem Walks.stay {a : α} (left : leaves seen a) :
    Walks answers seen [] rename leaves (.done a : Script ε α) :=
  ⟨rfl,fun _ stop => (nomatch stop),fun _ => ⟨a,rfl,by rwa [Answers.reached,List.append_nil]⟩⟩

theorem Walks.andThen {f : α → Script ε β} (first : Walks answers seen steps rename leaves script)
    (second : ∀ a, leaves (seen ++ answers.reached steps) a →
      Walks answers (seen ++ answers.reached steps) later rename ends (f a)) :
    Walks answers seen (steps ++ later) rename ends (script >>= f) := by
  have evals : (script >>= f).eval answers = script.eval answers >>= fun a => (f a).eval answers :=
    Script.evalBind script f
  cases stop : answers.stopOf steps with
  | some why =>
    have failed := first.stops why stop
    have stopped : answers.stopOf (steps ++ later) = some why := by
      rw [Answers.stopOfAppend,stop,Option.some_or]
    rw [failed] at evals
    refine ⟨?_,fun other found => ?_,fun passed => (nomatch stopped.symm.trans passed)⟩
    · rw [Script.askedBind,failed,first.asks,Answers.reachedAppend,stop]
      simp
    · cases Option.some.inj (stopped.symm.trans found)
      exact evals
  | none =>
    obtain ⟨a,reply,left⟩ := first.passes stop
    have next := second a left
    have reached : answers.reached (steps ++ later) =
        answers.reached steps ++ answers.reached later := by
      rw [Answers.reachedAppend,stop]
      rfl
    have rest : answers.stopOf (steps ++ later) = answers.stopOf later := by
      rw [Answers.stopOfAppend,stop,Option.none_or]
    rw [reply] at evals
    refine ⟨?_,fun why found => ?_,fun passed => ?_⟩
    · rw [Script.askedBind,reply,reached,firstSeenAppend,List.map_append,← next.asks,← first.asks]
    · exact evals.trans (next.stops why (rest ▸ found))
    · obtain ⟨b,told,ended⟩ := next.passes (rest ▸ passed)
      refine ⟨b,evals.trans told,?_⟩
      rw [reached,← List.append_assoc]
      exact ended

theorem Walks.thenDone {g : α → β} (first : Walks answers seen steps rename leaves script)
    (keeps : ∀ known a, leaves known a → ends known (g a)) :
    Walks answers seen steps rename ends (script >>= fun a => (.done (g a) : Script ε β)) := by
  have whole : Walks answers seen (steps ++ []) rename ends (script >>= fun a => .done (g a)) :=
    first.andThen fun a left => .stay (keeps _ a left)
  rwa [List.append_nil] at whole

theorem Walks.mapError (walks : Walks answers seen steps rename leaves script) (g : ε → ε') :
    Walks answers seen steps (fun why => g (rename why)) leaves (script.mapError g) := by
  have evals : (script.mapError g).eval answers = (script.eval answers).mapError g :=
    Script.evalMapError g script
  refine ⟨(Script.askedMapError g script).trans walks.asks,fun why stop => ?_,fun passed => ?_⟩
  · rw [evals,walks.stops why stop]
    rfl
  · obtain ⟨a,reply,left⟩ := walks.passes passed
    rw [evals,reply]
    exact ⟨a,rfl,left⟩

end Walking

structure DeckCache.Knows (answers : Answers) (seen : List DeckId) (cache : DeckCache) : Prop where
  agrees : cache.Agrees answers
  holds : ∀ id, (cache.decks.lookup id).isSome = true ↔ id ∈ seen

section Catalog

variable {answers : Answers} {seen : List DeckId} {cache : DeckCache}

theorem nothingKnown (answers : Answers) : DeckCache.Knows answers [] {} := by
  refine ⟨emptyCacheAgrees,fun id => ?_⟩
  simp

def Remembers (answers : Answers) {α : Type} (seen : List DeckId) (p : α × DeckCache) : Prop :=
  p.2.Knows answers seen

theorem fetchWalks (knows : cache.Knows answers seen) (id : DeckId) :
    Walks answers seen [.deck id] (fun why => why) (Remembers answers)
      ((cache.fetch id).mapError MaterializeError.storage) := by
  have known := knows.holds id
  unfold DeckCache.fetch
  cases cached : cache.decks.lookup id with
  | some deck =>
    -- what is cached was seen and found, so this step can only pass
    have inside : id ∈ seen := known.mp (by rw [cached]; rfl)
    have found : answers (.getDeck id) = .ok deck := knows.agrees id deck cached
    refine ⟨?_,fun why stop => ?_,fun _ => ⟨(deck,cache),rfl,knows.agrees,fun other => ?_⟩⟩
    · simp [Answers.oneReached,List.removeAll,inside,Script.asked,Script.mapError]
    · simp [Answers.stopOf,Answers.failure,found] at stop
    · rw [knows.holds other,Answers.oneReached,List.mem_append,List.mem_singleton]
      refine ⟨.inl,?_⟩
      rintro (before | rfl)
      · exact before
      · exact inside
  | none =>
    have fresh : id ∉ seen := fun inside => by
      rw [cached] at known
      cases known.mpr inside
    have asks : ([id].removeAll seen).eraseDups.map Operation.getDeck = [.getDeck id] := by
      simp [List.removeAll,fresh,List.eraseDups_cons]
    cases found : answers (.getDeck id) with
    | error why =>
      refine ⟨?_,fun other stop => ?_,fun passed => ?_⟩
      · rw [Answers.oneReached,asks,Script.askedMapError]
        exact (Script.refused found _).2
      · simp only [Answers.stopOf,Answers.failure,found,List.findSome?_cons,Option.some.injEq] at stop
        rw [← stop,Script.evalMapError]
        exact congrArg (Except.mapError _) (Script.refused found _).1
      · simp [Answers.stopOf,Answers.failure,found] at passed
    | ok deck =>
      have fetched : (cache.fetch id).eval answers = .ok (deck,⟨(id,deck) :: cache.decks⟩) := by
        rw [DeckCache.fetch,cached]
        exact (Script.called found _).1
      refine ⟨?_,fun why stop => ?_,fun _ => ⟨(deck,⟨(id,deck) :: cache.decks⟩),?_,
        (fetchOk knows.agrees fetched).2,fun other => ?_⟩⟩
      · rw [Answers.oneReached,asks,Script.askedMapError]
        exact (Script.called found _).2
      · simp [Answers.stopOf,Answers.failure,found] at stop
      · rw [Script.evalMapError]
        exact congrArg (Except.mapError _) (Script.called found _).1
      · rw [Answers.oneReached,List.lookup_cons,List.mem_append,List.mem_singleton]
        by_cases here : other = id
        · subst here
          simp
        · rw [beq_false_of_ne here]
          simp [here,knows.holds other]

theorem tracksWalk (knows : cache.Knows answers seen) (tracked : KeyMap DeckProgress)
    (ids : List DeckId) :
    Walks answers seen (ids.map .deck) (fun why => why) (Remembers answers)
      ((trackDecks cache tracked ids).mapError MaterializeError.storage) := by
  induction ids generalizing seen cache tracked with
  | nil => exact .stay knows
  | cons id ids ih =>
    rw [trackDecks,Script.mapErrorBind]
    exact (fetchWalks knows id).andThen fun p known => ih known _

theorem materializeWalks (knows : cache.Knows answers seen) (l : Lesson) :
    Walks answers seen (l.steps false) (fun why => why) (Remembers answers) (materialize l cache) := by
  cases refers : l.deckReferences with
  | nil =>
    have steps : l.steps false = [.bare l.id] := by rw [Lesson.steps,refers]; rfl
    have fails : materialize l cache = .fail (.noDecksReferenced l.id) := by rw [materialize,refers]
    rw [steps,fails]
    refine ⟨rfl,fun why stop => ?_,fun passed => ?_⟩
    · cases Option.some.inj stop
      rfl
    · cases passed
  | cons id ids =>
    have steps : l.steps false = (id :: ids).map .deck := by rw [Lesson.steps,refers]
    rw [steps,materialize,refers]
    exact (tracksWalk knows _ _).thenDone fun _ _ known => known

theorem deckCardsWalk (lesson : String) (knows : cache.Knows answers seen) {progress : LessonProgress}
    {ids : List DeckId} (tracked : ∀ id ∈ ids, ∃ d, progress.decks.get? id.key = some d) :
    Walks answers seen (ids.map .deck) MaterializeError.toSyncError (Remembers answers)
      (reconcileDeckCards lesson cache progress ids) := by
  induction ids generalizing seen cache progress with
  | nil => exact .stay knows
  | cons id ids ih =>
    have fetched := (fetchWalks knows id).mapError MaterializeError.toSyncError
    rw [Script.mapErrorTwice] at fetched
    rw [reconcileDeckCards]
    refine fetched.andThen fun p known => ?_
    obtain ⟨deck,next⟩ := p
    obtain ⟨d,here⟩ := tracked id List.mem_cons_self
    obtain ⟨after,computed,step⟩ :=
      LessonProgress.reconcileCardsTracked lesson deck.cardKeys here
    simp only [computed]
    refine ih known fun other inside => ?_
    rw [step.decks,KeyMap.getInsert]
    split
    · exact ⟨_,rfl⟩
    · exact tracked other (List.mem_cons_of_mem id inside)

theorem progressWalks (knows : cache.Knows answers seen) (l : Lesson)
    (tracked : Option LessonProgress) :
    Walks answers seen (l.steps tracked.isSome) MaterializeError.toSyncError (Remembers answers)
      (progressFor l cache tracked) := by
  cases tracked with
  | none => exact (materializeWalks knows l).mapError MaterializeError.toSyncError
  | some progress =>
    rw [Option.isSome_some,stepsOfTracked]
    refine deckCardsWalk l.id.key knows fun id inside => ?_
    rw [LessonProgress.decksReconciled,if_pos (List.mem_map.mpr ⟨id,inside,rfl⟩)]
    exact ⟨_,rfl⟩

end Catalog

def CourseProgress.tracks (p : CourseProgress) (l : Lesson) : Bool := (p.lesson? l.id.key).isSome

section Lessons

variable {answers : Answers} {seen : List DeckId} {cache : DeckCache}

theorem materializeLessonsWalk (knows : cache.Knows answers seen) (state : CourseProgress)
    (lessons : List Lesson) :
    Walks answers seen (walkOver (fun _ => false) lessons) (fun why => why) (fun _ _ => True)
      (materializeLessons cache state lessons) := by
  induction lessons generalizing seen cache state with
  | nil => exact .stay trivial
  | cons l lessons ih => exact (materializeWalks knows l).andThen fun p known => ih known _

theorem reconcileLessonsWalk (knows : cache.Knows answers seen) (state : CourseProgress)
    {lessons : List Lesson} (distinct : (lessons.map (·.id.key)).Nodup) :
    Walks answers seen (walkOver state.tracks lessons) MaterializeError.toSyncError (fun _ _ => True)
      (reconcileLessons cache state lessons) := by
  induction lessons generalizing seen cache state with
  | nil => exact .stay trivial
  | cons l lessons ih =>
    obtain ⟨fresh,distinct⟩ := List.nodup_cons.mp distinct
    have others (progress : LessonProgress) :
        walkOver (state.setLesson l.id.key progress).tracks lessons =
          walkOver state.tracks lessons := by
      refine List.flatMap_congr fun other inside => ?_
      have apart : l.id.key ≠ other.id.key := fun same =>
        fresh (List.mem_map.mpr ⟨other,inside,same.symm⟩)
      rw [CourseProgress.tracks,lessonAfterSet,if_neg apart,CourseProgress.tracks]
    have here : Walks answers seen (l.steps (state.tracks l)) MaterializeError.toSyncError
        (fun known p => p.2.Knows answers known ∧ ∃ progress, p.1 = state.setLesson l.id.key progress)
        (reconcileLesson l cache state) := by
      rw [reconcileLessonIs]
      exact (progressWalks knows l _).thenDone fun _ p known => ⟨known,p.1,rfl⟩
    refine here.andThen fun p left => ?_
    obtain ⟨state',next⟩ := p
    obtain ⟨known,progress,rfl⟩ := left
    have rest := ih known (state.setLesson l.id.key progress) distinct
    rw [others progress] at rest
    exact rest

end Lessons

section Outcomes

variable (setting : Setting) (user : UserId) (course : CourseId) (b : Backend) (lessons : List Lesson)

def enrollSteps : List WalkStep := walkOver (fun _ => false) lessons

def syncSteps (old : Enrollment) : List WalkStep := walkOver old.state.tracks lessons

def enrollmentNow (newId : Uuid) : Enrollment :=
  .around newId user course setting.now (Merge.course setting.now {}
    (lessons.map (·.outline (setting.handler.answers b).deckCards)))

def syncedNow (old : Enrollment) : Enrollment :=
  old.again setting.now (Merge.course setting.now old.state
    (lessons.map (·.outline (setting.handler.answers b).deckCards)))

structure EnrollWalked (newId : Uuid)
    (ran : Except EnrollError Enrollment × Backend × List Operation) : Prop where
  unreferred : ∀ lesson,
    (setting.handler.answers b).stopOf (enrollSteps lessons) = some (.noDecksReferenced lesson) →
    ran = (.error (.noDecksReferenced lesson),b,
      .listLessons course .ascending :: (setting.handler.answers b).lookUps (enrollSteps lessons))
  unfetched : ∀ why,
    (setting.handler.answers b).stopOf (enrollSteps lessons) = some (.storage why) →
    ran = (.error (.storage why),b,
      .listLessons course .ascending :: (setting.handler.answers b).lookUps (enrollSteps lessons))
  passed : (setting.handler.answers b).stopOf (enrollSteps lessons) = none →
    ran = (match (setting.handler
          (.createProgress (enrollmentNow setting user course b lessons newId)) b).1 with
        | .ok () => .ok (enrollmentNow setting user course b lessons newId)
        | .error .conflict => .error .alreadyEnrolled
        | .error why => .error (.storage why),
      (setting.handler (.createProgress (enrollmentNow setting user course b lessons newId)) b).2,
      .listLessons course .ascending :: (setting.handler.answers b).lookUps (enrollSteps lessons) ++
        [.createProgress (enrollmentNow setting user course b lessons newId)])
  once : (ran.2.2.filter (·.looksUpDeck)).Nodup

structure SyncWalked (old : Enrollment)
    (ran : Except SyncError Enrollment × Backend × List Operation) : Prop where
  unreferred : ∀ lesson,
    (setting.handler.answers b).stopOf (syncSteps lessons old) = some (.noDecksReferenced lesson) →
    ran = (.error (.noDecksReferenced lesson),b,
      .getProgress user course :: .listLessons course .ascending ::
        (setting.handler.answers b).lookUps (syncSteps lessons old))
  unfetched : ∀ why,
    (setting.handler.answers b).stopOf (syncSteps lessons old) = some (.storage why) →
    ran = (.error (.storage why),b,.getProgress user course :: .listLessons course .ascending ::
      (setting.handler.answers b).lookUps (syncSteps lessons old))
  passed : (setting.handler.answers b).stopOf (syncSteps lessons old) = none →
    ran = (match (setting.handler (.saveProgress (syncedNow setting b lessons old)) b).1 with
        | .ok () => .ok (syncedNow setting b lessons old)
        | .error why => .error (.storage why),
      (setting.handler (.saveProgress (syncedNow setting b lessons old)) b).2,
      .getProgress user course :: .listLessons course .ascending ::
        (setting.handler.answers b).lookUps (syncSteps lessons old) ++
        [.saveProgress (syncedNow setting b lessons old)])
  once : (ran.2.2.filter (·.looksUpDeck)).Nodup
  noProgressError : ∀ e, ran.1 ≠ .error (.progress e)

end Outcomes

section Walked

variable {setting : Setting} {user : UserId} {course : CourseId} {b : Backend}
  {lessons : List Lesson}

theorem Walks.asksAll {ε α : Type} {answers : Answers} {steps : List WalkStep}
    {rename : MaterializeError → ε} {leaves : List DeckId → α → Prop} {script : Script ε α}
    (walks : Walks answers [] steps rename leaves script) :
    script.asked answers = answers.lookUps steps := by
  rw [walks.asks,Answers.lookUps]
  simp [List.removeAll]

theorem lookUpsOnce (answers : Answers) (steps : List WalkStep) (before behind : List Operation)
    (others : ∀ op ∈ before ++ behind, op.looksUpDeck = false) :
    ((before ++ answers.lookUps steps ++ behind).filter (·.looksUpDeck)).Nodup := by
  have none (calls : List Operation) (inside : calls ⊆ before ++ behind) :
      calls.filter (·.looksUpDeck) = [] :=
    List.filter_eq_nil_iff.mpr fun op member => by simp [others op (inside member)]
  have all : (answers.lookUps steps).filter (·.looksUpDeck) = answers.lookUps steps := by
    refine List.filter_eq_self.mpr fun op member => ?_
    obtain ⟨id,_,rfl⟩ := List.mem_map.mp member
    rfl
  rw [List.filter_append,List.filter_append,none before (List.subset_append_left _ _),
    none behind (List.subset_append_right _ _),all,List.nil_append,List.append_nil]
  exact (nodupEraseDups _).map fun _ _ same => Operation.getDeck.inj same

theorem enrollWalked (newId : Uuid) (distinct : (lessons.map (·.id)).Nodup)
    (nonempty : lessons ≠ [])
    (listed : setting.handler.answers b (.listLessons course .ascending) = .ok lessons) :
    EnrollWalked setting user course b lessons newId
      ((enroll newId setting.now user course).runRecorded setting.handler b) := by
  obtain ⟨first,rest,rfl⟩ := List.exists_cons_of_ne_nil nonempty
  have walk := materializeLessonsWalk (nothingKnown (setting.handler.answers b)) {} (first :: rest)
  obtain ⟨evals,asks⟩ := @enrollPlanListed _ user course setting.now newId _ _ listed
  rw [walk.asksAll] at asks
  rw [enrollRecorded setting.transactional.quiet,evals,asks]
  cases stop : (setting.handler.answers b).stopOf (enrollSteps (first :: rest)) with
  | some why =>
    rw [walk.stops why stop]
    refine ⟨fun lesson found => ?_,fun e found => ?_,
      fun passed => (nomatch stop.symm.trans passed),?_⟩
    · cases stop.symm.trans found
      rfl
    · cases stop.symm.trans found
      rfl
    · have once := lookUpsOnce (setting.handler.answers b) (enrollSteps (first :: rest))
        [.listLessons course .ascending] [] (by simp [Operation.looksUpDeck])
      rwa [List.append_nil] at once
  | none =>
    obtain ⟨tree,made,-⟩ := walk.passes stop
    have planned : ((.ok tree : Except MaterializeError CourseProgress).mapError
        MaterializeError.toEnrollError >>= fun state => .ok (Enrollment.start newId user course
          { state with currentLessonId := some first.id } setting.now)) =
        .ok (enrollmentNow setting user course b (first :: rest) newId) := by
      rw [enrollmentNow,← materializedIsMerge setting.now distinct made]
      rfl
    rw [made,planned]
    refine ⟨fun lesson found => (nomatch stop.symm.trans found),
      fun why found => (nomatch stop.symm.trans found),fun _ => ?_,?_⟩
    · refine congrArg (·,_) ?_
      cases (setting.handler
          (.createProgress (enrollmentNow setting user course b (first :: rest) newId)) b).1 with
      | ok reply => rfl
      | error why => cases why <;> rfl
    · exact lookUpsOnce (setting.handler.answers b) (enrollSteps (first :: rest))
        [.listLessons course .ascending] _ (by simp [Operation.looksUpDeck])

theorem syncWalked {old : Enrollment} (distinct : (lessons.map (·.id)).Nodup)
    (loaded : setting.handler.answers b (.getProgress user course) = .ok old)
    (listed : setting.handler.answers b (.listLessons course .ascending) = .ok lessons) :
    SyncWalked setting user course b lessons old
      ((sync setting.now user course).runRecorded setting.handler b) := by
  have walk := reconcileLessonsWalk (nothingKnown (setting.handler.answers b)) old.state
    (lessonKeysDistinct distinct)
  obtain ⟨evals,asks⟩ := @syncPlanLoaded _ _ _ setting.now _ _ loaded listed
  rw [walk.asksAll] at asks
  rw [syncRecorded setting.transactional.quiet,evals,asks]
  cases stop : (setting.handler.answers b).stopOf (syncSteps lessons old) with
  | some why =>
    rw [walk.stops why stop]
    refine ⟨fun lesson found => ?_,fun e found => ?_,
      fun passed => (nomatch stop.symm.trans passed),?_,?_⟩
    · cases stop.symm.trans found
      rfl
    · cases stop.symm.trans found
      rfl
    · have once := lookUpsOnce (setting.handler.answers b) (syncSteps lessons old)
        [.getProgress user course,.listLessons course .ascending] [] (by simp [Operation.looksUpDeck])
      rwa [List.append_nil] at once
    · intro e same
      cases why <;> cases same
  | none =>
    obtain ⟨tree,made,-⟩ := walk.passes stop
    have planned : ((.ok tree : Except SyncError CourseProgress) >>= fun state =>
        .ok (old.withState (state.settle lessons setting.now) setting.now,lessons)) =
        .ok (syncedNow setting b lessons old,lessons) := by
      rw [syncedNow,← settledIsMerge setting.now distinct made]
      rfl
    rw [made,planned]
    refine ⟨fun lesson found => (nomatch stop.symm.trans found),
      fun why found => (nomatch stop.symm.trans found),fun _ => ?_,?_,fun e same => ?_⟩
    · refine congrArg (·,_) ?_
      cases (setting.handler (.saveProgress (syncedNow setting b lessons old)) b).1 <;> rfl
    · exact lookUpsOnce (setting.handler.answers b) (syncSteps lessons old)
        [.getProgress user course,.listLessons course .ascending] _ (by simp [Operation.looksUpDeck])
    · dsimp only at same
      cases wrote : (setting.handler (.saveProgress (syncedNow setting b lessons old)) b).1 <;>
        rw [wrote] at same <;> cases same

end Walked

/-- What enrolling and syncing call and come to is told by the walk over the listed lessons. Decks are
looked up in the order of their first appearance, each once, to the step that stops the walk; that step
gives the error. Behind a whole walk there is one write, which decides the outcome, and behind any other
walk there is none. -/
theorem contentsAreWalked :
    (∀ (setting : Setting) (newId : Uuid) (user : UserId) (course : CourseId) (b : Backend)
      (lessons : List Lesson), (lessons.map (·.id)).Nodup → lessons ≠ [] →
      setting.handler.answers b (.listLessons course .ascending) = .ok lessons →
      EnrollWalked setting user course b lessons newId
        ((enroll newId setting.now user course).runRecorded setting.handler b)) ∧
    ∀ (setting : Setting) (user : UserId) (course : CourseId) (b : Backend) (lessons : List Lesson)
      (old : Enrollment), (lessons.map (·.id)).Nodup →
      setting.handler.answers b (.getProgress user course) = .ok old →
      setting.handler.answers b (.listLessons course .ascending) = .ok lessons →
      SyncWalked setting user course b lessons old
        ((sync setting.now user course).runRecorded setting.handler b) := by
  constructor
  · intro setting newId user course b lessons distinct nonempty listed
    exact enrollWalked newId distinct nonempty listed
  · intro setting user course b lessons old distinct loaded listed
    exact syncWalked distinct loaded listed

namespace Sample

def recap : Lesson := { lesson with id := ⟨.ofNat 10⟩, order := 2 }
def wordless : Lesson := { lesson with id := ⟨.ofNat 11⟩, order := 3, body := "read this" }

def reader : Enrollment := .start (.ofNat 8) user course
  { lessons := KeyMap.ofList [(wordless.id.key,{ isCompleted := true })] } setting.now

def lengthened : Backend :=
  { repository := .memory
      { lessons := [wordless,recap,lesson], decks := [deck], enrollments := [reader] } }

def lengthenedLessons : List Lesson := [lesson,recap,wordless]

end Sample

theorem sampleContentsAreWalked :
    (Sample.setting.handler.answers Sample.lengthened).stopOf (enrollSteps Sample.lengthenedLessons) =
        some (.noDecksReferenced Sample.wordless.id) ∧
      EnrollWalked Sample.setting Sample.user Sample.course Sample.lengthened
        Sample.lengthenedLessons (.ofNat 12)
        ((enroll (.ofNat 12) Sample.setting.now Sample.user Sample.course).runRecorded
          Sample.setting.handler Sample.lengthened) ∧
      (Sample.setting.handler.answers Sample.lengthened).lookUps
          (syncSteps Sample.lengthenedLessons Sample.reader) = [.getDeck Sample.deck.id] ∧
      SyncWalked Sample.setting Sample.user Sample.course Sample.lengthened
        Sample.lengthenedLessons Sample.reader
        ((sync Sample.setting.now Sample.user Sample.course).runRecorded Sample.setting.handler
          Sample.lengthened) := by
  have distinct : (Sample.lengthenedLessons.map (·.id)).Nodup := by decide
  have listed : Sample.setting.handler.answers Sample.lengthened
      (.listLessons Sample.course .ascending) = .ok Sample.lengthenedLessons := by decide +kernel
  have loaded : Sample.setting.handler.answers Sample.lengthened
      (.getProgress Sample.user Sample.course) = .ok Sample.reader := by decide +kernel
  refine ⟨by decide +kernel,?_,by decide +kernel,?_⟩
  · exact contentsAreWalked.1 _ _ _ _ _ _ distinct (List.cons_ne_nil _ _) listed
  · exact contentsAreWalked.2 _ _ _ _ _ _ distinct loaded listed

end Coursework
