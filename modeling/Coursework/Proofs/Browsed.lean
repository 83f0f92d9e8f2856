import Coursework.Proofs.GivenBack

/-! What a learner is shown of a course: the public listing, with the marks of the tree that the sync
behind it stores. A merge leaves nothing to promote, so a lesson is shown as complete exactly if it is
marked complete, and the lesson to go on with is the first one that is not shown so. -/
namespace Coursework

theorem filterOnly {α β : Type} {f : α → β} {p : α → Bool} {a : α} {as : List α}
    (distinct : (as.map f).Nodup) (member : a ∈ as) (own : ∀ b, p b = true ↔ f a = f b) :
    as.filter p = [a] := by
  induction as with
  | nil => cases member
  | cons b bs ih =>
    obtain ⟨fresh,distinct⟩ := List.nodup_cons.mp distinct
    rcases List.mem_cons.mp member with rfl | inside
    · have rest : bs.filter p = [] := List.filter_eq_nil_iff.mpr fun c there found =>
        fresh (List.mem_map.mpr ⟨c,there,((own c).mp found).symm⟩)
      rw [List.filter_cons_of_pos ((own a).mpr rfl),rest]
    · have apart : ¬ p b = true := fun found =>
        fresh (List.mem_map.mpr ⟨a,inside,(own b).mp found⟩)
      rw [List.filter_cons_of_neg apart,ih distinct inside]

section Marked

variable {now : Instant} {old : CourseProgress} {cards : DeckId → List CardId} {lessons : List Lesson}

theorem listedLesson (distinct : (lessons.map (·.id)).Nodup) {l : Lesson} (member : l ∈ lessons) :
    (Merge.course now old (lessons.map (·.outline cards))).lesson? l.id.key =
      some (Merge.courseLesson now old (l.outline cards)) :=
  Merge.courseLessonAt now old (outlinesApart cards distinct).lessons
    (List.mem_map.mpr ⟨l,member,rfl⟩)

theorem listedCompleted (distinct : (lessons.map (·.id)).Nodup) {l : Lesson} (member : l ∈ lessons) :
    (Merge.course now old (lessons.map (·.outline cards))).isLessonCompleted l.id.key =
      (Merge.courseLesson now old (l.outline cards)).isCompleted := by
  have settled : (Merge.courseLesson now old (l.outline cards)).isPromotable = false :=
    (Merge.lessonSettled _ (outlineDistinct l cards)).own
  rw [CourseProgress.isLessonCompleted,listedLesson distinct member,Option.any_some]
  rw [LessonProgress.isPromotable] at settled
  cases marked : (Merge.courseLesson now old (l.outline cards)).isCompleted with
  | true => rfl
  | false =>
    rw [marked] at settled
    exact settled

theorem listedCurrent (distinct : (lessons.map (·.id)).Nodup) :
    (Merge.course now old (lessons.map (·.outline cards))).currentLessonId =
      ((lessons.find? fun l => !(Merge.course now old (lessons.map (·.outline cards))).isLessonCompleted
        l.id.key).or lessons.getLast?).map (·.id) := by
  have open_ : (lessons.find? fun l => !(Merge.course now old
      (lessons.map (·.outline cards))).isLessonCompleted l.id.key) =
      lessons.find? fun l => !(Merge.courseLesson now old (l.outline cards)).isCompleted :=
    List.find?_congr fun l member => by rw [listedCompleted distinct member]
  change Merge.current now old (lessons.map (·.outline cards)) = _
  rw [open_,Merge.current,List.find?_map,List.getLast?_map]
  simp only [Function.comp_def]
  cases lessons.find? fun l => !(Merge.courseLesson now old (l.outline cards)).isCompleted with
  | some l => rfl
  | none =>
    rw [Option.none_or]
    cases lessons.getLast? <;> rfl

theorem listedMark (distinct : (lessons.map (·.id)).Nodup) {state : CourseProgress}
    (merged : state = Merge.course now old (lessons.map (·.outline cards))) {l : Lesson}
    (member : l ∈ lessons) :
    ∃ progress, state.lesson? l.id.key = some progress ∧
      progress.isCompleted = state.isLessonCompleted l.id.key := by
  rw [merged]
  exact ⟨_,listedLesson distinct member,(listedCompleted distinct member).symm⟩

end Marked

def LessonWithProgress.emptied (item : LessonWithProgress) : LessonWithProgress :=
  { item with lesson := { item.lesson with body := "" } }

/- What browsing comes to for a learner. The same lessons are listed for everyone. One of them is the
current one: the first that is not complete, or else the last. They are marked as in the tree that is
stored by then, which is what a sync would have stored. Without the texts nothing else is different. -/
structure Browsed (setting : Setting) (user : UserId) (course : CourseId) (b after : Backend)
    (shown : List LessonWithProgress) (new : Enrollment) : Prop where
  full : (browse setting.now course { user := some user }).run setting.handler b =
    (.ok (.withProgress shown),after)
  bodyless : (browse setting.now course { user := some user, bodyless := true }).run
    setting.handler b = (.ok (.withProgress (shown.map (·.emptied))),after)
  listed : setting.handler.answers b (.listLessons course .ascending) = .ok (shown.map (·.lesson))
  publicly : (browse setting.now course {}).run setting.handler b =
    (.ok (.plain (shown.map (·.lesson))),b)
  current : shown.filter (·.isCurrent) =
    ((shown.find? fun item => !item.isCompleted).or shown.getLast?).toList
  completed : ∀ item ∈ shown, ∃ l, new.state.lesson? item.lesson.id.key = some l ∧
    l.isCompleted = item.isCompleted ∧
    new.state.isLessonCompleted item.lesson.id.key = item.isCompleted
  synced : (sync setting.now user course).run setting.handler b = (.ok new,after)
  stored : ∀ found, after.repository.stored user course = .ok found → found.state = new.state
  reread : setting.now.HasShortYear → after.repository.stored user course = .ok new

section Browsing

variable {setting : Setting} {user : UserId} {course : CourseId} {b after : Backend}

theorem onlyCurrent {state : CourseProgress} {lessons : List Lesson}
    (distinct : (lessons.map (·.id)).Nodup) {next : Option Lesson} (listed : ∀ l ∈ next, l ∈ lessons)
    (none : next = none → lessons = []) (current : state.currentLessonId = next.map (·.id)) :
    lessons.filter (fun l => state.isCurrent l.id) = next.toList := by
  cases next with
  | none =>
    rw [none rfl]
    rfl
  | some l =>
    refine filterOnly distinct (listed l rfl) fun other => ?_
    rw [CourseProgress.isCurrent,current]
    simp

theorem shownCurrent {now : Instant} {old state : CourseProgress} {cards : DeckId → List CardId}
    {lessons : List Lesson} {options : BrowseOptions} {shown : List LessonWithProgress}
    (distinct : (lessons.map (·.id)).Nodup)
    (merged : state = Merge.course now old (lessons.map (·.outline cards)))
    (are : shown = lessons.map (.of options state)) :
    shown.filter (·.isCurrent) =
      ((shown.find? fun item => !item.isCompleted).or shown.getLast?).toList := by
  have current : state.currentLessonId = ((lessons.find? fun l =>
      !state.isLessonCompleted l.id.key).or lessons.getLast?).map (·.id) := by
    rw [merged]
    exact listedCurrent distinct
  have only := onlyCurrent distinct (fun l member => ?_) (fun none => ?_) current
  · rw [are,List.filter_map,List.find?_map,List.getLast?_map,← Option.map_or,Option.toList_map]
    exact congrArg _ only
  · rcases Option.or_eq_some_iff.mp member with first | last
    · exact List.mem_of_find?_eq_some first
    · exact List.mem_of_getLast? last.2
  · exact List.getLast?_eq_none_iff.mp (Option.or_eq_none_iff.mp none).2

/-- Browsing for a learner shows the public listing with the marks of what a sync stores. -/
theorem browsedIsSynced {bodyless : Bool} {listing : LessonListing}
    (apart : b.repository.ListsApart course)
    (ok : (browse setting.now course { user := some user, bodyless }).run setting.handler b =
      (.ok listing,after)) :
    ∃ shown new, Browsed setting user course b after shown new ∧
      listing = .withProgress (if bodyless then shown.map (·.emptied) else shown) := by
  obtain ⟨new,lessons,ran,rfl⟩ := browseOk rfl ok
  have served := syncServed setting.transactional (Setting.listsApart apart) ran
  have distinct := Setting.listsApart apart lessons served.listed
  obtain ⟨old,loaded,same⟩ := served.merged
  have merged : new.state = Merge.course setting.now old.state
      (lessons.map (·.outline (setting.handler.answers b).deckCards)) := by
    rw [same]
    rfl
  have runs (options : BrowseOptions) (learner : options.user = some user) :
      (browse setting.now course options).run setting.handler b =
        (.ok (.withProgress (lessons.map (.of options new.state))),after) := by
    rw [browseRuns learner,ran]
    rfl
  have synced : (sync setting.now user course).run setting.handler b = (.ok new,after) := by
    rw [syncRuns,ran]
    rfl
  have whole : (lessons.map (.of { user := some user } new.state)).map LessonWithProgress.lesson =
      lessons := by
    rw [List.map_map]
    exact List.map_id lessons
  refine ⟨lessons.map (.of { user := some user } new.state),new,?_,?_⟩
  · constructor
    case full => exact runs _ rfl
    case bodyless =>
      rw [runs _ rfl,List.map_map]
      rfl
    case listed => rw [whole,served.listed]
    case publicly =>
      have same : lessons.map (BrowseOptions.present {}) = lessons := List.map_id lessons
      have listing : (browse setting.now course {}).eval (setting.handler.answers b) =
          .ok (.plain (lessons.map (BrowseOptions.present {}))) :=
        (Script.called served.listed _).1
      rw [Script.runReading setting.transactional.quiet (publicBrowseReads _ _ _),listing,same,whole]
    case current => exact shownCurrent distinct merged rfl
    case completed =>
      intro item member
      obtain ⟨l,inside,rfl⟩ := List.mem_map.mp member
      obtain ⟨progress,tracked,marked⟩ := listedMark distinct merged inside
      exact ⟨progress,tracked,marked,rfl⟩
    case synced => exact synced
    case stored =>
      obtain ⟨_,_,_,_,left⟩ := syncLeft (Setting.listsApart apart) ran
      exact fun found read => (left.shown found read).state
    case reread => exact fun short => congrArg Prod.fst (syncGivesBack short.named synced).loads
  · cases bodyless with
    | true =>
      rw [if_pos rfl,List.map_map]
      rfl
    | false => rfl

end Browsing

namespace Sample

def doneUnmarked : LessonProgress :=
  { decks := .ofList [(deck.id.key,{ cards := .ofList [(card.id.key,{ isCompleted := true })] })] }

def misled : CourseProgress :=
  { lessons := .ofList [(second.id.key,doneUnmarked),(lesson.id.key,{ isCompleted := true })],
    currentLessonId := some ⟨.ofNat 0⟩ }

def relearned : Backend :=
  { repository := .memory
      { lessons := [lesson,second], decks := [deck],
        enrollments := [.start (.ofNat 8) user course misled setting.now] } }

end Sample

theorem sampleBrowsedIsSynced :
    ∃ shown new listing after,
      (browse Sample.setting.now Sample.course { user := some Sample.user, bodyless := true }).run
        Sample.setting.handler Sample.relearned = (.ok listing,after) ∧
      Browsed Sample.setting Sample.user Sample.course Sample.relearned after shown new ∧
      listing = .withProgress (shown.map (·.emptied)) := by
  have apart : Sample.relearned.repository.ListsApart Sample.course := by
    intro lessons listed
    have same : Sample.relearned.repository.listing Sample.course =
        .ok [Sample.second,Sample.lesson] := by decide +kernel
    cases Except.ok.inj (same.symm.trans listed)
    decide
  obtain ⟨listing,after,ran⟩ := Sample.outcomeOf
    (r := (browse Sample.setting.now Sample.course
      { user := some Sample.user, bodyless := true }).run Sample.setting.handler Sample.relearned)
    (by decide +kernel)
  obtain ⟨shown,new,browsed,told⟩ := browsedIsSynced apart ran
  exact ⟨shown,new,listing,after,ran,browsed,told⟩

end Coursework
