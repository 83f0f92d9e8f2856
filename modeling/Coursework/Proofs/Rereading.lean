import Coursework.Proofs.NewContent
import Coursework.Proofs.ReadBack
import Coursework.Proofs.Tallied

/-! An enrollment that a store gave out is given out again as it was saved. Instants that were read
are on days that the reader can name, so they stay readable; all that a batch adds to them is the
instant of its clock. -/
namespace Coursework

namespace Instant

theorem placedAt {seconds : Int} {nanos : Nat} {t : Instant} (made : of? seconds nanos = some t) :
    t.seconds = seconds := by
  unfold of? at made
  split at made
  · cases Option.some.inj made
    rfl
  · cases made

theorem LocalTime.named {l : LocalTime} {offset : Int} {t : Instant}
    (read : l.toInstant? offset = some t) : t.isNamed = true := by
  obtain ⟨_,valid⟩ := Option.ite_none_right_eq_some.mp read
  obtain ⟨within,made⟩ := Option.ite_none_right_eq_some.mp valid
  rw [isNamed,Bool.and_eq_true,decide_eq_true_eq,decide_eq_true_eq,placedAt made]
  exact within

theorem parsedNamed {s : String} {t : Instant} (read : parse? s = some t) : t.isNamed = true := by
  obtain ⟨_,_,shown⟩ := Option.bind_eq_some_iff.mp read
  exact LocalTime.named shown

end Instant

namespace Json

theorem entriesDecoded {V : Type} [Form V] {members : List (Literal × Value)}
    {entries : List (String × V)} (read : members.mapM decodeMember? = some entries) :
    ∀ e ∈ entries, ∃ w, decode? w = some e.2 := by
  induction members generalizing entries with
  | nil =>
    cases Option.some.inj read
    exact fun e member => nomatch member
  | cons m members ih =>
    simp only [List.mapM_cons,Option.bind_eq_bind,Option.bind_eq_some_iff,Option.pure_def,
      Option.some.injEq] at read
    obtain ⟨first,decoded,rest,others,rfl⟩ := read
    obtain ⟨key,_,value⟩ := Option.bind_eq_some_iff.mp decoded
    obtain ⟨v,held,same⟩ := Option.bind_eq_some_iff.mp value
    cases Option.some.inj same
    exact List.forall_mem_cons.mpr ⟨⟨_,held⟩,ih others⟩

section Decoded

variable {V : Type} [Form V] {P : V → Prop}

theorem valuesDecoded (each : ∀ w a, decode? w = some a → P a) {v : Value} {m : KeyMap V}
    (read : decode? v = some m) : ∀ key a, m.get? key = some a → P a := by
  intro key a held
  cases v with
  | object members =>
    obtain ⟨entries,decoded,rfl⟩ := Option.map_eq_some_iff.mp read
    rcases KeyMap.getFoldHolds held with inside | none
    · obtain ⟨w,value⟩ := entriesDecoded decoded _ inside
      exact each w a value
    · cases none
  | _ => cases read

theorem memberDecoded (each : ∀ w a, decode? w = some a → P a) {field : Option Value}
    {m : KeyMap V} (read : optional? .empty field = some m) :
    ∀ key a, m.get? key = some a → P a := by
  cases field with
  | none =>
    cases Option.some.inj read
    exact fun key a none => nomatch none
  | some v => exact valuesDecoded each read

end Decoded

theorem stampDecoded {field : Option Value} {o : Option Instant}
    (read : optional? none field = some o) : ∀ t, o = some t → t.isNamed = true := by
  rintro t rfl
  cases field with
  | none => cases read
  | some v =>
    cases v with
    | string s =>
      obtain ⟨_,decoded,same⟩ := Option.map_eq_some_iff.mp read
      cases Option.some.inj same
      obtain ⟨_,_,parsed⟩ := Option.bind_eq_some_iff.mp decoded
      exact Instant.parsedNamed parsed
    | _ => cases read

theorem cardDecoded (v : Value) (c : CardProgress) (read : decode? v = some c) :
    c.TimesAre (·.isNamed = true) := by
  obtain ⟨found,_,rest⟩ := Option.bind_eq_some_iff.mp read
  split at rest
  · simp only [Option.bind_eq_bind,Option.bind_eq_some_iff] at rest
    obtain ⟨_,_,_,_,_,_,stamp,set,same⟩ := rest
    cases Option.some.inj same
    exact stampDecoded set
  · cases rest

theorem deckDecoded (v : Value) (d : DeckProgress) (read : decode? v = some d) :
    d.TimesAre (·.isNamed = true) := by
  obtain ⟨found,_,rest⟩ := Option.bind_eq_some_iff.mp read
  split at rest
  · simp only [Option.bind_eq_bind,Option.bind_eq_some_iff] at rest
    obtain ⟨_,cards,_,_,_,set,same⟩ := rest
    cases Option.some.inj same
    exact ⟨memberDecoded cardDecoded cards,stampDecoded set⟩
  · cases rest

theorem lessonDecoded (v : Value) (l : LessonProgress) (read : decode? v = some l) :
    l.TimesAre (·.isNamed = true) := by
  obtain ⟨found,_,rest⟩ := Option.bind_eq_some_iff.mp read
  split at rest
  · simp only [Option.bind_eq_bind,Option.bind_eq_some_iff] at rest
    obtain ⟨_,decks,_,_,_,set,same⟩ := rest
    cases Option.some.inj same
    exact ⟨memberDecoded deckDecoded decks,stampDecoded set⟩
  · cases rest

theorem courseDecoded (v : Value) (p : CourseProgress) (read : decode? v = some p) :
    p.TimesAre (·.isNamed = true) := by
  obtain ⟨found,_,rest⟩ := Option.bind_eq_some_iff.mp read
  split at rest
  · simp only [Option.bind_eq_bind,Option.bind_eq_some_iff] at rest
    obtain ⟨_,lessons,_,_,same⟩ := rest
    cases Option.some.inj same
    exact memberDecoded lessonDecoded lessons
  · cases rest

theorem readNamed {s : String} {p : CourseProgress} (read : read? s = some p) :
    p.TimesAre (·.isNamed = true) := by
  obtain ⟨v,_,decoded⟩ := Option.bind_eq_some_iff.mp read
  exact courseDecoded v p decoded

end Json

section Timed

variable {P : Instant → Prop} {now : Instant} {deck : String} {count : String → Bool → Nat}

theorem Mark.SetOn.timed {cause : Prop} {m after : Mark} (set : SetOn now cause m after)
    (this : P now) (times : ∀ t, m.completedAt = some t → P t) :
    ∀ t, after.completedAt = some t → P t := by
  intro t stamp
  rcases set.either with same | same
  · rw [same] at stamp
    cases Option.some.inj stamp
    exact this
  · exact times t (same ▸ stamp)

theorem DeckProgress.Tallied.timed {d after : DeckProgress} (tallied : d.Tallied now count after)
    (this : P now) (times : d.TimesAre P) : after.TimesAre P := by
  refine ⟨fun key c' kept => ?_,tallied.mark.timed this times.own⟩
  obtain ⟨c,held,card⟩ := tallied.before kept
  exact card.mark.timed this (times.cards key c held)

theorem LessonProgress.Tallied.timed {l after : LessonProgress}
    (tallied : l.Tallied now deck count after) (this : P now) (times : l.TimesAre P) :
    after.TimesAre P := by
  obtain ⟨d,d',inside⟩ := tallied
  refine ⟨fun key new kept => ?_,inside.mark.timed this times.own⟩
  by_cases here : key = deck
  · subst here
    cases Option.some.inj (inside.kept.symm.trans kept)
    exact inside.tallied.timed this (times.decks key d inside.held)
  · exact times.decks key new ((inside.others key here).symm.trans kept)

theorem CourseProgress.Tallied.timed {lesson : String} {p after : CourseProgress}
    (tallied : p.Tallied now lesson deck count after) (this : P now) (times : p.TimesAre P) :
    after.TimesAre P := by
  obtain ⟨l,l',held,kept,inside⟩ := tallied.inside
  intro key new found
  by_cases here : key = lesson
  · subst here
    cases Option.some.inj (kept.symm.trans found)
    exact inside.timed this (times key l held)
  · exact times key new ((tallied.others key here).symm.trans found)

end Timed

section Saved

variable {user : UserId} {course : CourseId} {old : Enrollment} {state : CourseProgress}
  {now : Instant}

theorem Repository.givesBackSaved {r : Repository} (stored : r.stored user course = .ok old)
    (named : now.isNamed = true)
    (times : old.state.TimesAre (·.isNamed = true) → state.TimesAre (·.isNamed = true)) :
    r.givesBack (old.withState state now) = .ok (old.withState state now) := by
  cases r with
  | memory m => rfl
  | tables d =>
    rw [Database.storedOf] at stored
    split at stored
    · rename_i row _
      have told := (ProgressRow.readSays stored).state
      have read : Json.read? (Json.write state) = some state :=
        Json.treeReadBack (times (Json.readNamed told))
      have updated := storedInstant named
      simp only [givesBack,Enrollment.withState,read,updated]
      rfl
    · cases stored

theorem Setting.savedReread {setting : Setting} {b after : Backend}
    (stored : b.repository.stored user course = .ok old) (named : setting.now.isNamed = true)
    (times : old.state.TimesAre (·.isNamed = true) → state.TimesAre (·.isNamed = true))
    (saved : setting.handler (.saveProgress (old.withState state setting.now)) b = (.ok (),after)) :
    after.repository.stored user course = .ok (old.withState state setting.now) := by
  have given := Repository.givesBackSaved stored named times
  obtain ⟨rfl,rfl⟩ := Repository.storedBelongs stored
  have carried := congrArg Prod.fst saved
  have again := Setting.saveGives carried stored
  rw [saved] at again
  exact again.trans given

end Saved

end Coursework
