import Coursework.Proofs.Stamps
import Coursework.Proofs.Tallied

/-! One pass over a tree from the decks up. It marks what is not marked while all its parts are, the
decks before their lesson, and counts those marks. After it nothing is left to mark, however stale the
tree was, and answers leave nothing to mark either. -/
namespace Coursework

namespace CourseProgress

def PartsComplete (p : CourseProgress) : Place → Prop
  | .lesson lesson => (∃ deck d, p.deck? lesson deck = some d) ∧
      ∀ deck d, p.deck? lesson deck = some d → d.isCompleted = true
  | .deck lesson deck => (∃ card c, p.card? lesson deck card = some c) ∧
      ∀ card c, p.card? lesson deck card = some c → c.isCompleted = true

def Promotable (p : CourseProgress) (place : Place) : Prop :=
  ¬p.CompleteAt place ∧ p.PartsComplete place

/- What a pass at an instant leaves of a tree. Whether a lesson has all its parts is asked after its
decks were marked. -/
structure RolledUp (p : CourseProgress) (now : Instant) (after : CourseProgress) : Prop where
  lessons : ∀ lesson, (after.lesson? lesson).isSome = (p.lesson? lesson).isSome
  decks : ∀ lesson deck, (after.deck? lesson deck).isSome = (p.deck? lesson deck).isSome
  cards : ∀ lesson deck, after.card? lesson deck = p.card? lesson deck
  marks : ∀ place, (p.markAt place).SetOn now (after.PartsComplete place) (after.markAt place)
  current : after.currentLessonId = p.currentLessonId

structure AtRest (p : CourseProgress) : Prop where
  nothing : ∀ place, ¬p.Promotable place
  counts : ∀ now, p.promotions now = 0
  stays : ∀ now, p.rollUp now = p

section Parts

variable {p after : CourseProgress} {lesson deck : String} {l : LessonProgress} {d : DeckProgress}

theorem deckInside (found : p.lesson? lesson = some l) (deck : String) :
    p.deck? lesson deck = l.decks.get? deck := by
  rw [deck?,found,Option.bind_some]

theorem lessonPartsIff (found : p.lesson? lesson = some l) :
    p.PartsComplete (.lesson lesson) ↔ l.allDecksCompleted = true := by
  rw [LessonProgress.allDecksCompletedIff,PartsComplete]
  simp only [deckInside found]

theorem deckPartsIff (found : p.deck? lesson deck = some d) :
    p.PartsComplete (.deck lesson deck) ↔ d.allCardsCompleted = true := by
  rw [DeckProgress.allCardsCompletedIff,PartsComplete]
  simp only [card?,found,Option.bind_some]

theorem lessonNoParts (missing : p.lesson? lesson = none) : ¬p.PartsComplete (.lesson lesson) := by
  rintro ⟨⟨deck,d,found⟩,-⟩
  rw [deck?,missing] at found
  cases found

theorem deckNoParts (missing : p.deck? lesson deck = none) :
    ¬p.PartsComplete (.deck lesson deck) := by
  rintro ⟨⟨card,c,found⟩,-⟩
  rw [card?,missing] at found
  cases found

theorem deckHeld (found : p.deck? lesson deck = some d) :
    ∃ l, p.lesson? lesson = some l ∧ l.decks.get? deck = some d :=
  Option.bind_eq_some_iff.mp found

theorem deckMarkIs (found : p.deck? lesson deck = some d) :
    p.markAt (.deck lesson deck) = d.mark := by
  rw [markAt,found]
  rfl

theorem Settled.nothingPromotable (settled : p.Settled) (place : Place) : ¬p.Promotable place := by
  rintro ⟨open_,parts⟩
  rw [CompleteAt,Bool.not_eq_true] at open_
  cases place with
  | lesson lesson =>
    cases found : p.lesson? lesson with
    | none => exact lessonNoParts found parts
    | some l =>
      have own := (settled lesson l found).own
      have unmarked : l.isCompleted = false := by rwa [lessonMarked found] at open_
      rw [LessonProgress.isPromotable,unmarked,(lessonPartsIff found).mp parts] at own
      cases own
  | deck lesson deck =>
    cases found : p.deck? lesson deck with
    | none => exact deckNoParts found parts
    | some d =>
      obtain ⟨l,held,inside⟩ := deckHeld found
      have own := (settled lesson l held).decks deck d inside
      have unmarked : d.isCompleted = false := by rwa [deckMarkIs found] at open_
      rw [DeckProgress.isPromotable,unmarked,(deckPartsIff found).mp parts] at own
      cases own

theorem Settled.atRest (settled : p.Settled) : p.AtRest :=
  ⟨settled.nothingPromotable,promotionsSettled settled,rollUpSettled settled⟩

end Parts

section Rolled

variable (p : CourseProgress) (now : Instant) (lesson deck : String)

theorem lessonRolled : (p.rollUp now).lesson? lesson = (p.lesson? lesson).map (·.rollUp now) :=
  KeyMap.getMap _ _ _

theorem deckRolled : (p.rollUp now).deck? lesson deck = (p.deck? lesson deck).map (·.promote now) := by
  rw [deck?,deck?,lessonRolled]
  cases p.lesson? lesson with
  | none => rfl
  | some l =>
    rw [Option.map_some,Option.bind_some,Option.bind_some,LessonProgress.rollUp,
      LessonProgress.promotedDecks,KeyMap.getMap]

theorem cardsRolled : (p.rollUp now).card? lesson deck = p.card? lesson deck := by
  funext card
  rw [card?,card?,deckRolled]
  cases p.deck? lesson deck with
  | none => rfl
  | some d => rw [Option.map_some,Option.bind_some,Option.bind_some,DeckProgress.promotedCards]

theorem marksRolled (place : Place) :
    (p.markAt place).SetOn now ((p.rollUp now).PartsComplete place)
      ((p.rollUp now).markAt place) := by
  cases place with
  | lesson lesson =>
    have after := p.lessonRolled now lesson
    cases found : p.lesson? lesson with
    | none =>
      rw [found,Option.map_none] at after
      have same : (p.rollUp now).markAt (.lesson lesson) = p.markAt (.lesson lesson) := by
        rw [markAt,markAt,after,found]
      exact ⟨fun _ parts => absurd parts (lessonNoParts after),fun _ => same⟩
    | some l =>
      rw [found,Option.map_some] at after
      rw [lessonMarked found,lessonMarked after,LessonProgress.rollUp,LessonProgress.promotedMark]
      refine Mark.SetOn.finished l.mark now ?_
      rw [lessonPartsIff after]
      exact Bool.eq_iff_iff.mp (LessonProgress.doneCongr (LessonProgress.promotedDecks _ now).symm)
  | deck lesson deck =>
    have after := p.deckRolled now lesson deck
    cases found : p.deck? lesson deck with
    | none =>
      rw [found,Option.map_none] at after
      have same : (p.rollUp now).markAt (.deck lesson deck) = p.markAt (.deck lesson deck) := by
        rw [markAt,markAt,after,found]
      exact ⟨fun _ parts => absurd parts (deckNoParts after),fun _ => same⟩
    | some d =>
      rw [found,Option.map_some] at after
      rw [deckMarkIs found,deckMarkIs after,DeckProgress.promotedMark]
      refine Mark.SetOn.finished d.mark now ?_
      rw [deckPartsIff after]
      exact Bool.eq_iff_iff.mp (DeckProgress.doneCongr (DeckProgress.promotedCards d now).symm)

theorem rolledUp : p.RolledUp now (p.rollUp now) where
  lessons lesson := by rw [lessonRolled,Option.isSome_map]
  decks lesson deck := by rw [deckRolled,Option.isSome_map]
  cards := p.cardsRolled now
  marks := p.marksRolled now
  current := rfl

theorem rolledSettled : (p.rollUp now).Settled := by
  intro key l found
  obtain ⟨old,_,rfl⟩ := Option.map_eq_some_iff.mp ((p.lessonRolled now key).symm.trans found)
  have mark : (old.rollUp now).mark =
      Merge.finished old.mark (old.rollUp now).allDecksCompleted now := by
    rw [LessonProgress.rollUp,LessonProgress.promotedMark,
      LessonProgress.doneCongr (LessonProgress.promotedDecks _ now)]
    rfl
  refine LessonProgress.settledOf (fun deck d held => ?_) mark
  rw [LessonProgress.rollUp,LessonProgress.promotedDecks,KeyMap.getMap] at held
  obtain ⟨d,_,rfl⟩ := Option.map_eq_some_iff.mp held
  have deckMark : (d.promote now).mark =
      Merge.finished d.mark (d.promote now).allCardsCompleted now := by
    rw [DeckProgress.promotedMark,DeckProgress.doneCongr (d.promotedCards now)]
  exact DeckProgress.settledOf deckMark

end Rolled

theorem sameFound {α : Type} {a b : Option α} (tracked : a.isSome = b.isSome)
    (values : ∀ x y, a = some x → b = some y → x = y) : a = b := by
  cases a with
  | none =>
    cases b with
    | none => rfl
    | some y => cases tracked
  | some x =>
    cases b with
    | none => cases tracked
    | some y => rw [values x y rfl rfl]

theorem RolledUp.unique {p after other : CourseProgress} {now : Instant}
    (one : p.RolledUp now after) (two : p.RolledUp now other) : after = other := by
  have cards : after.card? = other.card? :=
    funext fun lesson => funext fun deck => (one.cards lesson deck).trans (two.cards lesson deck).symm
  have decks : ∀ lesson deck, after.deck? lesson deck = other.deck? lesson deck := by
    intro lesson deck
    refine sameFound ((one.decks lesson deck).trans (two.decks lesson deck).symm) fun d e here there =>
      DeckProgress.sameDeck (fun card => ?_) ?_
    · have same := congrFun (congrFun (congrFun cards lesson) deck) card
      rwa [card?,card?,here,there] at same
    · have marks := one.marks (.deck lesson deck)
      rw [PartsComplete,cards] at marks
      rw [← deckMarkIs here,← deckMarkIs there]
      exact marks.unique (two.marks (.deck lesson deck))
  have lessons : ∀ lesson, after.lesson? lesson = other.lesson? lesson := by
    intro lesson
    refine sameFound ((one.lessons lesson).trans (two.lessons lesson).symm) fun l m here there =>
      LessonProgress.sameLesson (fun deck => ?_) ?_
    · rw [← deckInside here,← deckInside there,decks]
    · have marks := one.marks (.lesson lesson)
      simp only [PartsComplete,decks] at marks
      rw [← lessonMarked here,← lessonMarked there]
      exact marks.unique (two.marks (.lesson lesson))
  have current : after.currentLessonId = other.currentLessonId := one.current.trans two.current.symm
  have tree : after.lessons = other.lessons := KeyMap.ext lessons
  cases after
  cases other
  cases tree
  cases current
  rfl

end CourseProgress

theorem Mark.SetOn.turnsIff {now : Instant} {cause : Prop} {m after : Mark}
    (set : m.SetOn now cause after) :
    ¬(m.isCompleted = true ↔ after.isCompleted = true) ↔ ¬m.isCompleted = true ∧ cause := by
  cases done : m.isCompleted with
  | true => simp [set.stays done]
  | false =>
    have caused : after.isCompleted = true ↔ cause :=
      ⟨set.caused done,fun sets => by rw [set.set done sets]⟩
    simp [caused]

section Marked

def LessonProgress.markedAt (now : Instant) (lesson : String) (l : LessonProgress) : List Place :=
  (l.decks.entries.filter (·.2.isPromotable)).map (fun e => .deck lesson e.1) ++
    if isPromotable { l with decks := l.decks.map (·.promote now) } then [.lesson lesson] else []

def CourseProgress.markedBy (p : CourseProgress) (now : Instant) : List Place :=
  p.lessons.entries.flatMap fun e => e.2.markedAt now e.1

theorem LessonProgress.markedCount (now : Instant) (lesson : String) (l : LessonProgress) :
    (l.markedAt now lesson).length = l.promotions now := by
  have decks : (l.decks.entries.filter (·.2.isPromotable)).length =
      l.decks.values.countP (·.isPromotable) := by
    rw [← List.countP_eq_length_filter,KeyMap.values,List.countP_map]
    rfl
  rw [markedAt,List.length_append,List.length_map,decks,promotions]
  split
  · rename_i own
    rw [own]
    rfl
  · rename_i own
    rw [Bool.eq_false_iff.mpr own]
    rfl

theorem CourseProgress.markedCount (p : CourseProgress) (now : Instant) :
    (p.markedBy now).length = p.promotions now := by
  rw [markedBy,promotions,KeyMap.values]
  induction p.lessons.entries with
  | nil => rfl
  | cons e rest ih =>
    rw [List.flatMap_cons,List.length_append,ih,e.2.markedCount]
    rfl

theorem LessonProgress.memMarkedAt {now : Instant} {lesson : String} {l : LessonProgress}
    {place : Place} : place ∈ l.markedAt now lesson ↔
      (∃ deck d, l.decks.get? deck = some d ∧ d.isPromotable = true ∧ .deck lesson deck = place) ∨
        isPromotable { l with decks := l.decks.map (·.promote now) } = true ∧
          place = .lesson lesson := by
  have decks : place ∈ (l.decks.entries.filter (·.2.isPromotable)).map
        (fun e => Place.deck lesson e.1) ↔
      ∃ deck d, l.decks.get? deck = some d ∧ d.isPromotable = true ∧ .deck lesson deck = place := by
    simp only [List.mem_map,List.mem_filter,Prod.exists,KeyMap.getIffMember,and_assoc]
  rw [markedAt,List.mem_append,decks]
  split
  · rename_i own
    simp [own]
  · rename_i own
    simp [own]

theorem LessonProgress.markedOnce (now : Instant) (lesson : String) (l : LessonProgress) :
    (l.markedAt now lesson).Nodup := by
  have keys : ((l.decks.entries.filter (·.2.isPromotable)).map Prod.fst).Nodup :=
    l.decks.keysApart.sublist (List.filter_sublist.map _)
  have decks : ((l.decks.entries.filter (·.2.isPromotable)).map
      (fun e => Place.deck lesson e.1)).Nodup := by
    have named := keys.map (f := Place.deck lesson) fun _ _ same => (Place.deck.inj same).2
    rwa [List.map_map] at named
  rw [markedAt,List.nodup_append]
  refine ⟨decks,?_,fun a first b second => ?_⟩
  · split
    · exact List.nodup_singleton _
    · exact List.nodup_nil
  · obtain ⟨e,-,rfl⟩ := List.mem_map.mp first
    split at second
    · rw [List.mem_singleton.mp second]
      exact Place.noConfusion
    · cases second

namespace CourseProgress

variable (p : CourseProgress) (now : Instant)

theorem markedOnce : (p.markedBy now).Nodup := by
  have within : ∀ {key : String} {l : LessonProgress} {place : Place},
      place ∈ l.markedAt now key → place = .lesson key ∨ ∃ deck, place = .deck key deck := by
    intro key l place member
    rcases LessonProgress.memMarkedAt.mp member with ⟨deck,_,_,_,rfl⟩ | ⟨_,own⟩
    · exact .inr ⟨deck,rfl⟩
    · exact .inl own
  rw [markedBy,List.nodup_flatMap]
  refine ⟨fun e _ => e.2.markedOnce now e.1,p.lessons.ascending.imp fun below place here there => ?_⟩
  have apart := String.ne_of_lt below
  rcases within here with rfl | ⟨deck,rfl⟩
  · rcases within there with same | ⟨_,same⟩
    · exact apart (Place.lesson.inj same)
    · cases same
  · rcases within there with same | ⟨_,same⟩
    · cases same
    · exact apart (Place.deck.inj same).1

theorem deckListed {lesson deck : String} : .deck lesson deck ∈ p.markedBy now ↔
    ∃ d, p.deck? lesson deck = some d ∧ d.isPromotable = true := by
  simp only [markedBy,List.mem_flatMap,Prod.exists,← KeyMap.getIffMember,
    LessonProgress.memMarkedAt]
  constructor
  · rintro ⟨key,l,found,⟨_,d,inside,own,same⟩ | ⟨_,same⟩⟩
    · obtain ⟨rfl,rfl⟩ := Place.deck.inj same
      exact ⟨d,(deckInside found _).trans inside,own⟩
    · cases same
  · rintro ⟨d,found,own⟩
    obtain ⟨l,held,inside⟩ := deckHeld found
    exact ⟨lesson,l,held,.inl ⟨deck,d,inside,own,rfl⟩⟩

theorem lessonListed {lesson : String} : .lesson lesson ∈ p.markedBy now ↔
    ∃ l, p.lesson? lesson = some l ∧
      LessonProgress.isPromotable { l with decks := l.decks.map (·.promote now) } = true := by
  simp only [markedBy,List.mem_flatMap,Prod.exists,← KeyMap.getIffMember,
    LessonProgress.memMarkedAt]
  constructor
  · rintro ⟨key,l,found,⟨_,_,_,_,same⟩ | ⟨own,same⟩⟩
    · cases same
    · cases Place.lesson.inj same
      exact ⟨l,found,own⟩
  · rintro ⟨l,found,own⟩
    exact ⟨lesson,l,found,.inr ⟨own,rfl⟩⟩

theorem memMarkedBy (place : Place) :
    place ∈ p.markedBy now ↔ ¬p.CompleteAt place ∧ (p.rollUp now).PartsComplete place := by
  cases place with
  | lesson lesson =>
    have after := p.lessonRolled now lesson
    rw [lessonListed]
    cases found : p.lesson? lesson with
    | none =>
      rw [found,Option.map_none] at after
      simp [lessonNoParts after]
    | some l =>
      rw [found,Option.map_some] at after
      have done : (l.rollUp now).allDecksCompleted =
          LessonProgress.allDecksCompleted { l with decks := l.decks.map (·.promote now) } :=
        LessonProgress.doneCongr (LessonProgress.promotedDecks _ now)
      rw [lessonPartsIff after,CompleteAt,lessonMarked found,done]
      simp [LessonProgress.isPromotable,LessonProgress.mark]
  | deck lesson deck =>
    have after := p.deckRolled now lesson deck
    rw [deckListed]
    cases found : p.deck? lesson deck with
    | none =>
      rw [found,Option.map_none] at after
      simp [deckNoParts after]
    | some d =>
      rw [found,Option.map_some] at after
      have done := DeckProgress.doneCongr (d.promotedCards now)
      rw [deckPartsIff after,CompleteAt,deckMarkIs found,done]
      simp [DeckProgress.isPromotable,DeckProgress.mark]

end CourseProgress

end Marked

inductive CardsAnswered : CourseProgress → CourseProgress → Prop where
  | none (p : CourseProgress) : CardsAnswered p p
  | next {p middle after : CourseProgress} (earlier : CardsAnswered p middle)
      {lesson deck card : String} {correct : Bool} {now : Instant} {effect : AnswerEffect}
      (ok : middle.answerCard lesson deck card correct now = .ok (after,effect)) :
      CardsAnswered p after

namespace CourseProgress

variable {p after : CourseProgress}

theorem answerKeepsSettled {lesson deck card : String} {correct : Bool} {now : Instant}
    {effect : AnswerEffect} (settled : p.Settled)
    (ok : p.answerCard lesson deck card correct now = .ok (after,effect)) : after.Settled := by
  obtain ⟨l,d,c,found,inside,tracked,rfl⟩ := answerCardOk ok
  have old := settled lesson l found
  have newDeck : (d.answered card c correct now).isPromotable = false :=
    DeckProgress.settledOf (DeckProgress.answeredMark (old.decks deck d inside) tracked)
  have newLesson : (l.answeredCard deck d card c correct now).Settled := by
    refine LessonProgress.settledOf ?_ (LessonProgress.answeredCardMark old.own inside)
    rw [LessonProgress.answeredCardDecks]
    exact KeyMap.everyInsert old.decks newDeck
  exact KeyMap.everyInsert settled newLesson

theorem answersKeepSettled (settled : p.Settled) (answered : CardsAnswered p after) :
    after.Settled := by
  induction answered with
  | none => exact settled
  | next earlier ok ih => exact answerKeepsSettled ih ok

/-- One pass over any tree marks what can be marked, and nothing else: what was complete stays so
since its time, each place whose mark changes is counted once, and nothing is left for another pass,
nor is after any answers. -/
theorem rollUpSettles (p : CourseProgress) (now : Instant) :
    (∀ after, p.RolledUp now after ↔ after = p.rollUp now) ∧ p.Preserved (p.rollUp now) ∧
      (∃ changed : List Place, changed.Nodup ∧
        (∀ place, place ∈ changed ↔
          ¬(p.CompleteAt place ↔ (p.rollUp now).CompleteAt place)) ∧
        p.promotions now = changed.length) ∧
      (p.rollUp now).AtRest ∧ ∀ after, CardsAnswered (p.rollUp now) after → after.AtRest := by
  have settled := p.rolledSettled now
  refine ⟨fun after => ⟨fun rolled => rolled.unique (p.rolledUp now),?_⟩,?_,?_,settled.atRest,?_⟩
  · rintro rfl
    exact p.rolledUp now
  · exact fun place complete => (p.marksRolled now place).kept (.inl complete)
  · refine ⟨p.markedBy now,p.markedOnce now,fun place => ?_,(p.markedCount now).symm⟩
    exact (p.memMarkedBy now place).trans (p.marksRolled now place).turnsIff.symm
  · exact fun after answered => (answersKeepSettled settled answered).atRest

end CourseProgress

namespace Sample

def unmarked : LessonProgress :=
  { decks := .ofList [("done",{ cards := .ofList [("card",{ isCompleted := true })] }),
      ("emptied",{ isCompleted := true })] }

def markedEarly : LessonProgress :=
  { decks := .ofList [("open",{ cards := .ofList [("card",{})] })]
    isCompleted := true }

def neglected : CourseProgress :=
  { lessons := .ofList [("first",unmarked),("second",markedEarly)] }

end Sample

theorem neglectedSettles :
    Sample.neglected.promotions Sample.setting.now = 2 ∧
      ∃ after, CardsAnswered (Sample.neglected.rollUp Sample.setting.now) after ∧
        after.markAt (.deck "second" "open") = ⟨true,some (.ofNanos 7)⟩ ∧
        after.markAt (.lesson "second") = ⟨true,none⟩ ∧ after.AtRest := by
  obtain ⟨_,_,_,_,settles⟩ := Sample.neglected.rollUpSettles Sample.setting.now
  have told : ((Sample.neglected.rollUp Sample.setting.now).answerCard "second" "open" "card" true
      (.ofNanos 7)).toOption.map (fun result =>
        (result.1.markAt (.deck "second" "open"),result.1.markAt (.lesson "second"))) =
      some (⟨true,some (.ofNanos 7)⟩,⟨true,none⟩) := by decide +kernel
  cases ok : (Sample.neglected.rollUp Sample.setting.now).answerCard "second" "open" "card" true
      (.ofNanos 7) with
  | error e =>
    rw [ok] at told
    cases told
  | ok result =>
    rw [ok] at told
    obtain ⟨deck,lesson⟩ := Prod.mk.inj (Option.some.inj told)
    have answered := CardsAnswered.next (.none _) ok
    exact ⟨by decide +kernel,result.1,answered,deck,lesson,settles result.1 answered⟩

end Coursework
