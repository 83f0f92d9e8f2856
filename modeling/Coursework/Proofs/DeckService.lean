import Coursework.Proofs.Batching
import Coursework.Proofs.Documents
import Coursework.Proofs.RoundTrip

/-! A deck service in place of the store's own catalog. The client asks for each card once and keeps
the first of each card that it asked for, in the order of the service; a batch of answers is graded by
looking up one card after the other. So neither the order nor repetitions nor cards that nobody asked
for make a difference, as long as the first of each card is the one that the store knows. -/
namespace Coursework

namespace Http

def Dialogue.sent {α : Type} (exchange : Exchange) : Dialogue α → List Request
  | .done _ => []
  | .send request resume => request :: (resume (exchange request)).sent exchange

def Request.cardIds? (r : Request) : Option (List CardId) := do
  let v ← Json.Value.parse? (← r.body)
  let [ids] ← Json.fields? ["card_ids"] v | none
  Json.required? ids

theorem successIff {code : Nat} : isSuccess code = true ↔ 200 ≤ code ∧ code < 300 := by
  simp [isSuccess]

structure Response.Lists (r : Response) (listed : List Card) : Prop where
  success : 200 ≤ r.status ∧ r.status < 300
  body : (Json.Value.parse? r.body).bind DeckClient.decodeBatch? = some listed

namespace DeckClient

variable {client : DeckClient} {exchange : Exchange} {ids seen : List CardId}
  {listed cards : List Card} {c : Card} {id : CardId} {response : Response}

theorem cardsRequested (client : DeckClient) (ids : List CardId) :
    (client.cardsRequest ids).cardIds? = some ids := by
  have fields : Json.fields? ["card_ids"] (.record [("card_ids",Json.encode ids)]) =
      some [some (Json.encode ids)] :=
    Json.recordFields [Json.encode ids] (by decide) rfl
  simp only [Request.cardIds?,cardsRequest,bind,Option.bind_some,Json.parseCompact,fields,
    Json.required?,Json.decodesBack]

theorem receivedIff {α : Type} {decode? : Json.Value → Option α} {answer : Option Response} {a : α} :
    received decode? answer = .ok a ↔ ∃ response, answer = some response ∧
      isSuccess response.status = true ∧ (Json.Value.parse? response.body).bind decode? = some a := by
  cases answer with
  | none => simp [received]
  | some response =>
    have apart : response.status = 404 → isSuccess response.status = false := by
      intro same
      rw [same]
      decide
    unfold received
    simp only
    split
    · next missing => simp [apart missing]
    · split
      · next success =>
        cases read : (Json.Value.parse? response.body).bind decode? <;> simp [success,read]
      · next failed => simp [failed]

theorem keptSublist : (keepRequested ids seen cards).Sublist cards := by
  induction cards generalizing seen with
  | nil => exact .slnil
  | cons first cards ih =>
    rw [keepRequested]
    split
    · exact ih.cons_cons first
    · exact ih.cons first

theorem memKept :
    c ∈ keepRequested ids seen cards ↔
      (c.id ∈ ids ∧ c.id ∉ seen) ∧ cards.find? (·.id == c.id) = some c := by
  induction cards generalizing seen with
  | nil => simp [keepRequested]
  | cons first cards ih =>
    have asked : (ids.contains first.id && !seen.contains first.id) = true ↔
        first.id ∈ ids ∧ first.id ∉ seen := by simp
    rw [keepRequested,List.find?_cons]
    by_cases same : first.id = c.id
    · rw [← same,beq_self_eq_true]
      split
      · next wanted =>
        rw [List.mem_cons,ih,← same]
        simp [asked.mp wanted,eq_comm]
      · next refused =>
        have out : ¬(first.id ∈ ids ∧ first.id ∉ seen) := fun wanted => refused (asked.mpr wanted)
        rw [ih,← same]
        exact iff_of_false (fun kept => out kept.1) fun kept => out kept.1
    · rw [beq_false_of_ne same]
      have other : c ≠ first := fun is => same (congrArg Card.id is).symm
      have apart : c.id ≠ first.id := fun is => same is.symm
      split
      · rw [List.mem_cons,ih]
        simp [other,apart]
      · exact ih

theorem keptOnce : ((keepRequested ids seen cards).map (·.id)).Nodup := by
  induction cards generalizing seen with
  | nil => exact .nil
  | cons first cards ih =>
    rw [keepRequested]
    split
    · rw [List.map_cons,List.nodup_cons]
      refine ⟨fun again => ?_,ih⟩
      obtain ⟨c,member,same⟩ := List.mem_map.mp again
      have fresh := (memKept.mp member).1.2
      rw [same] at fresh
      exact fresh List.mem_cons_self
    · exact ih

structure Kept (ids : List CardId) (listed cards : List Card) : Prop where
  ordered : cards.Sublist listed
  once : (cards.map (·.id)).Nodup
  first : ∀ c, c ∈ cards ↔ c.id ∈ ids ∧ listed.find? (·.id == c.id) = some c

theorem keepsFirst (ids : List CardId) (listed : List Card) :
    Kept ids listed (keepRequested ids.eraseDups [] listed) :=
  ⟨keptSublist,keptOnce,fun c => by simp [memKept]⟩

theorem Kept.found (kept : Kept ids listed cards) (asked : id ∈ ids) :
    cards.reverse.find? (·.id == id) = listed.find? (·.id == id) := by
  have once : (cards.reverse.map (·.id)).Nodup := by
    rw [List.map_reverse,List.nodup_reverse]
    exact kept.once
  refine Option.ext fun c => ?_
  rw [foundIff once fun _ => beq_iff_eq,List.mem_reverse,kept.first]
  constructor
  · rintro ⟨⟨_,found⟩,rfl⟩
    exact found
  · intro found
    have same := foundOwn found
    subst same
    exact ⟨⟨asked,found⟩,rfl⟩

theorem fetchesNothing (client : DeckClient) (exchange : Exchange) :
    (client.fetchCards []).sent exchange = [] ∧ client.getCards exchange [] = .ok [] :=
  ⟨rfl,rfl⟩

theorem fetchesOnce (client : DeckClient) (exchange : Exchange) (some : ids ≠ []) :
    (client.fetchCards ids).sent exchange = [client.cardsRequest ids.eraseDups] ∧
      client.getCards exchange ids =
        (received decodeBatch? (exchange (client.cardsRequest ids.eraseDups))).map
          (keepRequested ids.eraseDups []) := by
  obtain ⟨first,rest,distinct⟩ : ∃ first rest, ids.eraseDups = first :: rest := by
    cases ids with
    | nil => exact absurd rfl some
    | cons first rest => exact ⟨_,_,List.eraseDups_cons⟩
  rw [getCards,fetchCards,distinct]
  refine ⟨rfl,?_⟩
  simp only [Dialogue.run]
  cases received decodeBatch? (exchange (client.cardsRequest (first :: rest))) <;> rfl

theorem getCardsIff (some : ids ≠ []) :
    client.getCards exchange ids = .ok cards ↔
      ∃ response listed, exchange (client.cardsRequest ids.eraseDups) = .some response ∧
        response.Lists listed ∧ cards = keepRequested ids.eraseDups [] listed := by
  rw [(fetchesOnce client exchange some).2]
  constructor
  · intro ok
    cases read : received decodeBatch? (exchange (client.cardsRequest ids.eraseDups)) with
    | error e =>
      rw [read] at ok
      cases ok
    | ok listed =>
      obtain ⟨response,answered,success,body⟩ := receivedIff.mp read
      rw [read] at ok
      cases Except.ok.inj ok
      exact ⟨response,listed,answered,⟨successIff.mp success,body⟩,rfl⟩
  · rintro ⟨response,listed,answered,lists,rfl⟩
    rw [receivedIff.mpr ⟨response,answered,successIff.mpr lists.success,lists.body⟩]
    rfl

end DeckClient

end Http

def askedFor (batch : List CardAnswer) : List CardId := (batch.map (·.cardId)).eraseDups

theorem askedForDistinct (batch : List CardAnswer) : (askedFor batch).eraseDups = askedFor batch :=
  eraseDupsDistinct (nodupEraseDups _)

theorem memAskedFor {batch : List CardAnswer} {a : CardAnswer} (member : a ∈ batch) :
    a.cardId ∈ askedFor batch :=
  List.mem_eraseDups.mpr (List.mem_map_of_mem member)

theorem askedForSome {batch : List CardAnswer} (given : batch ≠ []) : askedFor batch ≠ [] := by
  obtain ⟨a,member⟩ := List.exists_mem_of_ne_nil batch given
  exact List.ne_nil_of_mem (memAskedFor member)

theorem Repository.looksUp {r : Repository} {ids : List CardId} {locals : List Card}
    (known : (r.perform (.getCards ids)).1 = .ok locals) :
    ∃ lookup : CardId → Option Card, (∀ id c, lookup id = some c → c.id = id) ∧
      locals = ids.eraseDups.filterMap lookup := by
  cases r with
  | memory m =>
    cases Except.ok.inj known
    exact ⟨m.card?,fun _ _ => foundOwn,rfl⟩
  | tables d =>
    obtain ⟨found,answers,read⟩ := Database.getCardsIff.mp known
    exact ⟨_,fun _ _ => foundOwn,read.told⟩

structure ListsLocals (asked : List CardId) (locals listed : List Card) : Prop where
  known : ∀ c ∈ locals, listed.find? (·.id == c.id) = some c
  unknown : ∀ id ∈ asked, id ∉ locals.map (·.id) → id ∉ listed.map (·.id)

theorem ListsLocals.graded {r : Repository} {asked : List CardId} {locals listed cards : List Card}
    (stored : (r.perform (.getCards asked)).1 = .ok locals)
    (lists : ListsLocals asked locals listed) (kept : Http.DeckClient.Kept asked listed cards)
    {id : CardId} (wanted : id ∈ asked) :
    (AnswerKey.mk cards).correctAnswers? id = (AnswerKey.mk locals).correctAnswers? id := by
  obtain ⟨lookup,own,rfl⟩ := Repository.looksUp stored
  have among : id ∈ asked.eraseDups := List.mem_eraseDups.mpr wanted
  rw [lookedUp own among,AnswerKey.correctAnswers?,kept.found wanted]
  refine congrArg _ ?_
  cases found : lookup id with
  | some c =>
    have same := own id c found
    have first := lists.known c (List.mem_filterMap.mpr ⟨id,among,found⟩)
    rwa [same] at first
  | none =>
    have nowhere : id ∉ (asked.eraseDups.filterMap lookup).map (·.id) := by
      intro listed
      obtain ⟨c,member,rfl⟩ := List.mem_map.mp listed
      obtain ⟨other,_,hit⟩ := List.mem_filterMap.mp member
      rw [own other c hit,hit] at found
      cases found
    have absent := lists.unknown id wanted nowhere
    refine List.find?_eq_none.mpr fun c member same => absent ?_
    exact List.mem_map.mpr ⟨c,member,eq_of_beq same⟩

/- The service stands in for the catalog of the store when cards are asked for: its response lists
first what the store knows. -/
def Http.DeckClient.StandsIn (client : Http.DeckClient) (exchange : Http.Exchange) (r : Repository)
    (asked : List CardId) : Prop :=
  ∃ locals response listed, (r.perform (.getCards asked)).1 = .ok locals ∧
    exchange (client.cardsRequest asked) = some response ∧ response.Lists listed ∧
    ListsLocals asked locals listed

inductive GradesAlike (batch : List CardAnswer) : Except StorageError (List Card) →
    Except StorageError (List Card) → Prop where
  | fails (e : StorageError) : GradesAlike batch (.error e) (.error e)
  | finds (cards others : List Card)
      (same : ∀ a ∈ batch, (AnswerKey.mk cards).grade a.cardId a.answerId =
        (AnswerKey.mk others).grade a.cardId a.answerId) : GradesAlike batch (.ok cards) (.ok others)

theorem answerPlanAlike {now : Instant} {user : UserId} {course : CourseId} {lesson : LessonId}
    {deck : DeckId} {batch : List CardAnswer} {one other : Answers}
    (loads : one (.getProgress user course) = other (.getProgress user course))
    (grades : GradesAlike batch (one (.getCards (askedFor batch)))
      (other (.getCards (askedFor batch)))) :
    (answerPlan now user course lesson deck batch).eval one =
      (answerPlan now user course lesson deck batch).eval other := by
  unfold answerPlan
  unfold askedFor at grades
  cases loaded : other (.getProgress user course) with
  | error e =>
    rw [(Script.refused (loads.trans loaded) _).1,(Script.refused loaded _).1]
  | ok old =>
    rw [(Script.called (loads.trans loaded) _).1,(Script.called loaded _).1]
    cases old.state.requireDeck lesson.key deck.key with
    | error e => rfl
    | ok tracked =>
      generalize found : one (.getCards (batch.map (·.cardId)).eraseDups) = cards at grades
      generalize foundToo : other (.getCards (batch.map (·.cardId)).eraseDups) = others at grades
      cases grades with
      | fails e => exact (Script.refused found _).1.trans (Script.refused foundToo _).1.symm
      | finds cards others same =>
        refine (Script.called found _).1.trans (.trans ?_ (Script.called foundToo _).1.symm)
        rw [CourseProgress.answerCardsAlike same]
        -- what is left asks for nothing more
        cases old.state.answerCards lesson.key deck.key ⟨others⟩ now batch <;> rfl

theorem emptyAnswerAlike {now : Instant} {user : UserId} {course : CourseId} {lesson : LessonId}
    {deck : DeckId} {one other : Answers}
    (loads : one (.getProgress user course) = other (.getProgress user course)) :
    (answer now user course lesson deck []).eval one =
      (answer now user course lesson deck []).eval other := by
  unfold answer
  cases loaded : other (.getProgress user course) with
  | error e => rw [(Script.refused (loads.trans loaded) _).1,(Script.refused loaded _).1]
  | ok old =>
    rw [(Script.called (loads.trans loaded) _).1,(Script.called loaded _).1]
    cases old.state.requireDeck lesson.key deck.key <;> rfl

namespace Setting

variable {setting : Setting} {b c : Backend} {user : UserId} {course : CourseId} {lesson : LessonId}
  {deck : DeckId} {batch : List CardAnswer}

theorem storeAlike {op : Operation} (deck : ∀ id, op ≠ .getDeck id) (cards : ∀ ids, op ≠ .getCards ids)
    (same : b.repository = c.repository) :
    (setting.handler op b).1 = (setting.handler op c).1 ∧
      (setting.handler op b).2.repository = (setting.handler op c).2.repository := by
  rw [storeActs deck cards,storeActs deck cards]
  cases setting.faults.of? op with
  | some e => exact ⟨rfl,same⟩
  | none => simp only [Backend.onStore,same,and_self]

theorem writesAlike {ε α : Type} (rename : StorageError → ε) (op : Operation) (a : α)
    (deck : ∀ id, op ≠ .getDeck id) (cards : ∀ ids, op ≠ .getCards ids)
    (same : b.repository = c.repository) :
    let written : Script ε α := (Script.call rename op).bind fun _ => .done a
    (written.run setting.handler b).1 = (written.run setting.handler c).1 ∧
      (written.run setting.handler b).2.repository = (written.run setting.handler c).2.repository := by
  intro written
  have acts : (setting.handler op b).1 = (setting.handler op c).1 ∧
      (setting.handler op b).2.repository = (setting.handler op c).2.repository :=
    storeAlike deck cards same
  simp only [written,Script.runWrite]
  cases first : setting.handler op b with
  | mk outcome after =>
    cases second : setting.handler op c with
    | mk other reached =>
      rw [first,second] at acts
      obtain ⟨rfl,left⟩ := acts
      cases outcome <;> exact ⟨rfl,left⟩

theorem answersAlike (same : b.repository = c.repository)
    (grades : batch ≠ [] →
      GradesAlike batch (setting.handler.answers b (.getCards (askedFor batch)))
        (setting.handler.answers c (.getCards (askedFor batch)))) :
    let service := answer setting.now user course lesson deck batch
    (service.run setting.handler b).1 = (service.run setting.handler c).1 ∧
      (service.run setting.handler b).2.repository = (service.run setting.handler c).2.repository := by
  intro service
  have loads : setting.handler.answers b (.getProgress user course) =
      setting.handler.answers c (.getProgress user course) :=
    (storeAlike (by simp) (by simp) same).1
  have quiet := setting.transactional.quiet
  by_cases given : batch = []
  · subst given
    have reads := emptyAnswerReads setting.now user course lesson deck
    rw [Script.runReading quiet reads,Script.runReading quiet reads]
    exact ⟨emptyAnswerAlike loads,same⟩
  · have reads := answerPlanReads setting.now user course lesson deck batch
    have planned : (answerPlan setting.now user course lesson deck batch).eval
        (setting.handler.answers b) =
        (answerPlan setting.now user course lesson deck batch).eval (setting.handler.answers c) :=
      answerPlanAlike loads (grades given)
    simp only [service,answerSplit _ _ _ _ _ given,Script.runAfterReading quiet reads,planned]
    cases (answerPlan setting.now user course lesson deck batch).eval (setting.handler.answers c) with
    | error e => exact ⟨rfl,same⟩
    | ok planned =>
      exact writesAlike _ (.saveProgress planned.1) planned.2 (by simp) (by simp) same

theorem gradesAlike {client : Http.DeckClient} {r : Repository} (given : batch ≠ [])
    (stands : client.StandsIn setting.exchange r (askedFor batch)) :
    GradesAlike batch (setting.handler.answers ⟨r,some client⟩ (.getCards (askedFor batch)))
      (setting.handler.answers ⟨r,none⟩ (.getCards (askedFor batch))) := by
  rw [cardsAnswered,cardsAnswered]
  cases setting.faults.getCards with
  | some e => exact .fails e
  | none =>
    obtain ⟨locals,response,listed,stored,answered,lists,alike⟩ := stands
    have kept := Http.DeckClient.keepsFirst (askedFor batch) listed
    have fetched : client.getCards setting.exchange (askedFor batch) = .ok _ :=
      (Http.DeckClient.getCardsIff (askedForSome given)).mpr
        ⟨response,listed,(askedForDistinct batch).symm ▸ answered,lists,rfl⟩
    have fromService : (Backend.perform setting.exchange (.getCards (askedFor batch))
        ⟨r,some client⟩).1 = .ok _ := fetched
    have fromStore : (Backend.perform setting.exchange (.getCards (askedFor batch))
        ⟨r,none⟩).1 = .ok locals := stored
    rw [fromService,fromStore]
    refine .finds _ _ fun a member => ?_
    rw [AnswerKey.grade,AnswerKey.grade,alike.graded stored kept (memAskedFor member)]

end Setting

namespace Http.DeckClient

/- A deck service as a catalog. Cards are fetched with one request, or none if there is nothing to ask
for; what is kept of a response; and a batch of answers is served as with the catalog of the store, if
the service stands in for it. -/
structure ActsAsCatalog (client : DeckClient) : Prop where
  request : ∀ ids, (client.cardsRequest ids).method = "POST" ∧
    (client.cardsRequest ids).url = client.baseUrl ++ "/cards:batchGet" ∧
    (client.cardsRequest ids).cardIds? = some ids
  silent : ∀ exchange,
    (client.fetchCards []).sent exchange = [] ∧ client.getCards exchange [] = .ok []
  once : ∀ exchange ids, ids ≠ [] →
    (client.fetchCards ids).sent exchange = [client.cardsRequest ids.eraseDups]
  returned : ∀ exchange ids cards, ids ≠ [] → client.getCards exchange ids = .ok cards →
    ∃ response listed, exchange (client.cardsRequest ids.eraseDups) = some response ∧
      response.Lists listed ∧ Kept ids listed cards
  succeeds : ∀ exchange ids response listed, ids ≠ [] →
    exchange (client.cardsRequest ids.eraseDups) = some response → response.Lists listed →
    ∃ cards, client.getCards exchange ids = .ok cards ∧ Kept ids listed cards
  alike : ∀ (setting : Setting) (user : UserId) (course : CourseId) (lesson : LessonId)
    (deck : DeckId) (batch : List CardAnswer) (r : Repository),
    (batch ≠ [] → client.StandsIn setting.exchange r (askedFor batch)) →
    (setting.serve user course ⟨r,some client⟩ (.answer lesson deck batch)).1 =
        (setting.serve user course ⟨r,none⟩ (.answer lesson deck batch)).1 ∧
      (setting.serve user course ⟨r,some client⟩ (.answer lesson deck batch)).2.repository =
        (setting.serve user course ⟨r,none⟩ (.answer lesson deck batch)).2.repository

/-- A deck service is asked for each card once, and of what it sends only the first of each of these
cards is kept. So a batch of answers has the same outcome and leaves the same as with the store's own
catalog, whatever the order of the response, its repetitions and the cards that nobody asked for, as
long as it lists first what the store knows. -/
theorem actsAsCatalog (client : DeckClient) : client.ActsAsCatalog := by
  constructor
  case request => exact fun ids => ⟨rfl,rfl,client.cardsRequested ids⟩
  case silent => exact client.fetchesNothing
  case once => exact fun exchange ids some => (client.fetchesOnce exchange some).1
  case returned =>
    intro exchange ids cards some ok
    obtain ⟨response,listed,answered,lists,rfl⟩ := (getCardsIff some).mp ok
    exact ⟨response,listed,answered,lists,keepsFirst ids listed⟩
  case succeeds =>
    intro exchange ids response listed some answered lists
    exact ⟨_,(getCardsIff some).mpr ⟨response,listed,answered,lists,rfl⟩,keepsFirst ids listed⟩
  case alike =>
    intro setting user course lesson deck batch r stands
    have grades := fun given : batch ≠ [] => Setting.gradesAlike given (stands given)
    have same : Backend.repository ⟨r,some client⟩ = Backend.repository ⟨r,none⟩ := rfl
    exact ⟨congrArg Reply.answered (Setting.answersAlike same grades).1,
      (Setting.answersAlike same grades).2⟩

end Http.DeckClient

theorem Http.listsWritten (cards : List Card) :
    Response.Lists ⟨200,Json.Value.compact (.record [("cards",Json.encode cards)])⟩ cards := by
  have fields : Json.fields? ["cards"] (.record [("cards",Json.encode cards)]) =
      some [some (Json.encode cards)] :=
    Json.recordFields [Json.encode cards] (by decide) rfl
  refine ⟨successIff.mp rfl,?_⟩
  simp only [Json.parseCompact,Option.bind_some,DeckClient.decodeBatch?,fields,bind,Json.optional?,
    Json.decodesBack]

namespace Sample

def service : Http.DeckClient := ⟨"http://decks"⟩

def sent : List Card :=
  [{ id := ⟨.ofNat 6⟩, title := "leave" },card,{ card with possibleAnswers := [] }]

def response : Http.Response := ⟨200,Json.Value.compact (.record [("cards",Json.encode sent)])⟩

def online : Setting := { setting with exchange := fun _ => some response }

theorem standsIn : service.StandsIn online.exchange enrolled.repository (askedFor repeated) := by
  refine ⟨[card],response,sent,by decide +kernel,rfl,Http.listsWritten sent,?_⟩
  exact ⟨by decide +kernel,by decide +kernel⟩

end Sample

theorem sampleServiceActsAsCatalog :
    ((answer Sample.online.now Sample.user Sample.course Sample.lesson.id Sample.deck.id
        Sample.repeated).run Sample.online.handler ⟨Sample.enrolled.repository,none⟩).1.isOk = true ∧
    (Sample.online.serve Sample.user Sample.course ⟨Sample.enrolled.repository,some Sample.service⟩
        (.answer Sample.lesson.id Sample.deck.id Sample.repeated)).1 =
      (Sample.online.serve Sample.user Sample.course ⟨Sample.enrolled.repository,none⟩
        (.answer Sample.lesson.id Sample.deck.id Sample.repeated)).1 ∧
    (Sample.online.serve Sample.user Sample.course ⟨Sample.enrolled.repository,some Sample.service⟩
        (.answer Sample.lesson.id Sample.deck.id Sample.repeated)).2.repository =
      (Sample.online.serve Sample.user Sample.course ⟨Sample.enrolled.repository,none⟩
        (.answer Sample.lesson.id Sample.deck.id Sample.repeated)).2.repository :=
  ⟨by decide +kernel,
    (Http.DeckClient.actsAsCatalog Sample.service).alike _ _ _ _ _ _ _ fun _ => Sample.standsIn⟩

end Coursework
