import Coursework.Draft
import Coursework.Proofs.Marks

/-! Marks that are written into texts. A text can be cut in front of an exclamation mark without
cutting a mark, since a mark holds no other than the one it starts with. So no mark reaches over the
seams of a written one, whatever stands around it, and the decks of the whole text are those before,
the written one, and those behind. -/
namespace Coursework

section FirstAppearances

variable {α : Type} [BEq α] [LawfulBEq α]

theorem eraseDupsFiltered (p : α → Bool) (as : List α) :
    (as.filter p).eraseDups = as.eraseDups.filter p := by
  induction size : as.length using Nat.strongRecOn generalizing as with
  | _ n ih =>
    cases as with
    | nil => rfl
    | cons a as =>
      have shorter : (as.filter fun b => !b == a).length < n := by
        have := List.length_filter_le (fun b => !b == a) as
        simp only [List.length_cons] at size
        omega
      have rest := ih _ shorter _ rfl
      cases kept : p a with
      | true =>
        rw [List.filter_cons_of_pos kept,List.eraseDups_cons,List.eraseDups_cons,
          List.filter_cons_of_pos kept,← rest,List.filter_comm]
      | false =>
        have dropped : (as.filter fun b => !b == a).filter p = as.filter p := by
          rw [List.filter_filter]
          refine List.filter_congr fun b _ => ?_
          by_cases same : b = a
          · rw [same,kept]
            rfl
          · simp [same]
        have out : ¬p a = true := by simp [kept]
        rw [List.filter_cons_of_neg out,List.eraseDups_cons,List.filter_cons_of_neg out,← rest,dropped]

theorem eraseDupsFront (as bs : List α) :
    (as.eraseDups ++ bs).eraseDups = (as ++ bs).eraseDups := by
  have same : bs.removeAll as.eraseDups = bs.removeAll as := by simp [List.removeAll]
  rw [List.eraseDups_append,List.eraseDups_append,eraseDupsDistinct (nodupEraseDups as),same]

theorem eraseDupsBehind (as bs : List α) :
    (as ++ bs.eraseDups).eraseDups = (as ++ bs).eraseDups := by
  rw [List.eraseDups_append,List.eraseDups_append,List.removeAll,List.removeAll,eraseDupsFiltered,
    eraseDupsFiltered,eraseDupsDistinct (nodupEraseDups bs)]

end FirstAppearances

namespace DeckReference

/- A mark that starts in front of an exclamation mark ends there. -/
theorem startCut (c : Char) (before behind : List Char) :
    payloadAtStart? (c :: (before ++ '!' :: behind)) = payloadAtStart? (c :: before) := by
  have front : c :: before <+: c :: (before ++ '!' :: behind) := List.prefix_append (c :: before) _
  refine Option.ext fun payload => ?_
  rw [payloadAtStartIff,payloadAtStartIff]
  refine and_congr_right fun ⟨length,allowed⟩ => ⟨fun here => ?_,fun here => here.trans front⟩
  rcases List.prefix_or_prefix_of_prefix here front with within | ⟨rest,beyond⟩
  · exact within
  -- what reaches over the cut is nothing, since it would start with the exclamation mark
  · cases rest with
    | nil => exact ⟨[],by rw [List.append_nil,← beyond,List.append_nil]⟩
    | cons d rest =>
      rw [← beyond,← List.cons_append,List.prefix_append_right_inj] at here
      obtain ⟨rfl,_⟩ := List.cons_prefix_cons.mp here
      obtain ⟨others,is,_,quiet⟩ := markIs length allowed
      obtain ⟨_,inside⟩ := List.cons.inj (beyond.trans is)
      exact absurd rfl (quiet '!' (inside ▸ by simp))

theorem markedCut (before behind : List Char) :
    marked (before ++ '!' :: behind) = marked before ++ marked ('!' :: behind) := by
  induction before with
  | nil => rfl
  | cons c before ih =>
    rw [List.cons_append,markedCons,markedCons,startCut,ih,List.append_assoc]

theorem markedQuiet {quiet : List Char} (none : ∀ c ∈ quiet, c ≠ '!') (behind : List Char) :
    marked (quiet ++ behind) = marked behind := by
  induction quiet with
  | nil => rfl
  | cons c quiet ih =>
    obtain ⟨here,rest⟩ := List.forall_mem_cons.mp none
    rw [List.cons_append,markedCons,ih rest]
    cases found : payloadAtStart? (c :: (quiet ++ behind)) with
    | none => rfl
    | some payload => exact absurd (insideMark found).1 here

def decksIn (cs : List Char) : List DeckId := ((marked cs).filterMap Uuid.parseChars?).map Id.mk

theorem allIs (body : String) : all body = (decksIn body.toList).eraseDups := by
  rw [all,payloadsAre]
  rfl

theorem markChars (deck : DeckId) :
    (mark deck).toList = opening ++ (deck.uuid.chars ++ [')']) := by
  simp [mark,Id.key,Uuid.text,opening]

theorem markedWritten (deck : DeckId) (behind : List Char) :
    marked ((mark deck).toList ++ behind) = deck.uuid.chars :: marked behind := by
  obtain ⟨length,allowed⟩ := charsArePayload deck.uuid
  obtain ⟨others,is,_,quiet⟩ := markIs length allowed
  have here : payloadAtStart? ('!' :: (others ++ behind)) = some deck.uuid.chars :=
    payloadAtStartIff.mpr ⟨⟨length,allowed⟩,behind,by rw [is,List.cons_append]⟩
  rw [markChars,is,List.cons_append,markedCons,here,markedQuiet quiet]
  rfl

theorem decksWritten (before behind : List Char) (deck : DeckId) :
    decksIn (before ++ ((mark deck).toList ++ behind)) = decksIn before ++ deck :: decksIn behind := by
  obtain ⟨length,allowed⟩ := charsArePayload deck.uuid
  obtain ⟨others,is,_,_⟩ := markIs length allowed
  have read : Uuid.parseChars? deck.uuid.chars = some deck.uuid :=
    (payloadReadIff length allowed).mpr rfl
  have cut : marked (before ++ ((mark deck).toList ++ behind)) =
      marked before ++ marked ((mark deck).toList ++ behind) := by
    rw [markChars,is,List.cons_append,markedCut]
  rw [decksIn,cut,markedWritten,List.filterMap_append,List.filterMap_cons_some read,List.map_append]
  rfl

theorem allWritten (before behind : String) (deck : DeckId) :
    all (before ++ mark deck ++ behind) = (all before ++ [deck] ++ all behind).eraseDups := by
  rw [allIs,allIs before,allIs behind,String.toList_append,String.toList_append,List.append_assoc,
    decksWritten,eraseDupsBehind,List.append_assoc,eraseDupsFront]
  rfl

def rendered : (front : String) → List (DeckId × String) → String
  | front,[] => front
  | front,(deck,behind) :: rest => front ++ mark deck ++ rendered behind rest

theorem allRendered (front : String) (marks : List (DeckId × String)) :
    all (rendered front marks) =
      (all front ++ marks.flatMap fun m => m.1 :: all m.2).eraseDups := by
  induction marks generalizing front with
  | nil =>
    rw [rendered,List.flatMap_nil,List.append_nil,allIs]
    exact (eraseDupsDistinct (nodupEraseDups _)).symm
  | cons m rest ih =>
    rw [rendered,allWritten,ih,eraseDupsBehind,List.append_assoc,List.flatMap_cons]
    rfl

theorem allPlain {front : String} {marks : List (DeckId × String)} (plainFront : all front = [])
    (plain : ∀ m ∈ marks, all m.2 = []) :
    all (rendered front marks) = (marks.map (·.1)).eraseDups := by
  rw [allRendered,plainFront,List.nil_append,← List.flatMap_singleton' (marks.map (·.1)),
    List.flatMap_map]
  refine congrArg List.eraseDups (List.flatMap_congr fun m member => ?_)
  rw [plain m member]

theorem renderedSolid (front : String) {marks : List (DeckId × String)} (given : marks ≠ []) :
    Text.isAllBlank (rendered front marks) = false ∧ all (rendered front marks) ≠ [] := by
  cases marks with
  | nil => exact absurd rfl given
  | cons m rest =>
    constructor
    · have solid : '!' ∈ (rendered front (m :: rest)).toList := by
        simp [rendered,markChars,opening]
      rw [Text.isAllBlank,List.all_eq_false]
      exact ⟨'!',solid,by decide⟩
    · rw [allRendered]
      refine List.ne_nil_of_mem (a := m.1) ?_
      rw [List.mem_eraseDups]
      simp

end DeckReference

namespace LessonDraft

theorem problemsRendered {d : LessonDraft} {front : String} {marks : List (DeckId × String)}
    (given : marks ≠ []) (body : d.body = DeckReference.rendered front marks) :
    d.problems = headingProblems d.title d.description := by
  obtain ⟨solid,found⟩ := DeckReference.renderedSolid front given
  rw [problems,body,solid]
  simp [DraftProblems.demand,found]

theorem headingSilent (title description : String) :
    (headingProblems title description).contains .noBody = false ∧
      (headingProblems title description).contains .noDecksReferenced = false := by
  unfold headingProblems DraftProblems.demand
  cases Text.isAllBlank title <;> cases Text.isAllBlank description <;> decide

theorem headingInked {title description : String} (titled : Text.isAllBlank title = false)
    (described : Text.isAllBlank description = false) :
    headingProblems title description = DraftProblems.none := by
  rw [headingProblems,titled,described]
  rfl

theorem refusedFor {d : LessonDraft} {id : LessonId} {now : Instant} {ps : DraftProblems}
    (refused : d.validate id now = .error ps) : ps = d.problems := by
  rw [validate,DraftProblems.guarding] at refused
  split at refused
  · cases refused
  · exact (Except.error.inj refused).symm

end LessonDraft

namespace DeckReference

structure Compose : Prop where
  written : ∀ (before behind : String) (deck : DeckId),
    all (before ++ mark deck ++ behind) = (all before ++ [deck] ++ all behind).eraseDups
  readBack : ∀ (front : String) (marks : List (DeckId × String)), all front = [] →
    (∀ m ∈ marks, all m.2 = []) → all (rendered front marks) = (marks.map (·.1)).eraseDups
  accepted : ∀ (d : LessonDraft) (front : String) (marks : List (DeckId × String)), marks ≠ [] →
    d.body = rendered front marks →
    d.problems = headingProblems d.title d.description ∧
    ∀ id now ps, d.validate id now = .error ps →
      ps.contains .noBody = false ∧ ps.contains .noDecksReferenced = false
  validated : ∀ (d : LessonDraft) (front : String) (marks : List (DeckId × String)), marks ≠ [] →
    d.body = rendered front marks → Text.isAllBlank d.title = false →
    Text.isAllBlank d.description = false → ∀ id now, d.validate id now = .ok
      { id, courseId := d.courseId, order := d.order, title := d.title,
        description := d.description, body := d.body, createdAt := now }

/-- A mark stands for its deck in any text, and takes nothing from what stands around it: not from a
mark that is broken off before it, and not from what follows. So decks that are written into a text
without marks are read back, each once, and the text is accepted as that of a lesson. -/
theorem marksCompose : Compose where
  written := allWritten
  readBack _ _ plainFront plain := allPlain plainFront plain
  accepted d front marks given body := by
    have heading := LessonDraft.problemsRendered given body
    refine ⟨heading,fun id now ps refused => ?_⟩
    rw [LessonDraft.refusedFor refused,heading]
    exact LessonDraft.headingSilent d.title d.description
  validated d front marks given body titled described id now := by
    have heading := LessonDraft.problemsRendered given body
    have none := LessonDraft.headingInked titled described
    rw [LessonDraft.validate,heading,none]
    rfl

example (deck : DeckId) : all ("![deck](0b7c2a8e-5d1f-" ++ mark deck ++ ")](![deck") = [deck] := by
  rw [allWritten]
  rfl

end DeckReference

end Coursework
