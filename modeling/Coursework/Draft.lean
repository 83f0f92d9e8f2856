import Coursework.Course
import Coursework.Text.Blank
/-!
Drafts of courses and lessons. Validation reports every problem of a draft in a fixed order, or
stamps it with an identifier and the time of its creation. A draft of a lesson must refer to at
least one deck.
-/
namespace Coursework

inductive DraftProblem where
  | noTitle | noDescription | noBody | noDecksReferenced
  deriving DecidableEq, Repr

def DraftProblem.code : DraftProblem → String
  | .noTitle => "NO_TITLE"
  | .noDescription => "NO_DESCRIPTION"
  | .noBody => "NO_BODY"
  | .noDecksReferenced => "NO_DECKS_REFERENCED"

structure DraftProblems where
  found : List DraftProblem
  deriving DecidableEq, Repr

namespace DraftProblems

def none : DraftProblems := ⟨[]⟩

def add (ps : DraftProblems) (p : DraftProblem) : DraftProblems := ⟨ps.found ++ [p]⟩

def isEmpty (ps : DraftProblems) : Bool := ps.found.isEmpty

def contains (ps : DraftProblems) (p : DraftProblem) : Bool := ps.found.contains p

def message (ps : DraftProblems) : String :=
  "validation failed: [" ++ ", ".intercalate (ps.found.map DraftProblem.code) ++ "]"

def demand (condition : Bool) (p : DraftProblem) (ps : DraftProblems) : DraftProblems :=
  if condition then ps else ps.add p

def guarding {α : Type} (ps : DraftProblems) (a : α) : Except DraftProblems α :=
  if ps.isEmpty then .ok a else .error ps

end DraftProblems

structure CourseDraft where
  order : Int64
  title : String
  description : String
  deriving DecidableEq

def headingProblems (title description : String) : DraftProblems :=
  DraftProblems.none
    |>.demand (!Text.isAllBlank title) .noTitle
    |>.demand (!Text.isAllBlank description) .noDescription

def CourseDraft.validate (d : CourseDraft) (id : CourseId) (now : Instant) :
    Except DraftProblems Course :=
  (headingProblems d.title d.description).guarding
    { id, order := d.order, title := d.title, description := d.description, createdAt := now }

structure LessonDraft where
  courseId : CourseId
  order : Int64
  title : String
  description : String
  body : String
  deriving DecidableEq

/-- The problems of a draft. A blank text is reported as such and not searched for decks. -/
def LessonDraft.problems (d : LessonDraft) : DraftProblems :=
  let heading := headingProblems d.title d.description
  if Text.isAllBlank d.body then heading.add .noBody
  else heading.demand (!(DeckReference.all d.body).isEmpty) .noDecksReferenced

def LessonDraft.validate (d : LessonDraft) (id : LessonId) (now : Instant) :
    Except DraftProblems Lesson :=
  d.problems.guarding
    { id, courseId := d.courseId, order := d.order, title := d.title,
      description := d.description, body := d.body, createdAt := now }

end Coursework
