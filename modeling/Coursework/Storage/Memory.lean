import Coursework.Listing
import Coursework.Storage.Operation
/-!
A store that keeps whole records. A record replaces the one with its identifier; nothing else is
checked. Saving progress keeps the identifier and the time of creation of the enrollment.
-/
namespace Coursework

structure Memory where
  courses : List Course := []
  lessons : List Lesson := []
  decks : List Deck := []
  enrollments : List Enrollment := []
  deriving DecidableEq, Inhabited

namespace Memory

def lessonsOf (m : Memory) (course : CourseId) : List Lesson :=
  sortOrdered Lesson.precedes (m.lessons.filter (·.courseId == course))

def card? (m : Memory) (id : CardId) : Option Card :=
  (m.decks.flatMap (·.cards)).reverse.find? (·.id == id)

def enrollment? (m : Memory) (user : UserId) (course : CourseId) : Option Enrollment :=
  m.enrollments.find? fun e => e.userId == user && e.courseId == course

def overwrite (old new : Enrollment) : Enrollment :=
  { old with currentLessonId := new.currentLessonId, state := new.state,
             updatedAt := new.updatedAt }

def removeLesson (m : Memory) (id : LessonId) : Option Lesson × Memory :=
  (m.lessons.find? (·.id == id),{ m with lessons := m.lessons.filter (·.id != id) })

def perform : Handler Memory
  | .upsertCourse c, m =>
    (.ok (),{ m with courses := replaceOrAppend (·.id == c.id) c m.courses })
  | .getCourse id, m => (.ok (m.courses.find? (·.id == id)),m)
  | .upsertLesson l, m =>
    (.ok (),{ m with lessons := replaceOrAppend (·.id == l.id) l m.lessons })
  | .listLessons course order, m => (.ok (order.arrange (m.lessonsOf course)),m)
  | .upsertDeck d, m => (.ok (),{ m with decks := replaceOrAppend (·.id == d.id) d m.decks })
  | .getDeck id, m =>
    match m.decks.find? (·.id == id) with
    | some d => (.ok d,m)
    | none => (.error .notFound,m)
  | .getCards ids, m => (.ok (ids.eraseDups.filterMap m.card?),m)
  | .createProgress e, m =>
    match m.enrollment? e.userId e.courseId with
    | some _ => (.error .conflict,m)
    | none => (.ok (),{ m with enrollments := m.enrollments ++ [e] })
  | .getProgress user course, m =>
    match m.enrollment? user course with
    | some e => (.ok e,m)
    | none => (.error .notFound,m)
  | .saveProgress e, m =>
    match m.enrollment? e.userId e.courseId with
    | some old =>
      let enrollments := replaceOrAppend
        (fun o => o.userId == e.userId && o.courseId == e.courseId) (overwrite old e) m.enrollments
      (.ok (),{ m with enrollments })
    | none => (.error .notFound,m)

end Memory

end Coursework
