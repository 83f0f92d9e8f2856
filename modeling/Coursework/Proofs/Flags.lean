import Coursework.CommandLine.Arguments
import Coursework.Proofs.Addresses
import Coursework.Proofs.Spellings

/-! The arguments of a command as what is written and what is meant. They are written in groups, a flag
with its value, in any order and any number. Any list of words is a row of groups, or it is one up to
a first word that asks for help, or up to a first group that is faulty. -/
namespace Coursework

open Text

def Id.SpelledBy {entity : Entity} (id : Id entity) (raw : String) : Prop :=
  id.uuid.PaddedBy raw.toList

def CardAnswer.SpelledBy (a : CardAnswer) (raw : String) : Prop :=
  ∃ card answer, raw.toList = card ++ '=' :: answer ∧ a.cardId.uuid.PaddedBy card ∧
    a.answerId.uuid.PaddedBy answer

theorem Uuid.PaddedBy.unequal {u : Uuid} {cs : List Char} (padded : u.PaddedBy cs) :
    ∀ c ∈ cs, (c != '=') = true := by
  have blankUnequal {bs : List Char} (blank : bs.all isBlank = true) : ∀ c ∈ bs, (c != '=') = true := by
    intro c member
    rw [bne_iff_ne]
    rintro rfl
    have isBlank := List.all_eq_true.mp blank _ member
    revert isBlank
    decide
  obtain ⟨front,inside,back,blank,blankToo,spelled,rfl⟩ := padded
  intro c member
  rcases List.mem_append.mp member with here | later
  · exact blankUnequal blank c here
  · rcases List.mem_append.mp later with here | there
    · exact bne_iff_ne.mpr (spelled.solid c here).2
    · exact blankUnequal blankToo c there

namespace CommandLine

theorem readIdIff {entity : Entity} {flag : Flag} {raw : String} {id : Id entity} :
    readId flag raw = .ok id ↔ id.SpelledBy raw := by
  have opened : (Id.parse? (trim raw) : Option (Id entity)) =
      (Uuid.parseChars? (trimChars raw.toList)).map Id.mk := by
    rw [Id.parse?,Uuid.parse?,trim,String.toList_ofList]
  rw [readId,opened,Id.SpelledBy,← Uuid.parseTrimmedIff]
  cases Uuid.parseChars? (trimChars raw.toList) with
  | none => simp
  | some u =>
    simp only [Option.map_some,Except.ok.injEq,Option.some.injEq]
    exact ⟨fun same => same ▸ rfl,fun same => Id.ext same⟩

theorem readIdFails {entity : Entity} {flag : Flag} {raw : String}
    (none : ∀ id : Id entity, ¬id.SpelledBy raw) :
    (readId flag raw : Except ArgumentError (Id entity)) = .error (.invalidId flag raw) := by
  cases read : (readId flag raw : Except ArgumentError (Id entity)) with
  | ok id => exact absurd (readIdIff.mp read) (none id)
  | error e =>
    unfold readId at read
    split at read
    · cases read
    · exact read.symm

theorem readAnswerIff {raw : String} {a : CardAnswer} :
    readAnswer raw = .ok a ↔ a.SpelledBy raw := by
  constructor
  · intro read
    have whole : raw.toList = raw.toList.takeWhile (· != '=') ++ raw.toList.dropWhile (· != '=') :=
      List.takeWhile_append_dropWhile.symm
    simp only [readAnswer] at read
    split at read
    · cases read
    · rename_i c answer behind
      split at read
      · rename_i card reply cardRead replyRead
        cases Except.ok.inj read
        have equals : c = '=' := by
          have stopped := List.head?_dropWhile_not (· != '=') raw.toList
          rw [behind] at stopped
          simpa using stopped
        subst equals
        rw [behind] at whole
        exact ⟨_,answer,whole,Uuid.parseTrimmedIff.mp cardRead,Uuid.parseTrimmedIff.mp replyRead⟩
      · cases read
  · rintro ⟨card,answer,whole,cardPadded,answerPadded⟩
    have front : raw.toList.takeWhile (· != '=') = card := by
      rw [whole,List.takeWhile_append_of_pos cardPadded.unequal,List.takeWhile_cons_of_neg (by simp),
        List.append_nil]
    have back : raw.toList.dropWhile (· != '=') = '=' :: answer := by
      rw [whole,List.dropWhile_append_of_pos cardPadded.unequal,List.dropWhile_cons_of_neg (by simp)]
    simp only [readAnswer,front,back,Uuid.parseTrimmedIff.mpr cardPadded,
      Uuid.parseTrimmedIff.mpr answerPadded]

theorem readAnswerFails {raw : String} (none : ∀ a : CardAnswer, ¬a.SpelledBy raw) :
    readAnswer raw = .error (.invalidAnswer raw) := by
  cases read : readAnswer raw with
  | ok a => exact absurd (readAnswerIff.mp read) (none a)
  | error e =>
    simp only [readAnswer] at read
    split at read
    · exact read.symm
    · split at read
      · cases read
      · exact read.symm

inductive Given where
  | database (raw : String) (inked : isAllBlank raw = false)
  | user (id : UserId) (raw : String) (spelled : id.SpelledBy raw)
  | course (id : CourseId) (raw : String) (spelled : id.SpelledBy raw)
  | lesson (id : LessonId) (raw : String) (spelled : id.SpelledBy raw)
  | deck (id : DeckId) (raw : String) (spelled : id.SpelledBy raw)
  | answer (a : CardAnswer) (raw : String) (spelled : a.SpelledBy raw)
  | bodyless

namespace Given

def flag : Given → Flag
  | .database _ _ => .db
  | .user _ _ _ => .user
  | .course _ _ _ => .course
  | .lesson _ _ _ => .lesson
  | .deck _ _ _ => .deck
  | .answer _ _ _ => .answer
  | .bodyless => .bodyless

def value : Given → List String
  | .database raw _ | .user _ raw _ | .course _ raw _ | .lesson _ raw _ | .deck _ raw _
  | .answer _ raw _ => [raw]
  | .bodyless => []

def words (gs : List Given) : List String := gs.flatMap fun g => g.flag.text :: g.value

def database? : Given → Option String
  | .database raw _ => some raw
  | _ => none

def user? : Given → Option UserId
  | .user id _ _ => some id
  | _ => none

def course? : Given → Option CourseId
  | .course id _ _ => some id
  | _ => none

def lesson? : Given → Option LessonId
  | .lesson id _ _ => some id
  | _ => none

def deck? : Given → Option DeckId
  | .deck id _ _ => some id
  | _ => none

def answer? : Given → Option CardAnswer
  | .answer a _ _ => some a
  | _ => none

structure TellsOwn (g : Given) : Prop where
  database : g.flag ≠ .db → g.database? = none
  user : g.flag ≠ .user → g.user? = none
  course : g.flag ≠ .course → g.course? = none
  lesson : g.flag ≠ .lesson → g.lesson? = none
  deck : g.flag ≠ .deck → g.deck? = none
  answer : g.flag ≠ .answer → g.answer? = none

theorem tellsOwn (g : Given) : g.TellsOwn := by
  cases g <;> constructor <;> intro other <;> first | rfl | exact absurd rfl other

end Given

def Arguments.told (environment : Environment) (gs : List Given) : Arguments where
  databaseUrl := match (gs.filterMap Given.database?).getLast? with
    | some raw => normalizeUrl environment.directory raw
    | none => (Arguments.initial environment).databaseUrl
  user := (gs.filterMap Given.user?).getLast?
  course := (gs.filterMap Given.course?).getLast?
  lesson := (gs.filterMap Given.lesson?).getLast?
  deck := (gs.filterMap Given.deck?).getLast?
  answers := gs.filterMap Given.answer?
  bodyless := gs.any (·.flag == .bodyless)

inductive Located (environment : Environment) (gs : List Given) : String → Prop where
  | flag {raw url : String} (last : (gs.filterMap Given.database?).getLast? = some raw)
      (address : AddressOf environment.directory raw url) : Located environment gs url
  | environment {raw url : String} (unnamed : gs.filterMap Given.database? = [])
      (given : environment.databaseUrl = some raw)
      (address : AddressOf environment.directory raw url) : Located environment gs url
  | default (unnamed : gs.filterMap Given.database? = [])
      (missing : environment.databaseUrl = none) : Located environment gs "sqlite://dev.sqlite3"

inductive Faulty : List String → ArgumentError → Prop where
  | unknown {raw : String} (noFlag : ∀ flag : Flag, flag.text ≠ raw)
      (noHelp : raw ≠ "--help" ∧ raw ≠ "-h") (rest : List String) :
      Faulty (raw :: rest) (.unknownArgument raw)
  | noValue {flag : Flag} (takes : flag ≠ .bodyless) : Faulty [flag.text] (.missingValue flag)
  | blank {raw : String} (blank : isAllBlank raw = true) (rest : List String) :
      Faulty (Flag.db.text :: raw :: rest) (.invalidDatabaseUrl raw)
  | noId {flag : Flag} (names : flag ∈ [Flag.user,.course,.lesson,.deck]) {raw : String}
      (none : ∀ u : Uuid, ¬u.PaddedBy raw.toList) (rest : List String) :
      Faulty (flag.text :: raw :: rest) (.invalidId flag raw)
  | noAnswer {raw : String} (none : ∀ a : CardAnswer, ¬a.SpelledBy raw) (rest : List String) :
      Faulty (Flag.answer.text :: raw :: rest) (.invalidAnswer raw)

namespace Arguments

variable (environment : Environment)

def tell (args : Arguments) : Given → Arguments
  | .database raw _ => { args with databaseUrl := normalizeUrl environment.directory raw }
  | .user id _ _ => { args with user := some id }
  | .course id _ _ => { args with course := some id }
  | .lesson id _ _ => { args with lesson := some id }
  | .deck id _ _ => { args with deck := some id }
  | .answer a _ _ => { args with answers := args.answers ++ [a] }
  | .bodyless => { args with bodyless := true }

theorem toldLast (gs : List Given) (g : Given) :
    told environment (gs ++ [g]) = tell environment (told environment gs) g := by
  cases g <;> simp [told,tell,Given.database?,Given.user?,Given.course?,Given.lesson?,Given.deck?,
    Given.answer?,Given.flag]

theorem toldFrom (before gs : List Given) :
    gs.foldl (tell environment) (told environment before) = told environment (before ++ gs) := by
  induction gs generalizing before with
  | nil => rw [List.append_nil]; rfl
  | cons g gs ih => rw [List.foldl_cons,← toldLast,ih,List.append_assoc]; rfl

theorem locatedTold {gs : List Given} {url : String} (located : Located environment gs url) :
    url = (told environment gs).databaseUrl := by
  cases located with
  | flag last address =>
    simp only [told,last]
    exact addressOfIff.mp address
  | environment unnamed given address =>
    simp only [told,unnamed,List.getLast?_nil,initial,given]
    exact addressOfIff.mp address
  | default unnamed missing =>
    simp only [told,unnamed,List.getLast?_nil,initial,missing]
    rfl

theorem hasLocation (gs : List Given) : ∃ url, Located environment gs url := by
  cases last : (gs.filterMap Given.database?).getLast? with
  | some raw => exact ⟨_,.flag last (addressOfIff.mpr rfl)⟩
  | none =>
    have unnamed := List.getLast?_eq_none_iff.mp last
    cases given : environment.databaseUrl with
    | some raw => exact ⟨_,.environment unnamed given (addressOfIff.mpr rfl)⟩
    | none => exact ⟨_,.default unnamed given⟩

theorem locatedIff {gs : List Given} {url : String} :
    Located environment gs url ↔ url = (told environment gs).databaseUrl := by
  refine ⟨locatedTold environment,?_⟩
  rintro rfl
  obtain ⟨url,located⟩ := hasLocation environment gs
  exact locatedTold environment located ▸ located

theorem toldUnder {α : Type} {f : Given → Option α} {flag : Flag}
    (only : ∀ g, g.flag ≠ flag → f g = none) {gs hs : List Given}
    (alike : gs.filter (·.flag == flag) = hs.filter (·.flag == flag)) :
    gs.filterMap f = hs.filterMap f := by
  have own (gs : List Given) : gs.filterMap f = (gs.filter (·.flag == flag)).filterMap f := by
    rw [List.filterMap_filter]
    refine List.filterMap_congr fun g _ => ?_
    split
    · rfl
    · rename_i other
      exact only g fun same => other (beq_iff_eq.mpr same)
  rw [own gs,alike,← own hs]

theorem toldAlike {gs hs : List Given}
    (alike : ∀ flag, gs.filter (·.flag == flag) = hs.filter (·.flag == flag)) :
    told environment gs = told environment hs := by
  have database : gs.filterMap Given.database? = hs.filterMap Given.database? :=
    toldUnder (fun g => g.tellsOwn.database) (alike .db)
  have user : gs.filterMap Given.user? = hs.filterMap Given.user? :=
    toldUnder (fun g => g.tellsOwn.user) (alike .user)
  have course : gs.filterMap Given.course? = hs.filterMap Given.course? :=
    toldUnder (fun g => g.tellsOwn.course) (alike .course)
  have lesson : gs.filterMap Given.lesson? = hs.filterMap Given.lesson? :=
    toldUnder (fun g => g.tellsOwn.lesson) (alike .lesson)
  have deck : gs.filterMap Given.deck? = hs.filterMap Given.deck? :=
    toldUnder (fun g => g.tellsOwn.deck) (alike .deck)
  have answers : gs.filterMap Given.answer? = hs.filterMap Given.answer? :=
    toldUnder (fun g => g.tellsOwn.answer) (alike .answer)
  have bodyless : gs.any (·.flag == .bodyless) = hs.any (·.flag == .bodyless) := by
    have own (gs : List Given) : gs.any (·.flag == .bodyless) =
        (gs.filter (·.flag == .bodyless)).any fun _ => true := by simp [List.any_filter]
    rw [own gs,alike,← own hs]
  rw [told,told,database,user,course,lesson,deck,answers,bodyless]

theorem textIsNoHelp (flag : Flag) : ¬(flag.text = "--help" ∨ flag.text = "-h") := by
  cases flag <;> decide

theorem parsesGroup (args : Arguments) (g : Given) (rest : List String) :
    parseFrom environment.directory (g.flag.text :: (g.value ++ rest)) args =
      parseFrom environment.directory rest (tell environment args g) := by
  rw [parseFrom,if_neg (textIsNoHelp g.flag),Flag.parsesText]
  cases g with
  | database raw inked => simp [Given.flag,Given.value,set,tell,inked]
  | user id raw spelled => simp [Given.flag,Given.value,set,tell,readIdIff.mpr spelled]
  | course id raw spelled => simp [Given.flag,Given.value,set,tell,readIdIff.mpr spelled]
  | lesson id raw spelled => simp [Given.flag,Given.value,set,tell,readIdIff.mpr spelled]
  | deck id raw spelled => simp [Given.flag,Given.value,set,tell,readIdIff.mpr spelled]
  | answer a raw spelled => simp [Given.flag,Given.value,set,tell,readAnswerIff.mpr spelled]
  | bodyless => rfl

theorem parsesGroups (args : Arguments) (gs : List Given) (rest : List String) :
    parseFrom environment.directory (Given.words gs ++ rest) args =
      parseFrom environment.directory rest (gs.foldl (tell environment) args) := by
  induction gs generalizing args with
  | nil => rfl
  | cons g gs ih =>
    have front : Given.words (g :: gs) ++ rest =
        g.flag.text :: (g.value ++ (Given.words gs ++ rest)) := by
      simp [Given.words]
    rw [front,parsesGroup,ih,List.foldl_cons]

theorem parsesFaulty {tail : List String} {e : ArgumentError} (faulty : Faulty tail e)
    (args : Arguments) : parseFrom environment.directory tail args = .error (.error e) := by
  cases faulty with
  | @unknown raw noFlag noHelp rest =>
    have missing : Flag.parse? raw = none := by
      refine List.find?_eq_none.mpr fun flag _ same => noFlag flag (beq_iff_eq.mp same)
    rw [parseFrom,if_neg (not_or.mpr noHelp),missing]
  | @noValue flag takes =>
    rw [parseFrom,if_neg (textIsNoHelp flag),Flag.parsesText]
    cases flag <;> first | rfl | exact absurd rfl takes
  | @blank raw blank rest =>
    rw [parseFrom,if_neg (textIsNoHelp .db),Flag.parsesText]
    simp [set,blank]
  | @noId flag names raw none rest =>
    have fails {entity : Entity} (flag : Flag) :
        (readId flag raw : Except ArgumentError (Id entity)) = .error (.invalidId flag raw) :=
      readIdFails fun id => none id.uuid
    rw [parseFrom,if_neg (textIsNoHelp flag),Flag.parsesText]
    simp only [List.mem_cons,List.not_mem_nil,or_false] at names
    rcases names with rfl | rfl | rfl | rfl <;> simp [set,fails]
  | @noAnswer raw none rest =>
    rw [parseFrom,if_neg (textIsNoHelp .answer),Flag.parsesText]
    simp [set,readAnswerFails none]

inductive Ends (gs : List Given) : List String → Except Stop Arguments → Prop where
  | told : Ends gs [] (.ok (told environment gs))
  | helped {raw : String} (asks : raw = "--help" ∨ raw = "-h") (rest : List String) :
      Ends gs (raw :: rest) (.error .help)
  | refused {tail : List String} {e : ArgumentError} (faulty : Faulty tail e) :
      Ends gs tail (.error (.error e))

theorem parsesEnding {gs : List Given} {tail : List String} {result : Except Stop Arguments}
    (ends : Ends environment gs tail result) :
    parse environment (Given.words gs ++ tail) = result := by
  have start : gs.foldl (tell environment) (initial environment) = told environment gs :=
    toldFrom environment [] gs
  rw [parse,parsesGroups,start]
  cases ends with
  | told => rfl
  | helped asks rest => rw [parseFrom,if_pos asks]
  | refused faulty => exact parsesFaulty environment faulty _

theorem valueTaken {flag : Flag} (takes : flag ≠ .bodyless) (raw : String) (rest : List String) :
    (∃ g : Given, g.flag = flag ∧ g.value = [raw]) ∨
      ∃ e, Faulty (flag.text :: raw :: rest) e := by
  have named {entity : Entity} (names : flag ∈ [Flag.user,.course,.lesson,.deck]) :
      (∃ id : Id entity, id.SpelledBy raw) ∨ ∃ e, Faulty (flag.text :: raw :: rest) e := by
    by_cases spelled : ∃ u : Uuid, u.PaddedBy raw.toList
    · obtain ⟨u,padded⟩ := spelled
      exact .inl ⟨⟨u⟩,padded⟩
    · exact .inr ⟨_,.noId names (not_exists.mp spelled) rest⟩
  cases flag with
  | db =>
    cases blank : isAllBlank raw with
    | true => exact .inr ⟨_,.blank blank rest⟩
    | false => exact .inl ⟨.database raw blank,rfl,rfl⟩
  | user => exact (named (by simp)).imp_left fun ⟨id,spelled⟩ => ⟨.user id raw spelled,rfl,rfl⟩
  | course => exact (named (by simp)).imp_left fun ⟨id,spelled⟩ => ⟨.course id raw spelled,rfl,rfl⟩
  | lesson => exact (named (by simp)).imp_left fun ⟨id,spelled⟩ => ⟨.lesson id raw spelled,rfl,rfl⟩
  | deck => exact (named (by simp)).imp_left fun ⟨id,spelled⟩ => ⟨.deck id raw spelled,rfl,rfl⟩
  | answer =>
    by_cases spelled : ∃ a : CardAnswer, a.SpelledBy raw
    · obtain ⟨a,spelled⟩ := spelled
      exact .inl ⟨.answer a raw spelled,rfl,rfl⟩
    · exact .inr ⟨_,.noAnswer (not_exists.mp spelled) rest⟩
  | bodyless => exact absurd rfl takes

def TakenApart (argv : List String) : Prop :=
  ∃ gs tail result, argv = Given.words gs ++ tail ∧ Ends environment gs tail result

theorem oneMore {argv : List String} (apart : TakenApart environment argv) (g : Given) :
    TakenApart environment (g.flag.text :: (g.value ++ argv)) := by
  obtain ⟨gs,tail,result,rfl,ends⟩ := apart
  have front : g.flag.text :: (g.value ++ (Given.words gs ++ tail)) =
      Given.words (g :: gs) ++ tail := by
    simp [Given.words]
  rw [front]
  cases ends with
  | told => exact ⟨g :: gs,[],_,rfl,.told⟩
  | helped asks rest => exact ⟨g :: gs,_,_,rfl,.helped asks rest⟩
  | refused faulty => exact ⟨g :: gs,_,_,rfl,.refused faulty⟩

theorem takenApart (argv : List String) : TakenApart environment argv := by
  -- on the number of words, as a group may have one or two
  induction size : argv.length using Nat.strongRecOn generalizing argv with
  | _ n ih =>
    cases argv with
    | nil => exact ⟨[],[],_,rfl,.told⟩
    | cons raw rest =>
      by_cases asks : raw = "--help" ∨ raw = "-h"
      · exact ⟨[],_,_,rfl,.helped asks rest⟩
      cases known : Flag.parse? raw with
      | none =>
        have noFlag : ∀ flag : Flag, flag.text ≠ raw := by
          rintro flag rfl
          rw [Flag.parsesText] at known
          cases known
        exact ⟨[],_,_,rfl,.refused (.unknown noFlag (not_or.mp asks) rest)⟩
      | some flag =>
        have found : Flag.all.find? (fun other => other.text == raw) = some flag := known
        have same := List.find?_some found
        cases eq_of_beq same
        by_cases single : flag = .bodyless
        · subst single
          have shorter : rest.length < n := by
            simp only [List.length_cons] at size
            omega
          exact oneMore environment (ih _ shorter rest rfl) .bodyless
        · cases rest with
          | nil => exact ⟨[],_,_,rfl,.refused (.noValue single)⟩
          | cons value rest =>
            rcases valueTaken single value rest with ⟨g,rfl,given⟩ | ⟨e,faulty⟩
            · have shorter : rest.length < n := by
                simp only [List.length_cons] at size
                omega
              have apart := oneMore environment (ih _ shorter rest rfl) g
              rwa [given] at apart
            · exact ⟨[],_,_,rfl,.refused faulty⟩

/-- Groups in any order and number are read as what they mean, so those of different flags may change
places; the first faulty group is reported, whatever stands behind it. A list of words is read in no
other way. The database is at the address of the last location given, else of the environment's. -/
theorem argumentsAreTold :
    (∀ gs, parse environment (Given.words gs) = .ok (told environment gs)) ∧
    (∀ gs hs : List Given,
      (∀ flag, gs.filter (·.flag == flag) = hs.filter (·.flag == flag)) →
      parse environment (Given.words gs) = parse environment (Given.words hs)) ∧
    (∀ gs tail e, Faulty tail e →
      parse environment (Given.words gs ++ tail) = .error (.error e)) ∧
    (∀ argv result, parse environment argv = result ↔
      ∃ gs tail, argv = Given.words gs ++ tail ∧ Ends environment gs tail result) ∧
    ∀ gs url, Located environment gs url ↔ url = (told environment gs).databaseUrl := by
  have means (gs : List Given) : parse environment (Given.words gs) = .ok (told environment gs) := by
    have ended := parsesEnding environment (show Ends environment gs [] _ from .told)
    rwa [List.append_nil] at ended
  refine ⟨means,?_,?_,?_,fun gs url => locatedIff environment⟩
  · intro gs hs alike
    rw [means,means,toldAlike environment alike]
  · intro gs tail e faulty
    exact parsesEnding environment (.refused faulty)
  · intro argv result
    constructor
    · rintro rfl
      obtain ⟨gs,tail,result,rfl,ends⟩ := takenApart environment argv
      rw [parsesEnding environment ends]
      exact ⟨gs,tail,rfl,ends⟩
    · rintro ⟨gs,tail,rfl,ends⟩
      exact parsesEnding environment ends

end Arguments

namespace Sample

def shell : Environment := { databaseUrl := some "notes.db", directory := "/work" }

theorem braced : (⟨.ofNat 8⟩ : UserId).SpelledBy " {00000000-0000-0000-0000-000000000008}\n" :=
  (@readIdIff _ .user _ _).mp (by decide +kernel)

def byUser : Given := .user _ _ braced

theorem noDeck : Faulty ["--deck","--user"] (.invalidId .deck "--user") := by
  refine .noId (show Flag.deck ∈ _ by decide) (fun u padded => ?_) []
  have read := Uuid.parseTrimmedIff.mpr padded
  have unread : Uuid.parseChars? (trimChars "--user".toList) = none := by decide +kernel
  rw [unread] at read
  cases read

end Sample

theorem sampleArgumentsAreTold :
    Arguments.parse Sample.shell (Given.words [Sample.byUser,.bodyless]) =
        .ok { databaseUrl := "sqlite:///work/notes.db", user := some ⟨.ofNat 8⟩, bodyless := true } ∧
      Arguments.parse Sample.shell (Given.words [Sample.byUser,.bodyless]) =
        Arguments.parse Sample.shell (Given.words [.bodyless,Sample.byUser]) ∧
      Arguments.parse Sample.shell (Given.words [.bodyless] ++ ["--deck","--user"]) =
        .error (.error (.invalidId .deck "--user")) ∧
      Located Sample.shell [Sample.byUser,.bodyless] "sqlite:///work/notes.db" := by
  obtain ⟨means,moves,refuses,-,located⟩ := Arguments.argumentsAreTold Sample.shell
  refine ⟨(means _).trans ?_,moves _ _ ?_,refuses _ _ _ Sample.noDeck,(located _ _).mpr ?_⟩
  · decide +kernel
  · intro flag
    cases flag <;> rfl
  · decide +kernel

end CommandLine

end Coursework
