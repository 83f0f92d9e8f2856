import Coursework.CommandLine.Arguments
import Coursework.Proofs.Padding

/-! Where a database is said to be, by a flag or by the environment, and with blanks around it. What
stands as it is must be spelled without blanks: a blank more, and it is another database. Everything
else may be padded, and is the same on both ways unless it is blank. -/
namespace Coursework

namespace Text

section Occurs

variable {word cs blanks : List Char}

theorem unlikeBlank {c b : Char} (solid : isBlank c = false) (blank : isBlank b = true) :
    (c == b) = false := by
  rw [beq_eq_false_iff_ne]
  rintro rfl
  rw [blank] at solid
  cases solid

theorem prefixBehind (solid : ∀ c ∈ word, isBlank c = false) (blank : blanks.all isBlank = true)
    (cs : List Char) : word.isPrefixOf (cs ++ blanks) = word.isPrefixOf cs := by
  induction word generalizing cs with
  | nil => simp
  | cons w word ih =>
    obtain ⟨here,rest⟩ := List.forall_mem_cons.mp solid
    cases cs with
    | cons c cs => rw [List.cons_append,List.isPrefixOf_cons_cons,List.isPrefixOf_cons_cons,ih rest]
    | nil =>
      cases blanks with
      | nil => rfl
      | cons b blanks =>
        have first := List.all_eq_true.mp blank b List.mem_cons_self
        rw [List.nil_append,List.isPrefixOf_cons_cons,unlikeBlank here first]
        rfl

variable {w : Char} (solid : ∀ c ∈ w :: word, isBlank c = false) (blank : blanks.all isBlank = true)

include solid blank

theorem prefixBefore (cs : List Char) (some : blanks ≠ []) :
    (w :: word).isPrefixOf (blanks ++ cs) = false := by
  cases blanks with
  | nil => exact absurd rfl some
  | cons b blanks =>
    have first := List.all_eq_true.mp blank b List.mem_cons_self
    rw [List.cons_append,List.isPrefixOf_cons_cons,unlikeBlank (solid w List.mem_cons_self) first]
    rfl

theorem occursBefore (cs : List Char) :
    occursIn (w :: word) (blanks ++ cs) = occursIn (w :: word) cs := by
  induction blanks with
  | nil => rfl
  | cons b blanks ih =>
    have later : blanks.all isBlank = true := (Bool.and_eq_true _ _ ▸ blank : _ ∧ _).2
    have none := prefixBefore solid blank cs (List.cons_ne_nil b blanks)
    rw [List.cons_append] at none ⊢
    rw [occursIn,none,Bool.false_or,ih later]

theorem occursBehind : occursIn (w :: word) (cs ++ blanks) = occursIn (w :: word) cs := by
  induction cs with
  | nil =>
    have none := occursBefore solid blank []
    rwa [List.append_nil] at none
  | cons c cs ih =>
    have front := prefixBehind solid blank (c :: cs)
    rw [List.cons_append] at front ⊢
    rw [occursIn,occursIn,front,ih]

end Occurs

def Pads (raw text : String) : Prop :=
  ∃ front back, front.all isBlank = true ∧ back.all isBlank = true ∧
    raw.toList = front ++ (text.toList ++ back)

namespace Pads

variable {raw text : String}

theorem alike (pads : Pads raw text) : trimChars raw.toList = trimChars text.toList := by
  obtain ⟨front,back,blank,blankToo,whole⟩ := pads
  rw [whole,trimPadded blank blankToo]

theorem allBlank (pads : Pads raw text) : isAllBlank raw = isAllBlank text := by
  obtain ⟨front,back,blank,blankToo,whole⟩ := pads
  rw [isAllBlank,isAllBlank,whole,List.all_append,List.all_append,blank,blankToo,Bool.true_and,
    Bool.and_true]

theorem onlySelf (pads : Pads raw text) (solid : ∀ c ∈ raw.toList, isBlank c = false) :
    raw = text := by
  obtain ⟨front,back,blank,blankToo,whole⟩ := pads
  have nothing {bs : List Char} (blank : bs.all isBlank = true) (part : bs ⊆ raw.toList) :
      bs = [] := by
    refine List.eq_nil_iff_forall_not_mem.mpr fun c member => ?_
    have isBlank := List.all_eq_true.mp blank c member
    rw [solid c (part member)] at isBlank
    cases isBlank
  have noFront : front = [] := nothing blank fun c member => by simp [whole,member]
  have noBack : back = [] := nothing blankToo fun c member => by simp [whole,member]
  rw [noFront,noBack,List.nil_append,List.append_nil] at whole
  exact String.toList_inj.mp whole

end Pads

theorem trimPads (text : String) : Pads text (trim text) := by
  obtain ⟨front,back,blank,blankToo,whole⟩ := trimSplit text.toList
  exact ⟨front,back,blank,blankToo,by rw [trim,String.toList_ofList]; exact whole⟩

structure Trimmed (raw text : String) : Prop where
  pads : Pads raw text
  front : ∀ c cs, text.toList = c :: cs → isBlank c = false
  back : ∀ c cs, text.toList = cs ++ [c] → isBlank c = false

theorem trimmedIff {raw text : String} : Trimmed raw text ↔ text = trim raw := by
  constructor
  · rintro ⟨pads,front,back⟩
    have kept : trimChars text.toList = text.toList := by
      rw [trimChars,startKept front,endKept back]
    rw [trim,pads.alike,kept,String.ofList_toList]
  · rintro rfl
    have chars : (trim raw).toList = trimEnd (trimStart raw.toList) := String.toList_ofList
    refine ⟨trimPads raw,fun c cs starts => ?_,fun c cs ends => endSolid (chars.symm.trans ends)⟩
    have front : trimEnd (trimStart raw.toList) <+: trimStart raw.toList := by
      rw [← List.reverse_suffix,trimEnd,List.reverse_reverse]
      exact List.dropWhile_suffix isBlank
    obtain ⟨rest,whole⟩ := front
    rw [← chars,starts,List.cons_append] at whole
    exact startSolid whole.symm

theorem trimKeepsCount {c : Char} (solid : isBlank c = false) (cs : List Char) :
    (trimChars cs).count c = cs.count c := by
  have without {bs : List Char} (blank : bs.all isBlank = true) : bs.count c = 0 := by
    refine List.count_eq_zero.mpr fun member => ?_
    rw [List.all_eq_true.mp blank c member] at solid
    cases solid
  obtain ⟨front,back,blank,blankToo,whole⟩ := trimSplit cs
  conv => rhs; rw [whole,List.count_append,List.count_append,without blank,without blankToo]
  omega

theorem occursIff {word cs : List Char} : occursIn word cs = true ↔ word <:+: cs := by
  induction cs with
  | nil => rw [occursIn,List.isEmpty_iff,List.infix_nil]
  | cons c cs ih =>
    rw [occursIn,Bool.or_eq_true,List.isPrefixOf_iff_prefix,ih,List.infix_cons_iff]

theorem startsIff {word text : String} :
    word.toList <+: text.toList ↔ ∃ rest, text = word ++ rest := by
  constructor
  · rintro ⟨rest,whole⟩
    refine ⟨String.ofList rest,String.toList_inj.mp ?_⟩
    rw [String.toList_append,String.toList_ofList,whole]
  · rintro ⟨rest,rfl⟩
    exact ⟨rest.toList,String.toList_append.symm⟩

end Text

namespace CommandLine

open Text

variable {directory raw text path place url : String}

theorem fileSchemeSolid : ∀ c ∈ fileScheme, isBlank c = false := solidOf (by decide)

theorem fileSchemeInside (pads : Pads raw text) (starts : fileScheme.isPrefixOf raw.toList = true) :
    fileScheme.isPrefixOf text.toList = true := by
  obtain ⟨front,back,blank,blankToo,whole⟩ := pads
  rw [whole] at starts
  have noFront : front = [] := by
    refine Decidable.byContradiction fun some => ?_
    have never := prefixBefore fileSchemeSolid blank (text.toList ++ back) some
    exact absurd (starts.symm.trans never) (by decide)
  rwa [noFront,List.nil_append,prefixBehind fileSchemeSolid blankToo text.toList] at starts

theorem memoryInside (pads : Pads raw text) : occursIn "mode=memory".toList raw.toList =
    occursIn "mode=memory".toList text.toList := by
  obtain ⟨front,back,blank,blankToo,whole⟩ := pads
  have solid : ∀ c ∈ "mode=memory".toList, isBlank c = false := solidOf (by decide)
  exact whole ▸ (occursBefore solid blank _).trans (occursBehind solid blankToo)

theorem isCompleteIff : isCompleteUrl raw = true ↔ raw = memoryUrl ∨
    fileScheme.isPrefixOf raw.toList = true ∨ occursIn "mode=memory".toList raw.toList = true := by
  rw [isCompleteUrl,Bool.or_eq_true,Bool.or_eq_true,beq_iff_eq,or_assoc]

theorem completeInside (pads : Pads raw text) (complete : isCompleteUrl raw = true) :
    isCompleteUrl text = true := by
  rcases isCompleteIff.mp complete with memory | starts | holds
  · have solid : ∀ c ∈ raw.toList, isBlank c = false := by
      rw [memory]
      exact solidOf (by decide)
    rwa [← pads.onlySelf solid]
  · exact isCompleteIff.mpr (.inr (.inl (fileSchemeInside pads starts)))
  · exact isCompleteIff.mpr (.inr (.inr ((memoryInside pads).symm.trans holds)))

theorem normalizeComplete (complete : isCompleteUrl raw = true) :
    normalizeUrl directory raw = raw := by
  rw [normalizeUrl,if_pos complete]

theorem normalizeIncomplete (directory : String) (incomplete : isCompleteUrl raw = false) :
    (normalizeUrl directory raw).toList =
      fileScheme ++ joinPath directory.toList (stripStart scheme (trimChars raw.toList)) := by
  rw [normalizeUrl,if_neg (by rw [incomplete]; decide),String.toList_ofList]

inductive InFull : String → Prop where
  | memory : InFull "sqlite::memory:"
  | slashes (rest : String) : InFull ("sqlite://" ++ rest)
  | inMemory (front back : String) : InFull (front ++ "mode=memory" ++ back)

inductive Behind : String → String → Prop where
  | scheme (path : String) : Behind ("sqlite:" ++ path) path
  | bare {text : String} (none : ∀ path, text ≠ "sqlite:" ++ path) : Behind text text

inductive Within (directory : String) : String → String → Prop where
  | root (rest : String) : Within directory ("/" ++ rest) ("/" ++ rest)
  | slash {path : String} (relative : ∀ rest, path ≠ "/" ++ rest) (front : String)
      (ends : directory = front ++ "/") : Within directory path (directory ++ path)
  | step {path : String} (relative : ∀ rest, path ≠ "/" ++ rest)
      (other : ∀ front, directory ≠ front ++ "/") : Within directory path (directory ++ "/" ++ path)

inductive AddressOf (directory raw : String) : String → Prop where
  | same (full : InFull raw) : AddressOf directory raw raw
  | file {text path place : String} (short : ¬InFull raw) (trimmed : Trimmed raw text)
      (behind : Behind text path) (within : Within directory path place) :
      AddressOf directory raw ("sqlite://" ++ place)

theorem inFullIff : InFull raw ↔ isCompleteUrl raw = true := by
  rw [isCompleteIff,occursIff,List.isPrefixOf_iff_prefix]
  constructor
  · rintro (_ | rest | ⟨front,back⟩)
    · exact .inl rfl
    · exact .inr (.inl (startsIff.mpr ⟨rest,rfl⟩))
    · exact .inr (.inr ⟨front.toList,back.toList,by simp only [String.toList_append]⟩)
  · rintro (rfl | starts | ⟨front,back,whole⟩)
    · exact .memory
    · obtain ⟨rest,rfl⟩ := startsIff.mp starts
      exact .slashes rest
    · have text : raw = String.ofList front ++ "mode=memory" ++ String.ofList back := by
        rw [← String.toList_inj,← whole]
        simp only [String.toList_append,String.toList_ofList]
      exact text ▸ .inMemory _ _

theorem behindIff : Behind text path ↔ path.toList = stripStart scheme text.toList := by
  have stripped (path : String) : path.toList = stripStart scheme ("sqlite:" ++ path).toList := by
    have starts : scheme <+: ("sqlite:" ++ path).toList := startsIff.mpr ⟨path,rfl⟩
    rw [stripStart,if_pos (List.isPrefixOf_iff_prefix.mpr starts),String.toList_append]
    exact List.drop_left.symm
  have kept {text : String} (none : ∀ path, text ≠ "sqlite:" ++ path) :
      text.toList = stripStart scheme text.toList := by
    have never : ¬scheme.isPrefixOf text.toList = true := by
      intro starts
      have front : scheme <+: text.toList := List.isPrefixOf_iff_prefix.mp starts
      obtain ⟨path,same⟩ := startsIff.mp front
      exact none path same
    rw [stripStart,if_neg never]
  constructor
  · rintro (_ | none)
    · exact stripped path
    · exact kept none
  · intro same
    by_cases starts : ∃ rest, text = "sqlite:" ++ rest
    · obtain ⟨rest,rfl⟩ := starts
      rw [← stripped,String.toList_inj] at same
      exact same ▸ .scheme path
    · rw [← kept (not_exists.mp starts),String.toList_inj] at same
      subst same
      exact .bare (not_exists.mp starts)

theorem rootedIff : path.toList.head? = some '/' ↔ ∃ rest, path = "/" ++ rest := by
  rw [← startsIff,List.head?_eq_some_iff]
  exact ⟨fun ⟨rest,whole⟩ => ⟨rest,whole.symm⟩,fun ⟨rest,whole⟩ => ⟨rest,whole.symm⟩⟩

theorem slashedIff : directory.toList.getLast? = some '/' ↔ ∃ front, directory = front ++ "/" := by
  rw [List.getLast?_eq_some_iff]
  constructor
  · rintro ⟨front,whole⟩
    exact ⟨String.ofList front,String.toList_inj.mp (by simp [whole])⟩
  · rintro ⟨front,rfl⟩
    exact ⟨front.toList,by simp⟩

theorem withinIff : Within directory path place ↔
    place.toList = joinPath directory.toList path.toList := by
  constructor
  · intro within
    cases within with
    | root rest => rw [joinPath,if_pos (rootedIff.mpr ⟨rest,rfl⟩)]
    | slash relative front ends =>
      rw [joinPath,if_neg (mt rootedIff.mp (not_exists.mpr relative)),
        if_pos (slashedIff.mpr ⟨front,ends⟩),String.toList_append]
    | step relative other =>
      rw [joinPath,if_neg (mt rootedIff.mp (not_exists.mpr relative)),
        if_neg (mt slashedIff.mp (not_exists.mpr other)),String.toList_append,
        String.toList_append,List.append_assoc]
      rfl
  · intro same
    rw [joinPath] at same
    split at same
    · rename_i rooted
      obtain ⟨rest,rfl⟩ := rootedIff.mp rooted
      cases String.toList_inj.mp same
      exact .root rest
    · rename_i relative
      have relative := not_exists.mp (mt rootedIff.mpr relative)
      split at same
      · rename_i slashed
        obtain ⟨front,ends⟩ := slashedIff.mp slashed
        rw [← String.toList_append,String.toList_inj] at same
        exact same ▸ .slash relative front ends
      · rename_i other
        have whole : place = directory ++ "/" ++ path := by
          rw [← String.toList_inj,same,String.toList_append,String.toList_append,List.append_assoc]
          rfl
        exact whole ▸ .step relative (not_exists.mp (mt slashedIff.mpr other))

theorem addressNormalized (address : AddressOf directory raw url) :
    url = normalizeUrl directory raw := by
  cases address with
  | same full => exact (normalizeComplete (inFullIff.mp full)).symm
  | @file text path place short trimmed behind within =>
    have incomplete := Bool.eq_false_iff.mpr (mt inFullIff.mpr short)
    have named : place.toList =
        joinPath directory.toList (stripStart scheme (trimChars raw.toList)) := by
      rw [withinIff.mp within,behindIff.mp behind,trimmedIff.mp trimmed,trim,String.toList_ofList]
    rw [← String.toList_inj,normalizeIncomplete directory incomplete,String.toList_append]
    exact congrArg (fileScheme ++ ·) named

theorem hasAddress (directory raw : String) : ∃ url, AddressOf directory raw url := by
  by_cases full : InFull raw
  · exact ⟨raw,.same full⟩
  · have trimmed : Trimmed raw (trim raw) := trimmedIff.mpr rfl
    have ⟨path,behind⟩ : ∃ path, Behind (trim raw) path :=
      ⟨String.ofList _,behindIff.mpr String.toList_ofList⟩
    have ⟨place,within⟩ : ∃ place, Within directory path place :=
      ⟨String.ofList _,withinIff.mpr String.toList_ofList⟩
    exact ⟨_,.file full trimmed behind within⟩

theorem addressOfIff : AddressOf directory raw url ↔ url = normalizeUrl directory raw := by
  refine ⟨addressNormalized,?_⟩
  rintro rfl
  obtain ⟨url,address⟩ := hasAddress directory raw
  exact addressNormalized address ▸ address

/- What starts with the scheme and two slashes gets two more, as what is behind the scheme is taken
for a path from the root. -/
theorem slashesAdded (directory : String) (incomplete : isCompleteUrl raw = false)
    (starts : fileScheme.isPrefixOf (trimChars raw.toList) = true) :
    (normalizeUrl directory raw).toList.count '/' = raw.toList.count '/' + 2 := by
  obtain ⟨rest,whole⟩ := List.isPrefixOf_iff_prefix.mp starts
  have slash : isBlank '/' = false := by decide
  have path : stripStart scheme (fileScheme ++ rest) = '/' :: '/' :: rest := rfl
  rw [← trimKeepsCount slash raw.toList,normalizeIncomplete directory incomplete,← whole,path]
  have rooted : joinPath directory.toList ('/' :: '/' :: rest) = '/' :: '/' :: rest := rfl
  rw [rooted,List.count_append,List.count_append]
  simp only [List.count_cons_self]
  omega

theorem completeApart (pads : Pads raw text) (complete : isCompleteUrl text = true)
    (incomplete : isCompleteUrl raw = false) : normalizeUrl directory raw ≠ text := by
  intro same
  rcases isCompleteIff.mp complete with memory | starts | holds
  · have listed := normalizeIncomplete directory incomplete
    have front : memoryUrl.toList.take 9 ≠ fileScheme := by decide
    rw [same,memory] at listed
    exact front (congrArg (List.take 9) listed)
  · have slash : isBlank '/' = false := by decide
    have inside : fileScheme.isPrefixOf (trimChars raw.toList) = true := by
      rw [pads.alike,← String.toList_ofList (l := trimChars text.toList)]
      exact fileSchemeInside (trimPads text) starts
    have added := slashesAdded directory incomplete inside
    rw [same,← trimKeepsCount slash raw.toList,pads.alike,trimKeepsCount slash] at added
    omega
  · have also := isCompleteIff.mpr (.inr (.inr ((memoryInside pads).trans holds)))
    exact absurd (incomplete.symm.trans also) (by decide)

theorem normalizesAlikeIff (directory : String) (pads : Pads raw text) :
    normalizeUrl directory raw = normalizeUrl directory text ↔
      (isCompleteUrl text = true → raw = text) := by
  cases complete : isCompleteUrl text with
  | false =>
    have incomplete : isCompleteUrl raw = false := by
      rw [← Bool.not_eq_true]
      intro inside
      exact absurd (complete.symm.trans (completeInside pads inside)) (by decide)
    have same : normalizeUrl directory raw = normalizeUrl directory text := by
      rw [← String.toList_inj,normalizeIncomplete directory incomplete,
        normalizeIncomplete directory complete,pads.alike]
    exact iff_of_true same fun never => absurd never (by decide)
  | true =>
    rw [normalizeComplete complete]
    cases also : isCompleteUrl raw with
    | true => rw [normalizeComplete also]; exact ⟨fun same _ => same,fun same => same rfl⟩
    | false =>
      refine iff_of_false (completeApart pads complete also) fun same => ?_
      rw [same rfl,complete] at also
      cases also

theorem blankIncomplete (blank : isAllBlank text = true) : isCompleteUrl text = false := by
  have pads : Pads text "" := ⟨text.toList,[],blank,rfl,(List.append_nil _).symm⟩
  rw [← Bool.not_eq_true]
  exact fun complete => absurd (completeInside pads complete) (by decide)

inductive Way where
  | environment
  | flag
  deriving DecidableEq, Repr

def Way.read (directory raw : String) : Way → Except Stop Arguments
  | .environment => Arguments.parse { databaseUrl := some raw, directory } []
  | .flag => Arguments.parse { directory } [Flag.db.text,raw]

/- The same arguments, or a refusal each, that shows what was given. -/
inductive ReadAlike : Except Stop Arguments → Except Stop Arguments → Prop where
  | same (args : Arguments) : ReadAlike (.ok args) (.ok args)
  | refused (raw other : String) : ReadAlike (.error (.error (.invalidDatabaseUrl raw)))
      (.error (.error (.invalidDatabaseUrl other)))

theorem readByEnvironment : Way.environment.read directory raw =
    .ok { databaseUrl := normalizeUrl directory raw } := rfl

theorem readByFlag : Way.flag.read directory raw =
    if isAllBlank raw then .error (.error (.invalidDatabaseUrl raw))
    else .ok { databaseUrl := normalizeUrl directory raw } := by
  rw [Way.read,Arguments.parse,Arguments.parseFrom,if_neg (by decide),Flag.parsesText]
  cases blank : isAllBlank raw <;> simp [Arguments.set,Arguments.parseFrom,Arguments.initial,blank]

theorem alikeOkIff {a b : Arguments} : ReadAlike (.ok a) (.ok b) ↔ a = b := by
  constructor
  · rintro ⟨⟩
    rfl
  · rintro rfl
    exact .same a

theorem paddedAlikeIff (pads : Pads raw text) (way : Way) :
    ReadAlike (way.read directory raw) (way.read directory text) ↔
      (isCompleteUrl text = true → raw = text) := by
  have urls : (⟨normalizeUrl directory raw,none,none,none,none,[],false⟩ : Arguments) =
      ⟨normalizeUrl directory text,none,none,none,none,[],false⟩ ↔
      (isCompleteUrl text = true → raw = text) := by
    rw [← normalizesAlikeIff directory pads]
    exact ⟨congrArg Arguments.databaseUrl,fun same => by rw [same]⟩
  cases way with
  | environment => rw [readByEnvironment,readByEnvironment,alikeOkIff,urls]
  | flag =>
    rw [readByFlag,readByFlag,pads.allBlank]
    cases blank : isAllBlank text with
    | false => simpa only [Bool.false_eq_true,if_false] using alikeOkIff.trans urls
    | true =>
      refine iff_of_true (.refused raw text) fun complete => ?_
      rw [blankIncomplete blank] at complete
      cases complete

theorem waysAlikeIff : ReadAlike (Way.environment.read directory text)
    (Way.flag.read directory text) ↔ isAllBlank text = false := by
  rw [readByEnvironment,readByFlag]
  cases isAllBlank text with
  | false => exact iff_of_true (.same _) rfl
  | true => exact iff_of_false (fun alike => nomatch alike) (by decide)

/-- Blanks around a location and the way it is given make no difference exactly if the location is
not blank and not a complete address. Blanks alone make one only for a complete address, which they
always turn into another one, and the way alone only for a blank location, which only the flag
refuses. -/
theorem locationsReadAlikeIff (directory text : String) :
    ((∀ raw, Pads raw text → ∀ way other : Way,
        ReadAlike (way.read directory raw) (other.read directory text)) ↔
      isAllBlank text = false ∧ isCompleteUrl text = false) ∧
    (∀ raw, Pads raw text → ∀ way : Way,
      (ReadAlike (way.read directory raw) (way.read directory text) ↔
        (isCompleteUrl text = true → raw = text))) ∧
    (ReadAlike (Way.environment.read directory text) (Way.flag.read directory text) ↔
      isAllBlank text = false) := by
  refine ⟨⟨fun alike => ?_,?_⟩,fun raw pads way => paddedAlikeIff pads way,waysAlikeIff⟩
  · have itself : Pads text text := ⟨[],[],rfl,rfl,by simp⟩
    have inked := waysAlikeIff.mp (alike text itself .environment .flag)
    refine ⟨inked,?_⟩
    rw [← Bool.not_eq_true]
    intro complete
    let raw := String.ofList (' ' :: text.toList)
    have pads : Pads raw text := ⟨[' '],[],by decide,rfl,by simp [raw]⟩
    have same := (paddedAlikeIff pads .flag).mp (alike raw pads .flag .flag) complete
    have listed := congrArg (List.length ∘ String.toList) same
    simp [raw] at listed
  · rintro ⟨inked,incomplete⟩ raw pads way other
    have read (way : Way) {raw : String} (inked : isAllBlank raw = false) :
        way.read directory raw = .ok { databaseUrl := normalizeUrl directory raw } := by
      cases way with
      | environment => exact readByEnvironment
      | flag => rw [readByFlag,inked]; rfl
    have same : normalizeUrl directory raw = normalizeUrl directory text := by
      refine (normalizesAlikeIff directory pads).mpr fun complete => ?_
      exact absurd (incomplete.symm.trans complete) (by decide)
    rw [read way (pads.allBlank.trans inked),read other inked,same]
    exact .same _

theorem relativeReadAlike : Pads " notes.db\n" "notes.db" ∧
    ReadAlike (Way.environment.read "/work" " notes.db\n") (Way.flag.read "/work" "notes.db") := by
  have pads : Pads " notes.db\n" "notes.db" := ⟨[' '],['\n'],by decide,by decide,by decide⟩
  exact ⟨pads,(locationsReadAlikeIff "/work" "notes.db").1.mpr (by decide) _ pads _ _⟩

theorem memoryBecomesAFile :
    Pads " sqlite::memory:" "sqlite::memory:" ∧
    Way.flag.read "/work" "sqlite::memory:" = .ok { databaseUrl := "sqlite::memory:" } ∧
    Way.flag.read "/work" " sqlite::memory:" = .ok { databaseUrl := "sqlite:///work/:memory:" } ∧
    Location.ofUrl "/work" "sqlite::memory:" = .ok .memory ∧
    Location.ofUrl "/work" "sqlite:///work/:memory:" =
      .ok (.file [.into "work",.into ":memory:"] { mode := .readWrite }) ∧
    Way.environment.read "/work" " " = .ok { databaseUrl := "sqlite:///work/" } ∧
    Way.flag.read "/work" " " = .error (.error (.invalidDatabaseUrl " ")) := by
  have pads : Pads " sqlite::memory:" "sqlite::memory:" := ⟨[' '],[],by decide,rfl,by decide⟩
  exact ⟨pads,rfl,rfl,rfl,rfl,rfl,rfl⟩

end CommandLine

end Coursework
