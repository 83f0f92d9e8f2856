/-!
Paths as texts spell them. A path is a row of steps from the root: into a name, or up. Slashes that
follow each other, and dots between them, make no step, but they count in the length of the text.
-/
namespace Coursework.CommandLine

def joinPath (directory path : List Char) : List Char :=
  if path.head? = some '/' then path
  else if directory.getLast? = some '/' then directory ++ path
  else directory ++ '/' :: path

def splitAt (separator : Char) : List Char → List (List Char)
  | [] => [[]]
  | c :: cs =>
    match splitAt separator cs with
    | [] => [[]]
    | piece :: pieces => if c = separator then [] :: piece :: pieces else (c :: piece) :: pieces

def byteSize (cs : List Char) : Nat := (String.ofList cs).utf8ByteSize

inductive Step where
  | into (name : String)
  | up
  deriving DecidableEq, Repr

def Step.ofPiece? (piece : List Char) : Option Step :=
  if piece = [] ∨ piece = ['.'] then none
  else if piece = ['.','.'] then some .up
  else some (.into (String.ofList piece))

def Step.places (steps : List Step) : List (List String) :=
  (steps.foldl (fun (place,places) s =>
    match s with
    | .up => (place.dropLast,places)
    | .into name => (place ++ [name],places ++ [place ++ [name]])) (([],[]) : _ × _)).2

structure Stride where
  step : Step
  size : Nat
  deriving DecidableEq, Repr

inductive PathEnd where
  | nothing
  | slash
  | dot
  deriving DecidableEq, Repr

structure Path where
  strides : List Stride
  ending : PathEnd
  rest : Nat
  deriving DecidableEq, Repr

inductive PathError where
  | missing
  | taken
  | notDirectory
  | isDirectory
  | longName
  | nullInPath
  deriving DecidableEq, Repr

def PathError.message : PathError → String
  | .missing => "No such file or directory (os error 2)"
  | .taken => "File exists (os error 17)"
  | .notDirectory => "Not a directory (os error 20)"
  | .isDirectory => "Is a directory (os error 21)"
  | .longName => "File name too long (os error 36)"
  | .nullInPath => "file name contained an unexpected NUL byte"

namespace Path

def sizedPieces : List (List Char) → List (List Char × Nat)
  | [] => []
  | piece :: pieces => (piece,byteSize piece) :: pieces.map fun cs => (cs,1 + byteSize cs)

def stridesOf : (gap : Nat) → List (List Char × Nat) → List Stride × Nat
  | gap, [] => ([],gap)
  | gap, (piece,size) :: pieces =>
    match Step.ofPiece? piece with
    | some step =>
      let (strides,rest) := stridesOf 0 pieces
      (⟨step,gap + size⟩ :: strides,rest)
    | none => stridesOf (gap + size) pieces

def parse (directory path : List Char) : Path :=
  let pieces := splitAt '/' path
  let (strides,rest) := stridesOf 0 (sizedPieces pieces)
  let above :=
    if path.head? = some '/' then []
    else ((splitAt '/' directory).filterMap Step.ofPiece?).map (⟨·,0⟩)
  { strides := above ++ strides
    ending :=
      if (pieces.filter (· != [])).getLast? = some ['.'] then .dot
      else if pieces.getLast? = some [] then .slash
      else .nothing
    rest }

def steps (p : Path) : List Step := p.strides.map (·.step)

def longestText : Nat := 4095

def fault? (strides : List Stride) (rest : Nat) : Option PathError :=
  let hasNull : Step → Bool
    | .into name => name.toList.any (·.toNat == 0)
    | .up => false
  if strides.any fun s => hasNull s.step then some .nullInPath
  else if longestText < strides.foldl (fun size s => size + s.size) rest then some .longName
  else none

def places (p : Path) : List (List String) := Step.places p.steps

end Path

def pathText (place : List String) : String := "/" ++ "/".intercalate place

end Coursework.CommandLine
