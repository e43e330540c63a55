import CubePatch.CommandLine.Number
import CubePatch.Settings
import CubePatch.Text.Quoted

/-!
# Scanning arguments

Options are taken off the arguments one after the other, wherever they stand; what is left are the
free arguments. An option is taken together with the argument behind it, whatever that is, so the
order in which options are taken decides what an argument counts as. The letter of a flag may stand
in a bundle with others. Every flag that is taken makes the arguments shorter, so repeated flags can
be counted.
-/
namespace CubePatch

/-- Why a value does not fit its option. -/
inductive ValueFault where
  | number (fault : NumberFault)
  | name (fault : UnknownName)
  deriving DecidableEq, Repr

def ValueFault.message : ValueFault → String
  | .number fault => fault.message
  | .name fault => fault.message

inductive ArgumentError where
  | missingValue (key : String)
  | invalidValue (value : String) (fault : ValueFault)
  | unexpected (arguments : List String)
  /-- A free argument that has to be there, by its name in the help text. -/
  | missing (name : String)
  deriving DecidableEq, Repr

def ArgumentError.message : ArgumentError → String
  | .missingValue key => "the '" ++ key ++ "' option doesn't have an associated value"
  | .invalidValue value fault => "failed to parse '" ++ value ++ "': " ++ fault.message
  | .unexpected arguments =>
    "unexpected arguments: [" ++ ", ".intercalate (arguments.map quote) ++ "]"
  | .missing name => "missing " ++ name

/-- The spellings of an option. -/
structure OptionKey where
  letter : Option Char
  long : String
  deriving DecidableEq, Repr

namespace OptionKey

/-- The short spelling is looked for before the long one. -/
def spellings (key : OptionKey) : List String :=
  key.letter.toList.map (fun letter => String.ofList ['-', letter]) ++ [key.long]

/-- The spelling that occurs in the arguments. -/
def spelling? (key : OptionKey) (arguments : List String) : Option String :=
  key.spellings.find? (· ∈ arguments)

end OptionKey

/-- Whether an argument may be a bundle of flags: it starts with a single dash. -/
def isBundle (argument : String) : Bool :=
  match argument.toList with
  | '-' :: '-' :: _ => false
  | '-' :: _ => true
  | _ => false

/-- Takes a letter out of the first bundle that holds it. -/
def dropLetter? (letter : Char) : List String → Option (List String)
  | [] => none
  | argument :: rest =>
    if isBundle argument ∧ letter ∈ argument.toList then
      some (String.ofList (argument.toList.erase letter) :: rest)
    else (dropLetter? letter rest).map (argument :: ·)

/-- Takes one occurrence of a flag off the arguments. -/
def dropFlag? (key : OptionKey) (arguments : List String) : Option (List String) :=
  match key.spelling? arguments with
  | some spelling => some (arguments.erase spelling)
  | none => key.letter.bind (dropLetter? · arguments)

/-- The characters of some arguments, and one for each argument. -/
def argumentsSize : List String → Nat
  | [] => 0
  | argument :: rest => argument.toList.length + 1 + argumentsSize rest

theorem argumentsSize_erase_lt {argument : String} {arguments : List String}
    (member : argument ∈ arguments) :
    argumentsSize (arguments.erase argument) < argumentsSize arguments := by
  induction arguments with
  | nil => cases member
  | cons first rest ih =>
    by_cases same : first = argument
    · subst same
      simp only [argumentsSize, List.erase_cons_head]
      omega
    · have later : argument ∈ rest := by
        rcases List.mem_cons.mp member with equal | later
        · exact absurd equal.symm same
        · exact later
      have less := ih later
      have differ : (first == argument) = false := by simpa using same
      simp only [argumentsSize, List.erase_cons, differ, Bool.false_eq_true, if_false]
      omega

theorem argumentsSize_dropLetter?_lt {letter : Char} {arguments rest : List String}
    (dropped : dropLetter? letter arguments = some rest) :
    argumentsSize rest < argumentsSize arguments := by
  induction arguments generalizing rest with
  | nil => cases dropped
  | cons first later ih =>
    simp only [dropLetter?] at dropped
    split at dropped
    · next holds =>
      cases dropped
      have positive := List.length_pos_of_mem holds.2
      simp only [argumentsSize, String.toList_ofList, List.length_erase_of_mem holds.2]
      omega
    · obtain ⟨shorter, found, rfl⟩ := Option.map_eq_some_iff.mp dropped
      have less := ih found
      simp only [argumentsSize]
      omega

/-- A flag that was taken made the arguments shorter. -/
theorem argumentsSize_dropFlag?_lt {key : OptionKey} {arguments rest : List String}
    (dropped : dropFlag? key arguments = some rest) :
    argumentsSize rest < argumentsSize arguments := by
  unfold dropFlag? at dropped
  split at dropped
  · next spelling found =>
    cases dropped
    have member := List.find?_some found
    exact argumentsSize_erase_lt (by simpa using member)
  · obtain ⟨letter, -, found⟩ := Option.bind_eq_some_iff.mp dropped
    exact argumentsSize_dropLetter?_lt found

/-- Takes every occurrence of a flag off the arguments and counts them. -/
def dropFlags (key : OptionKey) (arguments : List String) : Nat × List String :=
  match _dropped : dropFlag? key arguments with
  | none => (0, arguments)
  | some rest =>
    let (count, left) := dropFlags key rest
    (count + 1, left)
termination_by argumentsSize arguments
decreasing_by exact argumentsSize_dropFlag?_lt _dropped

/-- A step that takes something off the arguments. -/
abbrev Scan := EStateM ArgumentError (List String)

namespace Scan

/-- Whether a flag is given. -/
def flag (key : OptionKey) : Scan Bool := fun arguments =>
  match dropFlag? key arguments with
  | none => .ok false arguments
  | some rest => .ok true rest

/-- How often a flag is given. -/
def count (key : OptionKey) : Scan Nat := fun arguments =>
  let (count, rest) := dropFlags key arguments
  .ok count rest

/-- The value of an option, if the option is given. It stands behind the first occurrence. -/
def value (key : OptionKey) (read : String → Except ValueFault α) : Scan (Option α) :=
  fun arguments =>
    match key.spelling? arguments with
    | none => .ok none arguments
    | some spelling =>
      let before := arguments.takeWhile (· ≠ spelling)
      match arguments.drop (before.length + 1) with
      | [] => .error (.missingValue spelling) arguments
      | text :: behind =>
        match read text with
        | .error fault => .error (.invalidValue text fault) arguments
        | .ok value => .ok (some value) (before ++ behind)

/-- The first argument that is left. -/
def free : Scan (Option String)
  | [] => .ok none []
  | first :: rest => .ok (some first) rest

/-- Fails if there are arguments left. -/
def finish : Scan Unit
  | [] => .ok () []
  | rest => .error (.unexpected rest) rest

end Scan

end CubePatch
