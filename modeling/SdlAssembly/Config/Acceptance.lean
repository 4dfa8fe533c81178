import SdlAssembly.Config.Options
import SdlAssembly.Text.Utf8
import SdlAssembly.Yaml.Datum

/-!
# Accepting options

Options are accepted from a mapping whose keys are names of options and whose values are truth
values or stand for one. Each rejected value, unknown key and superfluous key is told: the options
first, then the other keys in the order of the mapping.
-/

namespace SdlAssembly.Config

open Yaml Text

/-! ## Problems -/

inductive Complaint where
  /-- A word or number that is none of those that stand for a truth value. -/
  | unreadable
  | notBoolean
  /-- A text holds what is no character. -/
  | notUnicode
  | unknownKey
  | keyNotText
  | notMapping
  /-- Accepted options do not change. -/
  | frozen
  deriving Repr, BEq, DecidableEq

namespace Complaint

def code : Complaint → String
  | unreadable => "bool_parsing"
  | notBoolean => "bool_type"
  | notUnicode => "string_unicode"
  | unknownKey => "extra_forbidden"
  | keyNotText => "invalid_key"
  | notMapping => "model_type"
  | frozen => "frozen_instance"

def message : Complaint → String
  | unreadable => "Input should be a valid boolean, unable to interpret input"
  | notBoolean => "Input should be a valid boolean"
  | notUnicode => "Input should be a valid string, unable to parse raw data as a unicode string"
  | unknownKey => "Extra inputs are not permitted"
  | keyNotText => "Keys should be strings"
  | notMapping => "Input should be a valid dictionary or instance of AssemblerConfig"
  | frozen => "Instance is frozen"

end Complaint

/-- A key on the way to a value. -/
inductive Step where
  | name (text : String)
  | index (value : Int)
  deriving Repr, BEq, DecidableEq

/-- What is wrong with the value at a place. -/
structure Problem where
  complaint : Complaint
  place : List Step
  input : Datum
  deriving Repr, BEq

/-! ## Truth values -/

def trueTexts : List String := ["1", "on", "t", "true", "y", "yes"]

def falseTexts : List String := ["0", "off", "f", "false", "n", "no"]

/-- The truth value of a word in any case. -/
def switchOfText (word : String) : Except Complaint Bool :=
  let word := String.ofList (word.toList.map Char.toLower)
  if trueTexts.contains word then .ok true
  else if falseTexts.contains word then .ok false
  else .error .unreadable

/-- The truth value of a number. -/
def switchOfInt (value : Int) : Except Complaint Bool :=
  if value = 1 then .ok true else if value = 0 then .ok false else .error .unreadable

/-- Numbers beyond this are no truth values in any case. -/
def numberBound : Int := 9223372036854775808

/-- The truth value that a value stands for. -/
def switchOf : Datum → Except Complaint Bool
  | .boolean value => .ok value
  | .text word => switchOfText word
  | .broken _ => .error .notUnicode
  | .bytes bytes =>
    match Utf8.decode bytes with
    | .ok word => switchOfText (String.ofList word)
    | .error _ => .error .unreadable
  | .int value =>
    if -numberBound ≤ value && value < numberBound then switchOfInt value else .error .notBoolean
  | .float value =>
    match value.toInt? with
    | some n =>
      if -numberBound < n && n < numberBound then switchOfInt n else .error .notBoolean
    | none => .error .notBoolean
  | _ => .error .notBoolean

/-! ## Keys -/

/-- A text of code points in which each half of a surrogate pair is replaced, byte by byte. -/
def repair (codes : List Nat) : String :=
  String.ofList <| codes.flatMap fun n =>
    if n.isValidChar then [Char.ofNat n] else List.replicate 3 '\uFFFD'

/-- The place of a key in a mapping. -/
def stepOf : Datum → Step
  | .text text => .name text
  | .broken codes => .name (repair codes)
  | .boolean value => .index value.toInt
  | .int value =>
    if -numberBound ≤ value && value < numberBound then .index value
    else .name (Datum.int value).display
  | key => .name key.display

/-- The name under which an option is given, and its value; the preferred name goes first. -/
def Switch.given? (switch : Switch) (entries : List (Datum × Datum)) : Option (String × Datum) :=
  switch.names.findSome? fun name => (Datum.lookup? entries name).map fun value => (name, value)

/-- The names that the options are given under. -/
def namesUsed (entries : List (Datum × Datum)) : List String :=
  Switch.all.filterMap fun switch => (switch.given? entries).map Prod.fst

/-- The problem of a key that no option is given under. -/
def strayKey (used : List String) (entry : Datum × Datum) : Option Problem :=
  match entry with
  | (.text name, value) =>
    if used.contains name then none else some ⟨.unknownKey, [.name name], value⟩
  | (key, _) => some ⟨.keyNotText, [stepOf key], key⟩

/-! ## Options -/

/-- Sets an option to the value that it is given, or tells what is wrong with that. -/
def Switch.accept (switch : Switch) (entries : List (Datum × Datum)) :
    Except Problem (Options → Options) :=
  match switch.given? entries with
  | none => .ok id
  | some (name, value) =>
    match switchOf value with
    | .ok flag => .ok (switch.set flag)
    | .error complaint => .error ⟨complaint, [.name name], value⟩

/-- The options of the entries of a mapping, or all that is wrong with them. -/
def acceptEntries (entries : List (Datum × Datum)) : Except (List Problem) Options :=
  let results := Switch.all.map fun switch => switch.accept entries
  let rejected := results.filterMap fun
    | .error problem => some problem
    | .ok _ => none
  let stray := entries.filterMap (strayKey (namesUsed entries))
  match rejected ++ stray with
  | [] => .ok <| results.foldl (fun options result =>
      match result with
      | .ok set => set options
      | .error _ => options) {}
  | problems => .error problems

/-- The options that a value stands for. -/
def accept : Datum → Except (List Problem) Options
  | .map entries => acceptEntries entries
  | root => .error [⟨.notMapping, [], root⟩]

/-- What is wrong with setting a member of accepted options: they do not change, except for members
of one's own, whose names begin with an underscore. -/
def assignment? (name : String) (value : Datum) : Option Problem :=
  if name.startsWith "_" then none else some ⟨.frozen, [.name name], value⟩

/-! ## Reports -/

/-- A step in a report; one with a point in it is marked. -/
def Step.text : Step → String
  | name text => if text.toList.contains '.' then "\x60" ++ text ++ "\x60" else text
  | index value => toString value

/-- Inputs with longer texts are cut in the middle. -/
def longestInput : Nat := 50

/-- The characters that take at most the given number of bytes. -/
def takeBytes : Nat → List Char → List Char
  | _, [] => []
  | n, c :: rest => if c.utf8Size ≤ n then c :: takeBytes (n - c.utf8Size) rest else []

/-- The text of an input in a report: of a long one, the start and the end. -/
def showInput (input : Datum) : String :=
  let text := input.display
  if text.utf8ByteSize ≤ longestInput then text
  else
    let cs := text.toList
    String.ofList (takeBytes 25 cs) ++ "..." ++ String.ofList (takeBytes 24 cs.reverse).reverse

def Problem.report (p : Problem) : String :=
  let place := if p.place.isEmpty then "" else ".".intercalate (p.place.map Step.text) ++ "\n"
  place ++ "  " ++ p.complaint.message ++ " [type=" ++ p.complaint.code ++ ", input_value="
    ++ showInput p.input ++ ", input_type=" ++ p.input.typeName ++ "]\n"
    ++ "    For further information visit https://errors.pydantic.dev/2.14/v/" ++ p.complaint.code

/-- All problems in one text. -/
def reportProblems (problems : List Problem) : String :=
  let count := problems.length
  toString count ++ " validation error" ++ (if count = 1 then "" else "s")
    ++ " for AssemblerConfig\n" ++ "\n".intercalate (problems.map Problem.report)

end SdlAssembly.Config
