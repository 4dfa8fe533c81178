import SdlAssembly.Text.Space
import SdlAssembly.Text.Split

/-!
# Words of a command line

Options are given by words that start with a hyphen. A long name stands alone or before an equals
sign and a value; single letters may be joined, and what follows a letter that takes a value is that
value. Two hyphens alone end the options.
-/

namespace SdlAssembly.Command

/-! ## Options -/

/-- An option with its names. -/
structure OptionForm (ι : Type) where
  id : ι
  letter : Option Char := none
  longNames : List String := []
  takesValue : Bool := true
  /-- The end of the name of the variable that it is taken from if it is not given. -/
  variableName : String

/-- Why words are refused. -/
inductive UsageFault where
  | noWords
  | unknownOption (name : String)
  | missingValue (name : String)
  | unexpectedValue (name : String)
  | missingOption (name : String)
  | notAChoice (value : String)
  | notAFlag (value : String)
  | noSuchPath (path : String)
  | notAFile (path : String)
  | unexpectedWord (word : String)
  | missingCommand
  | unknownCommand (name : String)
  deriving Repr, BEq, DecidableEq

/-- The options that are given, each with its value if it takes one, and the words that are none. -/
structure Given (ι : Type) where
  options : List (ι × String) := []
  words : List String := []

variable {ι : Type}

/-- Takes the value of an option from the words after it. -/
def takeValue (name : String) : List String → Except UsageFault (String × List String)
  | [] => .error (.missingValue name)
  | value :: rest => .ok (value, rest)

/-- Reads joined letters, and the word after them if the last one needs a value. -/
def readLetters (forms : List (OptionForm ι)) :
    List Char → List String → Except UsageFault (List (ι × String) × List String)
  | [], words => .ok ([], words)
  | letter :: letters, words => do
    let name := String.ofList ['-', letter]
    match forms.find? fun form => form.letter == some letter with
    | none => throw (.unknownOption name)
    | some form =>
      if form.takesValue then
        if letters.isEmpty then
          let (value, rest) ← takeValue name words
          return ([(form.id, value)], rest)
        else return ([(form.id, String.ofList letters)], words)
      else
        let (others, rest) ← readLetters forms letters words
        return ((form.id, "") :: others, rest)

/-- Reads one word that starts with a hyphen, and the word after it if it needs a value. -/
def readOption (forms : List (OptionForm ι)) (word : String) (words : List String) :
    Except UsageFault (List (ι × String) × List String) := do
  let cs := word.toList
  let nameChars := cs.takeWhile (· != '=')
  let name := String.ofList nameChars
  let attached := cs.drop nameChars.length
  match forms.find? fun form => form.longNames.contains name with
  | some form =>
    match form.takesValue, attached with
    | true, [] =>
      let (value, rest) ← takeValue name words
      return ([(form.id, value)], rest)
    | true, _ :: value => return ([(form.id, String.ofList value)], words)
    | false, [] => return ([(form.id, "")], words)
    | false, _ => throw (.unexpectedValue name)
  | none =>
    if word.startsWith "--" then throw (.unknownOption name)
    else readLetters forms (cs.drop 1) words

def isOptionWord (word : String) : Bool := word.startsWith "-" && word != "-"

/-- Reads words. If `mixed`, options may follow words that are none; otherwise the first such word
ends the options. The fuel is the number of words. -/
def readWordsFrom (forms : List (OptionForm ι)) (mixed : Bool) :
    (fuel : Nat) → List String → Except UsageFault (Given ι)
  | 0, words => .ok { words := words }
  | _, [] => .ok {}
  | fuel + 1, word :: rest =>
    if word == "--" then .ok { words := rest }
    else if isOptionWord word then do
      let (options, rest) ← readOption forms word rest
      let given ← readWordsFrom forms mixed fuel rest
      return { given with options := options ++ given.options }
    else if mixed then do
      let given ← readWordsFrom forms mixed fuel rest
      return { given with words := word :: given.words }
    else .ok { words := word :: rest }

def readWords (forms : List (OptionForm ι)) (mixed : Bool) (words : List String) :
    Except UsageFault (Given ι) :=
  readWordsFrom forms mixed words.length words

/-! ## Values -/

abbrev Environment := List (String × String)

/-- The options that are given by words, and the variables for the others. -/
structure Settings (ι : Type) where
  options : List (ι × String)
  environment : Environment
  /-- The start of the names of the variables. -/
  lead : String

namespace Settings

variable [BEq ι]

/-- The value of a variable; an empty one is none. -/
def setting? (s : Settings ι) (form : OptionForm ι) : Option String :=
  (s.environment.lookup (s.lead ++ "_" ++ form.variableName)).filter fun value => !value.isEmpty

/-- All values that an option is given. -/
def given (s : Settings ι) (form : OptionForm ι) : List String :=
  (s.options.filter fun (id, _) => id == form.id).map Prod.snd

/-- The value of an option; the last word wins. -/
def value? (s : Settings ι) (form : OptionForm ι) : Option String :=
  (s.given form).getLast? <|> s.setting? form

/-- The values of an option that may be given several times; a variable parts them by colons. -/
def values (s : Settings ι) (form : OptionForm ι) : List String :=
  match s.given form with
  | [] => ((s.setting? form).map (Text.split ':')).getD []
  | given => given

/-- The truth value of a variable; blanks alone are false. -/
def truthOf (text : String) : Except UsageFault Bool :=
  let word := String.ofList (Text.trim (text.toList.map Char.toLower))
  if ["1", "true", "t", "yes", "y", "on"].contains word then .ok true
  else if ["0", "false", "f", "no", "n", "off", ""].contains word then .ok false
  else .error (.notAFlag text)

/-- Whether an option without a value is given. -/
def flag (s : Settings ι) (form : OptionForm ι) : Except UsageFault Bool :=
  if !(s.given form).isEmpty then .ok true
  else
    match s.setting? form with
    | none => .ok false
    | some text => truthOf text

end Settings

end SdlAssembly.Command
