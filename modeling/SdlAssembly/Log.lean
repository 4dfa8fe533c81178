/-!
# Log records

What an operation did is told by records at a level. Operations give their records back with their
result, in the order in which things happened.
-/

namespace SdlAssembly

inductive LogLevel where
  | debug | info | warning | error | critical
  deriving Repr, BEq, DecidableEq, Inhabited

namespace LogLevel

def all : List LogLevel := [debug, info, warning, error, critical]

def name : LogLevel → String
  | debug => "DEBUG"
  | info => "INFO"
  | warning => "WARNING"
  | error => "ERROR"
  | critical => "CRITICAL"

/-- Higher levels are graver. -/
def rank : LogLevel → Nat
  | debug => 0
  | info => 1
  | warning => 2
  | error => 3
  | critical => 4

def ofName? (text : String) : Option LogLevel := all.find? fun level => level.name == text

end LogLevel

structure LogRecord where
  level : LogLevel
  message : String
  deriving Repr, BEq, DecidableEq, Inhabited

abbrev Log := List LogRecord

/-- The records at a level or above. -/
def Log.atLeast (level : LogLevel) (log : Log) : Log :=
  log.filter fun record => level.rank ≤ record.level.rank

/-- A value with the records written on the way to it. -/
structure Logged (α : Type) where
  value : α
  log : Log := []
  deriving Repr

namespace Logged

/-- Adds a record after those there are. -/
def note (level : LogLevel) (message : String) (t : Logged α) : Logged α :=
  { t with log := t.log ++ [⟨level, message⟩] }

def map (f : α → β) (t : Logged α) : Logged β := ⟨f t.value, t.log⟩

/-- Goes on from a value; the records of the second part follow those of the first. -/
def andThen (t : Logged α) (f : α → Logged β) : Logged β :=
  let next := f t.value
  ⟨next.value, t.log ++ next.log⟩

@[simp] theorem value_note (level : LogLevel) (message : String) (t : Logged α) :
    (t.note level message).value = t.value := rfl

@[simp] theorem value_map (f : α → β) (t : Logged α) : (t.map f).value = f t.value := rfl

@[simp] theorem value_andThen (t : Logged α) (f : α → Logged β) :
    (t.andThen f).value = (f t.value).value := rfl

end Logged

end SdlAssembly
