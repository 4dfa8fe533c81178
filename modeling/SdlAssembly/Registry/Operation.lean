import SdlAssembly.Registry
import SdlAssembly.Text.Literal

/-!
# Operations on a registry

The operations that a registry offers and what each answers. Only adding changes a registry; setting
and deleting entries are refused, and so is reading an entry that is not there.
-/

namespace SdlAssembly.Registry

open Text

variable {α : Type}

/-! ## Operations and answers -/

inductive Operation (α : Type) where
  | tryAdd (key : String) (value : α)
  | get (key : String) (default : Option α)
  | entry (key : String)
  | contains (key : String)
  | size
  | isFull
  | items
  | keys
  | values
  | equals (pairs : List (String × α))
  | describe
  | assign (key : String) (value : α)
  | delete (key : String)
  deriving Repr

/-- What a registry refuses. -/
inductive Refusal where
  | noEntry (key : String)
  | noAssignment
  | noDeletion
  deriving Repr, BEq, DecidableEq

def Refusal.message : Refusal → String
  | noEntry key => Literal.quote key
  | noAssignment => "'FirstWinsRegistry' object does not support item assignment"
  | noDeletion => "'FirstWinsRegistry' object does not support item deletion"

inductive Answer (α : Type) where
  | flag (value : Bool)
  | count (value : Nat)
  | value (value : Option α)
  | items (entries : List (String × α))
  | keys (keys : List String)
  | values (values : List α)
  | text (content : String)
  | refused (reason : Refusal)
  deriving Repr

/-! ## Running -/

/-- A registry in a message. -/
def describe (text : α → String) (r : Registry α) : String :=
  "FirstWinsRegistry(\x7b"
    ++ ", ".intercalate (r.toList.map fun (key, value) => Literal.quote key ++ ": " ++ text value)
    ++ "\x7d)"

/-- The values of pairs of which a later one replaces an earlier one with its key. -/
def lastOfEach : List (String × α) → List (String × α)
  | [] => []
  | (key, value) :: rest =>
    if rest.any fun (k, _) => k == key then lastOfEach rest else (key, value) :: lastOfEach rest

/-- Whether a registry has the same keys as a list of pairs, and values that are the same. -/
def agrees (same : α → α → Bool) (r : Registry α) (pairs : List (String × α)) : Bool :=
  let pairs := lastOfEach pairs
  r.size == pairs.length && pairs.all fun (key, value) =>
    match r.get? key with
    | some found => same found value
    | none => false

/-- What an operation answers. -/
def answer (same : α → α → Bool) (text : α → String) (r : Registry α) :
    Operation α → Answer α
  | .tryAdd key _ => .flag (!r.contains key)
  | .get key default => .value (r.get? key <|> default)
  | .entry key =>
    match r.get? key with
    | some value => .value (some value)
    | none => .refused (.noEntry key)
  | .contains key => .flag (r.contains key)
  | .size => .count r.size
  | .isFull => .flag (!r.isEmpty)
  | .items => .items r.toList
  | .keys => .keys r.keys
  | .values => .values r.values
  | .equals pairs => .flag (r.agrees same pairs)
  | .describe => .text (r.describe text)
  | .assign _ _ => .refused .noAssignment
  | .delete _ => .refused .noDeletion

/-- The registry after an operation. -/
def after (r : Registry α) : Operation α → Registry α
  | .tryAdd key value => r.tryAdd key value
  | _ => r

/-- The answers to operations, one after the other, and the registry after them. -/
def run (same : α → α → Bool) (text : α → String) (r : Registry α) :
    List (Operation α) → List (Answer α) × Registry α
  | [] => ([], r)
  | operation :: rest =>
    let (answers, last) := run same text (r.after operation) rest
    (r.answer same text operation :: answers, last)

end SdlAssembly.Registry
