/-!
# Options

The options of an assembly. Each has a name that configurations use, a second name that is accepted
too, and a default.
-/

namespace SdlAssembly.Config

structure Options where
  /-- Whether a schema that breaks a rule is refused. -/
  strict : Bool := true
  /-- Whether keys of entities are passed over. -/
  skipEntities : Bool := false
  deriving Repr, BEq, DecidableEq, Inhabited

/-! ## Names -/

inductive Switch where
  | strict
  | skipEntities
  deriving Repr, BEq, DecidableEq

namespace Switch

/-- The options in the order in which they are checked. -/
def all : List Switch := [strict, skipEntities]

/-- The names of an option, the preferred one first. -/
def names : Switch → List String
  | strict => ["strictValidation", "strict_validation"]
  | skipEntities => ["skipEntityExtraction", "skip_entity_extraction"]

def set (switch : Switch) (value : Bool) (options : Options) : Options :=
  match switch with
  | strict => { options with strict := value }
  | skipEntities => { options with skipEntities := value }

end Switch

/-! ## Overrides -/

/-- Values that replace those of options; absent ones replace nothing. -/
structure Overrides where
  strict : Option Bool := none
  skipEntities : Option Bool := none
  deriving Repr, BEq, DecidableEq

def Options.override (options : Options) (o : Overrides) : Options :=
  ⟨o.strict.getD options.strict, o.skipEntities.getD options.skipEntities⟩

end SdlAssembly.Config
