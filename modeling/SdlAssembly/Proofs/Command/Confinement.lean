import SdlAssembly.Proofs.BuildOutcomes
import SdlAssembly.Proofs.Command.Runs
import SdlAssembly.Proofs.Printability

/-!
# Failures that no run reports

A run whose words are accepted ends well, or with a report of its failure, or with a failure that
has no report. Which failures have none is settled by the stage that fails.
-/

namespace SdlAssembly.Command

open Files Console Model Annotated Schemas

/-! ## Unreported failures -/

section Unreported

variable {around : Surroundings} {deepest : Nat} {verb : Verb} {request : Request}
  {tree after : Tree} {escape : Escape}

end Unreported

/-! ## Runs -/

/-- The words of a command line are accepted: those before the command, and those after it, which
are read when the log file is started. -/
structure Accepts (tree : Tree) (around : Surroundings) (words : List String)
    (general : General) : Prop where
  read : readGeneral tree around.environment words = .ok general
  request : ∀ started, general.start tree = .ok started →
    ∃ request, readRequest started around.environment general.verb general.words = .ok request

end SdlAssembly.Command
