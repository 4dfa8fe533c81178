import SdlAssembly.Proofs.Outcomes
import SdlAssembly.Proofs.Stopping
import SdlAssembly.Proofs.TwoHalves

/-!
# The options of an assembly

Skipping keys takes them out of the model and out of the reasons to fail, and touches nothing else.
Strictness is noted in the model for its build: with it or without it, the assembly is the same.
-/

namespace SdlAssembly.Model

open Grammar Documents Annotation

section Options

variable {skip : Bool} {documents : List NamedDocument} {model model' : TypeSystem}

/-! ## Skipping keys -/

/-- Without its keys, an assembly takes in the same and leaves the patterns alone. -/
theorem InHalves.skipping (h : InHalves skip documents model model') :
    InHalves true documents model { model' with entityPatterns := model.entityPatterns } :=
  ⟨h.placeholders, h.definitions, h.leafTypes, rfl, h.strict⟩

theorem stop?_ne_key (d : NamedDocument) (failure : KeyFailure) :
    stop? true d ≠ some (.key failure) := by
  unfold stop?
  split
  · simp
  · intro h
    obtain ⟨name, -, hn⟩ := Option.map_eq_some_iff.mp h
    cases hn

/-! ## Strictness -/

/-- How strict the build will be does not matter for what is taken in. -/
theorem InHalves.withStrict (h : InHalves skip documents model model') (strict : Bool) :
    InHalves skip documents { model with strict := strict } { model' with strict := strict } :=
  ⟨h.placeholders, h.definitions, h.leafTypes, h.patterns, rfl⟩

theorem assemble_withStrict (documents : List NamedDocument) (skip strict strict' : Bool) :
    (assemble (some documents) strict' skip).value =
      (assemble (some documents) strict skip).value.map fun model =>
        { model with strict := strict' } := by
  cases h : (assemble (some documents) strict skip).value with
  | error failure =>
      rw [assemble_failure, addAll_stops] at h
      exact assemble_failure.mpr ((addAll_stops ..).trans h)
  | ok model =>
      obtain ⟨merged, hm, rfl⟩ := assemble_eq_ok.mp h
      refine assemble_eq_ok.mpr ⟨_, hm.withStrict strict', ?_⟩
      simp only [addDefaults_value]

end Options

/-- With its keys skipped an assembly has no failure of a key and a model without patterns, which is
the model with keys in all else, wherever that exists. Another strictness gives the same failure, or
the same model but for its strictness. -/
theorem assemble_options (documents : List NamedDocument) (strict : Bool) :
    (∀ failure, (assemble (some documents) strict true).value ≠ .error (.key failure))
      ∧ (∀ model, (assemble (some documents) strict true).value = .ok model →
        model.entityPatterns.globals = [] ∧ model.entityPatterns.types.toList = [])
      ∧ (∀ model, (assemble (some documents) strict false).value = .ok model →
        (assemble (some documents) strict true).value = .ok { model with entityPatterns := {} })
      ∧ ∀ skip strict', (assemble (some documents) strict' skip).value =
        (assemble (some documents) strict skip).value.map fun model =>
          { model with strict := strict' } := by
  refine ⟨fun failure h => ?_, fun model h => ?_, fun model h => ?_, fun skip strict' =>
    assemble_withStrict documents skip strict strict'⟩
  · rw [assemble_failure, addAll_stops] at h
    obtain ⟨d, -, hd⟩ := List.exists_of_findSome?_eq_some h
    exact stop?_ne_key d failure hd
  · obtain ⟨merged, hm, rfl⟩ := assemble_eq_ok.mp h
    have hpatterns : merged.entityPatterns = {} := hm.patterns
    rw [addDefaults_value, hpatterns]
    exact ⟨rfl, rfl⟩
  · obtain ⟨merged, hm, rfl⟩ := assemble_eq_ok.mp h
    refine assemble_eq_ok.mpr ⟨_, hm.skipping, ?_⟩
    simp only [addDefaults_value]

/-- A key that is no selection set. -/
def rejectedDocument : NamedDocument :=
  ⟨⟨[.schemaExtension ⟨none, [⟨"key", [⟨"fields", .string "id (" false, none⟩], none⟩], []⟩], none⟩,
    none⟩

/-- With a rejected key before them, documents with a key make a model only if keys are skipped. -/
theorem assemble_options_rejected : ∃ model skipped,
    (assemble (some [mixedDocument, moneyDocument])).value = .ok model
      ∧ model.entityPatterns.globals ≠ []
      ∧ (assemble (some [mixedDocument, moneyDocument]) true true).value =
        .ok { model with entityPatterns := {} }
      ∧ (assemble (some [rejectedDocument, mixedDocument, moneyDocument])).value.isOk = false
      ∧ (assemble (some [rejectedDocument, mixedDocument, moneyDocument]) true true).value =
        .ok skipped
      ∧ skipped.entityPatterns.globals = [] ∧ skipped.entityPatterns.types.toList = [] := by
  have hrejected : (assemble (some [rejectedDocument, mixedDocument, moneyDocument])).value.isOk =
      false := by decide +kernel
  have hk : (do
      let model ← (assemble (some [mixedDocument, moneyDocument])).value.toOption
      let _ ← (assemble (some [rejectedDocument, mixedDocument, moneyDocument])
        true true).value.toOption
      return model.entityPatterns.globals.length) = some 1 := by decide +kernel
  obtain ⟨model, hm, hk⟩ := Option.bind_eq_some_iff.mp hk
  obtain ⟨skipped, hs, hk⟩ := Option.bind_eq_some_iff.mp hk
  have hm := Except.toOption_eq_some.mp hm
  have hs := Except.toOption_eq_some.mp hs
  have hglobals : model.entityPatterns.globals ≠ [] := fun hn => by simp [hn] at hk
  exact ⟨model, skipped, hm, hglobals, (assemble_options _ true).2.2.1 model hm, hrejected, hs,
    (assemble_options _ true).2.1 skipped hs⟩

end SdlAssembly.Model
