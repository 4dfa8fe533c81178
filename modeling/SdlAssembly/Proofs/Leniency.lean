import SdlAssembly.Proofs.Annotating
import SdlAssembly.Proofs.Printability

/-!
# Strict and lenient builds

A strict build is a lenient one with two checks: that the definitions keep their rules, and that the
schema is valid. The checks refuse, and change nothing of what is built, attached or printed.
-/

namespace SdlAssembly.Schemas

open Grammar Annotation Annotated

/-- A schema that is noted as taken as valid, or as still to be checked. -/
def Schema.marked (schema : Schema) (unchecked : Bool) : Schema :=
  { schema with unchecked := unchecked }

section Marked

variable {base schema : Schema} {definitions : List Definition} {added : List DirectiveType}

/-! ## Building -/

theorem adoptRoots_marked (operations : List OperationKind) (schema : Schema) (unchecked : Bool) :
    (schema.marked unchecked).adoptRoots operations =
      (schema.adoptRoots operations).marked unchecked := by
  unfold Schema.adoptRoots
  induction operations generalizing schema with
  | nil => rfl
  | cons operation operations ih =>
      rw [List.foldl_cons, List.foldl_cons, ← ih]
      cases operation <;> rfl

theorem withDefaultRoots_marked (schema : Schema) (unchecked : Bool) :
    (schema.marked unchecked).withDefaultRoots = schema.withDefaultRoots.marked unchecked := by
  have hmissing : (schema.marked unchecked).missingRoots = schema.missingRoots := rfl
  unfold Schema.withDefaultRoots
  rw [hmissing]
  split
  · rfl
  · rw [adoptRoots_marked]
    rfl

theorem withDefinitions_marked (hu : base.unchecked = false) :
    base.withDefinitions definitions false added =
      (base.withDefinitions definitions true added).marked false := by
  unfold Schema.withDefinitions
  split
  · rfl
  · rw [Schema.marked, ← hu]

/-- Definitions are added in the same way whether or not the result is taken as valid. -/
theorem extend_checked (hu : base.unchecked = false) :
    base.extend definitions false = .ok schema ↔
      ∃ lenient, base.extend definitions true = .ok lenient ∧ schema = lenient.marked false := by
  have hadds (unchecked : Bool) (schema : Schema) :
      base.extend definitions unchecked = .ok schema ↔ _ := extendWith_ok_iff rfl
  simp only [hadds, id, withDefinitions_marked hu]
  constructor
  · rintro ⟨existing, added, types, hb, rfl⟩
    exact ⟨_, ⟨existing, added, types, hb, rfl⟩, rfl⟩
  · rintro ⟨_, ⟨existing, added, types, hb, rfl⟩, rfl⟩
    exact ⟨existing, added, types, hb, rfl⟩

/-! ## Printing -/

theorem printSchema_marked (schema : Schema) (unchecked : Bool) :
    printSchema (schema.marked unchecked) = printSchema schema := rfl

mutual

theorem fitsSelection_marked (schema : Schema) (unchecked : Bool) : (selection : Selection) →
    (t : NamedType) →
    fitsSelection (schema.marked unchecked) selection t = fitsSelection schema selection t
  | .spread _ _, t => by simp only [fitsSelection]
  | .inline _ _ _, t => by simp only [fitsSelection]
  | .field _ name _ _ none, t => by
      simp only [fitsSelection]
      rfl
  | .field _ name _ _ (some set), t => by
      simp only [fitsSelection, fits_marked schema unchecked set]
      rfl

/-- Whether a pattern fits depends on the types of a schema only. -/
theorem fits_marked (schema : Schema) (unchecked : Bool) : (pattern : List Selection) →
    (t : NamedType) → fits (schema.marked unchecked) pattern t = fits schema pattern t
  | [], t => by simp only [fits]
  | selection :: rest, t => by
      simp only [fits, fitsSelection_marked schema unchecked selection t,
        fits_marked schema unchecked rest t]

end

/-- What is attached depends on the types and root types of a schema only. -/
theorem entities_marked (schema : Schema) (unchecked : Bool) (patterns : EntityPatterns) :
    entities (schema.marked unchecked) patterns = entities schema patterns := by
  have hkey : keyOf (schema.marked unchecked) patterns = keyOf schema patterns := by
    funext t
    simp only [keyOf, fits_marked]
  unfold entities
  rw [hkey]
  rfl

end Marked

end SdlAssembly.Schemas

namespace SdlAssembly.Model

open Grammar Schemas Annotated

section Lenient

variable {model : TypeSystem} {schema : Schema}

/-- A model with another strictness. -/
def TypeSystem.withStrict (model : TypeSystem) (strict : Bool) : TypeSystem :=
  { model with strict := strict }

/-- A strict build is a lenient one of which the definitions and the schema pass their checks. -/
theorem build_strict : (model.withStrict true).build.value = .ok schema ↔
    Rules.violations (.ofSchema model.foundation) model.retained = [] ∧ schema.violations = []
      ∧ ∃ lenient, (model.withStrict false).build.value = .ok lenient
        ∧ schema = lenient.marked false := by
  have hextend (extended : Schema) : model.foundation.extend model.retained false = .ok extended ↔
      ∃ lenient, model.foundation.extend model.retained true = .ok lenient
        ∧ extended = lenient.marked false := extend_checked rfl
  simp only [build_eq_ok, extended_eq_ok]
  constructor
  · rintro ⟨extended, ⟨hrules, he⟩, rfl, hv, text, hp⟩
    obtain ⟨lenient, hl, rfl⟩ := (hextend extended).mp he
    rw [withDefaultRoots_marked, printSchema_marked] at hp
    exact ⟨hrules rfl, hv rfl, lenient.withDefaultRoots,
      ⟨lenient, ⟨fun h => (nomatch h), hl⟩, rfl, fun h => (nomatch h), text, hp⟩,
      withDefaultRoots_marked lenient false⟩
  · rintro ⟨hrules, hv, _, ⟨lenient, ⟨-, hl⟩, rfl, -, text, hp⟩, rfl⟩
    refine ⟨lenient.marked false, ⟨fun _ => hrules, (hextend _).mpr ⟨lenient, hl, rfl⟩⟩,
      (withDefaultRoots_marked lenient false).symm, fun _ => hv, text, ?_⟩
    rw [printSchema_marked]
    exact hp

theorem attach_marked (model : TypeSystem) (schema : Schema) (unchecked : Bool) :
    (model.attach (schema.marked unchecked)).value =
      { (model.attach schema).value with schema := schema.marked unchecked } := by
  unfold TypeSystem.attach
  simp only [attachEntityKeys_eq, attachLeafTypes_eq, entities_marked]
  rfl

theorem print_attach_marked (model : TypeSystem) (schema : Schema) (unchecked : Bool) :
    (model.attach (schema.marked unchecked)).value.print = (model.attach schema).value.print := by
  have hschema : (model.attach schema).value.schema = schema := by
    unfold TypeSystem.attach
    simp only [attachEntityKeys_eq, attachLeafTypes_eq]
  rw [attach_marked, AnnotatedSchema.print, AnnotatedSchema.print, hschema, printSchema_marked]
  rfl

/-- Where a strict build succeeds, its schema was checked and has no violations. The lenient build
of the same model gives the same schema, and composing gives the same text or the same failure. -/
theorem build_lenient (h : (model.withStrict true).build.value = .ok schema) :
    schema.unchecked = false ∧ schema.violations = []
      ∧ (∃ lenient, (model.withStrict false).build.value = .ok lenient
        ∧ lenient.types = schema.types ∧ lenient.directives = schema.directives
        ∧ lenient.root? = schema.root? ∧ lenient.description = schema.description
        ∧ lenient.defined = schema.defined)
      ∧ (model.withStrict false).compose.value = (model.withStrict true).compose.value := by
  obtain ⟨-, hv, lenient, hl, rfl⟩ := build_strict.mp h
  refine ⟨rfl, hv, ⟨lenient, hl, rfl, rfl, funext fun operation => ?_, rfl, rfl⟩, ?_⟩
  · cases operation <;> rfl
  · rw [compose_of_build h, compose_of_build hl, print_attach_marked]
    rfl

end Lenient

/-- The composed text of a ledger is the same with and without validation. -/
theorem build_lenient_ledger : ∃ (model : TypeSystem) (schema lenient : Schema) (text : String),
    (assemble (some ledger)).value = .ok model
      ∧ (model.withStrict true).build.value = .ok schema ∧ schema.violations = []
      ∧ (model.withStrict false).build.value = .ok lenient ∧ lenient.types = schema.types
      ∧ (model.withStrict true).compose.value = .ok text
      ∧ (model.withStrict false).compose.value = .ok text := by
  obtain ⟨model, schema, text, hm, hstrict, hb, hp, -, -⟩ := ledger_composes
  have hsame : model.withStrict true = model := by rw [TypeSystem.withStrict, ← hstrict]
  have hc : (model.withStrict true).compose.value = .ok text := by
    rw [hsame, compose_of_build hb, hp, Except.mapError]
  have hb : (model.withStrict true).build.value = .ok schema := by rw [hsame, hb]
  obtain ⟨-, hv, ⟨lenient, hl, htypes, -⟩, hcompose⟩ := build_lenient hb
  exact ⟨model, schema, lenient, text, hm, hb, hv, hl, htypes, hc, hcompose.trans hc⟩

end SdlAssembly.Model
