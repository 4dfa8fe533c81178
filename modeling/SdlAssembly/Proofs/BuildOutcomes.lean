import SdlAssembly.Proofs.PlaceholderSchemas
import SdlAssembly.Proofs.Schema.Defaults
import SdlAssembly.Proofs.Schema.Faults
import SdlAssembly.Proofs.TwoHalves

/-!
# How a build ends

An assembled model has a schema, or its build is reported as failed validation, with errors. There
is one more end: a schema that is built and valid is not given out if one of its defaults cannot be
written, though it is written for a message only.
-/

namespace SdlAssembly.Model

open Grammar Documents Schemas Except

/-- Whether a failure is reported as failed validation. -/
def BuildFailure.isReported : BuildFailure → Bool
  | .rejected _ | .invalid _ => true
  | .unbuildable fault => fault.isTold
  | .unwritable _ => false

/-- The schema that a model has before it is reported. -/
def TypeSystem.Yields (model : TypeSystem) (schema : Schema) : Prop :=
  ∃ extended, model.extended = .ok extended ∧ schema = extended.withDefaultRoots
    ∧ (model.strict → schema.violations = [])

/-- Whatever is wrong is reported, and something is. -/
abbrev Reports {α : Type} (x : Except BuildFailure α) : Prop :=
  x.Fails fun failure => failure.isReported ∧ failure.errors ≠ []

section Building

variable {model : TypeSystem} {schema : Schema}

theorem extended_reports (hx : typeExtensions model.retained = []) : Reports model.extended := by
  have hextend : Reports ((model.foundation.extend model.retained (!model.strict)).mapError
      .unbuildable) := by
    have ht : Tells (model.foundation.extend model.retained (!model.strict)) := extendWith_tells hx
    exact ht.mapError fun fault hf => ⟨hf, by simp [BuildFailure.errors]⟩
  unfold TypeSystem.extended
  dsimp only
  split
  · split
    · exact hextend
    · exact .error ⟨rfl, by simp [BuildFailure.errors]⟩
  · exact hextend

theorem checked_reports (model : TypeSystem) (schema : Schema) : Reports (model.checked schema) := by
  unfold TypeSystem.checked
  split
  · cases hv : schema.violations with
    | nil => exact .ok
    | cons violation violations => exact .error ⟨rfl, by simp [BuildFailure.errors]⟩
  · exact .ok

theorem reported_eq_error {failure : BuildFailure} : (reported schema).value = .error failure ↔
    ∃ cause, printSchema schema = .error cause ∧ failure = .unwritable cause := by
  unfold reported
  rw [Logged.value_andThen]
  cases printSchema schema with
  | ok text => simp
  | error cause => simp [eq_comm]

/-- A build fails with a report, or when the schema that the model has is printed. -/
theorem build_fails (hx : typeExtensions model.retained = []) :
    model.build.value.Fails fun failure => (failure.isReported ∧ failure.errors ≠ [])
      ∨ ∃ schema cause, model.Yields schema ∧ printSchema schema = .error cause
        ∧ failure = .unwritable cause := by
  intro failure h
  unfold TypeSystem.build at h
  cases he : model.extended with
  | error failure' =>
      rw [he] at h
      cases h
      exact .inl (extended_reports hx _ he)
  | ok extended =>
      rw [he] at h
      simp only [Logged.value_andThen, assignRoots_value] at h
      cases hc : model.checked extended.withDefaultRoots with
      | error failure' =>
          rw [hc] at h
          cases h
          exact .inl (checked_reports _ _ _ hc)
      | ok checked =>
          rw [hc] at h
          obtain ⟨rfl, hv⟩ := checked_eq_ok.mp hc
          obtain ⟨cause, hp, rfl⟩ := reported_eq_error.mp h
          exact .inr ⟨_, cause, ⟨extended, he, rfl, hv⟩, hp, rfl⟩

/-- The schema that a model has is printed before it is given out. -/
theorem build_unwritable (h : model.Yields schema) {cause : Unwritable}
    (hp : printSchema schema = .error cause) : model.build.value = .error (.unwritable cause) := by
  obtain ⟨extended, he, rfl, hv⟩ := h
  unfold TypeSystem.build
  rw [he]
  simp only [Logged.value_andThen, assignRoots_value]
  rw [checked_eq_ok.mpr ⟨rfl, hv⟩]
  exact reported_eq_error.mpr ⟨cause, hp, rfl⟩

/-- The documents without extensions give all definitions. -/
theorem typeExtensions_assembled {documents : List NamedDocument} {strict skip : Bool}
    (h : (assemble (some documents) strict skip).value = .ok model) :
    typeExtensions model.retained = [] := by
  obtain ⟨merged, hm, rfl⟩ := assemble_eq_ok.mp h
  refine List.filterMap_eq_nil_iff.mpr fun x hx => ?_
  have hmem : x ∈ merged.definitions := by
    have hx := (List.mem_filter.mp hx).1
    rwa [addDefaults_value] at hx
  rw [hm.definitions, List.nil_append] at hmem
  obtain ⟨document, hdocument, hx⟩ := List.mem_flatMap.mp hmem
  obtain ⟨d, hd, rfl⟩ := List.mem_map.mp hdocument
  have hplain : ∀ x ∈ d.document.definitions, isExtension x = false := by
    simpa [annotates] using (List.mem_filter.mp hd).2
  have hx := hplain x hx
  cases x with
  | typeExtension node => cases hx
  | _ => rfl

end Building

/-- The schema has an input with a default of which a part cannot be written. -/
def HasUnwritable (schema : Schema) : Prop :=
  ∃ input ∈ schema.inputs, ∃ default part, input.default = some default
    ∧ LeafOf schema.type? part default input.type ∧ part.hasLiteral = false

theorem printSchema_eq_error {schema : Schema} :
    (∃ cause, printSchema schema = .error cause) ↔ HasUnwritable schema := by
  have herror : (∃ cause, printSchema schema = .error cause) ↔
      ¬∃ text, printSchema schema = .ok text := by
    cases printSchema schema <;> simp
  rw [herror, printSchema_isOk_iff]
  simp only [HasUnwritable, Schema.CanWrite, Writable]
  simp [Classical.not_forall]

/-- An assembled model has a schema, or what is wrong with it is reported, or the schema that it has
cannot be printed, which is so where a default holds a part without a literal. -/
theorem build_outcomes {documents : List NamedDocument} {strict skip : Bool} {model : TypeSystem}
    (h : (assemble (some documents) strict skip).value = .ok model) :
    ((∃ schema, model.build.value = .ok schema)
        ∨ (∃ failure, model.build.value = .error failure ∧ failure.isReported
          ∧ failure.errors ≠ [])
        ∨ ∃ cause, model.build.value = .error (.unwritable cause))
      ∧ ((∃ cause, model.build.value = .error (.unwritable cause)) ↔
        ∃ schema, model.Yields schema ∧ HasUnwritable schema) := by
  have hx := typeExtensions_assembled h
  have hf := build_fails hx
  constructor
  · cases hb : model.build.value with
    | ok schema => exact .inl ⟨schema, rfl⟩
    | error failure =>
        rcases hf failure hb with ⟨hr, he⟩ | ⟨schema, cause, -, -, rfl⟩
        · exact .inr (.inl ⟨failure, rfl, hr, he⟩)
        · exact .inr (.inr ⟨cause, rfl⟩)
  · constructor
    · rintro ⟨cause, hb⟩
      rcases hf _ hb with ⟨hr, -⟩ | ⟨schema, cause', hy, hp, -⟩
      · cases hr
      · exact ⟨schema, hy, printSchema_eq_error.mp ⟨cause', hp⟩⟩
    · rintro ⟨schema, hy, hu⟩
      obtain ⟨cause, hp⟩ := printSchema_eq_error.mpr hu
      exact ⟨cause, build_unwritable hy hp⟩

/-- A field with a default that is an object, under a scalar that is not built in. -/
def objectDefault : List NamedDocument :=
  [⟨⟨[.type ⟨none, "Query", [], .object [] [⟨none, "a",
        [⟨none, "x", .named "J", some (.object [("k", .int "1")]), []⟩], .named "Int", []⟩]⟩,
      .type ⟨none, "J", [], .scalar⟩], none⟩, none⟩]

/-- The message with which the build of assembled documents breaks off. -/
def breaksOff? (documents : List NamedDocument) : Option String :=
  match (assemble (some documents)).value with
  | .error _ => none
  | .ok model =>
    match model.build.value with
    | .error (.unwritable cause) => some cause.message
    | _ => none

theorem exists_of_breaksOff? {documents : List NamedDocument} {message : String}
    (h : breaksOff? documents = some message) : ∃ model, (assemble (some documents)).value = .ok model
      ∧ ∃ cause, model.build.value = .error (.unwritable cause) ∧ cause.message = message := by
  unfold breaksOff? at h
  split at h
  · cases h
  · split at h
    · cases h
      exact ⟨_, by assumption, _, by assumption, rfl⟩
    · cases h

theorem breaksOff?_objectDefault :
    breaksOff? objectDefault = some "Cannot convert value to AST: \x7b'k': 1\x7d." := by
  decide +kernel

theorem build_outcomes_object : ∃ model schema, (assemble (some objectDefault)).value = .ok model
    ∧ model.Yields schema ∧ HasUnwritable schema := by
  obtain ⟨model, hm, cause, hc, -⟩ := exists_of_breaksOff? breaksOff?_objectDefault
  obtain ⟨schema, hy, hu⟩ := (build_outcomes hm).2.mp ⟨cause, hc⟩
  exact ⟨model, schema, hm, hy, hu⟩

/-- A build without a schema and without a report of what is wrong. -/
theorem build_breaksOff : ∃ model, (assemble (some objectDefault)).value = .ok model
    ∧ ∃ cause, model.build.value = .error (.unwritable cause)
      ∧ cause.message = "Cannot convert value to AST: \x7b'k': 1\x7d." :=
  exists_of_breaksOff? breaksOff?_objectDefault

end SdlAssembly.Model
