import SdlAssembly.Grammar.Printer.Document
import SdlAssembly.Proofs.Tree.Definitions

/-!
# Places of directives

Definitions that differ in the places of their directives alone are printed alike, and directives
that do can be read alike.
-/

namespace SdlAssembly.Grammar

@[simp] theorem Directive.unplaced_unplaced (d : Directive) : d.unplaced.unplaced = d.unplaced := by
  simp [Directive.unplaced, Argument.unplaced, Function.comp_def]

@[simp] theorem Directive.depth_unplaced (d : Directive) : d.unplaced.depth = d.depth := by
  rw [depth, depth, greatest, greatest, unplaced, List.map_map]
  rfl

@[simp] theorem Directive.constant_unplaced {d : Directive} : d.unplaced.Constant ↔ d.Constant := by
  constructor
  · rintro ⟨hname, harguments, -⟩
    refine ⟨hname, fun a ha => ?_, trivial⟩
    obtain ⟨hn, hv, -⟩ := harguments a.unplaced (List.mem_map_of_mem ha)
    exact ⟨hn, hv, trivial⟩
  · rintro ⟨hname, harguments, -⟩
    refine ⟨hname, List.forall_mem_map.mpr fun a ha => ?_, trivial⟩
    obtain ⟨hn, hv, -⟩ := harguments a ha
    exact ⟨hn, hv, trivial⟩

@[simp] theorem Directive.print_unplaced (d : Directive) : d.unplaced.print = d.print := by
  have harguments : (d.arguments.map Argument.unplaced).map Argument.print =
      d.arguments.map Argument.print := by
    rw [List.map_map]
    rfl
  simp only [Directive.print, Directive.unplaced, harguments]

@[simp] theorem printDirectives_unplaced (directives : List Directive) :
    printDirectives (directives.map Directive.unplaced) = printDirectives directives := by
  simp [printDirectives, Function.comp_def]

@[simp] theorem InputDefinition.print_unplaced (d : InputDefinition) :
    d.unplaced.print = d.print := by
  simp [InputDefinition.print, InputDefinition.unplaced]

@[simp] theorem FieldDefinition.print_unplaced (d : FieldDefinition) :
    d.unplaced.print = d.print := by
  simp [FieldDefinition.print, FieldDefinition.unplaced, Function.comp_def]

@[simp] theorem EnumValueDefinition.print_unplaced (d : EnumValueDefinition) :
    d.unplaced.print = d.print := by
  simp [EnumValueDefinition.print, EnumValueDefinition.unplaced]

@[simp] theorem TypeNode.printBare_unplaced (d : TypeNode) : d.unplaced.printBare = d.printBare := by
  obtain ⟨description, name, directives, body⟩ := d
  cases body <;>
    simp [TypeNode.printBare, TypeNode.unplaced, TypeBody.unplaced, Function.comp_def]

@[simp] theorem SchemaNode.printBare_unplaced (d : SchemaNode) :
    d.unplaced.printBare = d.printBare := by
  simp [SchemaNode.printBare, SchemaNode.unplaced]

@[simp] theorem DirectiveDefinition.print_unplaced (d : DirectiveDefinition) :
    d.unplaced.print = d.print := by
  have harguments : (d.arguments.map InputDefinition.unplaced).map InputDefinition.print =
      d.arguments.map InputDefinition.print := by
    simp [Function.comp_def]
  unfold DirectiveDefinition.print DirectiveDefinition.unplaced
  dsimp only
  rw [harguments]

@[simp] theorem Definition.print_unplaced (d : Definition) : d.unplaced.print = d.print := by
  cases d with
  | type node =>
      simp only [Definition.unplaced, Definition.print, TypeNode.printBare_unplaced]
      rfl
  | schema node =>
      simp only [Definition.unplaced, Definition.print, SchemaNode.printBare_unplaced]
      rfl
  | directive node => simp [Definition.unplaced, Definition.print]
  | _ => rfl

/-- Definitions that differ in places alone have the same text. -/
theorem printDefinitions_unplaced {definitions definitions' : List Definition}
    (h : definitions.map Definition.unplaced = definitions'.map Definition.unplaced) :
    printDefinitions definitions = printDefinitions definitions' := by
  have hprint : ∀ definitions : List Definition, definitions.map Definition.print =
      (definitions.map Definition.unplaced).map Definition.print := by
    intro definitions
    simp [Function.comp_def]
  rw [printDefinitions, hprint, h, ← hprint, printDefinitions]

/-! ## All directives -/

@[simp] theorem FieldDefinition.allDirectives_unplaced (d : FieldDefinition) :
    d.unplaced.allDirectives = d.allDirectives.map Directive.unplaced := by
  simp [FieldDefinition.allDirectives, FieldDefinition.unplaced, InputDefinition.unplaced,
    List.flatMap_map, List.map_flatMap]

@[simp] theorem TypeBody.allDirectives_unplaced (body : TypeBody) :
    body.unplaced.allDirectives = body.allDirectives.map Directive.unplaced := by
  cases body <;>
    simp [TypeBody.allDirectives, TypeBody.unplaced, EnumValueDefinition.unplaced,
      InputDefinition.unplaced, List.flatMap_map, List.map_flatMap]

theorem Definition.allDirectives_unplaced {d : Definition} (h : d.IsTypeSystem) :
    d.unplaced.allDirectives = d.allDirectives.map Directive.unplaced := by
  cases d with
  | type node => simp [Definition.allDirectives, Definition.unplaced, TypeNode.unplaced]
  | schema node =>
      simp [Definition.allDirectives, Definition.directives, Definition.unplaced,
        SchemaNode.unplaced]
  | directive node =>
      simp [Definition.allDirectives, Definition.unplaced, DirectiveDefinition.unplaced,
        InputDefinition.unplaced, List.flatMap_map, List.map_flatMap]
  | _ => exact h.elim

end SdlAssembly.Grammar
