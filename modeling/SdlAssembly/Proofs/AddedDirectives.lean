import Mathlib.Data.List.Forall2
import SdlAssembly.Annotated.Printer
import SdlAssembly.Proofs.Parsing.ParsedDocuments
import SdlAssembly.Proofs.Parsing.WrittenExtensions
import SdlAssembly.Proofs.Tree.Placing

/-!
# Adding directives to a text

Directives are added to the type definitions of a text by printing its syntax tree again. The
printed text is read back as the tree with the directives, if these can be read at a definition: it
differs from that of the first text in nothing else, whatever stands in the descriptions and values
of both.
-/

namespace SdlAssembly.Annotated

open Grammar Text Lexer

variable {map : DirectiveMap}

/-! ## Definitions -/

/-- What adding directives makes of a definition: a type definition has those for its name after its
own. An extension of a type is none. -/
inductive Amended (map : DirectiveMap) : Definition → Definition → Prop
  | added {node : TypeNode} {directives : List Directive}
      (entry : map.lookup node.name = some directives) :
      Amended map (.type node) (.type { node with directives := node.directives ++ directives })
  | unnamed {node : TypeNode} (missing : map.lookup node.name = none) :
      Amended map (.type node) (.type node)
  | other {d : Definition} (noType : ∀ node, d ≠ .type node) : Amended map d d

theorem amended_append (map : DirectiveMap) (d : Definition) :
    Amended map d (appendDirectives map d) := by
  cases d with
  | type node =>
      rw [appendDirectives]
      cases hl : map.lookup node.name with
      | some directives => exact Amended.added hl
      | none => simpa using Amended.unnamed hl
  | _ => exact .other (by simp)

/-- Only the names of type definitions are looked up. -/
theorem appendDirectives_congr {map' : DirectiveMap} {ds : List Definition}
    (h : ∀ node, .type node ∈ ds → map'.lookup node.name = map.lookup node.name) :
    ds.map (appendDirectives map') = ds.map (appendDirectives map) := by
  refine List.map_congr_left fun d hd => ?_
  cases d with
  | type node => simp only [appendDirectives, h node hd]
  | _ => rfl

/-- The directives for the type definitions of a list can be written and read again: they have no
variables, no name or value that is malformed, and no value that is nested too deeply. -/
def DirectiveMap.Readable (map : DirectiveMap) (definitions : List Definition) : Prop :=
  ∀ node, .type node ∈ definitions → ∀ directives ∈ map.lookup node.name,
    ∀ d ∈ directives, d.Constant ∧ d.depth ≤ Parser.deepest

theorem isSdl_append {d : Definition} (h : d.IsSdl) : (appendDirectives map d).IsSdl := by
  cases d <;> exact h

/-- A definition is still read with directives that are. -/
theorem readable_append {definitions : List Definition} (hm : map.Readable definitions)
    {d : Definition} (hd : d ∈ definitions) (h : d.Readable) : (appendDirectives map d).Readable := by
  cases d with
  | type node =>
      rw [appendDirectives]
      cases hl : map.lookup node.name with
      | none => simpa using h
      | some directives =>
          obtain ⟨hconstant, hdepth⟩ := forall₂_and.mp (hm node hd directives hl)
          obtain ⟨hp, -, hf⟩ := h
          have hdirectives : ∀ d ∈ node.directives ++ directives, d.depth ≤ Parser.deepest :=
            List.forall_mem_append.mpr ⟨greatest_le.mp hf.directives, hdepth⟩
          refine ⟨⟨hp.description, hp.name, ?_, hp.body⟩, trivial, greatest_le.mpr hdirectives,
            hf.body⟩
          exact List.forall_mem_append.mpr ⟨hp.directives, hconstant⟩
  | _ => exact h

/-- Where a type definition is read with directives, the directives can be. -/
theorem constant_of_readable {d : Definition} {node : TypeNode} (h : d.Readable)
    (he : d.withoutPlaces = (Definition.type node).withoutPlaces) :
    ∀ x ∈ node.directives, x.Constant ∧ x.depth ≤ Parser.deepest := by
  cases d with
  | type node' =>
      obtain ⟨hp, -, hf⟩ := h
      have hdirectives : node'.directives.map Directive.unplaced =
          node.directives.map Directive.unplaced :=
        congrArg TypeNode.directives (Definition.type.inj he)
      intro x hx
      obtain ⟨y, hy, hxy⟩ := List.mem_map.mp (hdirectives ▸ List.mem_map_of_mem hx)
      rw [← Directive.constant_unplaced, ← Directive.depth_unplaced, ← hxy,
        Directive.constant_unplaced, Directive.depth_unplaced]
      exact ⟨hp.directives y hy, greatest_le.mp hf.directives y hy⟩
  | _ => cases he

/-! ## Texts -/

variable {text : String} {document : Document}

theorem addDirectives_of_parse (hp : parseDocument ⟨unnamedSource, text⟩ false = .ok document)
    (map : DirectiveMap) :
    addDirectives text map =
      .ok (printDefinitions (document.definitions.map (appendDirectives map))) :=
  Except.bind_of_ok hp

/-- The definitions and extensions of a text are read back as they are, apart from the places of
their directives, but for the added directives, exactly if these can be read there. Directives for
names that the text does not define make no difference. -/
theorem addDirectives_exact (hp : parseDocument ⟨unnamedSource, text⟩ false = .ok document)
    (hs : ∀ d ∈ document.definitions, d.IsSdl) (map : DirectiveMap) :
    ∃ out amended, addDirectives text map = .ok out
      ∧ List.Forall₂ (Amended map) document.definitions amended
      ∧ (∀ name located, (∃ document', parseDocument ⟨name, out⟩ located = .ok document'
        ∧ document'.definitions.map Definition.withoutPlaces =
          amended.map Definition.withoutPlaces) ↔ map.Readable document.definitions)
      ∧ ∀ map' : DirectiveMap,
        (∀ node, .type node ∈ document.definitions →
          map'.lookup node.name = map.lookup node.name) →
        addDirectives text map' = .ok out := by
  obtain ⟨hne, hreadable⟩ := readable_of_parseDocument hp
  refine ⟨_, document.definitions.map (appendDirectives map), addDirectives_of_parse hp map, ?_,
    fun name located => ⟨fun ⟨document', hr, he⟩ => ?_, fun hm => ?_⟩, fun map' hsame => ?_⟩
  · exact List.forall₂_map_right_iff.mpr (List.forall₂_same.mpr fun d _ => amended_append map d)
  · intro node hn directives hl d hd
    -- what was read has a definition in the place of the one with the directives
    have hm := List.mem_map_of_mem (f := Definition.withoutPlaces)
      (List.mem_map_of_mem (f := appendDirectives map) hn)
    rw [← he] at hm
    obtain ⟨read, hin, hread⟩ := List.mem_map.mp hm
    rw [appendDirectives, Option.mem_def.mp hl] at hread
    exact constant_of_readable ((readable_of_parseDocument hr).2 read hin) hread d
      (List.mem_append_right _ hd)
  · refine parseDocument_printDefinitions ?_ ?_ (by simpa using hne) name located
    · exact List.forall_mem_map.mpr fun d hd => isSdl_append (hs d hd)
    · exact List.forall_mem_map.mpr fun d hd => readable_append hm hd (hreadable d hd)
  · rw [addDirectives_of_parse hp, appendDirectives_congr hsame]

/-- A directive with a variable, which no definition is read with. -/
def variableStamp : DirectiveMap :=
  [("A", [{ name := "d", arguments := [{ name := "a", value := .variable "x" }] }])]

/-- A type definition is printed with such a directive, and the text is not read. -/
theorem addDirectives_variable :
    ((parseDocument ⟨unnamedSource, "type A \x7b x: Int \x7d"⟩ false).toOption.map fun document =>
        decide (∀ d ∈ document.definitions, d.IsSdl)) = some true
      ∧ (addDirectives "type A \x7b x: Int \x7d" variableStamp).toOption =
        some "type A @d(a: $x) \x7b\n  x: Int\n\x7d"
      ∧ (parseDocument ⟨unnamedSource, "type A @d(a: $x) \x7b\n  x: Int\n\x7d"⟩ false).isOk = false := by
  decide +kernel

/-- A type with a block description that has quotes in it, and an extension of the type. -/
def catalogue : String :=
  "\"\"\"\nGoods\n  in \\\"\"\" rows\n\"\"\" "
    ++ "type Shelf @old \x7b item(size: [Int] = [1]): Item \x7d "
    ++ "extend type Shelf @kept enum Item \x7b A \x7d directive @old on OBJECT"

/-- Directives for a type of the catalogue and for one that it does not have. -/
def stamps : DirectiveMap := [("Shelf", [{ name := "new" }]), ("Missing", [{ name := "lost" }])]

theorem readable_stamps (definitions : List Definition) : stamps.Readable definitions := by
  have hnew : IsName "new" := by decide
  have hlost : IsName "lost" := by decide
  intro node _ directives hl d hd
  obtain ⟨before, after, he, -⟩ := List.lookup_eq_some_iff.mp hl
  have hm : (node.name, directives) ∈ stamps := by simp [he]
  simp only [stamps, List.mem_cons, Prod.mk.injEq, List.not_mem_nil, or_false] at hm
  rcases hm with ⟨-, rfl⟩ | ⟨-, rfl⟩
  · obtain rfl := List.mem_singleton.mp hd
    exact ⟨⟨hnew, by simp, trivial⟩, Nat.zero_le _⟩
  · obtain rfl := List.mem_singleton.mp hd
    exact ⟨⟨hlost, by simp, trivial⟩, Nat.zero_le _⟩

theorem addDirectives_exact_catalogue : ∃ document out amended document',
    parseDocument ⟨unnamedSource, catalogue⟩ false = .ok document
      ∧ (∀ d ∈ document.definitions, d.IsSdl)
      ∧ document.definitions.map (fun d => d.directives.map (·.name)) = [["old"], ["kept"], [], []]
      ∧ addDirectives catalogue stamps = .ok out
      ∧ addDirectives catalogue [("Shelf", [{ name := "new" }])] = .ok out
      ∧ List.Forall₂ (Amended stamps) document.definitions amended
      ∧ parseDocument ⟨unnamedSource, out⟩ = .ok document'
      ∧ document'.definitions.map Definition.withoutPlaces =
        amended.map Definition.withoutPlaces := by
  have hk : (do
      let document ← (parseDocument ⟨unnamedSource, catalogue⟩ false).toOption
      return (decide (∀ d ∈ document.definitions, d.IsSdl),
        document.definitions.map fun d => d.directives.map (·.name),
        document.definitions.filterMap Definition.name?)) =
      some (true, [["old"], ["kept"], [], []], ["Shelf", "Shelf", "Item", "old"]) := by
    decide +kernel
  obtain ⟨document, hp, hk⟩ := Option.bind_eq_some_iff.mp hk
  have hp := Except.toOption_eq_some.mp hp
  obtain ⟨hs, hk⟩ := Prod.mk.inj (Option.some.inj hk)
  obtain ⟨hd, hnames⟩ := Prod.mk.inj hk
  have hs := of_decide_eq_true hs
  obtain ⟨out, amended, ho, ha, hread, hsame⟩ := addDirectives_exact hp hs stamps
  obtain ⟨document', hr, he⟩ := (hread unnamedSource true).mpr (readable_stamps _)
  refine ⟨document, out, amended, document', hp, hs, hd, ho, hsame _ ?_, ha, hr, he⟩
  intro node hn
  have hname : node.name ∈ ["Shelf", "Shelf", "Item", "old"] :=
    hnames ▸ List.mem_filterMap.mpr ⟨_, hn, rfl⟩
  have hlookup : ∀ name ∈ ["Shelf", "Shelf", "Item", "old"],
      List.lookup name [("Shelf", [({ name := "new" } : Directive)])] = stamps.lookup name := by
    simp [stamps, List.lookup_cons]
  exact hlookup _ hname

end SdlAssembly.Annotated
