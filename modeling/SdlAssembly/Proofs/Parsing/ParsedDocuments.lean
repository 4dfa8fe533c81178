import Mathlib.Logic.Basic
import SdlAssembly.Proofs.Outcomes
import SdlAssembly.Proofs.Parsing.Text
import SdlAssembly.Proofs.Parsing.Trees
import SdlAssembly.Proofs.Tree.Extensions

/-!
# Parsed documents

The definitions of a document that is parsed can be written, and nest no deeper than a parser reads.
-/

namespace SdlAssembly.Grammar.Parser

open Text Lexer

variable {α β : Type} {p : Parser α} {R : α → Prop} {S : β → Prop}

/-! ## What parsers give -/

/-- Wherever a parser succeeds, it gives something in `R`. -/
def Gives (p : Parser α) (R : α → Prop) : Prop := Accepts Anywhere p fun _ => R

namespace Gives

theorem of_accepts {Q : List Lexeme → α → Prop} (h : Accepts Anywhere p Q)
    (hQ : ∀ ls a, Q ls a → R a) : Gives p R := h.mono hQ

theorem mono {R' : α → Prop} (h : Gives p R) (hR : ∀ a, R a → R' a) : Gives p R' :=
  Accepts.mono h fun _ => hR

theorem pure {a : α} (h : R a) : Gives (Pure.pure a) R := Accepts.pure (Q := fun _ => R) h

theorem bind {f : α → Parser β} (h : Gives p R) (hf : ∀ a, R a → Gives (f a) S) :
    Gives (p >>= f) S :=
  Accepts.bind h fun _ a ha => hf a ha

theorem map {g : α → β} (h : Gives p R) (hg : ∀ a, R a → S (g a)) : Gives (g <$> p) S :=
  Accepts.map h fun _ => hg

theorem ite {b : Bool} {q : Parser α} (hp : b = true → Gives p R) (hq : b = false → Gives q R) :
    Gives (if b then p else q) R :=
  Accepts.ite hp hq

theorem current {f : Token → Parser β} (h : ∀ t, Formed t.lexeme → Gives (f t) S) :
    Gives (Parser.current >>= f) S :=
  fun t => .of_word fun _ hw => .current (h t hw t)

theorem failAt (t : Token) (e : SyntaxFault) : Gives (Parser.failAt t e) R := Accepts.failAt t e

theorem unexpected (t : Token) : Gives (Parser.unexpected t) R := Accepts.unexpected t

theorem unexpectedHere : Gives (do Parser.unexpected (← Parser.current)) R :=
  current fun t _ => unexpected t

theorem many (opening close : Punctuator) (h : Gives p R) :
    Gives (Parser.many opening close p) fun as => as ≠ [] ∧ ∀ a ∈ as, R a :=
  of_accepts (accepts_many opening close h) fun _ _ ⟨hne, _, _, he⟩ =>
    ⟨hne, he.all fun _ _ ha => ha⟩

theorem optionalMany (opening close : Punctuator) (h : Gives p R) :
    Gives (Parser.optionalMany opening close p) fun as => ∀ a ∈ as, R a :=
  of_accepts (accepts_optionalMany opening close h) fun _ _ ⟨_, he, _⟩ => he.all fun _ _ ha => ha

theorem separated (separator : Punctuator) (h : Gives p R) :
    Gives (Parser.separated separator p) fun as => as ≠ [] ∧ ∀ a ∈ as, R a :=
  of_accepts (accepts_separated separator h) fun _ _ ⟨hne, ha⟩ =>
    ⟨hne, fun a hm => (ha a hm).elim fun _ hr => hr⟩

end Gives

/-! ## Tokens -/

theorem gives_advance : Gives advance fun _ => True := by
  intro t ts a ts' hs h
  by_cases hl : t.lexeme = .endOfText
  · obtain rfl := hs.endOfText_eq hl
    cases h
    exact ⟨hs, [], rfl, trivial⟩
  · obtain ⟨hs', ls, hl', -⟩ := AcceptsAt.advance hl ts a ts' hs h
    exact ⟨hs', ls, hl', trivial⟩

theorem gives_discard : Gives (discard advance) fun _ => True := by
  rw [discard_eq]
  exact gives_advance.bind fun _ _ => .pure trivial

theorem gives_upcoming : Gives upcoming fun _ => True := by
  intro t ts a ts' hs h
  have hts : ts' = t :: ts := by
    unfold upcoming at h
    split at h <;> cases h <;> simp_all
  exact ⟨hts ▸ hs, [], by rw [hts]; rfl, trivial⟩

theorem gives_name : Gives name IsName := .of_accepts accepts_name fun _ _ h => h.2

theorem gives_expect (p : Punctuator) : Gives (expect p) fun _ => True :=
  .of_accepts (accepts_expect p) fun _ _ _ => trivial

theorem gives_skip (p : Punctuator) : Gives (skip p) fun _ => True :=
  .of_accepts (accepts_skip p) fun _ _ _ => trivial

theorem gives_sees (p : Punctuator) : Gives (sees p) fun _ => True :=
  .of_accepts (accepts_sees p) fun _ _ _ => trivial

theorem gives_keyword (text : String) : Gives (keyword text) fun _ => True :=
  .of_accepts (accepts_keyword text) fun _ _ _ => trivial

theorem gives_skipKeyword (text : String) : Gives (skipKeyword text) fun _ => True :=
  .of_accepts (accepts_skipKeyword text) fun _ _ _ => trivial

/-! ## Parts -/

theorem gives_description : Gives description fun d => ∀ t ∈ d, Formed t.lexeme := by
  refine .current fun t hw => ?_
  split
  · rename_i text block ht
    rw [ht] at hw
    rw [seqRight_eq_bind]
    exact gives_advance.bind fun _ _ => .pure (by simpa [Description.lexeme] using hw)
  · exact .pure (by simp)

theorem gives_constantDirectives : Gives constantDirectives fun directives =>
    (∀ d ∈ directives, d.Constant) ∧ DirectivesFit directives :=
  .of_accepts accepts_directives fun _ _ h => h.2

theorem gives_directives : Gives (directives false deepest) fun _ => True :=
  .of_accepts accepts_directives fun _ _ _ => trivial

theorem gives_selectionSet : Gives (selectionSet deepest) fun _ => True :=
  .of_accepts accepts_selectionSet fun _ _ _ => trivial

theorem gives_operationKind : Gives operationKind fun _ => True := by
  refine .current fun t _ => gives_name.bind fun keyword _ => ?_
  split
  · exact .pure trivial
  · exact .unexpected t

theorem gives_default :
    Gives default? fun default => ∀ v ∈ default, v.Proper true ∧ v.depth ≤ deepest := by
  refine (gives_skip .equals).bind fun b _ => .ite (fun _ => ?_) fun _ => .pure (by simp)
  have hv : Gives (value true deepest) fun v => v.Proper true ∧ v.depth ≤ deepest :=
    .of_accepts accepts_value fun _ _ h => h.2
  exact hv.map fun v hp => by simpa using hp

/-! ## Type references -/

theorem gives_typeRefWith {list : Parser TypeRef} {levels : Nat}
    (h : Gives list fun t => (t.Proper ∧ t.isNonNull = false) ∧ t.depth ≤ levels) :
    Gives (typeRefWith list) fun t => t.Proper ∧ t.depth ≤ levels := by
  have hn : Gives (nullableRef list) fun t =>
      (t.Proper ∧ t.isNonNull = false) ∧ t.depth ≤ levels := by
    refine (gives_sees .bracketOpen).bind fun b _ => .ite (fun _ => h) fun _ => ?_
    exact gives_name.map fun name hname => ⟨⟨hname, rfl⟩, Nat.zero_le _⟩
  refine hn.bind fun inner hi => (gives_skip .bang).bind fun b _ => ?_
  exact .ite (fun _ => .pure hi) fun _ => .pure ⟨hi.1.1, hi.2⟩

theorem gives_typeRef {levels : Nat} :
    Gives (typeRef levels) fun t => t.Proper ∧ t.depth ≤ levels := by
  induction levels with
  | zero =>
      refine gives_typeRefWith ((gives_expect .bracketOpen).bind fun _ _ => ?_)
      exact accepts_tooDeep
  | succ levels ih =>
      refine gives_typeRefWith ((gives_expect .bracketOpen).bind fun _ _ => ?_)
      refine ih.bind fun item hi => (gives_expect .bracketClose).bind fun _ _ => ?_
      exact .pure ⟨⟨hi.1, rfl⟩, Nat.succ_le_succ hi.2⟩

/-! ## Executable definitions -/

theorem gives_variableDefinition : Gives variableDefinition fun _ => True := by
  refine gives_description.bind fun _ _ => (gives_expect .dollar).bind fun _ _ => ?_
  refine gives_name.bind fun _ _ => (gives_expect .colon).bind fun _ _ => ?_
  refine gives_typeRef.bind fun _ _ => gives_default.bind fun _ _ => ?_
  exact gives_constantDirectives.bind fun _ _ => .pure trivial

theorem gives_operation : Gives operation fun _ => True := by
  refine (gives_sees .braceOpen).bind fun b _ => .ite (fun _ => ?_) fun _ => ?_
  · exact gives_selectionSet.bind fun _ _ => .pure trivial
  · have hname : Gives operationName fun _ => True := by
      have hs : Gives seesName fun _ => True := .of_accepts accepts_seesName fun _ _ _ => trivial
      refine hs.bind fun b _ => .ite (fun _ => ?_) fun _ => .pure trivial
      exact gives_name.map fun _ _ => trivial
    refine gives_description.bind fun _ _ => gives_operationKind.bind fun _ _ => ?_
    refine hname.bind fun _ _ => ?_
    refine (Gives.optionalMany _ _ gives_variableDefinition).bind fun _ _ => ?_
    refine gives_directives.bind fun _ _ => ?_
    exact gives_selectionSet.bind fun _ _ => .pure trivial

theorem gives_fragment : Gives fragment fun _ => True := by
  have hname : Gives fragmentName fun _ => True :=
    .of_accepts accepts_fragmentName fun _ _ _ => trivial
  refine gives_description.bind fun _ _ => (gives_keyword "fragment").bind fun _ _ => ?_
  refine hname.bind fun _ _ => (gives_keyword "on").bind fun _ _ => ?_
  refine gives_name.bind fun _ _ => gives_directives.bind fun _ _ => ?_
  exact gives_selectionSet.bind fun _ _ => .pure trivial

/-! ## Members of types -/

theorem gives_inputDefinition : Gives inputDefinition fun d => d.Proper ∧ d.Fits := by
  refine gives_description.bind fun _ hd => gives_name.bind fun _ hn => ?_
  refine (gives_expect .colon).bind fun _ _ => gives_typeRef.bind fun _ ht => ?_
  refine gives_default.bind fun _ hv => gives_constantDirectives.bind fun _ hs => ?_
  obtain ⟨hproper, hdepth⟩ := forall₂_and.mp hv
  exact .pure ⟨⟨hd, hn, ht.1, hproper, hs.1⟩, ht.2, hdepth, hs.2⟩

theorem gives_fieldDefinition : Gives fieldDefinition fun d => d.Proper ∧ d.Fits := by
  refine gives_description.bind fun _ hd => gives_name.bind fun _ hn => ?_
  refine (Gives.optionalMany _ _ gives_inputDefinition).bind fun _ ha => ?_
  refine (gives_expect .colon).bind fun _ _ => gives_typeRef.bind fun _ ht => ?_
  obtain ⟨hproper, hfits⟩ := forall₂_and.mp ha
  refine gives_constantDirectives.bind fun _ hs => ?_
  exact .pure ⟨⟨hd, hn, hproper, ht.1, hs.1⟩, hfits, ht.2, hs.2⟩

theorem gives_enumValueName :
    Gives enumValueName fun name => IsName name ∧ name ∉ Value.reserved := by
  intro t
  refine .current ?_
  split
  · exact Gives.failAt t _ t
  · rename_i h
    refine (accepts_name t).head.mono fun ls name ⟨⟨hl, hn⟩, hh⟩ => ⟨hn, fun hr => h ?_⟩
    have ht : t.lexeme = .name name := hh _ (by simp [hl])
    rw [ht]
    exact List.any_eq_true.mpr ⟨name, hr, beq_self_eq_true _⟩

theorem gives_enumValueDefinition : Gives enumValueDefinition fun d => d.Proper ∧ d.Fits := by
  refine gives_description.bind fun _ hd => gives_enumValueName.bind fun _ hn => ?_
  exact gives_constantDirectives.bind fun _ hs => .pure ⟨⟨hd, hn, hs.1⟩, hs.2⟩

theorem gives_interfaces : Gives interfaces fun names => ∀ name ∈ names, IsName name := by
  refine (gives_skipKeyword "implements").bind fun b _ => .ite (fun _ => ?_) fun _ => ?_
  · exact (Gives.separated .ampersand gives_name).mono fun _ h => h.2
  · exact .pure (by simp)

theorem gives_members : Gives members fun names => ∀ name ∈ names, IsName name := by
  refine (gives_skip .equals).bind fun b _ => .ite (fun _ => ?_) fun _ => ?_
  · exact (Gives.separated .pipe gives_name).mono fun _ h => h.2
  · exact .pure (by simp)

/-! ## Definitions of types -/

theorem gives_typeBody (kind : TypeKind) : Gives (typeBody kind) fun r =>
    ((∀ d ∈ r.1, d.Constant) ∧ DirectivesFit r.1) ∧ r.2.Proper ∧ r.2.Fits := by
  have hfields : Gives fields fun fields => (∀ f ∈ fields, f.Proper) ∧ ∀ f ∈ fields, f.Fits :=
    (Gives.optionalMany _ _ gives_fieldDefinition).mono fun _ => forall₂_and.mp
  have hvalues : Gives enumValues fun values =>
      (∀ v ∈ values, v.Proper) ∧ ∀ v ∈ values, v.Fits :=
    (Gives.optionalMany _ _ gives_enumValueDefinition).mono fun _ => forall₂_and.mp
  have hinputs : Gives inputFields fun fields =>
      (∀ f ∈ fields, f.Proper) ∧ ∀ f ∈ fields, f.Fits :=
    (Gives.optionalMany _ _ gives_inputDefinition).mono fun _ => forall₂_and.mp
  cases kind with
  | scalar => exact gives_constantDirectives.bind fun _ hd => .pure ⟨hd, trivial, trivial⟩
  | object | interface =>
      refine gives_interfaces.bind fun _ hi => gives_constantDirectives.bind fun _ hd => ?_
      exact hfields.bind fun _ hf => .pure ⟨hd, ⟨hi, hf.1⟩, hf.2⟩
  | union =>
      refine gives_constantDirectives.bind fun _ hd => ?_
      exact gives_members.bind fun _ hm => .pure ⟨hd, hm, trivial⟩
  | enum =>
      refine gives_constantDirectives.bind fun _ hd => ?_
      exact hvalues.bind fun _ hv => .pure ⟨hd, hv⟩
  | inputObject =>
      refine gives_constantDirectives.bind fun _ hd => ?_
      exact hinputs.bind fun _ hf => .pure ⟨hd, hf⟩

theorem gives_typeDefinition (kind : TypeKind) :
    Gives (typeDefinition kind) fun d => d.Proper ∧ d.Fits := by
  refine gives_description.bind fun _ hd => gives_discard.bind fun _ _ => ?_
  refine gives_name.bind fun _ hn => (gives_typeBody kind).bind fun r hr => ?_
  exact .pure ⟨⟨hd, hn, hr.1.1, hr.2.1⟩, hr.1.2, hr.2.2⟩

theorem gives_typeExtension (kind : TypeKind) : Gives (typeExtension kind) fun d =>
    d.Proper ∧ d.description = none ∧ d.Extends := by
  refine gives_discard.bind fun _ _ => gives_discard.bind fun _ _ => ?_
  refine gives_name.bind fun _ hn => (gives_typeBody kind).bind fun r hr => ?_
  refine .ite (fun _ => .unexpectedHere) fun hadds => .pure ?_
  exact ⟨⟨by simp, hn, hr.1.1, hr.2.1⟩, rfl, ⟨hr.1.2, hr.2.2⟩, hadds⟩

/-! ## Schemas and directives -/

theorem gives_rootBinding : Gives rootBinding fun binding => IsName binding.type := by
  refine gives_operationKind.bind fun _ _ => (gives_expect .colon).bind fun _ _ => ?_
  exact gives_name.bind fun _ hn => .pure hn

theorem gives_schemaDefinition : Gives schemaDefinition fun d => d.Proper ∧ d.Fits := by
  refine gives_description.bind fun _ hd => (gives_keyword "schema").bind fun _ _ => ?_
  refine gives_constantDirectives.bind fun _ hs => ?_
  refine (Gives.many _ _ gives_rootBinding).bind fun _ hr => ?_
  exact .pure ⟨⟨hd, hs.1, hr.2⟩, hs.2, hr.1⟩

theorem gives_schemaExtension : Gives schemaExtension fun d =>
    d.Proper ∧ d.description = none ∧ d.Extends := by
  refine (gives_keyword "extend").bind fun _ _ => (gives_keyword "schema").bind fun _ _ => ?_
  refine gives_constantDirectives.bind fun _ hs => ?_
  refine (Gives.optionalMany _ _ gives_rootBinding).bind fun _ hr => ?_
  refine .ite (fun _ => .unexpectedHere) fun hadds => .pure ?_
  exact ⟨⟨by simp, hs.1, hr⟩, rfl, hs.2, hadds⟩

theorem gives_directiveLocation : Gives directiveLocation fun name => name ∈ directiveLocations := by
  refine .current fun t _ => gives_name.bind fun name _ => ?_
  exact .ite (fun h => .pure (List.contains_iff_mem.mp h)) fun _ => .unexpected t

theorem gives_directiveDefinition : Gives directiveDefinition fun d => d.Proper ∧ d.Fits := by
  refine gives_description.bind fun _ hd => (gives_keyword "directive").bind fun _ _ => ?_
  refine (gives_expect .atSign).bind fun _ _ => gives_name.bind fun _ hn => ?_
  refine (Gives.optionalMany _ _ gives_inputDefinition).bind fun _ ha => ?_
  refine (gives_skipKeyword "repeatable").bind fun _ _ => (gives_keyword "on").bind fun _ _ => ?_
  refine (Gives.separated .pipe gives_directiveLocation).bind fun _ hl => ?_
  obtain ⟨hproper, hfits⟩ := forall₂_and.mp ha
  exact .pure ⟨⟨hd, hn, hproper, hl.1, hl.2⟩, hfits⟩

/-! ## Definitions -/

theorem gives_extension : Gives extension Definition.Readable := by
  refine gives_upcoming.bind fun t _ => ?_
  split
  · exact gives_schemaExtension.map fun _ h => ⟨h.1, h.2.1, h.2.2⟩
  · split
    · exact (gives_typeExtension _).map fun _ h => ⟨h.1, h.2.1, h.2.2⟩
    · exact .unexpected t
  · exact .unexpected t

theorem gives_definitionBy (first word : Token) :
    Gives (definitionBy first word) Definition.Readable := by
  unfold definitionBy
  split
  · split
    · exact (gives_typeDefinition _).map fun _ h => ⟨h.1, trivial, h.2⟩
    · refine .ite (fun _ => gives_schemaDefinition.map fun _ h => ⟨h.1, trivial, h.2⟩)
        fun _ => ?_
      refine .ite (fun _ => gives_directiveDefinition.map fun _ h => ⟨h.1, trivial, h.2⟩)
        fun _ => ?_
      refine .ite (fun _ => gives_operation.map fun _ h => ⟨h, h, h⟩) fun _ => ?_
      refine .ite (fun _ => gives_fragment.map fun _ h => ⟨h, h, h⟩) fun _ => ?_
      refine .ite (fun _ => .failAt first _) fun _ => ?_
      exact .ite (fun _ => gives_extension) fun _ => .unexpected word
  · exact .unexpected word

theorem gives_definition : Gives definition Definition.Readable := by
  refine .current fun first _ =>
    .ite (fun _ => gives_operation.map fun _ h => ⟨h, h, h⟩) fun _ => ?_
  refine .ite (fun _ => gives_upcoming.bind fun word _ => ?_)
    fun _ => gives_definitionBy first first
  exact .ite (fun _ => .failAt first _) fun _ => gives_definitionBy first word

theorem gives_definitions : Gives definitions fun ds => ds ≠ [] ∧ ∀ d ∈ ds, d.Readable := by
  have hupTo : ∀ bound, Gives (definitionsUpTo bound) fun ds =>
      ds ≠ [] ∧ ∀ d ∈ ds, d.Readable := by
    intro bound
    induction bound with
    | nil => exact .unexpectedHere
    | cons b bound ih =>
        refine gives_definition.bind fun first hf => .current fun t _ => ?_
        refine .ite (fun _ => .pure ⟨by simp, by simpa using hf⟩) fun _ => ?_
        exact ih.bind fun rest hr => .pure ⟨by simp, List.forall_mem_cons.mpr ⟨hf, hr.2⟩⟩
  have hbound : Gives bound fun _ => True := .of_accepts accepts_bound fun _ _ _ => trivial
  exact hbound.bind fun b _ => hupTo b

end SdlAssembly.Grammar.Parser

namespace SdlAssembly.Grammar

open Text

/-- A parsed document has a definition, and its definitions can be written and read again. -/
theorem readable_of_parseDocument {source : Source} {located : Bool} {document : Document}
    (h : parseDocument source located = .ok document) :
    document.definitions ≠ [] ∧ ∀ d ∈ document.definitions, d.Readable := by
  obtain ⟨definitions, hr, hd⟩ := Except.bind_eq_ok h
  cases hd
  obtain ⟨hs, rest, hp⟩ := Parser.readAll_eq_ok (P := Anywhere) (fun _ => trivial) hr
  cases ht : Lexer.tokens source located with
  | nil => exact (hs.ne_nil ht).elim
  | cons t tokens =>
      rw [ht] at hs hp
      obtain ⟨-, -, -, hreadable⟩ := Parser.gives_definitions t tokens definitions rest hs hp
      exact hreadable

/-- The definitions of a parsed document can be written. -/
theorem proper_of_parseDocument {source : Source} {located : Bool} {document : Document}
    (h : parseDocument source located = .ok document) : ∀ d ∈ document.definitions, d.Proper :=
  fun d hd => ((readable_of_parseDocument h).2 d hd).proper

end SdlAssembly.Grammar
