import SdlAssembly.Proofs.Parsing.Text
import SdlAssembly.Proofs.Parsing.Written
import SdlAssembly.Proofs.Tree.Definitions

/-!
# Reading written documents

The definitions of a type system are read back from their lexemes, apart from the places of their
directives.
-/

namespace SdlAssembly.Grammar.Parser

open Text Lexer

variable {levels : Nat} {next : Lexeme}

/-! ## What comes next -/

/-- What may come after a member or a definition. -/
def EndsMember (l : Lexeme) : Prop :=
  l = .endOfText ∨ l = .punctuator .braceClose ∨ l = .punctuator .parenClose
    ∨ (∃ text, l = .name text) ∨ ∃ text block, l = .string text block

theorem EndsMember.ne {p : Punctuator} (h : EndsMember next) (hb : p ≠ .braceClose)
    (hp : p ≠ .parenClose) : next ≠ .punctuator p := by
  rintro rfl
  rcases h with h | h | h | ⟨text, h⟩ | ⟨text, block, h⟩ <;> cases h <;> contradiction

/-- What a member starts with. -/
def BeginsMember (l : Lexeme) : Prop :=
  (∃ text, l = .name text) ∨ ∃ text block, l = .string text block

theorem BeginsMember.ends {l : Lexeme} (h : BeginsMember l) : EndsMember l :=
  h.elim (fun h => .inr (.inr (.inr (.inl h)))) fun h => .inr (.inr (.inr (.inr h)))

theorem not_beginsMember (p : Punctuator) : ¬BeginsMember (.punctuator p) := by
  rintro (⟨text, h⟩ | ⟨text, block, h⟩) <;> cases h

theorem described_first (description : Option Description) (name : String) (ls : List Lexeme) :
    ∃ l rest, descriptionLexemes description ++ .name name :: ls = l :: rest
      ∧ BeginsMember l := by
  cases description with
  | none => exact ⟨_, _, rfl, .inl ⟨name, rfl⟩⟩
  | some d => exact ⟨_, _, rfl, .inr ⟨d.text, d.block, rfl⟩⟩

/-! ## Parts -/

theorem reads_typeRefWith {list : Parser TypeRef}
    (hl : ∀ item next, item.Proper → Reads list (TypeRef.list item).lexemes next
      ((TypeRef.list item).depth ≤ levels) (· = .list item))
    {type : TypeRef} (h : type.Proper) (hn : next ≠ .punctuator .bang) :
    Reads (typeRefWith list) type.lexemes next (type.depth ≤ levels) (· = type) := by
  have hnull : ∀ t next, TypeRef.Proper t → t.isNonNull = false →
      Reads (nullableRef list) t.lexemes next (t.depth ≤ levels) (· = t) := by
    intro t next ht hb
    refine (reads_sees .bracketOpen).look fun b hs => ?_
    cases t with
    | named name =>
        have hs : b = false := hs
        rw [hs, if_neg Bool.false_ne_true]
        refine (reads_name.map fun a ha => ?_).mono ?_ fun _ h => h
        · rw [ha]
        · simp [TypeRef.depth]
    | list item =>
        have hs : b = true := hs
        rw [hs, if_pos rfl]
        exact hl item next ht
    | nonNull inner => cases hb
  have hnone : ∀ t next, TypeRef.Proper t → t.isNonNull = false → next ≠ .punctuator .bang →
      Reads (typeRefWith list) t.lexemes next (t.depth ≤ levels) (· = t) := by
    intro t next ht hb hn
    have hr : Reads (typeRefWith list) (t.lexemes ++ []) next (t.depth ≤ levels ∧ True) (· = t) := by
      refine (hnull t _ ht hb).bind fun a ha => (reads_skip_none hn).look fun b hb => ?_
      rw [ha, hb]
      exact .pure rfl
    rw [List.append_nil] at hr
    exact hr.mono (by simp) fun _ h => h
  cases type with
  | named name => exact hnone _ _ h rfl hn
  | list item => exact hnone _ _ h rfl hn
  | nonNull inner =>
      have hi := (hnull inner (.punctuator .bang) h.1 h.2)
      refine (hi.bind fun a ha => ?_).mono (by simp [TypeRef.depth] : _ ∧ True ↔ _) fun _ h => h
      refine (reads_skip .bang).step fun b hb => ?_
      rw [ha, hb]
      exact .pure rfl

theorem reads_typeRef {type : TypeRef} (h : type.Proper) (hn : next ≠ .punctuator .bang) :
    Reads (typeRef levels) type.lexemes next (type.depth ≤ levels) (· = type) := by
  induction levels generalizing type next with
  | zero =>
      refine reads_typeRefWith (fun item next hi => ?_) h hn
      exact (reads_expect .bracketOpen).step fun _ _ => reads_tooDeep (by simp [TypeRef.depth])
  | succ levels ih =>
      refine reads_typeRefWith (fun item next hi => ?_) h hn
      refine (reads_expect .bracketOpen).step fun _ _ => ?_
      have hc : Lexeme.punctuator .bracketClose ≠ .punctuator .bang := by simp
      refine ((ih hi hc).bind fun t ht => ?_).mono (by simp [TypeRef.depth] : _ ∧ True ↔ _)
        fun _ h => h
      refine (reads_expect .bracketClose).step fun _ _ => ?_
      rw [ht]
      exact .pure rfl

theorem reads_description {description : Option Description}
    (hn : ∀ text block, next ≠ .string text block) :
    Reads Parser.description (descriptionLexemes description) next True (· = description) := by
  refine .current fun t ht => ?_
  cases description with
  | none =>
      have ht : t.lexeme = next := ht
      split
      · rename_i text block hl
        exact (hn text block (ht ▸ hl)).elim
      · exact .pure rfl
  | some d =>
      have ht : t.lexeme = .string d.text d.block := ht
      rw [ht]
      exact .take rfl

/-- The description of what starts with a name. -/
theorem reads_described {α : Type} {f : Option Description → Parser α}
    {description : Option Description} {name : String} {ls : List Lexeme} {fits : Prop}
    {R : α → Prop} (h : Reads (f description) (.name name :: ls) next fits R) :
    Reads (Parser.description >>= f) (descriptionLexemes description ++ .name name :: ls) next
      fits R := by
  refine (reads_description ?_).bind_true fun d hd => ?_
  · simp
  · rw [hd]
    exact h

theorem reads_default {default : Option Value} (h : ∀ v ∈ default, v.Proper true)
    (hn : next ≠ .punctuator .equals) :
    Reads default? (defaultLexemes default) next (∀ v ∈ default, v.depth ≤ deepest)
      (· = default) := by
  cases default with
  | none =>
      refine ((reads_skip_none hn).look fun b hb => ?_).mono (by simp : True ↔ _) fun _ h => h
      rw [hb]
      exact .pure rfl
  | some v =>
      refine (reads_skip .equals).step fun b hb => ?_
      rw [hb, if_pos rfl]
      refine ((reads_value (h v rfl)).map fun a ha => ?_).mono (by simp) fun _ h => h
      rw [ha]

theorem reads_constantDirectives {directives : List Directive}
    (h : ∀ d ∈ directives, d.Constant) (hp : next ≠ .punctuator .parenOpen)
    (ha : next ≠ .punctuator .atSign) :
    Reads constantDirectives (directiveLexemes directives) next (DirectivesFit directives)
      fun ds => ds.map Directive.unplaced = directives.map Directive.unplaced :=
  reads_directives h hp ha

theorem separatedLexemes_cons {p : Punctuator} (first second : String) (rest : List String) :
    separatedLexemes p (first :: second :: rest) =
      .name first :: .punctuator p :: separatedLexemes p (second :: rest) := by
  simp [separatedLexemes, List.intercalate_cons_cons]

theorem length_separatedLexemes (p : Punctuator) (names : List String) :
    names.length ≤ (separatedLexemes p names).length := by
  induction names with
  | nil => exact Nat.zero_le _
  | cons first rest ih =>
      cases rest with
      | nil => simp [separatedLexemes]
      | cons second rest =>
          rw [separatedLexemes_cons]
          simp only [List.length_cons] at ih ⊢
          omega

theorem reads_separated {p : Punctuator} {item : Parser String} {names : List String}
    (hi : ∀ name ∈ names, ∀ next, Reads item [.name name] next True (· = name))
    (hne : names ≠ []) (hn : next ≠ .punctuator p) :
    Reads (separated p item) (separatedLexemes p names) next True (· = names) := by
  have hupTo : ∀ bound, names.length < bound.length →
      Reads (separatedUpTo p item bound) (separatedLexemes p names) next True (· = names) := by
    intro bound hb
    induction names generalizing bound with
    | nil => contradiction
    | cons first rest ih =>
        cases bound with
        | nil => cases hb
        | cons b bound =>
            have hfirst : ∀ next, Reads item [.name first] next True (· = first) :=
              hi first (by simp)
            cases rest with
            | nil =>
                refine (hfirst next).step fun a ha => (reads_skip_none hn).look fun b hb => ?_
                rw [ha, hb]
                exact .pure rfl
            | cons second rest =>
                have hrest := ih (fun name hm => hi name (List.mem_cons_of_mem first hm))
                  (by simp) bound (by simpa using hb)
                rw [separatedLexemes_cons]
                refine (hfirst _).step fun a ha => (reads_skip p).step fun b hb => ?_
                rw [ha, hb, if_pos rfl]
                exact hrest.last fun as has => by rw [has]
  have hhead : (separatedLexemes p names).headD next ≠ .punctuator p := by
    match names, hne with
    | [name], _ => simp [separatedLexemes]
    | first :: second :: rest, _ => simp [separatedLexemes_cons]
  have hnone : Reads (skip p) [] (List.headD [] ((separatedLexemes p names).headD next)) True
      (· = false) := reads_skip_none hhead
  have hskip : Reads (discard (skip p)) [] ((separatedLexemes p names).headD next) True
      fun _ => True := hnone.look fun _ _ => .pure trivial
  refine hskip.look fun _ _ => .bound fun bound hb => hupTo bound ?_
  exact Nat.lt_of_le_of_lt (length_separatedLexemes p names) hb

theorem reads_operationKind (kind : OperationKind) :
    Reads operationKind [.name kind.keyword] next True (· = kind) := by
  refine .current fun t _ => reads_name.step fun word hw => ?_
  rw [hw]
  cases kind <;> exact .pure rfl

/-! ## Members -/

section Heads

variable {l : Lexeme} {directives : List Directive} {default : Option Value}

theorem headD_directives (ha : .punctuator .atSign ≠ l) (hn : next ≠ l) :
    (directiveLexemes directives).headD next ≠ l := by
  cases directives with
  | nil => exact hn
  | cons d ds => exact ha

theorem headD_default {ls : List Lexeme} (he : .punctuator .equals ≠ l) (hn : ls.headD next ≠ l) :
    (defaultLexemes default ++ ls).headD next ≠ l := by
  cases default with
  | none => exact hn
  | some v => exact he

theorem headD_enclosed {opening close : Punctuator} {items : List (List Lexeme)}
    (ho : .punctuator opening ≠ l) (hn : next ≠ l) :
    (enclosed opening close items).headD next ≠ l := by
  unfold enclosed
  split
  · exact hn
  · exact ho

theorem headD_listed {opening : Lexeme} {p : Punctuator} {names : List String} (ho : opening ≠ l)
    (hn : next ≠ l) : (listedLexemes opening p names).headD next ≠ l := by
  unfold listedLexemes
  split
  · exact hn
  · exact ho

theorem headD_directives_append {ls : List Lexeme} (ha : .punctuator .atSign ≠ l)
    (hn : ls.headD next ≠ l) : (directiveLexemes directives ++ ls).headD next ≠ l :=
  headD_append (Q := (· ≠ l)) (fun l' hl => head?_directives l' hl ▸ ha) hn

end Heads

theorem reads_inputDefinition {d : InputDefinition} (h : d.Proper) (hn : EndsMember next) :
    Reads inputDefinition d.lexemes next d.Fits fun a => a.unplaced = d.unplaced := by
  refine reads_described (reads_name.step fun name hname => ?_)
  refine (reads_expect .colon).step fun _ _ => ?_
  have hfits : d.type.depth ≤ deepest ∧ (∀ v ∈ d.default, v.depth ≤ deepest)
      ∧ DirectivesFit d.directives ↔ d.Fits :=
    ⟨fun h => ⟨h.1, h.2.1, h.2.2⟩, fun h => ⟨h.type, h.default, h.directives⟩⟩
  refine Reads.mono ((reads_typeRef h.type ?_).bind fun type ht => ?_) hfits fun _ h => h
  · refine headD_default (by simp) (headD_directives (by simp) ?_)
    exact hn.ne (by simp) (by simp)
  refine (reads_default h.default ?_).bind fun default hv => ?_
  · exact headD_directives (by simp) (hn.ne (by simp) (by simp))
  refine (reads_constantDirectives h.directives ?_ ?_).last fun ds hs => ?_
  · exact hn.ne (by simp) (by simp)
  · exact hn.ne (by simp) (by simp)
  rw [InputDefinition.unplaced, InputDefinition.unplaced, hname, ht, hv, hs]

theorem readsItems_inputDefinition (close : Punctuator) {ds : List InputDefinition}
    (h : ∀ d ∈ ds, d.Proper) (hc : EndsMember (.punctuator close)) :
    ReadsItems inputDefinition InputDefinition.lexemes InputDefinition.Fits
      InputDefinition.unplaced BeginsMember (.punctuator close) ds := by
  refine ⟨fun d hd next hnext => reads_inputDefinition (h d hd) ?_,
    fun d _ => described_first _ _ _, not_beginsMember close⟩
  exact hnext.elim (fun he => he ▸ hc) BeginsMember.ends

theorem reads_argumentDefinitions {arguments : List InputDefinition}
    (h : ∀ a ∈ arguments, a.Proper) (hn : next ≠ .punctuator .parenOpen) :
    Reads argumentDefinitions
      (enclosed .parenOpen .parenClose (arguments.map InputDefinition.lexemes)) next
      (∀ a ∈ arguments, a.Fits)
      fun as => as.map InputDefinition.unplaced = arguments.map InputDefinition.unplaced :=
  reads_optionalMany (readsItems_inputDefinition .parenClose h (.inr (.inr (.inl rfl)))) hn

theorem reads_fieldDefinition {d : FieldDefinition} (h : d.Proper) (hn : EndsMember next) :
    Reads fieldDefinition d.lexemes next d.Fits fun a => a.unplaced = d.unplaced := by
  refine reads_described (reads_name.step fun name hname => ?_)
  have hfits : (∀ a ∈ d.arguments, a.Fits) ∧ d.type.depth ≤ deepest ∧ DirectivesFit d.directives
      ↔ d.Fits :=
    ⟨fun h => ⟨h.1, h.2.1, h.2.2⟩, fun h => ⟨h.arguments, h.type, h.directives⟩⟩
  refine Reads.mono ((reads_argumentDefinitions h.arguments ?_).bind fun as has => ?_) hfits
    fun _ h => h
  · simp
  refine (reads_expect .colon).step fun _ _ => ?_
  refine (reads_typeRef h.type ?_).bind fun type ht => ?_
  · exact headD_directives (by simp) (hn.ne (by simp) (by simp))
  refine (reads_constantDirectives h.directives ?_ ?_).last fun ds hs => ?_
  · exact hn.ne (by simp) (by simp)
  · exact hn.ne (by simp) (by simp)
  rw [FieldDefinition.unplaced, FieldDefinition.unplaced, hname, has, ht, hs]

theorem reads_enumValueName {name : String} (h : name ∉ Value.reserved) :
    Reads enumValueName [.name name] next True (· = name) := by
  refine .current fun t ht => ?_
  have ht : t.lexeme = .name name := ht
  have hr : (["true", "false", "null"].any fun word => t.lexeme.text? == some word) = false := by
    simpa [ht, Lexeme.text?, Value.reserved] using h
  rw [hr]
  exact reads_name

theorem reads_enumValueDefinition {d : EnumValueDefinition} (h : d.Proper)
    (hn : EndsMember next) :
    Reads enumValueDefinition d.lexemes next d.Fits fun a => a.unplaced = d.unplaced := by
  refine reads_described ((reads_enumValueName h.name.2).step fun name hname => ?_)
  refine (reads_constantDirectives h.directives ?_ ?_).last fun ds hs => ?_
  · exact hn.ne (by simp) (by simp)
  · exact hn.ne (by simp) (by simp)
  rw [EnumValueDefinition.unplaced, EnumValueDefinition.unplaced, hname, hs]

/-! ## Types -/

theorem listedLexemes_cons (l : Lexeme) (p : Punctuator) {names : List String}
    (h : names ≠ []) : listedLexemes l p names = l :: separatedLexemes p names := by
  rw [listedLexemes, if_neg (by simpa using h)]

theorem reads_interfaces {names : List String} (hn : next ≠ .name "implements")
    (hs : next ≠ .punctuator .ampersand) :
    Reads interfaces (listedLexemes (.name "implements") .ampersand names) next True
      (· = names) := by
  by_cases hne : names = []
  · subst hne
    refine (reads_skipKeyword_none hn).look fun b hb => ?_
    rw [hb]
    exact .pure rfl
  · rw [listedLexemes_cons _ _ hne]
    refine (reads_skipKeyword "implements").step fun b hb => ?_
    rw [hb, if_pos rfl]
    exact reads_separated (fun _ _ _ => reads_name) hne hs

theorem reads_members {names : List String} (hn : next ≠ .punctuator .equals)
    (hs : next ≠ .punctuator .pipe) :
    Reads members (listedLexemes (.punctuator .equals) .pipe names) next True (· = names) := by
  by_cases hne : names = []
  · subst hne
    refine (reads_skip_none hn).look fun b hb => ?_
    rw [hb]
    exact .pure rfl
  · rw [listedLexemes_cons _ _ hne]
    refine (reads_skip .equals).step fun b hb => ?_
    rw [hb, if_pos rfl]
    exact reads_separated (fun _ _ _ => reads_name) hne hs

theorem reads_fields {fields : List FieldDefinition} (h : ∀ field ∈ fields, field.Proper)
    (hn : next ≠ .punctuator .braceOpen) :
    Reads Parser.fields (enclosed .braceOpen .braceClose (fields.map FieldDefinition.lexemes)) next
      (∀ field ∈ fields, field.Fits)
      fun as => as.map FieldDefinition.unplaced = fields.map FieldDefinition.unplaced := by
  have hi : ReadsItems fieldDefinition FieldDefinition.lexemes FieldDefinition.Fits
      FieldDefinition.unplaced BeginsMember (.punctuator .braceClose) fields := by
    refine ⟨fun d hd next hnext => reads_fieldDefinition (h d hd) ?_,
      fun d _ => described_first _ _ _, not_beginsMember _⟩
    exact hnext.elim (fun he => .inr (.inl he)) BeginsMember.ends
  exact reads_optionalMany hi hn

theorem reads_enumValues {values : List EnumValueDefinition} (h : ∀ value ∈ values, value.Proper)
    (hn : next ≠ .punctuator .braceOpen) :
    Reads Parser.enumValues
      (enclosed .braceOpen .braceClose (values.map EnumValueDefinition.lexemes)) next
      (∀ value ∈ values, value.Fits)
      fun as => as.map EnumValueDefinition.unplaced = values.map EnumValueDefinition.unplaced := by
  have hi : ReadsItems enumValueDefinition EnumValueDefinition.lexemes EnumValueDefinition.Fits
      EnumValueDefinition.unplaced BeginsMember (.punctuator .braceClose) values := by
    refine ⟨fun d hd next hnext => reads_enumValueDefinition (h d hd) ?_,
      fun d _ => described_first _ _ _, not_beginsMember _⟩
    exact hnext.elim (fun he => .inr (.inl he)) BeginsMember.ends
  exact reads_optionalMany hi hn

/-- The kind of type that a body makes. -/
def kindOf : TypeBody → TypeKind
  | .scalar => .scalar
  | .object _ _ => .object
  | .interface _ _ => .interface
  | .union _ => .union
  | .enum _ => .enum
  | .inputObject _ => .inputObject

theorem ofKeyword?_keyword (body : TypeBody) :
    TypeKind.ofKeyword? body.keyword = some (kindOf body) := by
  cases body <;> rfl

/-- The words that definitions and extensions of a type system start with. -/
def definitionWords : List String :=
  ["schema", "directive", "scalar", "type", "interface", "union", "enum", "input", "extend"]

def BeginsDefinition (l : Lexeme) : Prop :=
  (∃ word ∈ definitionWords, l = .name word) ∨ ∃ text block, l = .string text block

/-- What may come after a definition. -/
def EndsDefinition (l : Lexeme) : Prop := l = .endOfText ∨ BeginsDefinition l

theorem BeginsDefinition.ne_endOfText {l : Lexeme} (h : BeginsDefinition l) : l ≠ .endOfText := by
  rintro rfl
  rcases h with ⟨word, -, h⟩ | ⟨text, block, h⟩ <;> cases h

theorem EndsDefinition.endsMember (h : EndsDefinition next) : EndsMember next := by
  rcases h with h | ⟨word, -, h⟩ | h
  · exact .inl h
  · exact .inr (.inr (.inr (.inl ⟨word, h⟩)))
  · exact .inr (.inr (.inr (.inr h)))

theorem EndsDefinition.ne (h : EndsDefinition next) {p : Punctuator}
    (hb : p ≠ .braceClose := by simp) (hp : p ≠ .parenClose := by simp) :
    next ≠ .punctuator p :=
  h.endsMember.ne hb hp

theorem EndsDefinition.ne_implements (h : EndsDefinition next) : next ≠ .name "implements" := by
  rintro rfl
  rcases h with h | ⟨word, hw, h⟩ | ⟨text, block, h⟩
  · cases h
  · cases h
    simp [definitionWords] at hw
  · cases h

theorem reads_typeBody {directives : List Directive} {body : TypeBody}
    (hd : ∀ d ∈ directives, d.Constant) (h : body.Proper) (hn : EndsDefinition next) :
    Reads (typeBody (kindOf body))
      (body.heading ++ (directiveLexemes directives ++ body.contents)) next
      (DirectivesFit directives ∧ body.Fits)
      fun r => r.1.map Directive.unplaced = directives.map Directive.unplaced
        ∧ r.2.unplaced = body.unplaced := by
  cases body with
  | scalar =>
      refine (reads_constantDirectives hd ?_ ?_).bind fun ds hs => ?_
      · exact hn.ne
      · exact hn.ne
      exact .pure ⟨hs, rfl⟩
  | object interfaces fields | interface interfaces fields =>
      refine (reads_interfaces ?_ ?_).bind_true fun names hnames => ?_
      · exact headD_directives_append (by simp) (headD_enclosed (by simp) hn.ne_implements)
      · exact headD_directives_append (by simp) (headD_enclosed (by simp) hn.ne)
      refine (reads_constantDirectives hd ?_ ?_).bind fun ds hs => ?_
      · exact headD_enclosed (by simp) hn.ne
      · exact headD_enclosed (by simp) hn.ne
      refine (reads_fields h.2 hn.ne).last fun fs hf => ⟨hs, ?_⟩
      rw [TypeBody.unplaced, TypeBody.unplaced, hnames, hf]
  | union members =>
      refine (reads_constantDirectives hd ?_ ?_).bind fun ds hs => ?_
      · exact headD_listed (by simp) hn.ne
      · exact headD_listed (by simp) hn.ne
      refine (reads_members hn.ne hn.ne).last fun names hnames => ⟨hs, ?_⟩
      rw [TypeBody.unplaced, TypeBody.unplaced, hnames]
  | enum values =>
      refine (reads_constantDirectives hd ?_ ?_).bind fun ds hs => ?_
      · exact headD_enclosed (by simp) hn.ne
      · exact headD_enclosed (by simp) hn.ne
      refine (reads_enumValues h hn.ne).last fun vs hv => ⟨hs, ?_⟩
      rw [TypeBody.unplaced, TypeBody.unplaced, hv]
  | inputObject fields =>
      refine (reads_constantDirectives hd ?_ ?_).bind fun ds hs => ?_
      · exact headD_enclosed (by simp) hn.ne
      · exact headD_enclosed (by simp) hn.ne
      have hi := readsItems_inputDefinition .braceClose h (.inr (.inl rfl))
      refine (reads_optionalMany hi hn.ne).last fun fs hf => ⟨hs, ?_⟩
      rw [TypeBody.unplaced, TypeBody.unplaced, hf]

theorem reads_typeDefinition {d : TypeNode} (h : d.Proper) (hn : EndsDefinition next) :
    Reads (typeDefinition (kindOf d.body)) d.lexemes next d.Fits
      fun a => a.unplaced = d.unplaced := by
  refine reads_described (reads_discard.step fun _ _ => reads_name.step fun name hname => ?_)
  have hfits : DirectivesFit d.directives ∧ d.body.Fits ↔ d.Fits :=
    ⟨fun h => ⟨h.1, h.2⟩, fun h => ⟨h.directives, h.body⟩⟩
  refine Reads.mono ((reads_typeBody h.directives h.body hn).last fun r hr => ?_) hfits fun _ h => h
  rw [TypeNode.unplaced, TypeNode.unplaced, hname, hr.1, hr.2]

/-! ## Schemas and directives -/

theorem reads_rootBinding (d : RootBinding) :
    Reads rootBinding d.lexemes next True (· = d) := by
  refine (reads_operationKind d.operation).step fun kind hk => ?_
  refine (reads_expect .colon).step fun _ _ => reads_name.last fun type ht => ?_
  rw [hk, ht]

theorem reads_schemaDefinition {d : SchemaNode} (h : d.Proper) :
    Reads schemaDefinition d.lexemes next d.Fits fun a => a.unplaced = d.unplaced := by
  refine reads_described ((reads_keyword "schema").step fun _ _ => ?_)
  have hfits : DirectivesFit d.directives ∧ d.roots ≠ [] ↔ d.Fits :=
    ⟨fun h => ⟨h.1, h.2⟩, fun h => ⟨h.directives, h.roots⟩⟩
  refine Reads.mono ((reads_constantDirectives h.directives ?_ ?_).bind fun ds hs => ?_) hfits
    fun _ h => h
  · simp
  · simp
  by_cases hr : d.roots = []
  · have hnone : Reads rootBinding [] (.punctuator .braceClose) False fun _ => False :=
      .bind_none (.current fun t _ => .bind_none (reads_name_none (by simp)))
    have hmany : Reads (many .braceOpen .braceClose rootBinding)
        [.punctuator .braceOpen, .punctuator .braceClose] next False fun _ => False :=
      reads_many_none hnone
    rw [hr]
    exact (hmany.last fun _ h => h.elim).mono (by simp) fun _ h => h
  · have hi : ReadsItems rootBinding RootBinding.lexemes (fun _ => True) id
        (∃ text, · = .name text) (.punctuator .braceClose) d.roots :=
      ⟨fun d _ _ _ => reads_rootBinding d, fun d _ => ⟨_, _, rfl, _, rfl⟩, by simp⟩
    refine Reads.mono ((reads_many hi hr).last fun roots ha => ?_) (by simp [hr]) fun _ h => h
    rw [List.map_id, List.map_id] at ha
    rw [SchemaNode.unplaced, SchemaNode.unplaced, hs, ha]

theorem reads_directiveLocation {name : String} (h : name ∈ directiveLocations) :
    Reads directiveLocation [.name name] next True (· = name) := by
  refine .current fun t _ => reads_name.step fun text ht => ?_
  rw [ht, if_pos (by simpa using h)]
  exact .pure rfl

theorem reads_directiveDefinition {d : DirectiveDefinition} (h : d.Proper)
    (hn : EndsDefinition next) :
    Reads directiveDefinition d.lexemes next d.Fits fun a => a.unplaced = d.unplaced := by
  refine reads_described ((reads_keyword "directive").step fun _ _ => ?_)
  refine (reads_expect .atSign).step fun _ _ => reads_name.step fun name hname => ?_
  have hfits : (∀ a ∈ d.arguments, a.Fits) ∧ True ↔ d.Fits := by simp [DirectiveDefinition.Fits]
  refine Reads.mono ((reads_argumentDefinitions h.arguments ?_).bind fun as has => ?_) hfits
    fun _ h => h
  · cases d.repeatable <;> simp
  refine Reads.bind_true (Q := (· = d.repeatable)) ?_ fun repeatable hrep => ?_
  · cases d.repeatable with
    | true => exact reads_skipKeyword "repeatable"
    | false => exact reads_skipKeyword_none (by simp)
  refine (reads_keyword "on").step fun _ _ => ?_
  have hl := reads_separated (fun name hm next => reads_directiveLocation (h.locations name hm)) h.ne_nil
    (hn.ne (p := .pipe))
  refine hl.last fun locations hlocs => ?_
  rw [DirectiveDefinition.unplaced, DirectiveDefinition.unplaced, hname, has, hrep, hlocs]

/-! ## Definitions -/

theorem reads_upcoming {α : Type} {f : Token → Parser α} {l l' : Lexeme} {ls : List Lexeme}
    {fits : Prop} {R : α → Prop}
    (h : ∀ t, t.lexeme = l' → Reads (f t) (l :: l' :: ls) next fits R) :
    Reads (upcoming >>= f) (l :: l' :: ls) next fits R := by
  intro ts rest hts hn
  match ts, hts with
  | t :: ⟨l'', offset, place⟩ :: more, hts =>
      have hl : l'' = l' := by
        simp only [List.map_cons, List.cons_append, List.cons.injEq] at hts
        exact hts.2.1
      have hf : ∀ e, l'' ≠ .fault e := hl ▸ hn l' (by simp)
      have hu : upcoming (t :: ⟨l'', offset, place⟩ :: more) =
          .ok (⟨l'', offset, place⟩, t :: ⟨l'', offset, place⟩ :: more) := by
        cases l'' with
        | fault e => exact (hf e rfl).elim
        | _ => rfl
      rw [bind_apply, hu]
      exact h _ hl _ rest hts hn

/-- The word that starts a definition. -/
def keywordOf : Definition → String
  | .schema _ => "schema"
  | .directive _ => "directive"
  | .type d => d.body.keyword
  | .operation _ | .fragment _ | .schemaExtension _ | .typeExtension _ => "extend"

def descriptionOf : Definition → Option Description
  | .schema d => d.description
  | .directive d => d.description
  | .type d => d.description
  | .operation _ | .fragment _ | .schemaExtension _ | .typeExtension _ => none

theorem lexemes_typeSystem {d : Definition} (h : d.IsTypeSystem) :
    ∃ rest, d.lexemes = descriptionLexemes (descriptionOf d) ++ .name (keywordOf d) :: rest := by
  cases d with
  | schema d | directive d | type d => exact ⟨_, rfl⟩
  | operation d | fragment d | schemaExtension d | typeExtension d => exact h.elim

theorem keywordOf_mem {d : Definition} (h : d.IsTypeSystem) :
    keywordOf d ∈ definitionWords := by
  cases d with
  | schema d | directive d => simp [keywordOf, definitionWords]
  | type d =>
      obtain ⟨description, name, directives, body⟩ := d
      cases body <;> simp [keywordOf, definitionWords, TypeBody.keyword]
  | operation d | fragment d | schemaExtension d | typeExtension d => exact h.elim

theorem definition_first {d : Definition} (h : d.IsTypeSystem) :
    ∃ l rest, d.lexemes = l :: rest ∧ BeginsDefinition l := by
  obtain ⟨rest, hl⟩ := lexemes_typeSystem h
  rw [hl]
  cases descriptionOf d with
  | none => exact ⟨_, _, rfl, .inl ⟨_, keywordOf_mem h, rfl⟩⟩
  | some description => exact ⟨_, _, rfl, .inr ⟨_, _, rfl⟩⟩

theorem reads_definitionBy {d : Definition} (ht : d.IsTypeSystem) (h : d.Proper)
    (hn : EndsDefinition next) (first : Token) {word : Token}
    (hw : word.lexeme = .name (keywordOf d)) :
    Reads (definitionBy first word) d.lexemes next d.Fits fun a => a.unplaced = d.unplaced := by
  unfold definitionBy
  rw [hw]
  cases d with
  | schema d =>
      exact (reads_schemaDefinition h).map fun a ha => by simp [Definition.unplaced, ha]
  | directive d =>
      exact (reads_directiveDefinition h hn).map fun a ha => by simp [Definition.unplaced, ha]
  | type d =>
      simp only [keywordOf, ofKeyword?_keyword]
      exact (reads_typeDefinition h hn).map fun a ha => by simp [Definition.unplaced, ha]
  | operation d | fragment d | schemaExtension d | typeExtension d => exact ht.elim

theorem reads_definition {d : Definition} (ht : d.IsTypeSystem) (h : d.Proper)
    (hn : EndsDefinition next) :
    Reads definition d.lexemes next d.Fits fun a => a.unplaced = d.unplaced := by
  obtain ⟨rest, hl⟩ := lexemes_typeSystem ht
  refine .current fun t hfirst => ?_
  cases hd : descriptionOf d with
  | none =>
      rw [hl, hd] at hfirst
      have hfirst : t.lexeme = .name (keywordOf d) := hfirst
      have hb : (t.lexeme == .punctuator .braceOpen) = false := by simp [hfirst]
      have hs : isDescription t = false := by simp [isDescription, hfirst]
      rw [hb, hs]
      exact reads_definitionBy ht h hn t hfirst
  | some description =>
      rw [hl, hd] at hfirst
      have hfirst : t.lexeme = .string description.text description.block := hfirst
      have hb : (t.lexeme == .punctuator .braceOpen) = false := by simp [hfirst]
      have hs : isDescription t = true := by simp [isDescription, hfirst]
      have hlex : d.lexemes = .string description.text description.block
          :: .name (keywordOf d) :: rest := by
        rw [hl, hd]
        rfl
      rw [hb, hs, if_neg Bool.false_ne_true, if_pos rfl, hlex]
      refine reads_upcoming fun word hw => ?_
      have hbw : (word.lexeme == .punctuator .braceOpen) = false := by simp [hw]
      rw [hbw, if_neg Bool.false_ne_true, ← hlex]
      exact reads_definitionBy ht h hn t hw

/-! ## Documents -/

section Definitions

variable {lex : Definition → List Lexeme} {fit : Definition → Prop} {view : Definition → Definition}
  {ds : List Definition}

theorem reads_definitionsUpTo
    (h : ReadsItems definition lex fit view BeginsDefinition .endOfText ds) (hne : ds ≠ [])
    {bound : List Token} (hb : ds.length < bound.length) :
    Reads (definitionsUpTo bound) (ds.flatMap lex) .endOfText (∀ d ∈ ds, fit d)
      fun as => as.map view = ds.map view := by
  induction ds generalizing bound with
  | nil => contradiction
  | cons d ds ih =>
      cases bound with
      | nil => cases hb
      | cons b bound =>
          have hfits : (fit d ∧ ∀ x ∈ ds, fit x) ↔ ∀ x ∈ d :: ds, fit x := by simp
          have hd := h.reads d (by simp) _ h.tail.head
          rw [List.flatMap_cons]
          refine (hd.bind fun a ha => .current fun t ht => ?_).mono hfits fun _ h => h
          by_cases hds : ds = []
          · subst hds
            have ht : t.lexeme = .endOfText := ht
            rw [ht]
            exact (Reads.pure (by simp [ha])).mono (by simp) fun _ h => h
          · have hend : (t.lexeme == .endOfText) = false := by
              rw [ht]
              exact beq_eq_false_iff_ne.mpr (h.tail.head_begins hds).ne_endOfText
            rw [hend, if_neg Bool.false_ne_true]
            exact (ih h.tail hds (by simpa using hb)).last fun as has => by simp [ha, has]

theorem reads_definition_none : Reads definition [] .endOfText False fun _ => False := by
  refine .current fun t ht => ?_
  have ht : t.lexeme = .endOfText := ht
  have hs : isDescription t = false := by simp [isDescription, ht]
  rw [hs, ht]
  unfold definitionBy
  rw [ht]
  exact .failAt id

/-- One definition or more, each read by itself. -/
theorem reads_definitions
    (h : ReadsItems definition lex fit view BeginsDefinition .endOfText ds) :
    Reads definitions (ds.flatMap lex) .endOfText (ds ≠ [] ∧ ∀ d ∈ ds, fit d)
      fun as => as.map view = ds.map view := by
  refine .bound fun bound hb => ?_
  by_cases hds : ds = []
  · subst hds
    cases bound with
    | nil => cases hb
    | cons b bound => exact (Reads.bind_none reads_definition_none).mono (by simp) fun _ h => h
  · have hlen := Nat.lt_of_le_of_lt h.length_le hb
    exact (reads_definitionsUpTo h hds hlen).mono (by simp [hds]) fun _ h => h

end Definitions

/-- The definitions of a type system are read one by one. -/
theorem readsItems_definition {ds : List Definition} (ht : ∀ d ∈ ds, d.IsTypeSystem)
    (h : ∀ d ∈ ds, d.Proper) :
    ReadsItems definition Definition.lexemes Definition.Fits Definition.unplaced
      BeginsDefinition .endOfText ds :=
  ⟨fun d hd _ hn => reads_definition (ht d hd) (h d hd) hn,
    fun d hd => definition_first (ht d hd), fun hb => hb.ne_endOfText rfl⟩

end SdlAssembly.Grammar.Parser

namespace SdlAssembly.Grammar

open Text Lexer

section Documents

variable {source : Source} {ds : List Definition}

/-- A text of the lexemes of definitions is read as these definitions, if they fit. -/
theorem parseDocument_items {lex : Definition → List Lexeme} {fit : Definition → Prop}
    {view : Definition → Definition} (located : Bool)
    (h : Parser.ReadsItems Parser.definition lex fit view Parser.BeginsDefinition .endOfText ds)
    (hl : lexemes source.body.toList = ds.flatMap lex ++ [.endOfText]) :
    match parseDocument source located with
    | .ok document => document.definitions.map view = ds.map view ∧ ds ≠ [] ∧ ∀ d ∈ ds, fit d
    | .error _ => ¬(ds ≠ [] ∧ ∀ d ∈ ds, fit d) := by
  have hr := (Parser.reads_definitions h).readAll source located hl
  unfold parseDocument
  cases hp : Parser.definitions.readAll source located with
  | ok a =>
      rw [hp] at hr
      exact hr
  | error e =>
      rw [hp] at hr
      exact hr

/-- A text that spells definitions that fit is read as these definitions. -/
theorem parseDocument_of_spells {lex : Definition → List Lexeme} {fit : Definition → Prop}
    {view : Definition → Definition} {text : String}
    (h : Parser.ReadsItems Parser.definition lex fit view Parser.BeginsDefinition .endOfText ds)
    (ht : Spells 0 text (ds.flatMap lex)) (hne : ds ≠ []) (hf : ∀ d ∈ ds, fit d) (name : String)
    (located : Bool) :
    ∃ document, parseDocument ⟨name, text⟩ located = .ok document
      ∧ document.definitions.map view = ds.map view := by
  have hl : lexemes (Source.mk name text).body.toList = _ := ht.lexemes_eq
  have hread := parseDocument_items located h hl
  split at hread
  · rename_i document hr
    exact ⟨document, hr, hread.1⟩
  · exact (hread ⟨hne, hf⟩).elim

/-- A text of the lexemes of a type system is read as that type system, if it fits. -/
theorem parseDocument_written (located : Bool) (ht : ∀ d ∈ ds, d.IsTypeSystem)
    (h : ∀ d ∈ ds, d.Proper)
    (hl : lexemes source.body.toList = ds.flatMap Definition.lexemes ++ [.endOfText]) :
    match parseDocument source located with
    | .ok document =>
      document.definitions.map Definition.unplaced = ds.map Definition.unplaced
        ∧ ds ≠ [] ∧ ∀ d ∈ ds, d.Fits
    | .error _ => ¬(ds ≠ [] ∧ ∀ d ∈ ds, d.Fits) :=
  parseDocument_items located (Parser.readsItems_definition ht h) hl

end Documents

end SdlAssembly.Grammar
