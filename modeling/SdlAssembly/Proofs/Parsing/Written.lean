import SdlAssembly.Grammar.Parser.Selection
import SdlAssembly.Proofs.Parsing.Reads
import SdlAssembly.Proofs.Tree.Written

/-!
# Reading written values and selections

Values, directives and selections that can be written are read back from their lexemes, apart from
their places, if they nest no deeper than the parser allows.
-/

namespace SdlAssembly.Grammar.Parser

open Text Lexer Selection

variable {P : Option Position → Prop} {constant : Bool} {levels : Nat} {next : Lexeme}

/-! ## Values -/

theorem reads_tooDeep {α : Type} {ls : List Lexeme} {fits : Prop} {Q : α → Prop} (h : ¬fits) :
    Reads tooDeep ls next fits Q := by
  exact .current fun t _ => .failAt h

theorem value_first (v : Value) :
    ∃ l rest, v.lexemes = l :: rest ∧ l ≠ .punctuator .bracketClose := by
  cases v with
  | boolean b => cases b <;> exact ⟨_, _, rfl, by simp⟩
  | _ => exact ⟨_, _, rfl, by simp⟩

theorem namedValue_eq {text : String} (h : text ∉ Value.reserved) : namedValue text = .enum text := by
  simp only [Value.reserved, List.mem_cons, List.not_mem_nil, or_false, not_or] at h
  unfold namedValue
  split <;> simp_all

theorem reads_namedValue {text : String} {v : Value} {list object : Parser Value}
    (h : namedValue text = v) :
    Reads (valueWith constant list object) [.name text] next True (· = v) := by
  refine .current fun t ht => ?_
  have ht : t.lexeme = .name text := ht
  rw [ht]
  exact .take h

/-- A value that nests nothing is read with any parsers of lists and objects. -/
theorem reads_leaf {list object : Parser Value} {v : Value} (h : v.Proper constant)
    (hl : ∀ items, v ≠ .list items) (ho : ∀ fields, v ≠ .object fields) :
    Reads (valueWith constant list object) v.lexemes next True (· = v) := by
  cases v with
  | «variable» name =>
      obtain ⟨rfl, hn⟩ := h
      refine .current fun t ht => ?_
      have ht : t.lexeme = .punctuator .dollar := ht
      rw [ht]
      refine .current fun u _ => ?_
      exact (reads_expect .dollar).step fun _ _ => reads_name.map fun a ha => ha ▸ rfl
  | int text =>
      refine .current fun t ht => ?_
      have ht : t.lexeme = .int text := ht
      rw [ht]
      exact .take rfl
  | float text =>
      refine .current fun t ht => ?_
      have ht : t.lexeme = .float text := ht
      rw [ht]
      exact .take rfl
  | string text block =>
      refine .current fun t ht => ?_
      have ht : t.lexeme = .string text block := ht
      rw [ht]
      exact .take rfl
  | boolean b => cases b <;> exact reads_namedValue rfl
  | null => exact reads_namedValue rfl
  | enum name => exact reads_namedValue (namedValue_eq h.2)
  | list items => exact (hl items rfl).elim
  | object fields => exact (ho fields rfl).elim

theorem reads_value {v : Value} (h : v.Proper constant) :
    Reads (value constant levels) v.lexemes next (v.depth ≤ levels) (· = v) := by
  induction levels generalizing v next with
  | zero =>
      cases v with
      | list items =>
          refine .current fun t ht => ?_
          have ht : t.lexeme = .punctuator .bracketOpen := ht
          rw [ht]
          exact reads_tooDeep (by simp [Value.depth])
      | object fields =>
          refine .current fun t ht => ?_
          have ht : t.lexeme = .punctuator .braceOpen := ht
          rw [ht]
          exact reads_tooDeep (by simp [Value.depth])
      | _ => exact (reads_leaf h (by simp) (by simp)).mono (by simp [Value.depth]) fun _ h => h
  | succ levels ih =>
      cases v with
      | list items =>
          have hi : ReadsItems (value constant levels) Value.lexemes (·.depth ≤ levels) id
              (· ≠ .punctuator .bracketClose) (.punctuator .bracketClose) items := by
            refine ⟨fun v hv next _ => ih (Value.properItems_iff.mp h v hv), ?_, by simp⟩
            exact fun v _ => value_first v
          refine .current fun t ht => ?_
          have ht : t.lexeme = .punctuator .bracketOpen := ht
          rw [ht, Value.lexemes, Value.itemLexemes_eq]
          refine ((reads_anyNumber hi).map fun as ha => ?_).mono ?_ fun _ h => h
          · rw [List.map_id, List.map_id] at ha
            rw [ha]
          · exact Value.itemsDepth_le.symm.trans Nat.succ_le_succ_iff.symm
      | object fields =>
          have hi : ReadsItems (objectField (value constant levels)) Value.fieldLexemesOf
              (·.2.depth ≤ levels) id (∃ text, · = .name text) (.punctuator .braceClose)
              fields := by
            refine ⟨fun f hf next _ => ?_, fun f _ => ⟨_, _, rfl, f.1, rfl⟩, by simp⟩
            refine reads_name.step fun key hk => ?_
            refine (reads_expect .colon).step fun _ _ => ?_
            exact (ih (Value.properFields_iff.mp h f hf).2).last fun v hv => by rw [hk, hv]
          refine .current fun t ht => ?_
          have ht : t.lexeme = .punctuator .braceOpen := ht
          rw [ht, Value.lexemes, Value.fieldLexemes_eq]
          refine ((reads_anyNumber hi).map fun as ha => ?_).mono ?_ fun _ h => h
          · rw [List.map_id, List.map_id] at ha
            rw [ha]
          · exact Value.fieldsDepth_le.symm.trans Nat.succ_le_succ_iff.symm
      | _ => exact (reads_leaf h (by simp) (by simp)).mono (by simp [Value.depth]) fun _ h => h

/-! ## Arguments and directives -/

theorem reads_argument {a : Argument} (h : a.Proper P constant) :
    Reads (argument constant levels) a.lexemes next (a.depth ≤ levels)
      fun b => b.unplaced = a.unplaced := by
  refine reads_name.step fun key hk => ?_
  refine (reads_expect .colon).step fun _ _ => .current fun t _ => ?_
  exact (reads_value h.value).last fun v hv => by rw [hk, hv]; rfl

theorem reads_arguments {arguments : List Argument} (h : ∀ a ∈ arguments, a.Proper P constant)
    (hn : next ≠ .punctuator .parenOpen) :
    Reads (Parser.arguments constant levels)
      (enclosed .parenOpen .parenClose (arguments.map Argument.lexemes)) next
      (greatest Argument.depth arguments ≤ levels)
      fun as => as.map Argument.unplaced = arguments.map Argument.unplaced := by
  have hi : ReadsItems (argument constant levels) Argument.lexemes (·.depth ≤ levels)
      Argument.unplaced (∃ text, · = .name text) (.punctuator .parenClose) arguments :=
    ⟨fun a ha _ _ => reads_argument (h a ha), fun a _ => ⟨_, _, rfl, a.name, rfl⟩, by simp⟩
  exact (reads_optionalMany hi hn).mono greatest_le.symm fun _ h => h

theorem reads_directive {d : Directive} (h : d.Proper P constant)
    (hn : next ≠ .punctuator .parenOpen) :
    Reads (directive constant levels) d.lexemes next (d.depth ≤ levels)
      fun b => b.unplaced = d.unplaced := by
  refine .current fun t _ => ?_
  refine (reads_expect .atSign).step fun _ _ => ?_
  refine reads_name.step fun name hname => ?_
  refine (reads_arguments h.arguments hn).last fun as has => ?_
  simp [Directive.unplaced, hname, has]

theorem reads_directives {directives : List Directive}
    (h : ∀ d ∈ directives, d.Proper P constant) (hp : next ≠ .punctuator .parenOpen)
    (ha : next ≠ .punctuator .atSign) :
    Reads (Parser.directives constant levels) (directives.flatMap Directive.lexemes) next
      (greatest Directive.depth directives ≤ levels)
      fun ds => ds.map Directive.unplaced = directives.map Directive.unplaced := by
  have hi : ReadsItems (directive constant levels) Directive.lexemes (·.depth ≤ levels)
      Directive.unplaced (· = .punctuator .atSign) next directives := by
    refine ⟨fun d hd next' hnext => reads_directive (h d hd) ?_, fun d _ => ⟨_, _, rfl, rfl⟩, ha⟩
    rcases hnext with rfl | rfl
    · exact hp
    · simp
  exact (reads_whileSees hi).mono greatest_le.symm fun _ h => h

/-! ## What comes next -/

theorem headD_append {Q : Lexeme → Prop} {ls ls' : List Lexeme} (h : ∀ l ∈ ls.head?, Q l)
    (h' : Q (ls'.headD next)) : Q ((ls ++ ls').headD next) := by
  cases ls with
  | nil => exact h'
  | cons l ls => exact h l rfl

theorem head?_enclosed {opening close : Punctuator} {items : List (List Lexeme)} :
    ∀ l ∈ (enclosed opening close items).head?, l = .punctuator opening := by
  unfold enclosed
  split <;> simp

theorem head?_directives {directives : List Directive} :
    ∀ l ∈ (directives.flatMap Directive.lexemes).head?, l = .punctuator .atSign := by
  cases directives <;> simp [Directive.lexemes]

/-! ## Selections -/

/-- What may come after a selection. -/
def EndsSelection (l : Lexeme) : Prop :=
  l = .punctuator .braceClose ∨ l = .punctuator .spread ∨ ∃ text, l = .name text

theorem EndsSelection.ne {p : Punctuator} (h : EndsSelection next) (hc : p ≠ .braceClose)
    (hs : p ≠ .spread) : next ≠ .punctuator p := by
  rintro rfl
  rcases h with h | h | ⟨text, h⟩ <;> cases h <;> contradiction

theorem selection_first (s : Selection) : ∃ l rest, s.lexemes = l :: rest ∧
    (l = .punctuator .spread ∨ ∃ text, l = .name text) := by
  cases s with
  | field aliasName name arguments directives selections =>
      rw [lexemes_field]
      cases aliasName <;> simp
  | spread name directives => simp [Selection.lexemes]
  | «inline» condition directives selections => simp [Selection.lexemes]

/-- A parser that reads selection sets of at most `levels` levels. -/
def ReadsSets (P : Option Position → Prop) (levels : Nat) (parser : Parser SelectionSet) : Prop :=
  ∀ set next, set ≠ [] → Selection.AllProper P set →
    Reads parser (setLexemes set) next (Selection.allDepth set + 1 ≤ levels)
      fun set' => Selection.allUnplaced set' = Selection.allUnplaced set

theorem reads_fieldName {aliasName : Option String} {name : String}
    (hn : next ≠ .punctuator .colon) :
    Reads fieldName ((aliasName.map fun text => [.name text, .punctuator .colon]).getD []
      ++ [.name name]) next True (· = (aliasName, name)) := by
  cases aliasName with
  | none =>
      refine reads_name.step fun first hf => ?_
      refine (reads_skip_none hn).look fun b hb => ?_
      rw [hb, hf]
      exact .pure rfl
  | some text =>
      refine reads_name.step fun first hf => ?_
      refine (reads_skip .colon).step fun b hb => ?_
      rw [hb, hf]
      exact reads_name.last fun a ha => by rw [ha]

theorem reads_subselections {parser : Parser SelectionSet} (h : ReadsSets P levels parser)
    {selections : Option SelectionSet}
    (hs : ∀ set ∈ selections, set ≠ [] ∧ Selection.AllProper P set)
    (hn : next ≠ .punctuator .braceOpen) :
    Reads (subselections parser) (subLexemes selections) next (subDepth selections ≤ levels)
      fun s => s.map Selection.allUnplaced = selections.map Selection.allUnplaced := by
  cases selections with
  | none =>
      refine ((reads_sees .braceOpen).look fun b hb => ?_).mono (by simp [subDepth] : True ↔ _)
        fun _ h => h
      have hb : b = false := hb.trans (beq_eq_false_iff_ne.mpr hn)
      rw [hb]
      exact .pure rfl
  | some set =>
      obtain ⟨hne, hp⟩ := hs set rfl
      refine (reads_sees .braceOpen).look fun b hb => ?_
      have hb : b = true := by simpa [subLexemes, setLexemes] using hb
      rw [hb]
      exact (h set next hne hp).map fun set' hs' => by simp [hs']
theorem reads_field {parser : Parser SelectionSet} (h : ReadsSets P levels parser)
    {aliasName : Option String} {name : String} {arguments : List Argument}
    {directives : List Directive} {selections : Option SelectionSet}
    (hp : (Selection.field aliasName name arguments directives selections).Proper P)
    (hn : EndsSelection next) :
    Reads (field levels parser)
      (Selection.field aliasName name arguments directives selections).lexemes next
      ((Selection.field aliasName name arguments directives selections).depth ≤ levels)
      fun s => s.unplaced =
        (Selection.field aliasName name arguments directives selections).unplaced := by
  obtain ⟨-, -, ha, hd, hs⟩ := proper_field.mp hp
  have hsub : ∀ {p : Punctuator}, p ≠ .braceClose → p ≠ .spread → p ≠ .braceOpen →
      (subLexemes selections).headD next ≠ .punctuator p := by
    intro p hc hsp ho
    cases selections with
    | none => exact hn.ne hc hsp
    | some set => simpa [subLexemes, setLexemes] using ho.symm
  rw [lexemes_field]
  refine Reads.mono (Reads.bind_true (reads_fieldName ?_) fun head hh => ?_) depth_field_le.symm
    fun _ h => h
  · refine headD_append (Q := (· ≠ .punctuator .colon)) (fun l hl => ?_)
      (headD_append (Q := (· ≠ .punctuator .colon)) (fun l hl => ?_) ?_)
    · simp [head?_enclosed l hl]
    · simp [head?_directives l hl]
    · exact hsub (by simp) (by simp) (by simp)
  rw [hh]
  refine (reads_arguments ha ?_).bind fun as has => ?_
  · refine headD_append (Q := (· ≠ .punctuator .parenOpen)) (fun l hl => ?_) ?_
    · simp [head?_directives l hl]
    · exact hsub (by simp) (by simp) (by simp)
  refine (reads_directives hd ?_ ?_).bind fun ds hds => ?_
  · exact hsub (by simp) (by simp) (by simp)
  · exact hsub (by simp) (by simp) (by simp)
  refine (reads_subselections h hs (hn.ne (by simp) (by simp))).last fun sub hsub => ?_
  rw [unplaced_field, unplaced_field, has, hds, hsub]

theorem reads_fragmentName {name : String} (h : name ≠ "on") :
    Reads fragmentName [.name name] next True (· = name) := by
  refine .current fun t ht => ?_
  have ht : t.lexeme = .name name := ht
  have hn : (t.lexeme.text? == some "on") = false := by simp [ht, Lexeme.text?, h]
  rw [hn]
  exact reads_name

theorem headD_directives_set (next : Lexeme) (directives : List Directive) (set : SelectionSet) :
    (directives.flatMap Directive.lexemes ++ setLexemes set).headD next = .punctuator .atSign ∨
      (directives.flatMap Directive.lexemes ++ setLexemes set).headD next =
        .punctuator .braceOpen := by
  cases directives with
  | nil => exact .inr rfl
  | cons d ds => exact .inl rfl

theorem reads_inline {parser : Parser SelectionSet} (h : ReadsSets P levels parser)
    (condition : Option String) {directives : List Directive} {set : SelectionSet}
    (hd : ∀ d ∈ directives, d.Proper P false) (hne : set ≠ []) (hs : AllProper P set) :
    Reads (do
        let directives ← Parser.directives false levels
        return Selection.inline condition directives (← parser))
      (directives.flatMap Directive.lexemes ++ setLexemes set) next
      ((Selection.inline condition directives set).depth ≤ levels)
      fun s => s.unplaced = (Selection.inline condition directives set).unplaced := by
  refine Reads.mono (Reads.bind (reads_directives hd ?_ ?_) fun ds hds => ?_)
    Nat.max_le.symm fun _ h => h
  · simp [setLexemes]
  · simp [setLexemes]
  exact (h set next hne hs).last fun set' hs' => by simp [Selection.unplaced, hds, hs']

theorem reads_spread {parser : Parser SelectionSet} (h : ReadsSets P levels parser)
    {s : Selection} (hp : s.Proper P) (hs : s.lexemes.headD next = .punctuator .spread)
    (hn : EndsSelection next) :
    Reads (spread levels parser) s.lexemes next (s.depth ≤ levels)
      fun s' => s'.unplaced = s.unplaced := by
  cases s with
  | field aliasName name arguments directives selections =>
      rw [lexemes_field] at hs
      cases aliasName <;> cases hs
  | spread name directives =>
      refine (reads_expect .spread).step fun _ _ => ?_
      refine (reads_skipKeyword_none ?_).look fun b hb => ?_
      · simpa using hp.1.2
      rw [hb, if_neg Bool.false_ne_true]
      refine reads_seesName.look fun b hb => ?_
      rw [hb, if_pos rfl]
      refine (reads_fragmentName hp.1.2).step fun text ht => ?_
      refine (reads_directives hp.2 ?_ ?_).last fun ds hds => ?_
      · exact hn.ne (by simp) (by simp)
      · exact hn.ne (by simp) (by simp)
      · simp [Selection.unplaced, ht, hds]
  | «inline» condition directives set =>
      obtain ⟨-, hd, hne, hset⟩ := hp
      have hi : ∀ condition, Reads _ _ next _ _ :=
        fun condition => reads_inline h condition hd hne hset
      rw [lexemes_inline]
      refine (reads_expect .spread).step fun _ _ => ?_
      cases condition with
      | none =>
          have hh := headD_directives_set next directives set
          rw [Option.map_none, Option.getD_none, List.nil_append]
          refine (reads_skipKeyword_none ?_).look fun b hb => ?_
          · rcases hh with hh | hh <;> rw [hh] <;> simp
          rw [hb, if_neg Bool.false_ne_true]
          refine (reads_seesName_none fun text => ?_).look fun b hb => ?_
          · rcases hh with hh | hh <;> rw [hh] <;> simp
          rw [hb, if_neg Bool.false_ne_true]
          exact hi none
      | some name =>
          rw [Option.map_some, Option.getD_some]
          refine (reads_skipKeyword "on").step fun b hb => ?_
          rw [hb, if_pos rfl]
          refine reads_name.step fun text ht => ?_
          rw [ht]
          exact hi (some name)

theorem reads_selectionSet : ReadsSets P levels (selectionSet levels) := by
  induction levels with
  | zero => exact fun set next _ _ => reads_tooDeep (by simp)
  | succ levels ih =>
      intro set next hne hp
      have hi : ReadsItems (do
            if ← sees .spread then spread levels (selectionSet levels)
            else field levels (selectionSet levels))
          Selection.lexemes (·.depth ≤ levels) Selection.unplaced
          (fun l => l = .punctuator .spread ∨ ∃ text, l = .name text) (.punctuator .braceClose)
          set := by
        refine ⟨fun s hs next' hn => ?_, fun s _ => selection_first s, by simp⟩
        have hps := allProper_iff.mp hp s hs
        refine (reads_sees .spread).look fun b hb => ?_
        cases s with
        | field aliasName name arguments directives selections =>
            have hb : b = false := by
              rw [hb, lexemes_field]
              cases aliasName <;> rfl
            rw [hb, if_neg Bool.false_ne_true]
            exact reads_field ih hps hn
        | spread name directives =>
            have hb : b = true := hb
            rw [hb, if_pos rfl]
            exact reads_spread ih hps rfl hn
        | «inline» condition directives selections =>
            have hb : b = true := hb
            rw [hb, if_pos rfl]
            exact reads_spread ih hps rfl hn
      rw [setLexemes, allLexemes_eq]
      refine (reads_many hi hne).mono ?_ fun set' hs' => ?_
      · exact allDepth_le.symm.trans Nat.succ_le_succ_iff.symm
      · rw [allUnplaced_eq, allUnplaced_eq, hs']

end SdlAssembly.Grammar.Parser
