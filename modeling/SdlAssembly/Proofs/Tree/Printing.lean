import SdlAssembly.Grammar.Printer.Selection
import SdlAssembly.Proofs.Tree.Written

/-!
# Printed values and selections

A printed tree spells the lexemes that it is written with, on one line and at any indentation.
-/

namespace SdlAssembly.Grammar

open Text Lexer

variable {width : Nat} {constant : Bool} {P : Option Position → Prop}

/-! ## Values -/

theorem spells_int {text : String} (h : Formed (.int text)) : Spells width text [.int text] := by
  obtain ⟨m, hm⟩ := h
  have ht : text.toList = m.text := by
    unfold Numeral.lexeme at hm
    split at hm <;> cases hm
    exact String.toList_ofList
  rw [← hm]
  exact .numeral ht

theorem spells_float {text : String} (h : Formed (.float text)) :
    Spells width text [.float text] := by
  obtain ⟨m, hm⟩ := h
  have ht : text.toList = m.text := by
    unfold Numeral.lexeme at hm
    split at hm <;> cases hm
    exact String.toList_ofList
  rw [← hm]
  exact .numeral ht

theorem spells_string {text : String} {block : Bool} (h : Formed (.string text block)) :
    Spells width (printString text block) [.string text block] := by
  cases block with
  | false => exact .quotedString text
  | true => exact .blockString h

theorem printItems_eq (items : List Value) : Value.printItems items = items.map Value.print := by
  induction items with
  | nil => rfl
  | cons item rest ih => simp [Value.printItems, ih]

theorem printFields_eq (fields : List (String × Value)) :
    Value.printFields fields = fields.map fun f => f.1 ++ ": " ++ f.2.print := by
  induction fields with
  | nil => rfl
  | cons field rest ih => simp [Value.printFields, ih]

theorem intercalate_nil {α β : Type} (f : α → List β) (xs : List α) :
    ([] : List β).intercalate (xs.map f) = xs.flatMap f := by
  induction xs with
  | nil => rfl
  | cons x xs ih => cases xs <;> simp_all

/-- A text after the name it belongs to. -/
theorem spells_labelled {name text : String} {ls : List Lexeme} (hn : IsName name)
    (h : Spells width text ls) :
    Spells width (name ++ ": " ++ text) (.name name :: .punctuator .colon :: ls) := by
  have hc : IsSeparator width ": " [.punctuator .colon] := ⟨.of_marks rfl, by decide, by decide⟩
  exact ((Spells.name hn).append_closed hc).append h

/-- Texts with commas between them, inside a pair of marks. -/
theorem spells_inside {α : Type} {print : α → String} {lex : α → List Lexeme} {xs : List α}
    {o e : String} {opening closing : Punctuator} (ho : SpellsClosed width o [.punctuator opening])
    (he : IsSeparator width e [.punctuator closing])
    (h : ∀ x ∈ xs, Spells width (print x) (lex x)) :
    Spells width (o ++ ", ".intercalate (xs.map print) ++ e)
      (.punctuator opening :: (xs.flatMap lex ++ [.punctuator closing])) := by
  have hi := Spells.intercalate isSeparator_comma h
  rw [intercalate_nil] at hi
  exact ((ho.append hi).append_closed he).spells

mutual

theorem Value.spells : (v : Value) → v.Proper constant → Spells width v.print v.lexemes
  | .variable name, h => by
      have hd : SpellsClosed width "$" [.punctuator .dollar] := .of_marks rfl
      exact hd.append (.name h.2)
  | .int text, h => spells_int h
  | .float text, h => spells_float h
  | .string text block, h => spells_string h
  | .boolean true, _ => .name (by decide)
  | .boolean false, _ => .name (by decide)
  | .null, _ => .name (by decide)
  | .enum name, h => .name h.1
  | .list items, h => by
      rw [Value.print, Value.lexemes, printItems_eq, Value.itemLexemes_eq]
      exact spells_inside (.of_marks rfl) ⟨.of_marks rfl, by decide, by decide⟩
        (Value.spellsItems items h)
  | .object fields, h => by
      rw [Value.print, Value.lexemes, printFields_eq, Value.fieldLexemes_eq]
      exact spells_inside (.of_marks rfl) ⟨.of_marks rfl, by decide, by decide⟩
        (Value.spellsFields fields h)

theorem Value.spellsItems : (items : List Value) → Value.ProperItems constant items →
    ∀ v ∈ items, Spells width v.print v.lexemes
  | [], _ => by simp
  | item :: rest, h => by
      have hitem := Value.spells item h.1
      have hrest := Value.spellsItems rest h.2
      intro v hv
      rcases List.mem_cons.mp hv with rfl | hv
      · exact hitem
      · exact hrest v hv

theorem Value.spellsFields : (fields : List (String × Value)) →
    Value.ProperFields constant fields →
    ∀ f ∈ fields, Spells width (f.1 ++ ": " ++ f.2.print) (Value.fieldLexemesOf f)
  | [], _ => by simp
  | (key, value) :: rest, h => by
      have hfield := spells_labelled h.1.1 (Value.spells value h.1.2)
      have hrest := Value.spellsFields rest h.2
      intro f hf
      rcases List.mem_cons.mp hf with rfl | hf
      · exact hfield
      · exact hrest f hf

end

/-! ## Arguments and directives -/

theorem Argument.Proper.spells {a : Argument} (h : a.Proper P constant) :
    Spells width a.print a.lexemes :=
  spells_labelled h.name (a.value.spells h.value)

theorem apart_append {before : String} (h : Apart before.toList) (hne : before ≠ "")
    (after : String) : Apart (before ++ after).toList := by
  intro c hc
  rw [String.toList_append] at hc
  cases hb : before.toList with
  | nil => exact (hne (String.toList_eq_nil_iff.mp hb)).elim
  | cons d cs =>
      rw [hb] at hc h
      exact h c hc

theorem apart_wrap {before text after : String} (h : Apart before.toList) (hne : before ≠ "") :
    Apart (Layout.wrap before text after).toList := by
  by_cases ht : text = ""
  · subst ht
    exact .nil
  · rw [wrap_of_ne ht, String.append_assoc]
    exact apart_append h hne _

theorem Argument.lexemes_ne_nil (a : Argument) : a.lexemes ≠ [] := by
  simp [Argument.lexemes]

theorem spells_arguments {arguments : List Argument} (h : ∀ a ∈ arguments, a.Proper P constant) :
    Spells width (Layout.wrap "(" (Layout.join ", " (arguments.map Argument.print)) ")")
      (enclosed .parenOpen .parenClose (arguments.map Argument.lexemes)) :=
  .enclosed (.of_marks rfl) ⟨.of_marks rfl, by decide, by decide⟩ (by rintro rfl; rfl)
    (.join isSeparator_comma fun a ha => (h a ha).spells) fun a _ => a.lexemes_ne_nil

theorem Directive.Proper.spells {d : Directive} (h : d.Proper P constant) :
    Spells width d.print d.lexemes := by
  have ha : SpellsClosed width "@" [.punctuator .atSign] := .of_marks rfl
  exact (ha.append (.name h.name)).append (spells_arguments h.arguments)
    (apart_wrap (by decide) (by decide))

theorem spells_directives {directives : List Directive}
    (h : ∀ d ∈ directives, d.Proper P constant) :
    Spells width (printDirectives directives) (directives.flatMap Directive.lexemes) :=
  .join isSeparator_blank fun d hd => (h d hd).spells

/-! ## Selections -/

theorem apart_trailing (directives : List Directive) :
    Apart (trailingDirectives directives).toList := by
  unfold trailingDirectives
  cases directives with
  | nil => exact .nil
  | cons d ds =>
      rw [List.map_cons, String.join_cons, String.toList_append, String.toList_append]
      exact .cons (by decide) (by decide) (by decide)

theorem spells_trailing {directives : List Directive}
    (h : ∀ d ∈ directives, d.Proper P constant) :
    Spells width (trailingDirectives directives) (directives.flatMap Directive.lexemes) := by
  induction directives with
  | nil => exact .empty
  | cons d ds ih =>
      have hb : SpellsClosed width " " [] := .of_marks rfl
      have hd := hb.append (h d (by simp)).spells
      have hr := ih fun e he => h e (List.mem_cons_of_mem d he)
      have hall := hd.append hr (apart_trailing ds)
      rw [trailingDirectives, List.map_cons, String.join_cons]
      exact hall

theorem spells_compactArguments {arguments : List Argument}
    (h : ∀ a ∈ arguments, a.Proper P constant) :
    Spells width (Layout.wrap "(" (", ".intercalate (arguments.map Argument.print)) ")")
      (enclosed .parenOpen .parenClose (arguments.map Argument.lexemes)) := by
  have hi : Spells width (", ".intercalate (arguments.map Argument.print))
      (([] : List Lexeme).intercalate (arguments.map Argument.lexemes)) :=
    .intercalate isSeparator_comma fun a ha => (h a ha).spells
  rw [intercalate_nil] at hi
  exact .enclosed (.of_marks rfl) ⟨.of_marks rfl, by decide, by decide⟩ (by rintro rfl; rfl) hi
    fun a _ => a.lexemes_ne_nil

theorem spells_condition {condition : Option String} (h : ∀ name ∈ condition, IsName name) :
    Spells width ((condition.map (" on " ++ ·)).getD "")
      ((condition.map fun name => [.name "on", .name name]).getD []) := by
  cases condition with
  | none => exact .empty
  | some name =>
      have ho : SpellsClosed width " on " [.name "on"] := .of_marks rfl
      exact ho.append (.name (h name rfl))

theorem spells_alias {aliasName : Option String} (h : ∀ text ∈ aliasName, IsName text) :
    SpellsClosed width ((aliasName.map (· ++ ": ")).getD "")
      ((aliasName.map fun text => [.name text, .punctuator .colon]).getD []) := by
  have hc : IsSeparator width ": " [.punctuator .colon] := ⟨.of_marks rfl, by decide, by decide⟩
  cases aliasName with
  | none => exact .of_marks rfl
  | some text => exact (Spells.name (h text rfl)).append_closed hc

/-- A selection set after what it belongs to. -/
theorem spells_nested {head text : String} {lh ls : List Lexeme} (hh : Spells width head lh)
    (h : Spells width text ls) :
    Spells width (head ++ " \x7b " ++ text ++ " \x7d")
      (lh ++ .punctuator .braceOpen :: (ls ++ [.punctuator .braceClose])) := by
  have ho : IsSeparator width " \x7b " [.punctuator .braceOpen] :=
    ⟨.of_marks rfl, by decide, by decide⟩
  have hc : IsSeparator width " \x7d" [.punctuator .braceClose] :=
    ⟨.of_marks rfl, by decide, by decide⟩
  have hs := (((hh.append_closed ho).append h).append_closed hc).spells
  simpa using hs

/-- A field up to its selection set. -/
theorem spells_field {aliasName : Option String} {name : String} {arguments : List Argument}
    {directives : List Directive} (ha : ∀ text ∈ aliasName, IsName text) (hn : IsName name)
    (hargs : ∀ a ∈ arguments, a.Proper P constant) (hd : ∀ d ∈ directives, d.Proper P constant) :
    Spells width
      ((aliasName.map (· ++ ": ")).getD "" ++ name
        ++ Layout.wrap "(" (", ".intercalate (arguments.map Argument.print)) ")"
        ++ trailingDirectives directives)
      ((aliasName.map fun text => [.name text, .punctuator .colon]).getD [] ++ [.name name]
        ++ enclosed .parenOpen .parenClose (arguments.map Argument.lexemes)
        ++ directives.flatMap Directive.lexemes) :=
  (((spells_alias ha).append (.name hn)).append (spells_compactArguments hargs)
    (apart_wrap (by decide) (by decide))).append (spells_trailing hd) (apart_trailing directives)

mutual

theorem Selection.spells : (s : Selection) → s.Proper P → Spells width s.compact s.lexemes
  | .spread name directives, h => by
      exact (SpellsClosed.spread.append (.name h.1.1)).append (spells_trailing h.2)
        (apart_trailing directives)
  | .inline condition directives selections, h => by
      have hset := Selection.spellsAll selections h.2.2.2
      have ht : Spells width (trailingDirectives directives) _ := spells_trailing h.2.1
      have hhead := (SpellsClosed.spread.append (spells_condition h.1)).append ht
        (apart_trailing directives)
      have hs := spells_nested hhead hset
      simpa [Selection.compact, Selection.lexemes] using hs
  | .field aliasName name arguments directives none, h => by
      have hhead : Spells width _ _ := spells_field h.1 h.2.1 h.2.2.1 h.2.2.2.1
      simpa [Selection.compact, Selection.lexemes] using hhead
  | .field aliasName name arguments directives (some set), h => by
      have hset := Selection.spellsAll set h.2.2.2.2.2
      have hhead : Spells width _ _ := spells_field h.1 h.2.1 h.2.2.1 h.2.2.2.1
      have hs := spells_nested hhead hset
      simpa [Selection.compact, Selection.lexemes, String.append_assoc] using hs

theorem Selection.spellsAll : (set : List Selection) → Selection.AllProper P set →
    Spells width (" ".intercalate (Selection.compactAll set)) (Selection.allLexemes set)
  | [], _ => .empty
  | [selection], h => by
      have hs := Selection.spells selection h.1
      simpa [Selection.compactAll, Selection.allLexemes] using hs
  | first :: second :: rest, h => by
      have hs := Selection.spells first h.1
      have hr := Selection.spellsAll (second :: rest) h.2
      have hall := (hs.append_closed isSeparator_blank).append hr
      simpa [Selection.compactAll, Selection.allLexemes, String.intercalate_cons_cons]
        using hall

end

/-- A formatted selection set spells the lexemes of its selections. -/
theorem spells_formatSelectionSet {set : SelectionSet} (h : Selection.AllProper P set) :
    Spells width (formatSelectionSet set) (Selection.allLexemes set) :=
  Selection.spellsAll set h

end SdlAssembly.Grammar
