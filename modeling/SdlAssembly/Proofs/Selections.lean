import SdlAssembly.Proofs.Lexing.Closing
import SdlAssembly.Proofs.Parsing.Text
import SdlAssembly.Proofs.Parsing.Trees
import SdlAssembly.Proofs.Parsing.Written
import SdlAssembly.Proofs.Tree.Printing

/-!
# Selection sets of keys

The text of a selection set is put between braces before it is read, so what is accepted is decided
by the lexemes of the text in braces. A formatted selection set is read back as it was.
-/

namespace SdlAssembly.Grammar

open Text Lexer Selection

theorem parseSelectionSet_eq_ok {fields : String} {set : SelectionSet} :
    parseSelectionSet fields = .ok set ↔
      (Parser.selectionSet Parser.deepest <* Parser.endOfText).readAll
        ⟨selectionSourceName, "\x7b" ++ fields ++ "\x7d"⟩ false = .ok set := by
  unfold parseSelectionSet
  dsimp only
  split
  · rename_i hr
    rw [hr]
    simp
  · rename_i hr
    simp [hr]
  · rename_i hr
    simp [hr]

theorem parseSelectionSet_spec {fields : String} {set : SelectionSet}
    (h : parseSelectionSet fields = .ok set) :
    lexemes ("\x7b" ++ fields ++ "\x7d").toList = setLexemes set ++ [.endOfText] ∧
      set ≠ [] ∧ AllProper (· = none) set ∧ allDepth set < Parser.deepest := by
  have hread := parseSelectionSet_eq_ok.mp h
  obtain ⟨ls, hl, rfl, hne, hp, hd⟩ :=
    Parser.accepts_selectionSet.readAll (P := (· = none)) (fun _ => rfl) hread
  exact ⟨hl, hne, hp, hd⟩

/-- A selection set is read if its lexemes are those of the text in braces. -/
theorem parseSelectionSet_iff {fields : String} {set : SelectionSet} :
    parseSelectionSet fields = .ok set ↔
      lexemes ("\x7b" ++ fields ++ "\x7d").toList = setLexemes set ++ [.endOfText] ∧
        set ≠ [] ∧ AllProper (· = none) set ∧ allDepth set < Parser.deepest := by
  refine ⟨parseSelectionSet_spec, ?_⟩
  rintro ⟨hl, hne, hp, hd⟩
  have hsets : Parser.ReadsSets (· = none) Parser.deepest (Parser.selectionSet Parser.deepest) :=
    Parser.reads_selectionSet
  have hall := (hsets set .endOfText hne hp).toEnd.readAll
    ⟨selectionSourceName, "\x7b" ++ fields ++ "\x7d"⟩ false hl
  split at hall
  · rename_i set' ho
    have hset' := parseSelectionSet_eq_ok.mpr ho
    obtain ⟨-, -, hp', -⟩ := parseSelectionSet_spec hset'
    have he := hall.1
    rw [allUnplaced_eq_self (fun _ h => h) set' hp', allUnplaced_eq_self (fun _ h => h) set hp] at he
    rw [← he]
    exact hset'
  · exact (hall hd).elim

/-- A formatted selection set in braces has the lexemes of the set. -/
theorem lexemes_formatSelectionSet {P : Option Position → Prop} {set : SelectionSet}
    (h : AllProper P set) :
    lexemes ("\x7b" ++ formatSelectionSet set ++ "\x7d").toList =
      setLexemes set ++ [.endOfText] := by
  have hs : Spells 0 (formatSelectionSet set) (allLexemes set) := spells_formatSelectionSet h
  have ho : SpellsClosed 0 "\x7b" [.punctuator .braceOpen] := .of_marks rfl
  have hc : IsSeparator 0 "\x7d" [.punctuator .braceClose] :=
    ⟨.of_marks rfl, by decide, by decide⟩
  exact ((ho.append hs).append_closed hc).spells.lexemes_eq

/-- A formatted selection set is read back. -/
theorem parseSelectionSet_formatSelectionSet {fields : String} {set : SelectionSet}
    (h : parseSelectionSet fields = .ok set) :
    parseSelectionSet (formatSelectionSet set) = .ok set := by
  obtain ⟨-, hne, hp, hd⟩ := parseSelectionSet_spec h
  exact parseSelectionSet_iff.mpr ⟨lexemes_formatSelectionSet hp, hne, hp, hd⟩

/-- Block strings with quotes in them, escapes, and fragments of both kinds. -/
def nestedFields : String :=
  "a: b(x: \"\"\" lead\n  \"in\" \\\"\"\" back\"\"\", y: [\"\\u\x7b1F600\x7d\\n\", -2.5e3]) ...F # end\n"
    ++ "...on T \x7b c ... @x(v: $v) \x7b d \x7d \x7d"

theorem parseSelectionSet_formatSelectionSet_nested : ∃ set,
    parseSelectionSet nestedFields = .ok set ∧
      parseSelectionSet (formatSelectionSet set) = .ok set := by
  cases h : parseSelectionSet nestedFields with
  | ok set => exact ⟨set, rfl, parseSelectionSet_formatSelectionSet h⟩
  | error failure =>
      have hk : (parseSelectionSet nestedFields).isOk = true := by decide +kernel
      rw [h] at hk
      cases hk

/-! ## What is accepted -/

/-- One selection or more that can be written, nested no deeper than is read, with their lexemes. -/
structure IsListing (set : SelectionSet) (ls : List Lexeme) : Prop where
  ne_nil : set ≠ []
  proper : AllProper (· = none) set
  depth : allDepth set < Parser.deepest
  lexemes : ls = allLexemes set

/-- A text is accepted if its own lexemes are a listing; but if it ends in a comment, the comment
takes the closing brace in, and the text has to bring another. -/
theorem parseSelectionSet_accepts (fields : String) (set : SelectionSet) :
    parseSelectionSet fields = .ok set ↔ ∃ ls, IsListing set ls ∧
      (¬EndsInComment fields.toList ∧ lexemes fields.toList = ls ++ [.endOfText] ∨
        EndsInComment fields.toList ∧
          lexemes fields.toList = ls ++ [.punctuator .braceClose, .endOfText]) := by
  have hbrace : lexemes ("\x7b" ++ fields ++ "\x7d").toList =
      .punctuator .braceOpen :: lexemes (fields.toList ++ ['}']) := by
    rw [String.toList_append, String.toList_append, List.append_assoc]
    exact lexemes_punctuator rfl _
  have hset : setLexemes set ++ [.endOfText] = .punctuator .braceOpen ::
      (allLexemes set ++ [.punctuator .braceClose, .endOfText]) := by
    simp [setLexemes]
  rw [parseSelectionSet_iff, hbrace, hset, List.cons_inj_right]
  by_cases hc : EndsInComment fields.toList
  · rw [lexemes_close_comment hc]
    constructor
    · rintro ⟨hl, hne, hp, hd⟩
      exact ⟨_, ⟨hne, hp, hd, rfl⟩, .inr ⟨hc, hl⟩⟩
    · rintro ⟨ls, ⟨hne, hp, hd, rfl⟩, ⟨hn, -⟩ | ⟨-, hl⟩⟩
      · contradiction
      · exact ⟨hl, hne, hp, hd⟩
  · rcases lexemes_close hc with ⟨ls, h1, h2⟩ | ⟨ls, ls', e, e', h1, h2⟩
    · rw [h1, h2]
      constructor
      · rintro ⟨hl, hne, hp, hd⟩
        rw [List.append_cancel_right_eq] at hl
        exact ⟨ls, ⟨hne, hp, hd, hl⟩, .inl ⟨hc, rfl⟩⟩
      · rintro ⟨ls', ⟨hne, hp, hd, rfl⟩, ⟨-, hl⟩ | ⟨hn, -⟩⟩
        · rw [List.append_cancel_right_eq] at hl
          exact ⟨by rw [hl], hne, hp, hd⟩
        · contradiction
    · rw [h1, h2]
      constructor
      · rintro ⟨hl, -⟩
        have hlast := congrArg List.getLast? hl
        simp at hlast
      · rintro ⟨ls'', -, ⟨-, hl⟩ | ⟨hn, -⟩⟩
        · have hlast := congrArg List.getLast? hl
          simp at hlast
        · contradiction

/-- A comment at the end makes a listing rejected and a closing brace too many accepted. -/
theorem parseSelectionSet_comment :
    lexemes "id # c".toList = [.name "id", .endOfText] ∧
      (parseSelectionSet "id # c").isOk = false ∧
      lexemes "id \x7d # c".toList = [.name "id", .punctuator .braceClose, .endOfText] ∧
      parseSelectionSet "id \x7d # c" = .ok [.field none "id" [] [] none] := by
  refine ⟨by decide +kernel, by decide +kernel, by decide +kernel, ?_⟩
  refine parseSelectionSet_iff.mpr ⟨by decide +kernel, by simp, ?_, by decide⟩
  have hname : IsName "id" := by decide
  exact allProper_iff.mpr (by simpa [Proper] using hname)

end SdlAssembly.Grammar
