import SdlAssembly.Grammar.Parser.Selection
import SdlAssembly.Proofs.Parsing.Accepts
import SdlAssembly.Proofs.Tree.Written

/-!
# Parsed values and selections

A value or selection that is parsed can be written, nests no deeper than the parser allows, and was
written in the lexemes that were taken.
-/

namespace SdlAssembly.Grammar.Parser

open Text Lexer

variable {P : Option Position → Prop} {constant : Bool} {levels : Nat}

/-! ## Values -/

/-- What a value is written with, if it was read with some levels left. -/
def IsValue (constant : Bool) (levels : Nat) (ls : List Lexeme) (v : Value) : Prop :=
  ls = v.lexemes ∧ v.Proper constant ∧ v.depth ≤ levels

theorem isValue_namedValue {text : String} (h : IsName text) :
    IsValue constant levels [.name text] (namedValue text) := by
  unfold namedValue
  split
  · exact ⟨rfl, trivial, Nat.zero_le _⟩
  · exact ⟨rfl, trivial, Nat.zero_le _⟩
  · exact ⟨rfl, trivial, Nat.zero_le _⟩
  · rename_i ht hf hn
    have hr : text ∉ Value.reserved := by
      simpa [Value.reserved] using ⟨ht, hf, hn⟩
    exact ⟨rfl, ⟨h, hr⟩, Nat.zero_le _⟩

theorem accepts_variableValue :
    Accepts P (variableValue constant) (IsValue constant levels) := by
  intro t
  refine .current ?_
  refine (accepts_expect .dollar t).bind fun ls _ hl => ?_
  cases constant with
  | true =>
      intro u
      refine .current ?_
      split
      · exact Accepts.failAt t _ u
      · exact Accepts.unexpected t u
  | false =>
      refine accepts_name.map fun ls' text ht => ?_
      exact ⟨by simp [hl, ht.1, Value.lexemes], ⟨rfl, ht.2⟩, Nat.zero_le _⟩

theorem accepts_valueWith {list object : Parser Value}
    (hl : Accepts P list (IsValue constant levels))
    (ho : Accepts P object (IsValue constant levels)) :
    Accepts P (valueWith constant list object) (IsValue constant levels) := by
  intro t
  refine .of_word fun _ hw => .current ?_
  split
  · exact hl t
  · exact ho t
  · exact accepts_variableValue t
  · rename_i ht
    rw [ht] at hw
    exact .take (by simp [ht]) (ht ▸ ⟨rfl, hw, Nat.zero_le _⟩)
  · rename_i ht
    rw [ht] at hw
    exact .take (by simp [ht]) (ht ▸ ⟨rfl, hw, Nat.zero_le _⟩)
  · rename_i ht
    rw [ht] at hw
    exact .take (by simp [ht]) (ht ▸ ⟨rfl, hw, Nat.zero_le _⟩)
  · rename_i ht
    rw [ht] at hw
    exact .take (by simp [ht]) (ht ▸ isValue_namedValue hw)
  · exact Accepts.unexpected t t

theorem accepts_tooDeep {α : Type} {Q : List Lexeme → α → Prop} : Accepts P tooDeep Q :=
  fun t => .current (Accepts.failAt t _ t)

theorem accepts_value : Accepts P (value constant levels) (IsValue constant levels) := by
  induction levels with
  | zero => exact accepts_valueWith accepts_tooDeep accepts_tooDeep
  | succ levels ih =>
      refine accepts_valueWith ?_ ?_
      · refine (accepts_anyNumber _ _ ih).map fun ls items h => ?_
        obtain ⟨more, hm, hl⟩ := h
        obtain ⟨rfl, hi⟩ := hm.eq_flatMap fun _ _ h => h
        refine ⟨?_, ?_, ?_⟩
        · rw [hl, Value.lexemes, Value.itemLexemes_eq]
        · exact Value.properItems_iff.mpr fun v hv => (hi v hv).1
        · exact Nat.succ_le_succ (Value.itemsDepth_le.mpr fun v hv => (hi v hv).2)
      · have hf : Accepts P (objectField (value constant levels)) fun ls f =>
            ls = Value.fieldLexemesOf f ∧
              (IsName f.1 ∧ f.2.Proper constant) ∧ f.2.depth ≤ levels := by
          refine accepts_name.bind fun ls key hk => ?_
          refine (accepts_expect .colon).bind fun mark _ hm => ?_
          refine ih.bind fun ls' v hv => .pure ?_
          exact ⟨by simp [hk.1, hm, hv.1, Value.fieldLexemesOf], ⟨hk.2, hv.2.1⟩, hv.2.2⟩
        refine (accepts_anyNumber _ _ hf).map fun ls fields h => ?_
        obtain ⟨more, hm, hl⟩ := h
        obtain ⟨rfl, hi⟩ := hm.eq_flatMap fun _ _ h => h
        refine ⟨?_, ?_, ?_⟩
        · rw [hl, Value.lexemes, Value.fieldLexemes_eq]
        · exact Value.properFields_iff.mpr fun f hf => (hi f hf).1
        · exact Nat.succ_le_succ (Value.fieldsDepth_le.mpr fun f hf => (hi f hf).2)

/-! ## Arguments and directives -/

theorem accepts_argument : Accepts P (argument constant levels) fun ls a =>
    ls = a.lexemes ∧ a.Proper P constant ∧ a.depth ≤ levels := by
  refine accepts_name.bind fun ls key hk => ?_
  refine (accepts_expect .colon).bind fun mark _ hm t => ?_
  refine .of_word fun hp _ => .current ?_
  refine (accepts_value t).bind fun ls' v hv => .pure ?_
  exact ⟨by simp [hk.1, hm, hv.1, Argument.lexemes], ⟨hk.2, hv.2.1, hp⟩, hv.2.2⟩

theorem accepts_arguments : Accepts P (arguments constant levels) fun ls as =>
    ls = enclosed .parenOpen .parenClose (as.map Argument.lexemes) ∧
      (∀ a ∈ as, a.Proper P constant) ∧ greatest Argument.depth as ≤ levels := by
  refine (accepts_optionalMany _ _ accepts_argument).mono fun ls as ⟨more, hm, hl⟩ => ?_
  obtain ⟨rfl, ha⟩ := hm.eq_flatMap fun _ _ h => h
  refine ⟨?_, fun a h => (ha a h).1, greatest_le.mpr fun a h => (ha a h).2⟩
  rw [hl, enclosed, List.isEmpty_map, List.flatMap_def]

theorem accepts_directive : Accepts P (directive constant levels) fun ls d =>
    ls = d.lexemes ∧ d.Proper P constant ∧ d.depth ≤ levels := by
  intro t
  refine .of_word fun hp _ => .current ?_
  refine (accepts_expect .atSign t).bind fun mark _ hm => ?_
  refine accepts_name.bind fun ls name hn => ?_
  refine accepts_arguments.bind fun ls' as ha => .pure ?_
  exact ⟨by simp [hm, hn.1, ha.1, Directive.lexemes], ⟨hn.2, ha.2.1, hp⟩, ha.2.2⟩

theorem accepts_directives : Accepts P (directives constant levels) fun ls ds =>
    ls = ds.flatMap Directive.lexemes ∧
      (∀ d ∈ ds, d.Proper P constant) ∧ greatest Directive.depth ds ≤ levels := by
  refine (accepts_whileSees _ accepts_directive).mono fun ls ds h => ?_
  obtain ⟨rfl, hd⟩ := h.eq_flatMap fun _ _ h => h
  exact ⟨rfl, fun d h => (hd d h).1, greatest_le.mpr fun d h => (hd d h).2⟩

/-! ## Selections -/

theorem accepts_fragmentName : Accepts P fragmentName fun ls text =>
    ls = [.name text] ∧ IsName text ∧ text ≠ "on" := by
  intro t
  refine .current ?_
  split
  · exact Accepts.unexpected t t
  · rename_i h
    refine (accepts_name t).head.mono fun ls text ⟨⟨hl, hn⟩, hh⟩ => ⟨hl, hn, ?_⟩
    rintro rfl
    have ht : t.lexeme = .name "on" := hh _ (by simp [hl])
    simp [ht, Lexeme.text?] at h

/-- What the selections between two braces are written with. -/
def IsSet (P : Option Position → Prop) (levels : Nat) (ls : List Lexeme) (set : SelectionSet) :
    Prop :=
  ls = .punctuator .braceOpen :: (Selection.allLexemes set ++ [.punctuator .braceClose]) ∧
    set ≠ [] ∧ Selection.AllProper P set ∧ Selection.allDepth set + 1 ≤ levels

def IsSelection (P : Option Position → Prop) (levels : Nat) (ls : List Lexeme) (s : Selection) :
    Prop :=
  ls = s.lexemes ∧ s.Proper P ∧ s.depth ≤ levels

theorem accepts_fieldName : Accepts P fieldName fun ls head =>
    ls = (head.1.map fun text => [.name text, .punctuator .colon]).getD [] ++ [.name head.2]
      ∧ (∀ text ∈ head.1, IsName text) ∧ IsName head.2 := by
  refine accepts_name.bind fun ls first hf => ?_
  refine (accepts_skip .colon).bind fun mark b hm => ?_
  refine .ite (fun he => ?_) fun he => .pure ?_
  · subst he
    refine accepts_name.bind fun ls text ht => .pure ?_
    exact ⟨by simp [hf.1, hm, ht.1], by simpa using hf.2, ht.2⟩
  · subst he
    exact ⟨by simp [hf.1, hm], by simp, hf.2⟩

theorem accepts_subselections {set : Parser SelectionSet} (h : Accepts P set (IsSet P levels)) :
    Accepts P (subselections set) fun ls selections => match selections with
      | none => ls = []
      | some set => IsSet P levels ls set := by
  refine (accepts_sees .braceOpen).bind fun none b hn => ?_
  subst hn
  exact .ite (fun _ => h.map fun _ _ hs => hs) fun _ => .pure rfl

theorem accepts_field {set : Parser SelectionSet} (h : Accepts P set (IsSet P levels)) :
    Accepts P (field levels set) (IsSelection P levels) := by
  refine accepts_fieldName.bind fun ls head hn => ?_
  refine accepts_arguments.bind fun largs arguments ha => ?_
  refine accepts_directives.bind fun ldirs directives hd => ?_
  refine (accepts_subselections h).bind fun lset selections hs => .pure ?_
  cases selections with
  | none =>
      have hs : lset = [] := hs
      refine ⟨?_, ⟨hn.2.1, hn.2.2, ha.2.1, hd.2.1, trivial⟩, ?_⟩
      · simp [hn.1, ha.1, hd.1, hs, Selection.lexemes]
      · exact Nat.max_le.mpr ⟨ha.2.2, Nat.max_le.mpr ⟨hd.2.2, Nat.zero_le _⟩⟩
  | some set =>
      have hs : IsSet P levels lset set := hs
      refine ⟨?_, ⟨hn.2.1, hn.2.2, ha.2.1, hd.2.1, hs.2.1, hs.2.2.1⟩, ?_⟩
      · simp [hn.1, ha.1, hd.1, hs.1, Selection.lexemes]
      · exact Nat.max_le.mpr ⟨ha.2.2, Nat.max_le.mpr ⟨hd.2.2, hs.2.2.2⟩⟩

theorem accepts_spread {set : Parser SelectionSet} (h : Accepts P set (IsSet P levels)) :
    Accepts P (spread levels set) (IsSelection P levels) := by
  refine (accepts_expect .spread).bind fun dots _ hdots => ?_
  refine (accepts_skipKeyword "on").bind fun mark b hm => ?_
  refine .ite (fun he => ?_) fun he => ?_
  · refine accepts_name.bind fun ls condition hc => ?_
    refine accepts_directives.bind fun ldirs directives hd => ?_
    refine h.bind fun lset set hs => .pure ⟨?_, ⟨?_, hd.2.1, hs.2.1, hs.2.2.1⟩, ?_⟩
    · simp [hdots, hm, he, hc.1, hd.1, hs.1, Selection.lexemes]
    · simpa using hc.2
    · exact Nat.max_le.mpr ⟨hd.2.2, hs.2.2.2⟩
  · refine accepts_seesName.bind fun none b' hn => ?_
    refine .ite (fun _ => ?_) fun _ => ?_
    · refine accepts_fragmentName.bind fun ls text ht => ?_
      refine accepts_directives.bind fun ldirs directives hd => .pure ⟨?_, ⟨ht.2, hd.2.1⟩, hd.2.2⟩
      simp [hdots, hm, he, hn, ht.1, hd.1, Selection.lexemes]
    · refine accepts_directives.bind fun ldirs directives hd => ?_
      refine h.bind fun lset set hs => .pure ⟨?_, ⟨by simp, hd.2.1, hs.2.1, hs.2.2.1⟩, ?_⟩
      · simp [hdots, hm, he, hn, hd.1, hs.1, Selection.lexemes]
      · exact Nat.max_le.mpr ⟨hd.2.2, hs.2.2.2⟩

theorem accepts_selectionSet : Accepts P (selectionSet levels) (IsSet P levels) := by
  induction levels with
  | zero => exact accepts_tooDeep
  | succ levels ih =>
      have hs : Accepts P (do
          if ← sees .spread then spread levels (selectionSet levels)
          else field levels (selectionSet levels)) (IsSelection P levels) := by
        refine (accepts_sees .spread).bind fun none b hn => ?_
        subst hn
        exact .ite (fun _ => accepts_spread ih) fun _ => accepts_field ih
      refine (accepts_many _ _ hs).mono fun ls set ⟨hne, more, hl, hm⟩ => ?_
      obtain ⟨rfl, hi⟩ := hm.eq_flatMap fun _ _ h => h
      refine ⟨?_, hne, ?_, ?_⟩
      · rw [hl, Selection.allLexemes_eq]
      · exact Selection.allProper_iff.mpr fun s h => (hi s h).1
      · exact Nat.succ_le_succ (Selection.allDepth_le.mpr fun s h => (hi s h).2)

end SdlAssembly.Grammar.Parser
