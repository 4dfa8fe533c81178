import SdlAssembly.Grammar.Printer.Layout
import SdlAssembly.Proofs.Lexing.Strings

/-!
# What printed texts spell

A text spells lexemes if they are what the lexer finds at its place, whatever comes after it. The
lines of the text may have been moved to the right, since printers indent what they have printed.
-/

namespace SdlAssembly.Grammar.Lexer

open Text Layout

/-! ## Texts and their lexemes -/

/-- The lexemes of a text before anything that is apart from it. -/
def Spells (width : Nat) (text : String) (ls : List Lexeme) : Prop :=
  ∀ tail, Apart tail → lexemes (Block.shiftBy width text.toList ++ tail) = ls ++ lexemes tail

/-- The lexemes of a text before anything at all. -/
def SpellsClosed (width : Nat) (text : String) (ls : List Lexeme) : Prop :=
  ∀ tail, lexemes (Block.shiftBy width text.toList ++ tail) = ls ++ lexemes tail

variable {width : Nat} {a b c sep text : String} {la lb lc ls : List Lexeme}

theorem SpellsClosed.spells (h : SpellsClosed width a la) : Spells width a la :=
  fun tail _ => h tail

theorem SpellsClosed.append (ha : SpellsClosed width a la) (hb : Spells width b lb) :
    Spells width (a ++ b) (la ++ lb) := by
  intro tail ht
  rw [String.toList_append, Block.shiftBy_append, List.append_assoc, ha, hb tail ht,
    List.append_assoc]

theorem SpellsClosed.append_closed (ha : SpellsClosed width a la) (hb : SpellsClosed width b lb) :
    SpellsClosed width (a ++ b) (la ++ lb) := by
  intro tail
  rw [String.toList_append, Block.shiftBy_append, List.append_assoc, ha, hb, List.append_assoc]

theorem Apart.append {cs tail : List Char} (h : Apart cs) (ht : Apart tail) :
    Apart (Block.shiftBy width cs ++ tail) := by
  intro c hc
  cases cs with
  | nil => exact ht c hc
  | cons d cs =>
      have hd := Block.head?_shiftBy width (d :: cs)
      rw [List.head?_append, hd] at hc
      exact h c hc

theorem Spells.append (ha : Spells width a la) (hb : Spells width b lb) (h : Apart b.toList) :
    Spells width (a ++ b) (la ++ lb) := by
  intro tail ht
  rw [String.toList_append, Block.shiftBy_append, List.append_assoc, ha _ (h.append ht),
    hb tail ht, List.append_assoc]

/-- Texts that may stand between any others. -/
structure IsSeparator (width : Nat) (sep : String) (ls : List Lexeme) : Prop where
  spells : SpellsClosed width sep ls
  apart : Apart sep.toList
  ne_empty : sep ≠ ""

theorem Spells.append_closed (ha : Spells width a la) (hb : IsSeparator width b lb) :
    SpellsClosed width (a ++ b) (la ++ lb) := by
  intro tail
  obtain ⟨hb, h, hne⟩ := hb
  have hp : Apart (Block.shiftBy width b.toList ++ tail) := by
    intro c hc
    cases hd : b.toList with
    | nil => exact (hne (String.toList_eq_nil_iff.mp hd)).elim
    | cons d cs =>
        have hs := Block.head?_shiftBy width (d :: cs)
        rw [hd, List.head?_append, hs] at hc
        rw [hd] at h
        exact h c hc
  rw [String.toList_append, Block.shiftBy_append, List.append_assoc, ha _ hp, hb,
    List.append_assoc]

theorem Spells.empty : Spells width "" [] := fun _ _ => rfl

theorem Spells.eq_nil (h : Spells width "" ls) : ls = [] := by
  have hl := congrArg List.length (h [] .nil)
  simp only [String.toList_empty, Block.shiftBy_nil, List.append_nil, List.length_append] at hl
  exact List.length_eq_zero_iff.mp (by omega)

theorem Spells.ne_empty (h : Spells width text ls) (hl : ls ≠ []) : text ≠ "" := by
  rintro rfl
  exact hl h.eq_nil

/-- The lexemes of a whole text. -/
theorem Spells.lexemes_eq (h : Spells 0 text ls) : lexemes text.toList = ls ++ [.endOfText] := by
  have hl := h [] .nil
  rwa [Block.shiftBy_zero, List.append_nil, lexemes_nil] at hl

/-! ## Words -/

theorem Starts.lexemes_append {cs tail : List Char} {l : Lexeme}
    (h : Starts (cs ++ tail) l cs.length) (hl : l ≠ .endOfText) :
    lexemes (cs ++ tail) = l :: lexemes tail := by
  rw [h.lexemes_eq hl, List.drop_left]

theorem starts_name {text : String} (h : IsName text) {rest : List Char} (ha : Apart rest) :
    Starts (text.toList ++ rest) (.name text) text.toList.length := by
  obtain ⟨c, cs, ht, hc, hcs⟩ := h
  have hn := @Starts.name c (cs ++ rest) hc
  have hw : cs.takeWhile isNameChar = cs := by
    rw [← List.append_nil cs, List.takeWhile_append_of_pos hcs]
    simp
  rw [ha.takeWhile_append, hw, ← ht, String.ofList_toList] at hn
  rw [ht]
  exact hn

theorem starts_numeral (m : Numeral) {rest : List Char} (ha : Apart rest) :
    Starts (m.text ++ rest) m.lexeme m.text.length := by
  have hr : EndsNumber rest := fun c hc => ⟨(ha c hc).2.1, (ha c hc).1⟩
  have hn : number (m.text ++ rest) = .lexeme m.lexeme m.text.length :=
    number_eq_lexeme.mpr ⟨m, rest, rfl, hr, rfl, rfl⟩
  obtain ⟨c, cs, ht, hc⟩ := m.text_eq_cons
  rw [ht] at hn ⊢
  exact .number hc hn

instance : DecidablePred IsName := fun text =>
  match h : text.toList with
  | [] => .isFalse fun ⟨c, cs, he, _⟩ => by simp [h] at he
  | c :: cs =>
    decidable_of_iff (isNameStart c ∧ cs.all isNameChar) <| by
      rw [List.all_eq_true]
      constructor
      · exact fun hc => ⟨c, cs, h, hc⟩
      · rintro ⟨d, ds, he, hd⟩
        rw [h] at he
        cases he
        exact hd

theorem IsName.ne_empty (h : IsName text) : text ≠ "" := by
  rintro rfl
  obtain ⟨c, cs, he, -⟩ := h
  cases he

theorem IsName.no_newline (h : IsName text) : ∀ c ∈ text.toList, c ≠ '\n' := by
  obtain ⟨c, cs, ht, hc, hcs⟩ := h
  intro d hd
  rw [ht] at hd
  have hn : isNameChar d := by
    rcases List.mem_cons.mp hd with rfl | hd
    · exact (isNameStart_spec hc).1
    · exact hcs d hd
  rintro rfl
  cases hn

theorem Spells.name (h : IsName text) : Spells width text [.name text] := by
  intro tail ht
  rw [Block.shiftBy_of_no_newline h.no_newline]
  exact (starts_name h ht).lexemes_append (by simp)

theorem Numeral.no_newline (m : Numeral) : ∀ c ∈ m.text, c ≠ '\n' := by
  rintro c hc rfl
  rcases m.mem_text _ hc with hd | hd
  · cases hd
  · simp at hd

theorem Spells.numeral {m : Numeral} (ht : text.toList = m.text) :
    Spells width text [m.lexeme] := by
  intro tail ha
  rw [ht, Block.shiftBy_of_no_newline m.no_newline]
  exact (starts_numeral m ha).lexemes_append m.formed.2

theorem Spells.quotedString (text : String) : Spells width (Quoted.quote text) [.string text false] := by
  intro tail ha
  rw [Block.shiftBy_of_no_newline (quote_no_newline text)]
  exact (starts_quoted text ha).lexemes_append (by simp)

theorem Spells.blockString (h : IsBlockText text) :
    Spells width (Block.quote text) [.string text true] := by
  intro tail _
  obtain ⟨ds, hd, ht⟩ := h
  have hr : '\r' ∉ text.toList := ht ▸ hd.no_return
  obtain ⟨text', hs, -, he⟩ := starts_block hr width tail
  rw [he ⟨ds, hd, ht⟩] at hs
  exact hs.lexemes_append (by simp)

/-! ## Fixed texts -/

/-- The name that was read, the last character first. -/
def nameRead (word : List Char) : List Lexeme :=
  if word = [] then [] else [.name (String.ofList word.reverse)]

/-- The lexemes of a text of names, punctuators of one character and blanks that does not end in a
name; `word` is the name that is being read, the last character first. -/
def marks : (word : List Char) → List Char → Option (List Lexeme)
  | word, [] => if word = [] then some [] else none
  | word, c :: rest =>
    if isNameChar c then
      if word = [] ∧ isNameStart c = false then none else marks (c :: word) rest
    else if isIgnored c then (marks [] rest).map (nameRead word ++ ·)
    else
      match Punctuator.ofChar? c with
      | some p => (marks [] rest).map (nameRead word ++ .punctuator p :: ·)
      | none => none

theorem lexemes_punctuator {c : Char} {p : Punctuator} (h : Punctuator.ofChar? c = some p)
    (cs : List Char) : lexemes (c :: cs) = .punctuator p :: lexemes cs :=
  Starts.lexemes_eq (.punctuator h) (by simp)

theorem lexemes_nameRead {word : List Char} (h : word = [] ∨ IsName (String.ofList word.reverse))
    {tail : List Char} (ht : Apart tail) :
    lexemes (word.reverse ++ tail) = nameRead word ++ lexemes tail := by
  rcases h with rfl | h
  · rfl
  · have hne : word ≠ [] := by
      rintro rfl
      obtain ⟨c, cs, he, -⟩ := h
      simp at he
    have hs := starts_name h ht
    rw [String.toList_ofList] at hs
    rw [hs.lexemes_append (by simp), nameRead, if_neg hne, List.singleton_append]

theorem lexemes_margin (width : Nat) (cs : List Char) :
    lexemes (Block.margin width ++ cs) = lexemes cs := by
  induction width with
  | zero => rfl
  | succ width ih =>
      rw [Block.margin, List.replicate_succ, List.cons_append, lexemes_ignored (by decide)]
      exact ih

theorem lexemes_shift_ignored {c : Char} (h : isIgnored c) (cs tail : List Char) :
    lexemes (Block.shiftBy width (c :: cs) ++ tail) =
      lexemes (Block.shiftBy width cs ++ tail) := by
  by_cases hc : c = '\n'
  · subst hc
    rw [Block.shiftBy_newline, List.cons_append, lexemes_ignored h, List.append_assoc,
      lexemes_margin]
  · rw [Block.shiftBy_cons hc, List.cons_append, lexemes_ignored h]

theorem apart_ignored {c : Char} (h : isIgnored c) : isNameChar c = false ∧ c ≠ '.' ∧ c ≠ '"' := by
  simp only [isIgnored, isLineEnd, Bool.or_eq_true, beq_iff_eq] at h
  rcases h with (((rfl | rfl) | rfl) | rfl) | (rfl | rfl) <;> decide

theorem apart_punctuator {c : Char} {p : Punctuator} (h : Punctuator.ofChar? c = some p) :
    isNameChar c = false ∧ c ≠ '.' ∧ c ≠ '"' ∧ c ≠ '\n' := by
  have ht := Punctuator.toList_text h
  cases p <;> cases ht <;> decide

/-- A character that a name may have makes a longer name, or starts one. -/
theorem isName_cons {word : List Char} {c : Char} (hw : word = [] ∨ IsName (String.ofList word.reverse))
    (hc : isNameChar c) (hs : word = [] → isNameStart c) :
    IsName (String.ofList (c :: word).reverse) := by
  rcases hw with rfl | ⟨d, ds, hd, hds, hdc⟩
  · exact ⟨c, [], String.toList_ofList, hs rfl, by simp⟩
  · rw [String.toList_ofList] at hd
    refine ⟨d, ds ++ [c], ?_, hds, fun e he => ?_⟩
    · rw [String.toList_ofList, List.reverse_cons, hd, List.cons_append]
    · rcases List.mem_append.mp he with he | he
      · exact hdc e he
      · exact (List.mem_singleton.mp he) ▸ hc

theorem lexemes_marks {word cs : List Char} {ls : List Lexeme} (h : marks word cs = some ls)
    (hw : word = [] ∨ IsName (String.ofList word.reverse)) (tail : List Char) :
    lexemes (word.reverse ++ (Block.shiftBy width cs ++ tail)) = ls ++ lexemes tail := by
  induction cs generalizing word ls with
  | nil =>
      rw [marks] at h
      split at h
      · rename_i he
        cases h
        rw [he]
        rfl
      · cases h
  | cons c cs ih =>
      rw [marks] at h
      split at h
      · rename_i hc
        split at h
        · cases h
        · rename_i hs
          have hn : c ≠ '\n' := by
            rintro rfl
            cases hc
          have hw' : IsName (String.ofList (c :: word).reverse) :=
            isName_cons hw hc (by simpa using hs)
          have hih := ih h (.inr hw')
          rwa [List.reverse_cons, List.append_assoc, List.singleton_append, ← List.cons_append,
            ← Block.shiftBy_cons hn] at hih
      · split at h
        · rename_i hi
          obtain ⟨more, hm, rfl⟩ := Option.map_eq_some_iff.mp h
          have hih := ih hm (.inl rfl)
          have ha : Apart (Block.shiftBy width (c :: cs) ++ tail) := by
            intro d hd
            rw [List.head?_append, Block.head?_shiftBy] at hd
            obtain rfl : c = d := by simpa using hd
            exact apart_ignored hi
          rw [lexemes_nameRead hw ha, lexemes_shift_ignored hi, List.append_assoc]
          exact congrArg _ hih
        · cases hp : Punctuator.ofChar? c with
          | none => simp [hp] at h
          | some p =>
              rw [hp] at h
              obtain ⟨more, hm, rfl⟩ := Option.map_eq_some_iff.mp h
              obtain ⟨hn, hd, hq, hnl⟩ := apart_punctuator hp
              rw [Block.shiftBy_cons hnl, List.cons_append, lexemes_nameRead hw (.cons hn hd hq),
                lexemes_punctuator hp, List.append_assoc]
              exact congrArg _ (congrArg _ (ih hm (.inl rfl)))

/-- A fixed text spells what its marks are. -/
theorem SpellsClosed.of_marks (h : marks [] text.toList = some ls) : SpellsClosed width text ls :=
  fun tail => lexemes_marks h (.inl rfl) tail

theorem SpellsClosed.spread : SpellsClosed width "..." [.punctuator .spread] := by
  intro tail
  have hs : Starts (['.', '.', '.'] ++ tail) (.punctuator .spread) 3 := .spread
  exact hs.lexemes_append (by simp)

/-! ## Sequences -/

theorem Spells.intercalate {α : Type} {print : α → String} {lex : α → List Lexeme} {xs : List α}
    (hs : IsSeparator width sep ls) (h : ∀ x ∈ xs, Spells width (print x) (lex x)) :
    Spells width (sep.intercalate (xs.map print)) (ls.intercalate (xs.map lex)) := by
  induction xs with
  | nil => exact .empty
  | cons x xs ih =>
      have ih := ih fun y hy => h y (List.mem_cons_of_mem x hy)
      cases xs with
      | nil => simpa using h x (by simp)
      | cons y ys =>
          have hx := (h x (by simp)).append_closed hs
          have hall := hx.append ih
          simpa [String.intercalate_cons_cons] using hall

theorem join_eq_empty {sep : String} {parts : List String} (h : join sep parts = "") :
    parts.filter (fun part => !part.isEmpty) = [] := by
  cases hf : parts.filter fun part => !part.isEmpty with
  | nil => rfl
  | cons x xs =>
      have hx : x.isEmpty = false := by
        have hm : x ∈ parts.filter fun part => !part.isEmpty := by simp [hf]
        simpa using (List.mem_filter.mp hm).2
      rw [join, hf] at h
      cases xs with
      | nil =>
          rw [String.intercalate_singleton] at h
          simp [h] at hx
      | cons y ys =>
          rw [String.intercalate_cons_cons, String.append_eq_empty_iff,
            String.append_eq_empty_iff] at h
          simp [h.1.1] at hx

theorem join_cons (sep text : String) (parts : List String) :
    join sep (text :: parts) =
      if text = "" then join sep parts
      else if join sep parts = "" then text else text ++ sep ++ join sep parts := by
  by_cases ht : text = ""
  · simp [join, ht]
  · have hb : (!text.isEmpty) = true := by simp [ht]
    rw [if_neg ht]
    split
    · rename_i hj
      rw [join, List.filter_cons, if_pos hb, join_eq_empty hj, String.intercalate_singleton]
    · rename_i hj
      rw [join, List.filter_cons, if_pos hb]
      cases hf : parts.filter fun part => !part.isEmpty with
      | nil =>
          rw [join, hf] at hj
          exact (hj String.intercalate_nil).elim
      | cons x xs => rw [join, hf, String.intercalate_cons_cons]

/-- Joined parts spell what they spell one after the other. -/
theorem Spells.join_cons {parts : List String} (hs : IsSeparator width sep [])
    (ha : Spells width a la) (hp : Spells width (join sep parts) ls) :
    Spells width (join sep (a :: parts)) (la ++ ls) := by
  rw [Lexer.join_cons]
  split
  · rename_i he
    rw [he] at ha
    rw [ha.eq_nil]
    exact hp
  · split
    · rename_i he
      rw [he] at hp
      rw [hp.eq_nil, List.append_nil]
      exact ha
    · have h := (ha.append_closed hs).append hp
      rwa [List.append_nil] at h

theorem Spells.join {α : Type} {print : α → String} {lex : α → List Lexeme} {xs : List α}
    (hs : IsSeparator width sep []) (h : ∀ x ∈ xs, Spells width (print x) (lex x)) :
    Spells width (join sep (xs.map print)) (xs.flatMap lex) := by
  induction xs with
  | nil => exact .empty
  | cons x xs ih =>
      exact .join_cons hs (h x (by simp)) (ih fun y hy => h y (List.mem_cons_of_mem x hy))

theorem wrap_of_ne {text : String} (h : text ≠ "") (before after : String) :
    wrap before text after = before ++ text ++ after := by
  simp [wrap, h]

theorem shift_eq (cs : List Char) : shift cs = Block.shiftBy 2 cs := by
  fun_induction shift cs with
  | case1 => rfl
  | case2 rest ih =>
      rw [Block.shiftBy_newline, ih]
      rfl
  | case3 c rest hc ih => rw [Block.shiftBy_cons hc, ih]

theorem Spells.indent (h : Spells (width + 2) text ls) : Spells width (indent text) ls := by
  by_cases ht : text = ""
  · subst ht
    rw [h.eq_nil]
    exact .empty
  · have hne : String.ofList (shift text.toList) ≠ "" := by
      intro he
      have hl := congrArg String.toList he
      rw [String.toList_ofList, shift_eq] at hl
      have hh := Block.head?_shiftBy 2 text.toList
      rw [hl] at hh
      exact ht (String.toList_eq_nil_iff.mp (List.head?_eq_none_iff.mp hh.symm))
    intro tail ha
    have hm : Block.shiftBy width "  ".toList = Block.margin 2 :=
      Block.shiftBy_of_no_newline (by simp)
    rw [Layout.indent, wrap_of_ne hne, String.append_empty, String.toList_append,
      Block.shiftBy_append, hm, String.toList_ofList, shift_eq, Block.shiftBy_shiftBy,
      List.append_assoc, lexemes_margin, h tail ha]

/-! ## Items in brackets -/

/-- Lexemes between punctuators, and nothing if there are no items. -/
def enclosed (opening closing : Punctuator) (items : List (List Lexeme)) : List Lexeme :=
  if items.isEmpty then []
  else .punctuator opening :: (items.flatten ++ [.punctuator closing])

theorem Spells.wrap (ha : SpellsClosed width a la) (h : Spells width text ls)
    (hc : IsSeparator width c lc) (hne : ls ≠ []) :
    SpellsClosed width (wrap a text c) (la ++ ls ++ lc) := by
  rw [wrap_of_ne (h.ne_empty hne)]
  exact (ha.append h).append_closed hc

theorem isSeparator_newline : IsSeparator width "\n" [] := ⟨.of_marks rfl, by decide, by decide⟩

theorem isSeparator_comma : IsSeparator width ", " [] := ⟨.of_marks rfl, by decide, by decide⟩

theorem isSeparator_blank : IsSeparator width " " [] := ⟨.of_marks rfl, by decide, by decide⟩

section Items

variable {α : Type} {print : α → String} {lex : α → List Lexeme} {xs : List α}

theorem Spells.enclosed {o e : String} {opening closing : Punctuator}
    (ho : SpellsClosed width o [.punctuator opening])
    (he : IsSeparator width e [.punctuator closing]) (ht : xs = [] → text = "")
    (h : Spells width text (xs.flatMap lex)) (hne : ∀ x ∈ xs, lex x ≠ []) :
    Spells width (Layout.wrap o text e) (Lexer.enclosed opening closing (xs.map lex)) := by
  cases xs with
  | nil =>
      rw [ht rfl]
      exact .empty
  | cons x xs =>
      have hl : (x :: xs).flatMap lex ≠ [] := by simp [hne x (by simp)]
      have hw := (Spells.wrap ho h he hl).spells
      simpa [Lexer.enclosed, List.flatMap_def] using hw

theorem Spells.block (h : ∀ width, ∀ x ∈ xs, Spells width (print x) (lex x))
    (hne : ∀ x ∈ xs, lex x ≠ []) :
    Spells width (Layout.block (xs.map print))
      (Lexer.enclosed .braceOpen .braceClose (xs.map lex)) :=
  .enclosed (.of_marks rfl) ⟨.of_marks rfl, by decide, by decide⟩ (by rintro rfl; rfl)
    (.indent (.join isSeparator_newline (h _))) hne

theorem Spells.parenthesized (h : ∀ width, ∀ x ∈ xs, Spells width (print x) (lex x))
    (hne : ∀ x ∈ xs, lex x ≠ []) :
    Spells width (Layout.parenthesized (xs.map print))
      (Lexer.enclosed .parenOpen .parenClose (xs.map lex)) := by
  unfold Layout.parenthesized
  split
  · exact .enclosed (.of_marks rfl) ⟨.of_marks rfl, by decide, by decide⟩ (by rintro rfl; rfl)
      (.indent (.join isSeparator_newline (h _))) hne
  · exact .enclosed (.of_marks rfl) ⟨.of_marks rfl, by decide, by decide⟩ (by rintro rfl; rfl)
      (.join isSeparator_comma (h _)) hne

end Items

end SdlAssembly.Grammar.Lexer
