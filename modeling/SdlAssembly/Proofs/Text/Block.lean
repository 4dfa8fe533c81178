import SdlAssembly.Text.Block

/-!
# Lines of block strings

A text that comes from a block string has no blank line at either end and, if it has several lines,
no indentation that all of them share. Main statement: such a text is what is read from it again,
also if it is set off on lines of its own and moved to the right.
-/

namespace SdlAssembly.Text.Block

/-! ## Lines -/

/-- Puts characters before the first line. -/
def addFirst (cs : List Char) : List (List Char) → List (List Char)
  | [] => [cs]
  | line :: others => (cs ++ line) :: others

theorem lines_ne_nil (cs : List Char) : lines cs ≠ [] := by
  fun_induction lines cs <;> simp

theorem addFirst_nil {ls : List (List Char)} (h : ls ≠ []) : addFirst [] ls = ls := by
  cases ls with
  | nil => contradiction
  | cons line others => rfl

theorem addFirst_addFirst (cs ds : List Char) (ls : List (List Char)) :
    addFirst cs (addFirst ds ls) = addFirst (cs ++ ds) ls := by
  cases ls <;> simp [addFirst]

theorem lines_cons {c : Char} {cs : List Char} (hn : c ≠ '\n') (hr : c ≠ '\r') :
    lines (c :: cs) = addFirst [c] (lines cs) := by
  rw [lines]
  · rfl
  · rintro _ rfl
    contradiction
  · exact hr
  · exact hn

/-- Characters without line ends stay on one line. -/
theorem lines_append {line : List Char} (h : ∀ c ∈ line, c ≠ '\n' ∧ c ≠ '\r')
    (rest : List Char) : lines (line ++ rest) = addFirst line (lines rest) := by
  induction line with
  | nil => exact (addFirst_nil (lines_ne_nil rest)).symm
  | cons c line ih =>
      obtain ⟨hn, hr⟩ := h c (by simp)
      rw [List.cons_append, lines_cons hn hr, ih fun d hd => h d (by simp [hd]), addFirst_addFirst]
      rfl

theorem lines_join {ls : List (List Char)} (hne : ls ≠ [])
    (h : ∀ line ∈ ls, ∀ c ∈ line, c ≠ '\n' ∧ c ≠ '\r') : lines (join ls) = ls := by
  match ls with
  | [line] =>
      have hl := lines_append (h line (by simp)) []
      rw [List.append_nil] at hl
      simp [join, hl, lines, addFirst]
  | line :: next :: others =>
      have hr : ∀ x ∈ next :: others, ∀ c ∈ x, c ≠ '\n' ∧ c ≠ '\r' := fun x hx =>
        h x (List.mem_cons_of_mem _ hx)
      have ih := lines_join (by simp) hr
      rw [join, lines_append (h line (by simp)), lines, ih, addFirst, List.append_nil]
      simp

/-! ## Moving lines -/

/-- Blanks before a line. -/
def margin (width : Nat) : List Char := List.replicate width ' '

/-- Moves all lines but the first to the right. -/
def shiftBy (width : Nat) (cs : List Char) : List Char :=
  cs.flatMap fun c => if c = '\n' then '\n' :: margin width else [c]

@[simp] theorem shiftBy_nil (width : Nat) : shiftBy width [] = [] := rfl

@[simp] theorem shiftBy_append (width : Nat) (cs ds : List Char) :
    shiftBy width (cs ++ ds) = shiftBy width cs ++ shiftBy width ds := by
  simp [shiftBy]

@[simp] theorem shiftBy_newline (width : Nat) (cs : List Char) :
    shiftBy width ('\n' :: cs) = '\n' :: (margin width ++ shiftBy width cs) := by
  simp [shiftBy]

@[simp] theorem shiftBy_zero (cs : List Char) : shiftBy 0 cs = cs := by
  have hf : (fun c => if c = '\n' then '\n' :: margin 0 else [c]) = List.singleton := by
    funext c
    split <;> simp_all [margin, List.singleton]
  rw [shiftBy, hf]
  exact List.flatMap_singleton' cs

theorem shiftBy_cons {width : Nat} {c : Char} {cs : List Char} (h : c ≠ '\n') :
    shiftBy width (c :: cs) = c :: shiftBy width cs := by
  simp [shiftBy, h]

theorem shiftBy_of_no_newline {width : Nat} {cs : List Char} (h : ∀ c ∈ cs, c ≠ '\n') :
    shiftBy width cs = cs := by
  induction cs with
  | nil => rfl
  | cons c cs ih =>
      rw [shiftBy_cons (h c (by simp)), ih fun d hd => h d (by simp [hd])]

theorem margin_noEnds (width : Nat) : ∀ c ∈ margin width, c ≠ '\n' ∧ c ≠ '\r' := by
  intro c hc
  obtain rfl := List.eq_of_mem_replicate hc
  decide

theorem shiftBy_shiftBy (width more : Nat) (cs : List Char) :
    shiftBy width (shiftBy more cs) = shiftBy (width + more) cs := by
  have hm : shiftBy width (margin more) = margin more :=
    shiftBy_of_no_newline fun c hc => (margin_noEnds more c hc).1
  induction cs with
  | nil => rfl
  | cons c cs ih =>
      by_cases hc : c = '\n'
      · subst hc
        rw [shiftBy_newline, shiftBy_newline, shiftBy_newline, shiftBy_append, hm, ih,
          ← List.append_assoc]
        simp [margin, List.replicate_append_replicate]
      · rw [shiftBy_cons hc, shiftBy_cons hc, shiftBy_cons hc, ih]

/-- All lines but the first get a margin. -/
def indentOthers (width : Nat) : List (List Char) → List (List Char)
  | [] => []
  | line :: others => line :: others.map (margin width ++ ·)

theorem indentOthers_addFirst (width : Nat) (cs : List Char) (ls : List (List Char)) :
    indentOthers width (addFirst cs ls) = addFirst cs (indentOthers width ls) := by
  cases ls <;> rfl

theorem addFirst_margin (width : Nat) {ls : List (List Char)} (h : ls ≠ []) :
    addFirst (margin width) (indentOthers width ls) = ls.map (margin width ++ ·) := by
  cases ls with
  | nil => contradiction
  | cons line others => rfl

theorem lines_shiftBy {width : Nat} {cs : List Char} (h : '\r' ∉ cs) :
    lines (shiftBy width cs) = indentOthers width (lines cs) := by
  induction cs with
  | nil => rfl
  | cons c cs ih =>
      have hcs : '\r' ∉ cs := fun hr => h (List.mem_cons_of_mem c hr)
      by_cases hc : c = '\n'
      · subst hc
        rw [shiftBy_newline, lines, lines_append (margin_noEnds width), ih hcs,
          addFirst_margin width (lines_ne_nil cs), lines]
        rfl
      · have hr : c ≠ '\r' := fun he => h (by simp [he])
        rw [shiftBy_cons hc, lines_cons hc hr, lines_cons hc hr, ih hcs, indentOthers_addFirst]

/-! ## Blank lines at the ends -/

theorem dropWhile_blank {pre ls : List (List Char)} (hp : ∀ x ∈ pre, isBlank x)
    (hl : ∀ x ∈ ls.head?, isBlank x = false) : (pre ++ ls).dropWhile isBlank = ls := by
  rw [List.dropWhile_append_of_pos hp]
  cases ls with
  | nil => rfl
  | cons x ls => simp [hl x rfl]

/-- Trimming takes off exactly the blank lines around. -/
theorem trimBlank_append {pre ls post : List (List Char)} (hpre : ∀ x ∈ pre, isBlank x)
    (hpost : ∀ x ∈ post, isBlank x) (hfirst : ∀ x ∈ ls.head?, isBlank x = false)
    (hlast : ∀ x ∈ ls.getLast?, isBlank x = false) : trimBlank (pre ++ ls ++ post) = ls := by
  cases ls with
  | nil =>
      have hd : (pre ++ [] ++ post).dropWhile isBlank = [] := by
        rw [List.append_nil, ← List.append_nil (pre ++ post)]
        refine dropWhile_blank (fun x hx => ?_) (by simp)
        exact (List.mem_append.mp hx).elim (hpre x) (hpost x)
      rw [trimBlank, hd]
      rfl
  | cons x ls =>
      have hlast' : ∀ y ∈ (x :: ls).reverse.head?, isBlank y = false := by
        rw [List.head?_reverse]
        exact hlast
      rw [trimBlank, List.append_assoc, dropWhile_blank hpre (by simpa using hfirst),
        List.reverse_append, dropWhile_blank (by simpa using hpost) hlast', List.reverse_reverse]

/-- What is left after trimming, with the blank lines that were taken off. -/
theorem trimBlank_spec (ls : List (List Char)) : ∃ pre post, ls = pre ++ trimBlank ls ++ post
    ∧ (∀ x ∈ pre, isBlank x) ∧ (∀ x ∈ post, isBlank x)
    ∧ (∀ x ∈ (trimBlank ls).head?, isBlank x = false)
    ∧ ∀ x ∈ (trimBlank ls).getLast?, isBlank x = false := by
  have hhead : ∀ xs : List (List Char), ∀ x ∈ (xs.dropWhile isBlank).head?, isBlank x = false := by
    intro xs x hx
    have h := List.head?_dropWhile_not isBlank xs
    rw [Option.mem_def] at hx
    simpa [hx] using h
  have hmid := List.takeWhile_append_dropWhile (p := isBlank) (l := ls)
  have hend := List.takeWhile_append_dropWhile (p := isBlank) (l := (ls.dropWhile isBlank).reverse)
  have htrim : ls.dropWhile isBlank = trimBlank ls
      ++ ((ls.dropWhile isBlank).reverse.takeWhile isBlank).reverse := by
    rw [trimBlank, ← List.reverse_append, hend, List.reverse_reverse]
  refine ⟨ls.takeWhile isBlank, ((ls.dropWhile isBlank).reverse.takeWhile isBlank).reverse,
    ?_, ?_, ?_, ?_, ?_⟩
  · rw [List.append_assoc, ← htrim, hmid]
  · exact fun x hx => List.all_eq_true.mp List.all_takeWhile x hx
  · exact fun x hx => List.all_eq_true.mp List.all_takeWhile x (List.mem_reverse.mp hx)
  · intro x hx
    refine hhead ls x ?_
    rw [htrim]
    cases ht : trimBlank ls with
    | nil => simp [ht] at hx
    | cons y ys => simpa [ht] using hx
  · rw [trimBlank, List.getLast?_reverse]
    exact hhead _

/-! ## Indentation -/

theorem isBlank_margin_append (width : Nat) (line : List Char) :
    isBlank (margin width ++ line) = isBlank line := by
  have hm : (margin width).all isIndent = true := by
    simp [margin, List.all_replicate, isIndent]
  rw [isBlank, List.all_append, hm, Bool.true_and, isBlank]

theorem indentOf_margin_append (width : Nat) (line : List Char) :
    indentOf (margin width ++ line) = width + indentOf line := by
  have hm : ∀ c ∈ margin width, isIndent c := by
    intro c hc
    obtain rfl := List.eq_of_mem_replicate hc
    rfl
  rw [indentOf, List.takeWhile_append_of_pos hm, List.length_append, margin, List.length_replicate,
    indentOf]

/-- The indentation that lines share is that of one of them and at most that of each. -/
theorem commonIndent_eq_some {ls : List (List Char)} {n : Nat} :
    commonIndent ls = some n ↔ (∃ line ∈ ls, isBlank line = false ∧ indentOf line = n)
      ∧ ∀ line ∈ ls, isBlank line = false → n ≤ indentOf line := by
  rw [commonIndent, List.min?_eq_some_iff]
  simp only [List.mem_map, List.mem_filter, Bool.not_eq_true', and_assoc]
  constructor
  · rintro ⟨hx, hm⟩
    exact ⟨hx, fun line hl hb => hm _ ⟨line, hl, hb, rfl⟩⟩
  · rintro ⟨hx, hm⟩
    refine ⟨hx, ?_⟩
    rintro _ ⟨line, hl, hb, rfl⟩
    exact hm line hl hb

theorem commonIndent_eq_none {ls : List (List Char)} :
    commonIndent ls = none ↔ ∀ line ∈ ls, isBlank line := by
  rw [commonIndent, List.min?_eq_none_iff]
  simp


/-! ## Texts that are read from block strings -/

/-- The lines of a text as it comes from a block string. -/
structure Dedented (ls : List (List Char)) : Prop where
  noEnds : ∀ line ∈ ls, ∀ c ∈ line, c ≠ '\n' ∧ c ≠ '\r'
  first : ∀ line ∈ ls.head?, isBlank line = false
  last : ∀ line ∈ ls.getLast?, isBlank line = false
  unindented : 2 ≤ ls.length → ∃ line ∈ ls, isBlank line = false ∧ indentOf line = 0

/-- A line that keeps some of its characters but for its common indentation. -/
theorem isBlank_drop {line : List Char} {n : Nat} (hb : isBlank line = false)
    (hn : n ≤ indentOf line) :
    isBlank (line.drop n) = false ∧ indentOf (line.drop n) = indentOf line - n := by
  induction n generalizing line with
  | zero => exact ⟨hb, rfl⟩
  | succ n ih =>
      cases line with
      | nil => cases hn
      | cons c line =>
          cases hc : isIndent c with
          | false => simp [indentOf, hc] at hn
          | true =>
              simp only [isBlank, List.all_cons, hc, Bool.true_and] at hb
              simp only [indentOf, List.takeWhile_cons, hc, ↓reduceIte, List.length_cons] at hn ⊢
              have h := ih hb (Nat.le_of_succ_le_succ hn)
              simp only [indentOf] at h
              rw [List.drop_succ_cons]
              exact ⟨h.1, by omega⟩

/-- If some of the lines is not blank, taking off their indentation leaves one that has none. -/
theorem unindent_spec {ls : List (List Char)} {line : List Char} (hl : line ∈ ls)
    (hb : isBlank line = false) :
    ∃ x ∈ unindent ls, isBlank x = false ∧ indentOf x = 0 := by
  cases hc : commonIndent ls with
  | none =>
      rw [commonIndent_eq_none] at hc
      rw [hc line hl] at hb
      cases hb
  | some n =>
      obtain ⟨⟨x, hx, hxb, hxn⟩, -⟩ := commonIndent_eq_some.mp hc
      obtain ⟨h1, h2⟩ := isBlank_drop hxb (Nat.le_of_eq hxn.symm)
      refine ⟨x.drop n, ?_, h1, by omega⟩
      rw [unindent, hc]
      exact List.mem_map.mpr ⟨x, hx, rfl⟩

theorem mem_trimBlank {ls : List (List Char)} {x : List Char} (hx : x ∈ ls)
    (hb : isBlank x = false) : x ∈ trimBlank ls := by
  obtain ⟨pre, post, he, hpre, hpost, -, -⟩ := trimBlank_spec ls
  rw [he, List.mem_append, List.mem_append] at hx
  rcases hx with (hx | hx) | hx
  · rw [hpre x hx] at hb
    cases hb
  · exact hx
  · rw [hpost x hx] at hb
    cases hb

/-- Of several trimmed lines the last does not come from the first line. -/
theorem getLast?_trimBlank_mem {first last : List Char} {others : List (List Char)}
    (hlen : 2 ≤ (trimBlank (first :: others)).length)
    (hl : (trimBlank (first :: others)).getLast? = some last) : last ∈ others := by
  obtain ⟨pre, post, he, -, -, -, -⟩ := trimBlank_spec (first :: others)
  cases pre with
  | cons p pre =>
      rw [(List.cons.inj he).2]
      have := List.mem_of_getLast? hl
      simp [this]
  | nil =>
      cases ht : trimBlank (first :: others) with
      | nil => simp [ht] at hlen
      | cons d ds =>
          rw [ht] at he hl hlen
          rw [(List.cons.inj he).2]
          cases ds with
          | nil => simp at hlen
          | cons e es =>
              rw [List.getLast?_cons_cons] at hl
              exact List.mem_append_left _ (List.mem_of_getLast? hl)

theorem exists_of_mem_unindent {ls : List (List Char)} {x : List Char} (h : x ∈ unindent ls) :
    ∃ line ∈ ls, ∃ n, x = line.drop n := by
  obtain ⟨line, hl, rfl⟩ := List.mem_map.mp h
  exact ⟨line, hl, _, rfl⟩

/-- What is read from a block string is a text of dedented lines. -/
theorem exists_dedented {ls : List (List Char)}
    (h : ∀ line ∈ ls, ∀ c ∈ line, c ≠ '\n' ∧ c ≠ '\r') :
    ∃ ds, Dedented ds ∧ dedent ls = join ds := by
  cases ls with
  | nil => exact ⟨[], ⟨by simp, by simp, by simp, by simp⟩, rfl⟩
  | cons first others =>
      obtain ⟨pre, post, he, -, -, hfirst, hlast⟩ := trimBlank_spec (first :: unindent others)
      refine ⟨trimBlank (first :: unindent others), ⟨?_, hfirst, hlast, ?_⟩, rfl⟩
      · intro x hx c hc
        have hx' : x ∈ first :: unindent others := by
          rw [he]
          simp [hx]
        rcases List.mem_cons.mp hx' with rfl | hx'
        · exact h x (by simp) c hc
        · obtain ⟨line, hl, n, rfl⟩ := exists_of_mem_unindent hx'
          exact h line (by simp [hl]) c (List.mem_of_mem_drop hc)
      · intro hlen
        cases hlst : (trimBlank (first :: unindent others)).getLast? with
        | none =>
            rw [List.getLast?_eq_none_iff] at hlst
            simp [hlst] at hlen
        | some last =>
            have hb := hlast last hlst
            obtain ⟨line, hl, n, rfl⟩ :=
              exists_of_mem_unindent (getLast?_trimBlank_mem hlen hlst)
            have hlb : isBlank line = false := by
              cases hlb : isBlank line with
              | false => rfl
              | true =>
                  have hd : isBlank (line.drop n) = true :=
                    List.all_eq_true.mpr fun c hc =>
                      List.all_eq_true.mp hlb c (List.mem_of_mem_drop hc)
                  rw [hd] at hb
                  cases hb
            obtain ⟨x, hx, hxb, hx0⟩ := unindent_spec hl hlb
            exact ⟨x, mem_trimBlank (List.mem_cons_of_mem _ hx) hxb, hxb, hx0⟩

/-! ## Reading dedented lines again -/

/-- What stands between the last line and the closing quotes: nothing, or a line of its own. -/
def IsClosing (width : Nat) (closing : List (List Char)) : Prop :=
  closing = [] ∨ closing = [margin width]

theorem IsClosing.isBlank {width : Nat} {closing : List (List Char)} (h : IsClosing width closing) :
    ∀ x ∈ closing, isBlank x := by
  rcases h with rfl | rfl
  · simp
  · have hm := isBlank_margin_append width []
    rw [List.append_nil] at hm
    rintro x hx
    obtain rfl := List.mem_singleton.mp hx
    rw [hm]
    rfl

theorem dedent_inline {width : Nat} {line : List Char} {closing : List (List Char)}
    (hd : Dedented [line]) (hc : IsClosing width closing) : dedent (line :: closing) = line := by
  have hu : ∀ x ∈ unindent closing, isBlank x := by
    intro x hx
    obtain ⟨y, hy, n, rfl⟩ := exists_of_mem_unindent hx
    exact List.all_eq_true.mpr fun c hcx =>
      List.all_eq_true.mp (hc.isBlank y hy) c (List.mem_of_mem_drop hcx)
  have ht : trimBlank ([] ++ [line] ++ unindent closing) = [line] :=
    trimBlank_append (by simp) hu hd.first hd.last
  rw [dedent, ← List.singleton_append, ← List.nil_append [line], ht]
  rfl

theorem dedent_setOff {width : Nat} {ds closing : List (List Char)} (hd : Dedented ds)
    (hz : ∃ line ∈ ds, isBlank line = false ∧ indentOf line = 0) (hc : IsClosing width closing) :
    dedent ([] :: (ds.map (margin width ++ ·) ++ closing)) = join ds := by
  have hcommon : commonIndent (ds.map (margin width ++ ·) ++ closing) = some width := by
    refine commonIndent_eq_some.mpr ⟨?_, ?_⟩
    · obtain ⟨line, hl, hb, h0⟩ := hz
      refine ⟨margin width ++ line, ?_, ?_, ?_⟩
      · exact List.mem_append_left _ (List.mem_map.mpr ⟨line, hl, rfl⟩)
      · rw [isBlank_margin_append, hb]
      · rw [indentOf_margin_append, h0, Nat.add_zero]
    · intro line hl hb
      rcases List.mem_append.mp hl with hl | hl
      · obtain ⟨x, -, rfl⟩ := List.mem_map.mp hl
        rw [indentOf_margin_append]
        omega
      · rw [hc.isBlank line hl] at hb
        cases hb
  have hdrop : (ds.map (margin width ++ ·)).map (·.drop width) = ds := by
    have hline : ∀ line : List Char, (margin width ++ line).drop width = line := by
      intro line
      exact List.drop_left' (List.length_replicate ..)
    simp [List.map_map, Function.comp_def, hline]
  have hblank : ∀ x ∈ closing.map (·.drop width), isBlank x := by
    intro x hx
    obtain ⟨y, hy, rfl⟩ := List.mem_map.mp hx
    exact List.all_eq_true.mpr fun c hcx =>
      List.all_eq_true.mp (hc.isBlank y hy) c (List.mem_of_mem_drop hcx)
  have ht : trimBlank ([[]] ++ ds ++ closing.map (·.drop width)) = ds :=
    trimBlank_append (by simp [Block.isBlank]) hblank hd.first hd.last
  rw [dedent, unindent, hcommon]
  simp only [Option.getD_some]
  rw [List.map_append, hdrop]
  exact congrArg join ht

/-! ## The written form -/

theorem length_addFirst {cs : List Char} {ls : List (List Char)} (h : ls ≠ []) :
    (addFirst cs ls).length = ls.length := by
  cases ls with
  | nil => contradiction
  | cons line others => rfl

theorem length_lines_escapeQuotes {cs : List Char} (h : '\r' ∉ cs) :
    (lines (escapeQuotes cs)).length = (lines cs).length := by
  fun_induction escapeQuotes cs with
  | case1 rest ih =>
      have hq : ∀ c ∈ ['\\', '"', '"', '"'], c ≠ '\n' ∧ c ≠ '\r' := by simp
      have hq' : ∀ c ∈ ['"', '"', '"'], c ≠ '\n' ∧ c ≠ '\r' := by simp
      have h1 := lines_append hq (escapeQuotes rest)
      have h2 := lines_append hq' rest
      simp only [List.cons_append, List.nil_append] at h1 h2
      rw [h1, h2, length_addFirst (lines_ne_nil _), length_addFirst (lines_ne_nil _)]
      exact ih fun hr => h (by simp [hr])
  | case2 c rest _ ih =>
      have ih := ih fun hr => h (List.mem_cons_of_mem _ hr)
      by_cases hc : c = '\n'
      · subst hc
        rw [lines, lines, List.length_cons, List.length_cons, ih]
      · have hr : c ≠ '\r' := fun he => h (by simp [he])
        rw [lines_cons hc hr, lines_cons hc hr, length_addFirst (lines_ne_nil _),
          length_addFirst (lines_ne_nil _), ih]
  | case3 => rfl

theorem escapeQuotes_cons {c : Char} {cs : List Char}
    (h : ∀ tail, c :: cs ≠ '"' :: '"' :: '"' :: tail) :
    escapeQuotes (c :: cs) = c :: escapeQuotes cs := by
  rw [escapeQuotes]
  rintro tail rfl rfl
  exact h tail rfl

theorem escapeQuotes_append {pre : List Char} (h : ∀ c ∈ pre, c ≠ '"') (cs : List Char) :
    escapeQuotes (pre ++ cs) = pre ++ escapeQuotes cs := by
  induction pre with
  | nil => rfl
  | cons c pre ih =>
      rw [List.cons_append, escapeQuotes_cons, ih fun d hd => h d (by simp [hd]), List.cons_append]
      rintro tail he
      exact h c (by simp) (List.cons.inj he).1

theorem head?_shiftBy (width : Nat) (cs : List Char) : (shiftBy width cs).head? = cs.head? := by
  cases cs with
  | nil => rfl
  | cons c cs => by_cases hc : c = '\n' <;> simp [shiftBy, hc]

theorem escapeQuotes_shiftBy (width : Nat) (cs : List Char) :
    escapeQuotes (shiftBy width cs) = shiftBy width (escapeQuotes cs) := by
  fun_induction escapeQuotes cs with
  | case1 rest ih =>
      have hq : ∀ ds, shiftBy width ('"' :: ds) = '"' :: shiftBy width ds :=
        fun ds => shiftBy_cons (by decide)
      rw [hq, hq, hq, escapeQuotes, ih, shiftBy_cons (by decide), hq, hq, hq]
  | case2 c rest h ih =>
      by_cases hc : c = '\n'
      · subst hc
        have hm : ∀ c ∈ '\n' :: margin width, c ≠ '"' := by
          intro c hc
          rcases List.mem_cons.mp hc with rfl | hc
          · decide
          · obtain rfl := List.eq_of_mem_replicate hc
            decide
        rw [shiftBy_newline, shiftBy_newline, ← List.cons_append, escapeQuotes_append hm, ih]
        rfl
      · rw [shiftBy_cons hc, shiftBy_cons hc, escapeQuotes_cons, ih]
        rintro tail he
        obtain ⟨rfl, ht⟩ := List.cons.inj he
        match rest with
        | [] => simp at ht
        | a :: more =>
            have ha := head?_shiftBy width (a :: more)
            rw [ht] at ha
            obtain rfl : '"' = a := by simpa using ha
            rw [shiftBy_cons (by decide)] at ht
            have hb := head?_shiftBy width more
            rw [(List.cons.inj ht).2] at hb
            cases more with
            | nil => simp at hb
            | cons b more =>
                obtain rfl : '"' = b := by simpa using hb
                exact h more rfl rfl
  | case3 => rfl

theorem escapeQuotes_newline (cs : List Char) :
    escapeQuotes (cs ++ ['\n']) = escapeQuotes cs ++ ['\n'] := by
  fun_induction escapeQuotes cs with
  | case1 rest ih => simp only [List.cons_append, escapeQuotes, ih]
  | case2 c rest h ih =>
      rw [List.cons_append, escapeQuotes_cons, ih, List.cons_append]
      rintro tail he
      match rest with
      | [] | [_] => simp at he
      | a :: b :: more => exact h more (by simp_all) (by simp_all)
  | case3 => rfl

/-- What is put before and after a text in triple quotes. -/
structure SetOff (text before after : List Char) : Prop where
  isBefore : before = [] ∨ before = ['\n']
  isAfter : after = [] ∨ after = ['\n']
  closed : after = [] → text.getLast? ≠ some '"' ∧ text.getLast? ≠ some '\\'
  several : (lines text).length ≠ 1 → before = ['\n']
  single : before = ['\n'] → (lines text).length = 1 → (text.take 1).all isIndent = false

theorem endsIn_iff {c : Char} {text : List Char} : endsIn [c] text ↔ text.getLast? = some c := by
  rw [endsIn, List.isSuffixOf_iff_suffix, List.getLast?_eq_some_iff]
  exact ⟨fun ⟨ys, h⟩ => ⟨ys, h.symm⟩, fun ⟨ys, h⟩ => ⟨ys, h.symm⟩⟩

theorem setOff_quote {value : List Char} (hr : '\r' ∉ value) :
    SetOff value (if breaksBefore value then ['\n'] else [])
      (if breaksAfter value then ['\n'] else []) := by
  have hs : isSingle value = ((lines value).length == 1) := by
    rw [isSingle, length_lines_escapeQuotes hr]
  refine ⟨by split <;> simp, by split <;> simp, fun h => ?_, fun h => ?_, fun h h1 => ?_⟩
  · have hb : breaksAfter value = false := by
      cases hb : breaksAfter value with
      | false => rfl
      | true => simp [hb] at h
    simp only [breaksAfter, isApart, Bool.or_eq_false_iff] at hb
    obtain ⟨⟨-, ht⟩, hrun⟩ := hb
    simp only [runsOn, ht, Bool.not_false, Bool.and_true, Bool.or_eq_false_iff] at hrun
    have hend : ∀ c, endsIn [c] value = false → value.getLast? ≠ some c := by
      intro c hc hl
      rw [← endsIn_iff, hc] at hl
      cases hl
    exact ⟨hend _ hrun.1, hend _ hrun.2⟩
  · have hn : isSingle value = false := by
      rw [hs]
      simpa using h
    simp [breaksBefore, isApart, hn]
  · have hb : breaksBefore value = true := by
      cases hb : breaksBefore value with
      | false => simp [hb] at h
      | true => rfl
    have hn : isSingle value = true := by
      rw [hs, h1]
      rfl
    simp only [breaksBefore, hn, Bool.not_true, Bool.false_and, Bool.or_false, Bool.true_and,
      Bool.and_eq_true, Bool.not_eq_true'] at hb
    exact hb.2

theorem toList_quote (text : String) : (quote text).toList = ['"', '"', '"'] ++
    escapeQuotes ((if breaksBefore text.toList then ['\n'] else []) ++ text.toList
      ++ (if breaksAfter text.toList then ['\n'] else [])) ++ ['"', '"', '"'] := by
  have hline : ∀ b : Bool, (if b then "\n" else "").toList = if b then ['\n'] else [] := by
    intro b
    cases b <;> rfl
  have hb : ∀ cs, escapeQuotes ('\n' :: cs) = '\n' :: escapeQuotes cs := fun cs =>
    escapeQuotes_cons (by simp)
  simp only [quote, String.toList_append, String.toList_ofList, hline]
  cases breaksBefore text.toList <;> cases breaksAfter text.toList <;>
    simp [hb, escapeQuotes_newline]

/-! ## Reading the written form -/

theorem dedent_blank {ls : List (List Char)} (h : ∀ x ∈ ls, isBlank x) : dedent ls = [] := by
  cases ls with
  | nil => rfl
  | cons first others =>
      have hb : ∀ x ∈ first :: unindent others, isBlank x := by
        intro x hx
        rcases List.mem_cons.mp hx with rfl | hx
        · exact h x (by simp)
        · obtain ⟨line, hl, n, rfl⟩ := exists_of_mem_unindent hx
          exact List.all_eq_true.mpr fun c hc =>
            List.all_eq_true.mp (h line (by simp [hl])) c (List.mem_of_mem_drop hc)
      have ht : trimBlank ((first :: unindent others) ++ [] ++ []) = [] :=
        trimBlank_append hb (by simp) (by simp) (by simp)
      rw [List.append_nil, List.append_nil] at ht
      rw [dedent, ht]
      rfl

theorem join_append_newline {ds : List (List Char)} (h : ds ≠ []) :
    join ds ++ ['\n'] = join (ds ++ [[]]) := by
  match ds with
  | [line] => rfl
  | line :: next :: others =>
      have ih : join (next :: others) ++ ['\n'] = join (next :: others ++ [[]]) :=
        join_append_newline (by simp)
      rw [join, List.append_assoc, List.cons_append, ih]
      · rfl
      · simp

theorem mem_join {ds : List (List Char)} {c : Char} (h : c ∈ join ds) :
    c = '\n' ∨ ∃ line ∈ ds, c ∈ line := by
  match ds with
  | [] => cases h
  | [line] => exact .inr ⟨line, by simp, h⟩
  | line :: next :: others =>
      rw [join] at h
      · rcases List.mem_append.mp h with h | h
        · exact .inr ⟨line, by simp, h⟩
        · rcases List.mem_cons.mp h with rfl | h
          · exact .inl rfl
          · rcases mem_join h with rfl | ⟨x, hx, hc⟩
            · exact .inl rfl
            · exact .inr ⟨x, List.mem_cons_of_mem _ hx, hc⟩
      · simp

theorem Dedented.no_return {ds : List (List Char)} (h : Dedented ds) : '\r' ∉ join ds := by
  intro hc
  rcases mem_join hc with hc | ⟨line, hl, hc⟩
  · cases hc
  · exact (h.noEnds line hl _ hc).2 rfl

/-- The lines of dedented text before its closing quotes. -/
theorem lines_join_after {ds : List (List Char)} {after : List Char} (hd : Dedented ds)
    (hne : ds ≠ []) (ha : after = [] ∨ after = ['\n']) :
    lines (join ds ++ after) = ds ++ if after = [] then [] else [[]] := by
  rcases ha with rfl | rfl
  · simp [lines_join hne hd.noEnds]
  · rw [join_append_newline hne, lines_join (by simp)]
    · simp
    · intro line hl
      rcases List.mem_append.mp hl with hl | hl
      · exact hd.noEnds line hl
      · simp [List.mem_singleton.mp hl]

theorem Dedented.exists_unindented {ds : List (List Char)} (hd : Dedented ds) (hne : ds ≠ [])
    (hs : ds.length = 1 → ((join ds).take 1).all isIndent = false) :
    ∃ line ∈ ds, isBlank line = false ∧ indentOf line = 0 := by
  match ds with
  | [line] =>
      have hi := hs rfl
      refine ⟨line, by simp, hd.first line rfl, ?_⟩
      cases line with
      | nil => rfl
      | cons c line =>
          have hc : isIndent c = false := by simpa [join] using hi
          simp [indentOf, hc]
  | _ :: _ :: _ => exact hd.unindented (by simp)

/-- A dedented text is what is read from its written form, at any indentation. -/
theorem dedent_lines_setOff {ds : List (List Char)} {before after : List Char} {width : Nat}
    (hd : Dedented ds) (hs : SetOff (join ds) before after) :
    dedent (lines (shiftBy width (before ++ join ds ++ after))) = join ds := by
  have hr : '\r' ∉ before ++ join ds ++ after := by
    rcases hs.isBefore with rfl | rfl <;> rcases hs.isAfter with rfl | rfl <;>
      simp [hd.no_return]
  rw [lines_shiftBy hr]
  by_cases hne : ds = []
  · subst hne
    refine dedent_blank ?_
    have h0 : isBlank [] := rfl
    have hm : isBlank (margin width) := by
      have hm := isBlank_margin_append width []
      rwa [List.append_nil] at hm
    rcases hs.isBefore with rfl | rfl <;> rcases hs.isAfter with rfl | rfl <;>
      simp [join, lines, indentOthers, h0, hm]
  · have hl := lines_join_after hd hne hs.isAfter
    have hlen := congrArg List.length (lines_join hne hd.noEnds)
    have hc : IsClosing width
        (((if after = [] then [] else [[]]) : List (List Char)).map (margin width ++ ·)) := by
      split
      · exact .inl rfl
      · exact .inr (by simp)
    rcases hs.isBefore with rfl | rfl
    · have hsingle : ds.length = 1 := by
        cases Nat.decEq (lines (join ds)).length 1 with
        | isTrue h => rw [← hlen, h]
        | isFalse h => cases hs.several h
      obtain ⟨line, rfl⟩ := List.length_eq_one_iff.mp hsingle
      rw [List.nil_append, hl]
      exact dedent_inline hd hc
    · have hz := hd.exists_unindented hne fun h => hs.single rfl (hlen.trans h)
      rw [List.append_assoc, List.singleton_append, lines, hl, indentOthers, List.map_append]
      exact dedent_setOff hd hz hc

end SdlAssembly.Text.Block
