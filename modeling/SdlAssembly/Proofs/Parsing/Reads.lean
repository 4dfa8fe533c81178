import SdlAssembly.Proofs.Lexing.Spelling
import SdlAssembly.Proofs.Parsing.Accepts

/-!
# What parsers read

Given the lexemes of something that can be written, a parser takes them all and gives it back,
unless it does not fit in the levels that the parser allows. What follows matters only by its first
lexeme, since a parser looks no further.
-/

namespace SdlAssembly.Grammar.Parser

open Text Lexer

/-- On lexemes `ls` before `next`, a parser takes `ls` and gives back a result in `Q`, and it does
so exactly if what it reads fits. -/
def Reads {α : Type} (p : Parser α) (ls : List Lexeme) (next : Lexeme) (fits : Prop)
    (Q : α → Prop) : Prop :=
  ∀ ts rest, ts.map (·.lexeme) = ls ++ next :: rest →
    (∀ l ∈ ls ++ next :: rest, ∀ e, l ≠ .fault e) →
    match p ts with
    | .ok (a, ts') => ts'.map (·.lexeme) = next :: rest ∧ Q a ∧ fits
    | .error _ => ¬fits

section Rules

variable {α β : Type} {p : Parser α} {f : α → Parser β} {ls ls' : List Lexeme} {next : Lexeme}
  {fits fits' : Prop} {Q Q' : α → Prop} {R : β → Prop}

theorem Reads.mono (h : Reads p ls next fits Q) (hf : fits ↔ fits') (hQ : ∀ a, Q a → Q' a) :
    Reads p ls next fits' Q' := by
  intro ts rest hts hn
  have hp := h ts rest hts hn
  split at hp
  · exact ⟨hp.1, hQ _ hp.2.1, hf.mp hp.2.2⟩
  · exact fun hc => hp (hf.mpr hc)

theorem Reads.pure {a : α} (h : Q a) : Reads (pure a) [] next True Q :=
  fun _ _ hts _ => ⟨hts, h, trivial⟩

theorem Reads.bind (hp : Reads p ls (ls'.headD next) fits Q)
    (hf : ∀ a, Q a → Reads (f a) ls' next fits' R) :
    Reads (p >>= f) (ls ++ ls') next (fits ∧ fits') R := by
  intro ts rest hts hn
  obtain ⟨more, hm⟩ : ∃ more, ls' ++ next :: rest = ls'.headD next :: more := by
    cases ls' with
    | nil => exact ⟨rest, rfl⟩
    | cons l ls' => exact ⟨ls' ++ next :: rest, rfl⟩
  rw [List.append_assoc, hm] at hts hn
  have h := hp ts more hts hn
  rw [bind_apply]
  cases hr : p ts with
  | error e =>
      rw [hr] at h
      exact fun hc => h hc.1
  | ok r =>
      rw [hr] at h
      obtain ⟨a, ts'⟩ := r
      obtain ⟨hts', hq, hfit⟩ := h
      rw [← hm] at hts' hn
      have hn' : ∀ l ∈ ls' ++ next :: rest, ∀ e, l ≠ .fault e :=
        fun l hl => hn l (List.mem_append_right ls hl)
      have h' := hf a hq ts' rest hts' hn'
      dsimp only
      cases hb : f a ts' with
      | error e =>
          rw [hb] at h'
          exact fun hc => h' hc.2
      | ok r =>
          rw [hb] at h'
          exact ⟨h'.1, h'.2.1, hfit, h'.2.2⟩

/-- The first parser always goes through. -/
theorem Reads.bind_true (hp : Reads p ls (ls'.headD next) True Q)
    (hf : ∀ a, Q a → Reads (f a) ls' next fits R) : Reads (p >>= f) (ls ++ ls') next fits R :=
  (hp.bind hf).mono (by simp) fun _ h => h

/-- The first parser takes nothing. -/
theorem Reads.look (hp : Reads p [] (ls.headD next) True Q)
    (hf : ∀ a, Q a → Reads (f a) ls next fits R) : Reads (p >>= f) ls next fits R :=
  hp.bind_true hf

/-- The first parser takes one lexeme. -/
theorem Reads.step {l : Lexeme} (hp : Reads p [l] (ls.headD next) True Q)
    (hf : ∀ a, Q a → Reads (f a) ls next fits R) : Reads (p >>= f) (l :: ls) next fits R :=
  hp.bind_true hf

/-- The last parser takes all lexemes that are left. -/
theorem Reads.last {g : α → β} (h : Reads p ls next fits Q) (hR : ∀ a, Q a → R (g a)) :
    Reads (p >>= fun a => Pure.pure (g a)) ls next fits R := by
  rw [← List.append_nil ls]
  exact (h.bind fun a hq => .pure (hR a hq)).mono (by simp) fun _ h => h

theorem Reads.map {g : α → β} (h : Reads p ls next fits Q) (hR : ∀ a, Q a → R (g a)) :
    Reads (g <$> p) ls next fits R := by
  rw [map_eq_bind]
  exact h.last hR

theorem Reads.failAt {t : Token} {e : SyntaxFault} (h : ¬fits) :
    Reads (failAt t e) ls next fits Q :=
  fun _ _ _ _ => h

/-- Nothing is read where the first parser fails. -/
theorem Reads.bind_none (hp : Reads p [] (ls.headD next) False fun _ => False) :
    Reads (p >>= f) ls next False R :=
  (hp.bind fun _ h => h.elim).mono (by simp : False ∧ True ↔ False) fun _ h => h

theorem reads_current : Reads current [] next True fun t => t.lexeme = next := by
  intro ts rest hts _
  cases ts with
  | nil => cases hts
  | cons t ts => exact ⟨hts, (List.cons.inj hts).1, trivial⟩

theorem reads_advance {l : Lexeme} : Reads advance [l] next True fun t => t.lexeme = l := by
  intro ts rest hts hn
  cases ts with
  | nil => cases hts
  | cons t ts =>
      obtain ⟨ht, hts'⟩ := List.cons.inj hts
      cases ts with
      | nil => cases hts'
      | cons u ts =>
          obtain ⟨l', offset, place⟩ := u
          have hl : l' = next := (List.cons.inj hts').1
          have hu : ∀ e, l' ≠ .fault e := hl ▸ hn next (by simp)
          cases l' with
          | fault e => exact (hu e rfl).elim
          | _ => exact ⟨hts', ht, trivial⟩

/-- Looking at the current token. -/
theorem Reads.current {f : Token → Parser β}
    (h : ∀ t, t.lexeme = ls.headD next → Reads (f t) ls next fits R) :
    Reads (current >>= f) ls next fits R :=
  reads_current.look h

theorem Reads.take {a : α} {l : Lexeme} (h : Q a) :
    Reads (advance *> Pure.pure a) [l] next True Q := by
  rw [seqRight_eq_bind]
  exact reads_advance.step fun _ _ => .pure h

theorem reads_discard {l : Lexeme} : Reads (discard advance) [l] next True fun _ => True := by
  rw [discard_eq]
  exact reads_advance.step fun _ _ => .pure trivial

end Rules

/-! ## Single tokens -/

section Tokens

variable {next : Lexeme}

theorem reads_sees (p : Punctuator) :
    Reads (sees p) [] next True fun b => b = (next == .punctuator p) := by
  refine .current fun t ht => .pure ?_
  rw [ht]
  rfl

theorem reads_expect (p : Punctuator) :
    Reads (expect p) [.punctuator p] next True fun _ => True := by
  refine .current fun t ht => ?_
  have ht : t.lexeme = .punctuator p := ht
  rw [ht, beq_self_eq_true, if_pos rfl]
  exact reads_discard

theorem reads_skip (p : Punctuator) :
    Reads (skip p) [.punctuator p] next True fun b => b = true := by
  have hs : Reads (sees p) [] (List.headD [.punctuator p] next) True fun b => b = true :=
    (reads_sees p).mono .rfl fun b hb => by simpa using hb
  refine hs.look fun b hb => ?_
  rw [hb, if_pos rfl]
  exact reads_discard.step fun _ _ => .pure rfl

theorem reads_skip_none {p : Punctuator} (h : next ≠ .punctuator p) :
    Reads (skip p) [] next True fun b => b = false := by
  refine (reads_sees p).look fun b hb => ?_
  have hb : b = false := hb.trans (beq_eq_false_iff_ne.mpr h)
  rw [hb]
  exact .pure rfl

theorem reads_name {text : String} :
    Reads name [.name text] next True fun a => a = text := by
  refine .current fun t ht => ?_
  have ht : t.lexeme = .name text := ht
  rw [ht]
  exact reads_discard.step fun _ _ => .pure rfl

theorem reads_name_none (h : ∀ text, next ≠ .name text) :
    Reads name [] next False fun _ => False := by
  refine .current fun t ht => ?_
  have ht : t.lexeme = next := ht
  split
  · rename_i text hl
    exact (h text (ht ▸ hl)).elim
  · exact .failAt id

theorem reads_seesName {text : String} :
    Reads seesName [] (.name text) True fun b => b = true := by
  refine .current fun t ht => ?_
  have ht : t.lexeme = .name text := ht
  rw [ht]
  exact .pure rfl

theorem reads_seesName_none (h : ∀ text, next ≠ .name text) :
    Reads seesName [] next True fun b => b = false := by
  refine .current fun t ht => ?_
  have ht : t.lexeme = next := ht
  split
  · rename_i text hn
    exact (h text (ht ▸ hn)).elim
  · exact .pure rfl

theorem reads_keyword (text : String) :
    Reads (keyword text) [.name text] next True fun _ => True := by
  refine .current fun t ht => ?_
  have ht : t.lexeme = .name text := ht
  rw [ht, beq_self_eq_true, if_pos rfl]
  exact reads_discard

theorem reads_skipKeyword (text : String) :
    Reads (skipKeyword text) [.name text] next True fun b => b = true := by
  refine .current fun t ht => ?_
  have ht : t.lexeme = .name text := ht
  rw [ht, beq_self_eq_true, if_pos rfl]
  exact reads_discard.step fun _ _ => .pure rfl

theorem reads_skipKeyword_none {text : String} (h : next ≠ .name text) :
    Reads (skipKeyword text) [] next True fun b => b = false := by
  refine .current fun t ht => ?_
  have ht : t.lexeme = next := ht
  rw [ht, beq_eq_false_iff_ne.mpr h]
  exact .pure rfl

end Tokens

/-! ## Sequences -/

section Sequences

variable {α β γ : Type} {item : Parser α} {lex : α → List Lexeme} {fit : α → Prop} {view : α → γ}
  {begins : Lexeme → Prop} {next : Lexeme} {fits : Prop} {R : β → Prop} {xs : List α}

/-- The tokens that are left are enough to count what is read. -/
theorem Reads.bound {f : List Token → Parser β} {ls : List Lexeme}
    (h : ∀ b, ls.length < b.length → Reads (f b) ls next fits R) :
    Reads (bound >>= f) ls next fits R := by
  intro ts rest hts hn
  have hlen := congrArg List.length hts
  simp only [List.length_map, List.length_append, List.length_cons] at hlen
  exact h (noToken :: ts) (by simp; omega) ts rest hts hn

/-- Items that a parser reads one by one: `begins` tells a lexeme that starts an item from the one
that comes after the last. -/
structure ReadsItems (item : Parser α) (lex : α → List Lexeme) (fit : α → Prop) (view : α → γ)
    (begins : Lexeme → Prop) (last : Lexeme) (xs : List α) : Prop where
  reads : ∀ x ∈ xs, ∀ next, next = last ∨ begins next →
    Reads item (lex x) next (fit x) fun a => view a = view x
  first : ∀ x ∈ xs, ∃ l rest, lex x = l :: rest ∧ begins l
  apart : ¬begins last

theorem ReadsItems.tail {x : α} {last : Lexeme}
    (h : ReadsItems item lex fit view begins last (x :: xs)) :
    ReadsItems item lex fit view begins last xs :=
  ⟨fun y hy => h.reads y (List.mem_cons_of_mem x hy),
    fun y hy => h.first y (List.mem_cons_of_mem x hy), h.apart⟩

theorem ReadsItems.length_le {last : Lexeme} (h : ReadsItems item lex fit view begins last xs) :
    xs.length ≤ (xs.flatMap lex).length := by
  induction xs with
  | nil => exact Nat.zero_le _
  | cons x xs ih =>
      obtain ⟨l, rest, hl, -⟩ := h.first x (by simp)
      have ih := ih h.tail
      simp only [List.flatMap_cons, List.length_append, List.length_cons, hl]
      omega

/-- What comes after an item. -/
theorem ReadsItems.head {last : Lexeme} (h : ReadsItems item lex fit view begins last xs) :
    (xs.flatMap lex).headD last = last ∨ begins ((xs.flatMap lex).headD last) := by
  cases xs with
  | nil => exact .inl rfl
  | cons x xs =>
      obtain ⟨l, rest, hl, hb⟩ := h.first x (by simp)
      rw [List.flatMap_cons, hl]
      exact .inr hb

theorem ReadsItems.head_begins {last : Lexeme}
    (h : ReadsItems item lex fit view begins last xs) (hne : xs ≠ []) :
    begins ((xs.flatMap lex).headD last) := by
  cases xs with
  | nil => contradiction
  | cons x xs =>
      obtain ⟨l, rest, hl, hb⟩ := h.first x (by simp)
      rw [List.flatMap_cons, hl]
      exact hb

theorem headD_append_singleton (ls : List Lexeme) (l next : Lexeme) :
    (ls ++ [l]).headD next = ls.headD l := by
  cases ls <;> rfl

theorem reads_itemsUpTo {close : Punctuator}
    (h : ReadsItems item lex fit view begins (.punctuator close) xs) (hne : xs ≠ [])
    {bound : List Token} (hb : xs.length < bound.length) :
    Reads (itemsUpTo close item bound) (xs.flatMap lex ++ [.punctuator close]) next
      (∀ x ∈ xs, fit x) fun as => as.map view = xs.map view := by
  induction xs generalizing bound with
  | nil => contradiction
  | cons x xs ih =>
      cases bound with
      | nil => cases hb
      | cons b bound =>
          have hfits : (fit x ∧ ∀ y ∈ xs, fit y) ↔ ∀ y ∈ x :: xs, fit y := by simp
          have hx := h.reads x (by simp) ((xs.flatMap lex ++ [Lexeme.punctuator close]).headD next)
            (by
              rw [headD_append_singleton]
              exact h.tail.head)
          rw [List.flatMap_cons, List.append_assoc]
          refine (hx.bind fun a ha => ?_).mono hfits fun _ h => h
          by_cases hxs : xs = []
          · subst hxs
            refine ((reads_skip close).step fun b hb => ?_).mono (by simp : True ↔ _)
              fun _ h => h
            rw [hb, if_pos rfl]
            exact .pure (by simp [ha])
          · have hs : Reads (skip close) [] ((xs.flatMap lex ++ [Lexeme.punctuator close]).headD next)
                True fun b => b = false := by
              refine reads_skip_none fun he => ?_
              rw [headD_append_singleton] at he
              exact h.apart (he ▸ h.tail.head_begins hxs)
            refine hs.look fun b hb' => ?_
            rw [hb', if_neg (by simp)]
            exact (ih h.tail hxs (by simpa using hb)).last fun as has => by simp [ha, has]

theorem reads_many {opening close : Punctuator}
    (h : ReadsItems item lex fit view begins (.punctuator close) xs) (hne : xs ≠ []) :
    Reads (many opening close item)
      (.punctuator opening :: (xs.flatMap lex ++ [.punctuator close])) next
      (∀ x ∈ xs, fit x) fun as => as.map view = xs.map view := by
  refine (reads_expect opening).step fun _ _ => .bound fun b hb => ?_
  refine reads_itemsUpTo h hne ?_
  have hl := h.length_le
  rw [List.length_append] at hb
  omega

/-- There must be an item. -/
theorem reads_many_none {opening close : Punctuator} {Q : List α → Prop}
    (h : Reads item [] (.punctuator close) False fun _ => False) :
    Reads (many opening close item) [.punctuator opening, .punctuator close] next False Q := by
  refine (reads_expect opening).step fun _ _ => .bound fun b hb => ?_
  cases b with
  | nil => cases hb
  | cons t b => exact .bind_none h

theorem reads_optionalMany {opening close : Punctuator}
    (h : ReadsItems item lex fit view begins (.punctuator close) xs)
    (hn : next ≠ .punctuator opening) :
    Reads (optionalMany opening close item) (enclosed opening close (xs.map lex)) next
      (∀ x ∈ xs, fit x) fun as => as.map view = xs.map view := by
  by_cases hxs : xs = []
  · subst hxs
    refine ((reads_sees opening).look fun b hb => ?_).mono (by simp : True ↔ _) fun _ h => h
    have hb : b = false := hb.trans (beq_eq_false_iff_ne.mpr hn)
    rw [hb]
    exact .pure rfl
  · have he : enclosed opening close (xs.map lex) =
        .punctuator opening :: (xs.flatMap lex ++ [.punctuator close]) := by
      simp [enclosed, hxs, List.flatMap_def]
    rw [he]
    refine (reads_sees opening).look fun b hb => ?_
    have hb : b = true := by simpa using hb
    rw [hb, if_pos rfl]
    exact reads_many h hxs

theorem reads_anyNumber {opening close : Punctuator}
    (h : ReadsItems item lex fit view begins (.punctuator close) xs) :
    Reads (anyNumber opening close item)
      (.punctuator opening :: (xs.flatMap lex ++ [.punctuator close])) next
      (∀ x ∈ xs, fit x) fun as => as.map view = xs.map view := by
  refine (reads_expect opening).step fun _ _ => ?_
  by_cases hxs : xs = []
  · subst hxs
    refine ((reads_skip close).step fun b hb => ?_).mono (by simp : True ↔ _) fun _ h => h
    rw [hb, if_pos rfl]
    exact .pure rfl
  · have hs : Reads (skip close) []
        ((xs.flatMap lex ++ [Lexeme.punctuator close]).headD next) True fun b => b = false := by
      refine reads_skip_none fun he => ?_
      rw [headD_append_singleton] at he
      exact h.apart (he ▸ h.head_begins hxs)
    refine hs.look fun b hb => ?_
    rw [hb, if_neg (by simp)]
    refine .bound fun b hb => reads_itemsUpTo h hxs ?_
    have hl := h.length_le
    rw [List.length_append] at hb
    omega

theorem reads_whileSees {starts : Punctuator}
    (h : ReadsItems item lex fit view (· = .punctuator starts) next xs) :
    Reads (whileSees starts item) (xs.flatMap lex) next (∀ x ∈ xs, fit x)
      fun as => as.map view = xs.map view := by
  have hupTo : ∀ bound, xs.length < bound.length →
      Reads (whileUpTo starts item bound) (xs.flatMap lex) next (∀ x ∈ xs, fit x)
        fun as => as.map view = xs.map view := by
    intro bound hb
    induction xs generalizing bound with
    | nil =>
        cases bound with
        | nil => cases hb
        | cons b bound =>
            refine ((reads_sees starts).look fun b hb => ?_).mono (by simp : True ↔ _)
              fun _ h => h
            have hb : b = false := hb.trans (beq_eq_false_iff_ne.mpr h.apart)
            rw [hb]
            exact .pure rfl
    | cons x xs ih =>
        cases bound with
        | nil => cases hb
        | cons b bound =>
            have hfits : (fit x ∧ ∀ y ∈ xs, fit y) ↔ ∀ y ∈ x :: xs, fit y := by simp
            have hx := h.reads x (by simp) _ h.tail.head
            have hrest := ih h.tail bound (by simpa using hb)
            refine (reads_sees starts).look fun b hb => ?_
            have hb : b = true := by
              rw [hb, h.head_begins (by simp)]
              exact beq_self_eq_true _
            rw [hb, if_pos rfl, List.flatMap_cons]
            refine (hx.bind fun a ha => ?_).mono hfits fun _ h => h
            exact hrest.last fun as has => by simp [ha, has]
  exact .bound fun b hb => hupTo b (Nat.lt_of_le_of_lt h.length_le hb)

end Sequences

end SdlAssembly.Grammar.Parser
