import SdlAssembly.Grammar.Parser.Basic
import SdlAssembly.Proofs.Lexing.Lexemes

/-!
# What parsers accept

A parser that succeeds has taken some lexemes off the front of its tokens, and its result is one
that they write. Each parser gets one lemma about this, and the lemmas of combined parsers are put
together from those of their parts.
-/

namespace SdlAssembly.Grammar.Parser

open Text Lexer

/-! ## Tokens of a text -/

/-- Lexemes that are neither the end of a text nor a fault. -/
def IsWord (l : Lexeme) : Prop := Formed l ∧ l ≠ .endOfText ∧ ∀ e, l ≠ .fault e

/-- The tokens of a text from a word on: at the end of the text or at a fault they end, and the
places of all the others satisfy `P`. -/
inductive Stream (P : Option Position → Prop) : List Token → Prop where
  | endOfText {t : Token} (hl : t.lexeme = .endOfText) (hp : P t.position) : Stream P [t]
  | fault {t u : Token} {e : LexicalFault} (hl : IsWord t.lexeme) (hp : P t.position)
      (hu : u.lexeme = .fault e) : Stream P [t, u]
  | word {t : Token} {ts : List Token} (hl : IsWord t.lexeme) (hp : P t.position)
      (hts : Stream P ts) : Stream P (t :: ts)

variable {P : Option Position → Prop} {t : Token} {ts ts' : List Token} {α β : Type}

theorem Stream.place (h : Stream P (t :: ts)) : P t.position := by
  cases h <;> assumption

theorem Stream.formed (h : Stream P (t :: ts)) : Formed t.lexeme := by
  cases h with
  | endOfText hl =>
      rw [hl]
      trivial
  | fault hl => exact hl.1
  | word hl => exact hl.1

theorem Stream.ne_nil (h : Stream P ts) : ts ≠ [] := by
  rintro rfl
  cases h

theorem Stream.no_fault (h : Stream P (t :: ts)) : ∀ e, t.lexeme ≠ .fault e := by
  cases h with
  | endOfText hl => simp [hl]
  | fault hl => exact hl.2.2
  | word hl => exact hl.2.2

theorem Stream.advance {a : Token} (h : Stream P (t :: ts)) (hl : t.lexeme ≠ .endOfText)
    (ha : Parser.advance (t :: ts) = .ok (a, ts')) : a = t ∧ ts' = ts ∧ Stream P ts := by
  cases h with
  | endOfText he => contradiction
  | @fault _ u e _ _ hu =>
      obtain ⟨l, offset, place⟩ := u
      cases hu
      cases ha
  | word _ _ hts =>
      cases ts with
      | nil => cases hts
      | cons u rest =>
          obtain ⟨l, offset, place⟩ := u
          have hn := hts.no_fault
          unfold Parser.advance at ha
          split at ha
          · rename_i heq
            cases heq
            exact (hn _ rfl).elim
          · rename_i heq
            cases heq
            cases ha
            exact ⟨rfl, rfl, hts⟩
          · rename_i heq
            cases heq
          · rename_i heq
            cases heq

/-! ## Running parsers -/

theorem bind_apply (p : Parser α) (f : α → Parser β) (ts : List Token) :
    (p >>= f) ts = match p ts with
      | .ok (a, rest) => f a rest
      | .error e => .error e := by
  change StateT.bind p f ts = _
  unfold StateT.bind
  cases p ts <;> rfl

theorem bind_eq_ok {p : Parser α} {f : α → Parser β} {r : β × List Token}
    (h : (p >>= f) ts = .ok r) : ∃ a rest, p ts = .ok (a, rest) ∧ f a rest = .ok r := by
  rw [bind_apply] at h
  split at h
  · rename_i a rest hp
    exact ⟨a, rest, hp, h⟩
  · cases h

theorem map_eq_bind (f : α → β) (p : Parser α) : f <$> p = p >>= fun a => pure (f a) :=
  map_eq_pure_bind f p

/-! ## Acceptance -/

/-- At the token `t`, a parser that succeeds has taken lexemes that with its result are in `Q`. -/
def AcceptsAt (P : Option Position → Prop) (t : Token) (p : Parser α)
    (Q : List Lexeme → α → Prop) : Prop :=
  ∀ ts a ts', Stream P (t :: ts) → p (t :: ts) = .ok (a, ts') →
    Stream P ts' ∧ ∃ ls, (t :: ts).map (·.lexeme) = ls ++ ts'.map (·.lexeme) ∧ Q ls a

def Accepts (P : Option Position → Prop) (p : Parser α) (Q : List Lexeme → α → Prop) : Prop :=
  ∀ t, AcceptsAt P t p Q

section Rules

variable {p : Parser α} {f : α → Parser β} {Q Q' : List Lexeme → α → Prop}
  {R : List Lexeme → β → Prop}

theorem AcceptsAt.of_word (h : P t.position → Formed t.lexeme → AcceptsAt P t p Q) :
    AcceptsAt P t p Q :=
  fun ts a ts' hs hp => h hs.place hs.formed ts a ts' hs hp

theorem AcceptsAt.mono (h : AcceptsAt P t p Q) (hQ : ∀ ls a, Q ls a → Q' ls a) :
    AcceptsAt P t p Q' := by
  intro ts a ts' hs hp
  obtain ⟨hs', ls, hl, hq⟩ := h ts a ts' hs hp
  exact ⟨hs', ls, hl, hQ ls a hq⟩

theorem Accepts.mono (h : Accepts P p Q) (hQ : ∀ ls a, Q ls a → Q' ls a) : Accepts P p Q' :=
  fun t => (h t).mono hQ

/-- The first lexeme that is taken is that of the current token. -/
theorem AcceptsAt.head (h : AcceptsAt P t p Q) :
    AcceptsAt P t p fun ls a => Q ls a ∧ ∀ l ∈ ls.head?, t.lexeme = l := by
  intro ts a ts' hs hp
  obtain ⟨hs', ls, hl, hq⟩ := h ts a ts' hs hp
  refine ⟨hs', ls, hl, hq, fun l hm => ?_⟩
  cases ls with
  | nil => cases hm
  | cons l' ls =>
      cases hm
      exact (List.cons.inj hl).1

theorem AcceptsAt.bind (hp : AcceptsAt P t p Q)
    (hf : ∀ ls a, Q ls a → Accepts P (f a) fun ls' b => R (ls ++ ls') b) :
    AcceptsAt P t (p >>= f) R := by
  intro ts b ts' hs h
  obtain ⟨a, rest, ha, hb⟩ := bind_eq_ok h
  obtain ⟨hrest, ls, hl, hq⟩ := hp ts a rest hs ha
  cases rest with
  | nil => cases hrest
  | cons u rest =>
      obtain ⟨hts', ls', hl', hr⟩ := hf ls a hq u rest b ts' hrest hb
      exact ⟨hts', ls ++ ls', by rw [hl, hl', List.append_assoc], hr⟩

theorem Accepts.bind (hp : Accepts P p Q)
    (hf : ∀ ls a, Q ls a → Accepts P (f a) fun ls' b => R (ls ++ ls') b) :
    Accepts P (p >>= f) R :=
  fun t => (hp t).bind hf

theorem Accepts.pure {a : α} (h : Q [] a) : Accepts P (pure a) Q := by
  intro t ts b ts' hs hp
  cases hp
  exact ⟨hs, [], rfl, h⟩

theorem Accepts.map {g : α → β} (hp : Accepts P p Q) (hR : ∀ ls a, Q ls a → R ls (g a)) :
    Accepts P (g <$> p) R := by
  rw [map_eq_bind]
  refine hp.bind fun ls a hq => .pure ?_
  rw [List.append_nil]
  exact hR ls a hq

theorem Accepts.ite {b : Bool} {q : Parser α} (hp : b = true → Accepts P p Q)
    (hq : b = false → Accepts P q Q) : Accepts P (if b then p else q) Q := by
  cases b with
  | true => exact hp rfl
  | false => exact hq rfl

theorem AcceptsAt.current {f : Token → Parser β} (h : AcceptsAt P t (f t) R) :
    AcceptsAt P t (current >>= f) R := by
  intro ts b ts' hs hp
  obtain ⟨a, rest, ha, hb⟩ := bind_eq_ok hp
  cases ha
  exact h ts b ts' hs hb

theorem AcceptsAt.advance (hl : t.lexeme ≠ .endOfText) :
    AcceptsAt P t Parser.advance fun ls a => ls = [t.lexeme] ∧ a = t := by
  intro ts a ts' hs hp
  obtain ⟨rfl, rfl, hts⟩ := hs.advance hl hp
  exact ⟨hts, [a.lexeme], rfl, rfl, rfl⟩

theorem Accepts.failAt (u : Token) (e : SyntaxFault) : Accepts P (failAt u e) Q := by
  intro t ts a ts' _ hp
  cases hp

theorem Accepts.unexpected (u : Token) : Accepts P (unexpected u) Q := .failAt u _

/-- Taking the current token and giving something back. -/
theorem AcceptsAt.take {a : α} (hl : t.lexeme ≠ .endOfText) (h : Q [t.lexeme] a) :
    AcceptsAt P t (Parser.advance *> Pure.pure a) Q := by
  rw [seqRight_eq_bind]
  refine (AcceptsAt.advance hl).bind fun ls u hu => .pure ?_
  rw [hu.1, List.append_nil]
  exact h

end Rules

/-! ## Single tokens -/

theorem discard_eq (p : Parser α) : discard p = p >>= fun _ => pure () := rfl

theorem AcceptsAt.pure {Q : List Lexeme → α → Prop} {a : α} (h : Q [] a) :
    AcceptsAt P t (pure a) Q :=
  Accepts.pure h t

theorem AcceptsAt.discard (hl : t.lexeme ≠ .endOfText) :
    AcceptsAt P t (discard Parser.advance) fun ls _ => ls = [t.lexeme] := by
  rw [discard_eq]
  refine (AcceptsAt.advance hl).bind fun ls u hu => .pure ?_
  rw [hu.1, List.append_nil]

theorem accepts_sees (p : Punctuator) : Accepts P (sees p) fun ls _ => ls = [] :=
  fun _ => .current (.pure rfl)

theorem accepts_seesName : Accepts P seesName fun ls _ => ls = [] := by
  intro t
  refine .current ?_
  split <;> exact .pure rfl

theorem accepts_expect (p : Punctuator) :
    Accepts P (expect p) fun ls _ => ls = [.punctuator p] := by
  intro t
  refine .current ?_
  split
  · rename_i h
    have ht : t.lexeme = .punctuator p := by simpa using h
    rw [← ht]
    exact .discard (by simp [ht])
  · exact Accepts.failAt t _ t

theorem accepts_skip (p : Punctuator) :
    Accepts P (skip p) fun ls b => ls = if b then [.punctuator p] else [] := by
  intro t
  unfold skip sees
  rw [bind_assoc]
  refine .current ?_
  rw [pure_bind]
  split
  · rename_i h
    have ht : t.lexeme = .punctuator p := by simpa using h
    rw [← ht]
    refine (AcceptsAt.discard (by simp [ht])).bind fun ls _ hl => .pure ?_
    simp [hl]
  · exact .pure rfl

theorem accepts_name : Accepts P name fun ls a => ls = [.name a] ∧ IsName a := by
  intro t
  refine .of_word fun _ hw => .current ?_
  split
  · rename_i text ht
    rw [ht] at hw
    refine (AcceptsAt.discard (by simp [ht])).bind fun ls _ hl => .pure ?_
    rw [hl, ht]
    exact ⟨rfl, hw⟩
  · exact Accepts.failAt t _ t

theorem accepts_keyword (text : String) :
    Accepts P (keyword text) fun ls _ => ls = [.name text] := by
  intro t
  refine .current ?_
  split
  · rename_i h
    have ht : t.lexeme = .name text := by simpa using h
    rw [← ht]
    exact .discard (by simp [ht])
  · exact Accepts.failAt t _ t

theorem accepts_skipKeyword (text : String) :
    Accepts P (skipKeyword text) fun ls b => ls = if b then [.name text] else [] := by
  intro t
  refine .current ?_
  split
  · rename_i h
    have ht : t.lexeme = .name text := by simpa using h
    rw [← ht]
    refine (AcceptsAt.discard (by simp [ht])).bind fun ls _ hl => .pure ?_
    simp [hl]
  · exact .pure rfl

/-! ## Sequences -/

/-- Lexemes of items one after the other, each of which is in `Q` with its own. -/
inductive Each (Q : List Lexeme → α → Prop) : List Lexeme → List α → Prop where
  | nil : Each Q [] []
  | cons {ls more : List Lexeme} {a : α} {as : List α} (ha : Q ls a) (has : Each Q more as) :
      Each Q (ls ++ more) (a :: as)

section Sequences

variable {item : Parser α} {Q : List Lexeme → α → Prop}

theorem Each.all {Q : List Lexeme → α → Prop} {R : α → Prop} {ls : List Lexeme} {as : List α}
    (h : Each Q ls as) (hQ : ∀ ls a, Q ls a → R a) : ∀ a ∈ as, R a := by
  induction h with
  | nil => simp
  | cons ha _ ih => simpa using ⟨hQ _ _ ha, ih⟩

theorem Each.eq_flatMap {lex : α → List Lexeme} {R : α → Prop} {ls : List Lexeme} {as : List α}
    (h : Each Q ls as) (hQ : ∀ ls a, Q ls a → ls = lex a ∧ R a) :
    ls = as.flatMap lex ∧ ∀ a ∈ as, R a := by
  refine ⟨?_, h.all fun ls a ha => (hQ ls a ha).2⟩
  induction h with
  | nil => rfl
  | cons ha _ ih =>
      obtain ⟨rfl, -⟩ := hQ _ _ ha
      rw [List.flatMap_cons, ih]

theorem accepts_itemsUpTo (close : Punctuator) (h : Accepts P item Q) (bound : List Token) :
    Accepts P (itemsUpTo close item bound) fun ls as =>
      as ≠ [] ∧ ∃ more, ls = more ++ [.punctuator close] ∧ Each Q more as := by
  induction bound with
  | nil => exact fun t => .current (Accepts.unexpected t t)
  | cons b bound ih =>
      refine h.bind fun ls a hq => ?_
      refine (accepts_skip close).bind fun mark b hb => ?_
      refine .ite (fun he => .pure ?_) (fun he => ?_)
      · subst he
        have he : Each Q (ls ++ []) [a] := .cons hq .nil
        exact ⟨by simp, ls, by simp [hb], by simpa using he⟩
      · subst he
        refine ih.bind fun rest as ⟨_, more, hm, hmore⟩ => .pure ?_
        exact ⟨by simp, ls ++ more, by simp [hb, hm], .cons hq hmore⟩

theorem accepts_bound : Accepts P bound fun ls _ => ls = [] := by
  intro t ts b ts' hs h
  cases h
  exact ⟨hs, [], rfl, rfl⟩

theorem accepts_many (opening close : Punctuator) (h : Accepts P item Q) :
    Accepts P (many opening close item) fun ls as =>
      as ≠ [] ∧ ∃ more, ls = .punctuator opening :: (more ++ [.punctuator close]) ∧
        Each Q more as := by
  refine (accepts_expect opening).bind fun mark _ hm => ?_
  refine accepts_bound.bind fun none b hn => ?_
  refine (accepts_itemsUpTo close h b).mono fun ls as ⟨hne, more, hl, he⟩ => ?_
  exact ⟨hne, more, by simp [hm, hn, hl], he⟩

theorem accepts_optionalMany (opening close : Punctuator) (h : Accepts P item Q) :
    Accepts P (optionalMany opening close item) fun ls as => ∃ more, Each Q more as ∧
      ls = if as.isEmpty then []
        else .punctuator opening :: (more ++ [.punctuator close]) := by
  refine (accepts_sees opening).bind fun none b hn => ?_
  refine .ite (fun _ => ?_) fun _ => .pure ⟨[], .nil, by simp [hn]⟩
  refine (accepts_many opening close h).mono fun ls as ⟨hne, more, hl, he⟩ => ?_
  exact ⟨more, he, by simp [hn, hl, hne]⟩

theorem accepts_anyNumber (opening close : Punctuator) (h : Accepts P item Q) :
    Accepts P (anyNumber opening close item) fun ls as => ∃ more, Each Q more as ∧
      ls = .punctuator opening :: (more ++ [.punctuator close]) := by
  refine (accepts_expect opening).bind fun mark _ hm => ?_
  refine (accepts_skip close).bind fun last b hb => ?_
  refine .ite (fun he => .pure ⟨[], .nil, ?_⟩) fun he => ?_
  · subst he
    simp [hm, hb]
  · subst he
    refine accepts_bound.bind fun none b hn => ?_
    refine (accepts_itemsUpTo close h b).mono fun ls as ⟨_, more, hl, he⟩ => ?_
    exact ⟨more, he, by simp [hm, hb, hn, hl]⟩

theorem accepts_whileSees (starts : Punctuator) (h : Accepts P item Q) :
    Accepts P (whileSees starts item) (Each Q) := by
  have hupTo : ∀ bound, Accepts P (whileUpTo starts item bound) (Each Q) := by
    intro bound
    induction bound with
    | nil => exact .pure .nil
    | cons b bound ih =>
        refine (accepts_sees starts).bind fun none b hn => ?_
        subst hn
        refine .ite (fun _ => ?_) fun _ => .pure .nil
        refine h.bind fun ls a hq => ih.bind fun more as he => .pure ?_
        simpa using Each.cons hq he
  refine accepts_bound.bind fun none b hn => ?_
  subst hn
  exact hupTo b

/-- Items with a separator between them and perhaps one before the first. -/
theorem accepts_separated (separator : Punctuator) (h : Accepts P item Q) :
    Accepts P (separated separator item) fun _ as =>
      as ≠ [] ∧ ∀ a ∈ as, ∃ ls, Q ls a := by
  have hupTo : ∀ bound, Accepts P (separatedUpTo separator item bound) fun _ as =>
      as ≠ [] ∧ ∀ a ∈ as, ∃ ls, Q ls a := by
    intro bound
    induction bound with
    | nil => exact fun t => .current (Accepts.unexpected t t)
    | cons b bound ih =>
        refine h.bind fun ls a hq => (accepts_skip separator).bind fun mark b hb => ?_
        refine .ite (fun _ => ?_) fun _ => .pure ⟨by simp, by simpa using ⟨ls, hq⟩⟩
        refine ih.bind fun more as he => .pure ⟨by simp, ?_⟩
        intro x hx
        rcases List.mem_cons.mp hx with rfl | hx
        · exact ⟨ls, hq⟩
        · exact he.2 x hx
  refine Accepts.bind (Q := fun _ _ => True) ?_ fun ls _ _ => ?_
  · rw [discard_eq]
    exact (accepts_skip separator).bind fun _ _ _ => .pure trivial
  · exact accepts_bound.bind fun none b hn => hupTo b

end Sequences

end SdlAssembly.Grammar.Parser
