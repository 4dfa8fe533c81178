/-!
# Steps that may fail

What a chain of steps gives, if none of them fails.
-/

/-- A test that one more item passes counts more items. -/
theorem List.countP_lt_countP_of_mem {α : Type} {p q : α → Bool} {as : List α}
    (h : ∀ a, p a → q a) {a : α} (ha : a ∈ as) (hp : p a = false) (hq : q a) :
    as.countP p < as.countP q := by
  induction as with
  | nil => cases ha
  | cons first as ih =>
      have hle : as.countP p ≤ as.countP q := List.countP_mono_left fun a _ => h a
      rw [List.countP_cons, List.countP_cons]
      rcases List.mem_cons.mp ha with rfl | ha
      · simp only [hp, hq, Bool.false_eq_true, ↓reduceIte]
        omega
      · have hlt := ih ha
        by_cases hf : p first
        · simp only [hf, h first hf, ↓reduceIte]
          omega
        · simp only [hf, Bool.false_eq_true, ↓reduceIte]
          omega

namespace Except

variable {ε ε' α β γ : Type}

theorem bind_eq_ok {x : Except ε α} {f : α → Except ε β} {b : β} (h : x >>= f = .ok b) :
    ∃ a, x = .ok a ∧ f a = .ok b := by
  cases x with
  | error e => cases h
  | ok a => exact ⟨a, rfl, h⟩

theorem bind_of_ok {x : Except ε α} {f : α → Except ε β} {a : α} (h : x = .ok a) :
    x >>= f = f a := by
  rw [h]
  rfl

theorem map_eq_ok {x : Except ε α} {f : α → β} {b : β} (h : f <$> x = .ok b) :
    ∃ a, x = .ok a ∧ f a = b := by
  cases x with
  | error e => cases h
  | ok a => exact ⟨a, rfl, by cases h; rfl⟩

theorem mapError_eq_ok {x : Except ε α} {f : ε → ε'} {a : α} (h : x.mapError f = .ok a) :
    x = .ok a := by
  cases x with
  | error e => cases h
  | ok b =>
      cases h
      rfl

theorem bind_eq_error {x : Except ε α} {f : α → Except ε β} {e : ε} (h : x >>= f = .error e) :
    x = .error e ∨ ∃ a, x = .ok a ∧ f a = .error e := by
  cases x with
  | error e' =>
      cases h
      exact .inl rfl
  | ok a => exact .inr ⟨a, rfl, h⟩

theorem mapError_eq_error {x : Except ε α} {f : ε → ε'} {e' : ε'} (h : x.mapError f = .error e') :
    ∃ e, x = .error e ∧ e' = f e := by
  cases x with
  | error e =>
      cases h
      exact ⟨e, rfl, rfl⟩
  | ok a => cases h

theorem toOption_eq_some {x : Except ε α} {a : α} : x.toOption = some a ↔ x = .ok a := by
  cases x <;> simp [Except.toOption]

/-! ## Lists -/

variable {f : α → Except ε β} {as : List α} {bs : List β}

theorem mapM_cons_eq_ok {a : α} (h : (a :: as).mapM f = .ok bs) :
    ∃ b rest, f a = .ok b ∧ as.mapM f = .ok rest ∧ bs = b :: rest := by
  rw [List.mapM_cons] at h
  obtain ⟨b, hb, h⟩ := bind_eq_ok h
  obtain ⟨rest, hr, h⟩ := bind_eq_ok h
  cases h
  exact ⟨b, rest, hb, hr, rfl⟩

theorem mapM_eq_ok (h : as.mapM f = .ok bs) : ∀ b ∈ bs, ∃ a ∈ as, f a = .ok b := by
  induction as generalizing bs with
  | nil =>
      cases h
      simp
  | cons a as ih =>
      obtain ⟨b, rest, hb, hr, rfl⟩ := mapM_cons_eq_ok h
      intro c hc
      rcases List.mem_cons.mp hc with rfl | hc
      · exact ⟨a, by simp, hb⟩
      · obtain ⟨a', ha, hc⟩ := ih hr c hc
        exact ⟨a', List.mem_cons_of_mem a ha, hc⟩

theorem ok_of_mapM (h : as.mapM f = .ok bs) : ∀ a ∈ as, ∃ b ∈ bs, f a = .ok b := by
  induction as generalizing bs with
  | nil => simp
  | cons a as ih =>
      obtain ⟨b, rest, hb, hr, rfl⟩ := mapM_cons_eq_ok h
      refine List.forall_mem_cons.mpr ⟨⟨b, by simp, hb⟩, fun a' ha => ?_⟩
      obtain ⟨b', hm, hb'⟩ := ih hr a' ha
      exact ⟨b', List.mem_cons_of_mem b hm, hb'⟩

theorem exists_mapM (h : ∀ a ∈ as, ∃ b, f a = .ok b) : ∃ bs, as.mapM f = .ok bs := by
  induction as with
  | nil => exact ⟨[], rfl⟩
  | cons a as ih =>
      obtain ⟨⟨b, hb⟩, has⟩ := List.forall_mem_cons.mp h
      obtain ⟨bs, hbs⟩ := ih has
      exact ⟨b :: bs, by rw [List.mapM_cons, hb, hbs]; rfl⟩

theorem mapM_congr {g : α → Except ε β} (h : ∀ a ∈ as, f a = g a) : as.mapM f = as.mapM g := by
  induction as with
  | nil => rfl
  | cons a as ih =>
      obtain ⟨ha, has⟩ := List.forall_mem_cons.mp h
      rw [List.mapM_cons, List.mapM_cons, ha, ih has]

theorem mapM_eq_self {f : α → Except ε α} {as : List α} (h : ∀ a ∈ as, f a = .ok a) :
    as.mapM f = .ok as := by
  induction as with
  | nil => rfl
  | cons a as ih =>
      obtain ⟨ha, has⟩ := List.forall_mem_cons.mp h
      rw [List.mapM_cons, ha, ih has]
      rfl

theorem forM_eq_ok {f : α → Except ε Unit} {items : List α} :
    items.forM f = .ok () ↔ ∀ item ∈ items, f item = .ok () := by
  induction items with
  | nil => simp [pure, Except.pure]
  | cons item items ih =>
      rw [List.forall_mem_cons, ← ih]
      change (f item >>= fun _ => items.forM f) = .ok () ↔ _
      constructor
      · intro h
        obtain ⟨⟨⟩, hi, h⟩ := bind_eq_ok h
        exact ⟨hi, h⟩
      · rintro ⟨hi, h⟩
        rw [hi]
        exact h

/-- What the steps keep of an item they keep of the list. -/
theorem mapM_map {g : α → γ} {g' : β → γ} (hf : ∀ a b, f a = .ok b → g' b = g a)
    (h : as.mapM f = .ok bs) : bs.map g' = as.map g := by
  induction as generalizing bs with
  | nil =>
      cases h
      rfl
  | cons a as ih =>
      obtain ⟨b, rest, hb, hr, rfl⟩ := mapM_cons_eq_ok h
      rw [List.map_cons, List.map_cons, hf a b hb, ih hr]

/-- What the items give, each beside its item. -/
theorem mapM_pairs (h : as.mapM f = .ok bs) : ∃ ps : List (β × α), ps.map Prod.fst = bs
    ∧ ps.map Prod.snd = as ∧ ∀ p ∈ ps, f p.2 = .ok p.1 := by
  induction as generalizing bs with
  | nil =>
      cases h
      exact ⟨[], rfl, rfl, by simp⟩
  | cons a as ih =>
      obtain ⟨b, rest, hb, hr, rfl⟩ := mapM_cons_eq_ok h
      obtain ⟨ps, rfl, rfl, hps⟩ := ih hr
      exact ⟨(b, a) :: ps, rfl, rfl, List.forall_mem_cons.mpr ⟨hb, hps⟩⟩

/-! ## Whether there is a result -/

/-- A second step that does not depend on what the first gives. -/
theorem bind_isOk {x : Except ε α} {f : α → Except ε β} {p : Prop} (h : ∀ a, (∃ b, f a = .ok b) ↔ p) :
    (∃ b, x >>= f = .ok b) ↔ (∃ a, x = .ok a) ∧ p := by
  cases x with
  | error e => simp [bind, Except.bind]
  | ok a => simp [bind, Except.bind, h]

/-- A result that is only put into place. -/
theorem bind_pure_isOk {x : Except ε α} {f : α → β} :
    (∃ b, (x >>= fun a => pure (f a)) = .ok b) ↔ ∃ a, x = .ok a := by
  cases x <;> simp [bind, Except.bind, pure, Except.pure]

theorem map_isOk {x : Except ε α} {f : α → β} : (∃ b, x.map f = .ok b) ↔ ∃ a, x = .ok a := by
  cases x <;> simp [Except.map]

theorem mapM_isOk :
    (∃ bs, as.mapM f = .ok bs) ↔ ∀ a ∈ as, ∃ b, f a = .ok b := by
  constructor
  · rintro ⟨bs, h⟩ a ha
    obtain ⟨b, -, hb⟩ := ok_of_mapM h a ha
    exact ⟨b, hb⟩
  · exact exists_mapM

/-! ## How steps fail -/

/-- Whatever fails in a computation has a property. -/
def Fails (p : ε → Prop) (x : Except ε α) : Prop := ∀ e, x = .error e → p e

variable {p : ε → Prop}

theorem Fails.ok {a : α} : Fails p (.ok a : Except ε α) := by
  intro e h
  cases h

theorem Fails.error {e : ε} (h : p e) : Fails p (.error e : Except ε α) := by
  intro e' he
  cases he
  exact h

theorem Fails.bind {x : Except ε α} {f : α → Except ε β} (h : Fails p x)
    (hf : ∀ a, x = .ok a → Fails p (f a)) : Fails p (x >>= f) := by
  cases x with
  | error e => exact .error (h e rfl)
  | ok a => exact hf a rfl

theorem Fails.discard {x : Except ε α} (h : Fails p x) : Fails p (discard x) := by
  cases x with
  | error e => exact .error (h e rfl)
  | ok a => exact .ok

theorem Fails.mapError {x : Except ε' α} {f : ε' → ε} {q : ε' → Prop} (h : Fails q x)
    (hf : ∀ e, q e → p (f e)) : Fails p (x.mapError f) := by
  cases x with
  | error e => exact .error (hf e (h e rfl))
  | ok a => exact .ok

theorem Fails.mapM (h : ∀ a ∈ as, Fails p (f a)) : Fails p (as.mapM f) := by
  induction as with
  | nil => exact .ok
  | cons a as ih =>
      obtain ⟨ha, has⟩ := List.forall_mem_cons.mp h
      rw [List.mapM_cons]
      exact .bind ha fun b _ => .bind (ih has) fun bs _ => .ok

theorem Fails.forM {f : α → Except ε Unit} (h : ∀ a ∈ as, Fails p (f a)) :
    Fails p (as.forM f) := by
  induction as with
  | nil => exact .ok
  | cons a as ih =>
      obtain ⟨ha, has⟩ := List.forall_mem_cons.mp h
      exact .bind ha fun _ _ => ih has

theorem Fails.foldlM {f : β → α → Except ε β} {b : β} (h : ∀ b, ∀ a ∈ as, Fails p (f b a)) :
    Fails p (as.foldlM f b) := by
  induction as generalizing b with
  | nil => exact .ok
  | cons a as ih =>
      rw [List.foldlM_cons]
      refine .bind (h b a (by simp)) fun b' _ => ?_
      exact ih fun b a ha => h b a (List.mem_cons_of_mem _ ha)

/-! ## Two computations -/

variable {α' β' : Type} {R : α → α' → Prop} {Q : β → β' → Prop}

/-- Where the first computation succeeds the second does, with a related result. -/
def Follows (R : α → α' → Prop) (x : Except ε α) (y : Except ε' α') : Prop :=
  ∀ a, x = .ok a → ∃ b, y = .ok b ∧ R a b

theorem Follows.rfl {x : Except ε α} : Follows Eq x x := fun a h => ⟨a, h, Eq.refl a⟩

theorem Follows.ok {a : α} {b : α'} (h : R a b) :
    Follows R (.ok a : Except ε α) (.ok b : Except ε' α') := by
  intro a' ha
  cases ha
  exact ⟨b, Eq.refl _, h⟩

theorem Follows.error {e : ε} {y : Except ε' α'} : Follows R (.error e) y := by
  intro a ha
  cases ha

theorem Follows.bind {x : Except ε α} {y : Except ε' α'} {f : α → Except ε β}
    {g : α' → Except ε' β'} (h : Follows R x y) (hf : ∀ a b, R a b → Follows Q (f a) (g b)) :
    Follows Q (x >>= f) (y >>= g) := by
  intro b hb
  obtain ⟨a, ha, hb⟩ := bind_eq_ok hb
  obtain ⟨a', ha', hr⟩ := h a ha
  obtain ⟨b', hb', hq⟩ := hf a a' hr b hb
  exact ⟨b', by rw [ha']; exact hb', hq⟩

theorem Follows.map {x : Except ε α} {y : Except ε' α'} {f : α → β} {g : α' → β'}
    (h : Follows R x y) (hf : ∀ a b, R a b → Q (f a) (g b)) :
    Follows Q (f <$> x) (g <$> y) := by
  intro b hb
  obtain ⟨a, ha, rfl⟩ := map_eq_ok hb
  obtain ⟨a', rfl, hr⟩ := h a ha
  exact ⟨g a', Eq.refl _, hf a a' hr⟩

theorem Follows.mapError {δ δ' : Type} {x : Except ε α} {y : Except ε' α'} {f : ε → δ}
    {g : ε' → δ'} (h : Follows R x y) : Follows R (x.mapError f) (y.mapError g) := by
  intro a ha
  obtain ⟨b, rfl, hr⟩ := h a (mapError_eq_ok ha)
  exact ⟨b, Eq.refl _, hr⟩

theorem Follows.trans {γ γ' : Type} {x : Except ε α} {y : Except ε' α'} {z : Except γ γ'}
    {R' : α' → γ' → Prop} {S : α → γ' → Prop} (h : Follows R x y) (h' : Follows R' y z)
    (hr : ∀ a b c, R a b → R' b c → S a c) : Follows S x z := by
  intro a ha
  obtain ⟨b, hb, hab⟩ := h a ha
  obtain ⟨c, hc, hbc⟩ := h' b hb
  exact ⟨c, hc, hr a b c hab hbc⟩

theorem Follows.trans_eq {γ : Type} {x : Except ε α} {y : Except ε' α} {z : Except γ α'}
    (h : Follows Eq x y) (h' : Follows R y z) : Follows R x z := by
  intro a ha
  obtain ⟨b, hb, rfl⟩ := h a ha
  exact h' a hb

theorem Follows.mapM {f : α → Except ε β} {g : α → Except ε' β} {as : List α}
    (h : ∀ a ∈ as, Follows Eq (f a) (g a)) : Follows Eq (as.mapM f) (as.mapM g) := by
  induction as with
  | nil => exact .ok (Eq.refl _)
  | cons a as ih =>
      rw [List.mapM_cons, List.mapM_cons]
      refine .bind (h a (by simp)) fun b b' hb => ?_
      refine .bind (ih fun a ha => h a (List.mem_cons_of_mem _ ha)) fun bs bs' hbs => ?_
      exact .ok (by rw [hb, hbs])

end Except
