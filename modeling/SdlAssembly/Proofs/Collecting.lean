/-!
# Collecting complaints

Items are looked at one after the other. Each may add complaints, in the light of what was
remembered of the items before it. Whether there are any complaints is a matter of each item alone,
once it is known what is remembered.
-/

namespace Collecting

variable {σ σ' α β β' : Type}

/-- What is remembered after items. -/
def remember (look : σ → α → σ × List β) (s : σ) (items : List α) : σ :=
  items.foldl (fun s item => (look s item).1) s

/-- No item gives cause for complaint. -/
def Quiet (look : σ → α → σ × List β) : σ → List α → Prop
  | _, [] => True
  | s, item :: rest => (look s item).2 = [] ∧ Quiet look (look s item).1 rest

variable {look : σ → α → σ × List β} {look' : σ' → α → σ' × List β'} {items : List α}

theorem foldl_collect (s : σ) (found : List β) :
    (items.foldl (fun state item => ((look state.1 item).1, state.2 ++ (look state.1 item).2))
      (s, found)) = (remember look s items, found ++ (items.foldl
        (fun state item => ((look state.1 item).1, state.2 ++ (look state.1 item).2)) (s, [])).2) := by
  induction items generalizing s found with
  | nil => simp [remember]
  | cons item rest ih =>
      rw [List.foldl_cons, List.foldl_cons, ih, ih (look s item).1 ([] ++ (look s item).2)]
      simp [remember]

theorem foldl_eq_nil (s : σ) :
    (items.foldl (fun state item => ((look state.1 item).1, state.2 ++ (look state.1 item).2))
      (s, [])).2 = [] ↔ Quiet look s items := by
  induction items generalizing s with
  | nil => simp [Quiet]
  | cons item rest ih =>
      rw [List.foldl_cons, foldl_collect, Quiet, List.append_eq_nil_iff, ih, List.nil_append]

theorem quiet_append {rest : List α} (s : σ) : Quiet look s (items ++ rest) ↔
    Quiet look s items ∧ Quiet look (remember look s items) rest := by
  induction items generalizing s with
  | nil => simp [Quiet, remember]
  | cons item items ih => simp [Quiet, ih, and_assoc, remember]

theorem quiet_of_forall (h : ∀ item ∈ items, ∀ s, (look s item).2 = []) (s : σ) :
    Quiet look s items := by
  induction items generalizing s with
  | nil => trivial
  | cons item rest ih =>
      obtain ⟨hi, hr⟩ := List.forall_mem_cons.mp h
      exact ⟨hi s, ih hr _⟩

/-- Two ways of looking that complain of the same items. -/
theorem quiet_iff {R : σ → σ' → Prop}
    (hstep : ∀ item ∈ items, ∀ s s', R s s' →
      ((look s item).2 = [] ↔ (look' s' item).2 = [])
        ∧ ((look s item).2 = [] → R (look s item).1 (look' s' item).1))
    {s : σ} {s' : σ'} (hs : R s s') :
    (Quiet look s items ↔ Quiet look' s' items)
      ∧ (Quiet look s items → R (remember look s items) (remember look' s' items)) := by
  induction items generalizing s s' with
  | nil => exact ⟨Iff.rfl, fun _ => hs⟩
  | cons item rest ih =>
      obtain ⟨hi, hr⟩ := List.forall_mem_cons.mp hstep
      obtain ⟨hiff, hnext⟩ := hi s s' hs
      constructor
      · constructor
        · exact fun h => ⟨hiff.mp h.1, ((ih hr (hnext h.1)).1).mp h.2⟩
        · exact fun h => ⟨hiff.mpr h.1, ((ih hr (hnext (hiff.mpr h.1))).1).mpr h.2⟩
      · exact fun h => (ih hr (hnext h.1)).2 h.2

/-- Every item of a quiet list is quiet at its turn. -/
theorem Quiet.exists_of_mem {s : σ} (h : Quiet look s items) {item : α} (hm : item ∈ items) :
    ∃ s, (look s item).2 = [] := by
  induction items generalizing s with
  | nil => cases hm
  | cons first rest ih =>
      rcases List.mem_cons.mp hm with rfl | hm
      · exact ⟨s, h.1⟩
      · exact ih h.2 hm

end Collecting
