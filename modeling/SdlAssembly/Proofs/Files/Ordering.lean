import Mathlib.Data.List.Lex
import Mathlib.Data.List.Perm.Subperm
import Mathlib.Data.List.Sort
import Mathlib.Data.String.Basic
import SdlAssembly.Files.Path

/-!
# Paths in order

Paths are ordered as the lists of their parts are, and what is put in order has each path once. So
a list in order is known by its members, and is not changed by being put in order again.
-/

namespace SdlAssembly.Files.Path

/-! ## Parts -/

theorem eq_iff_parts {a b : Path} : a = b ↔ a.parts = b.parts :=
  Path.mk.injEq a.parts b.parts ▸ Iff.rfl

theorem append_nil (path : Path) : path.append [] = path :=
  eq_iff_parts.mpr (List.append_nil path.parts)

theorem append_append (path : Path) (before after : List String) :
    (path.append before).append after = path.append (before ++ after) :=
  eq_iff_parts.mpr (List.append_assoc path.parts before after)

instance : LawfulBEq Path where
  rfl := fun {a} => beq_self_eq_true a.parts
  eq_of_beq := fun {a _} h => eq_iff_parts.mpr (eq_of_beq (a := a.parts) h)

/-! ## The order -/

theorem partsBefore_iff {a b : List String} : partsBefore a b ↔ a < b := by
  induction a generalizing b with
  | nil => cases b <;> simp [partsBefore]
  | cons first rest ih =>
      cases b with
      | nil => simp [partsBefore]
      | cons other others => simp [partsBefore, List.cons_lt_cons_iff, ih]

theorem before_iff {a b : Path} : a.before b ↔ a.parts < b.parts := partsBefore_iff

/-- Each path goes before all that follow it. -/
def InOrder (paths : List Path) : Prop := paths.Pairwise fun a b => a.parts < b.parts

/-! ## Putting in order -/

section Insert

variable {path other : Path} {paths : List Path}

theorem mem_insertOrdered : other ∈ insertOrdered path paths ↔ other = path ∨ other ∈ paths := by
  induction paths with
  | nil => simp [insertOrdered]
  | cons first rest ih =>
      unfold insertOrdered
      split
      · rename_i he
        obtain rfl : path = first := by simpa using he
        simp
      · split
        · simp
        · simp only [List.mem_cons, ih]
          exact or_left_comm

theorem insertOrdered_inOrder (h : InOrder paths) : InOrder (insertOrdered path paths) := by
  induction paths with
  | nil => exact List.pairwise_singleton _ _
  | cons first rest ih =>
      obtain ⟨hfirst, hrest⟩ := List.pairwise_cons.mp h
      unfold insertOrdered
      split
      · exact h
      · rename_i hne
        split
        · rename_i hb
          have hlt : path.parts < first.parts := before_iff.mp hb
          refine List.pairwise_cons.mpr ⟨fun later hl => ?_, h⟩
          rcases List.mem_cons.mp hl with rfl | hl
          · exact hlt
          · exact hlt.trans (hfirst later hl)
        · rename_i hb
          have hlt : first.parts < path.parts := by
            refine lt_of_le_of_ne (not_lt.mp fun hlt => hb (before_iff.mpr hlt)) fun he => hne ?_
            rw [eq_iff_parts.mpr he, beq_self_eq_true]
          refine List.pairwise_cons.mpr ⟨fun later hl => ?_, ih hrest⟩
          rcases mem_insertOrdered.mp hl with rfl | hl
          · exact hlt
          · exact hfirst later hl

theorem insertOrdered_of_before (h : ∀ other ∈ paths, path.parts < other.parts) :
    insertOrdered path paths = path :: paths := by
  cases paths with
  | nil => rfl
  | cons first rest =>
      have hlt := h first List.mem_cons_self
      have hne : path ≠ first := fun he => lt_irrefl _ (he ▸ hlt)
      rw [insertOrdered, if_neg (by simpa using hne), if_pos (before_iff.mpr hlt)]

theorem mem_ordered : other ∈ ordered paths ↔ other ∈ paths := by
  induction paths with
  | nil => exact Iff.rfl
  | cons first rest ih =>
      rw [List.mem_cons, ← ih]
      exact mem_insertOrdered

theorem ordered_inOrder (paths : List Path) : InOrder (ordered paths) := by
  induction paths with
  | nil => exact .nil
  | cons first rest ih => exact insertOrdered_inOrder ih

end Insert

/-! ## Lists in order -/

section InOrder

variable {paths others : List Path}

theorem InOrder.ordered_eq (h : InOrder paths) : ordered paths = paths := by
  induction paths with
  | nil => rfl
  | cons first rest ih =>
      obtain ⟨hfirst, hrest⟩ := List.pairwise_cons.mp h
      calc ordered (first :: rest)
          = insertOrdered first (ordered rest) := rfl
        _ = insertOrdered first rest := by rw [ih hrest]
        _ = first :: rest := insertOrdered_of_before hfirst

theorem InOrder.nodup (h : InOrder paths) : paths.Nodup := by
  refine List.Pairwise.imp ?_ h
  rintro path _ hlt rfl
  exact lt_irrefl _ hlt

/-- Some members of a list in order stand in it in the same order. -/
theorem InOrder.sublist (h : InOrder paths) (ho : InOrder others) (hs : paths ⊆ others) :
    paths.Sublist others := by
  have : Std.Antisymm fun a b : Path => a.parts < b.parts :=
    ⟨fun _ _ hab hba => (lt_asymm hab hba).elim⟩
  exact List.sublist_of_subperm_of_pairwise (List.Nodup.subperm h.nodup hs) h ho

/-- Lists in order with the same members are the same. -/
theorem InOrder.eq_of_mem_iff (h : InOrder paths) (ho : InOrder others)
    (hm : ∀ path, path ∈ paths ↔ path ∈ others) : paths = others :=
  (h.sublist ho fun path => (hm path).mp).antisymm (ho.sublist h fun path => (hm path).mpr)

end InOrder

end SdlAssembly.Files.Path
