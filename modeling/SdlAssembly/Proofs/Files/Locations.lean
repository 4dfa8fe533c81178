import Mathlib.Data.List.Induction
import SdlAssembly.Proofs.Files.Trees

/-!
# Locations

The trees that arise from nothing by what is written and made have each location once, under plain
names, in a directory. In such a tree plain names lead from a directory to what is inside it.
-/

namespace SdlAssembly.Files.Tree

/-! ## Well-formed trees -/

/-- Names that lead one step down. -/
def IsPlain (name : String) : Prop :=
  name ≠ "" ∧ name ≠ "." ∧ name ≠ ".." ∧ Path.isRoot name = false

/-- A tree as it is kept: each location once, under plain names, in a directory. The working
directory is one. -/
structure WellFormed (tree : Tree) : Prop where
  home : tree.entry? tree.home = some .directory
  distinct : (tree.entries.map Prod.fst).Nodup
  plain : ∀ pair ∈ tree.entries, ∀ name ∈ pair.1, IsPlain name
  around : ∀ pair ∈ tree.entries, pair.1 ≠ [] ∧ tree.entry? pair.1.dropLast = some .directory

section Locations

variable {tree : Tree} {location : Location} {names : List String} {entry : Entry}

theorem entry?_of_ne_nil (h : location ≠ []) :
    tree.entry? location = tree.entries.lookup location := by
  unfold entry?
  simp [h]

theorem mem_entries (h : tree.WellFormed) :
    (location, entry) ∈ tree.entries ↔ location ≠ [] ∧ tree.entry? location = some entry := by
  constructor
  · intro hm
    have hne := (h.around _ hm).1
    obtain ⟨front, back, hs⟩ := List.append_of_mem hm
    refine ⟨hne, (entry?_of_ne_nil hne).trans (List.lookup_eq_some_iff.mpr ⟨front, back, hs, ?_⟩)⟩
    intro other ho
    have hd := h.distinct
    rw [hs, List.map_append, List.nodup_append] at hd
    simpa using (hd.2.2 _ (List.mem_map_of_mem ho) location (by simp)).symm
  · rintro ⟨hne, he⟩
    rw [entry?_of_ne_nil hne] at he
    obtain ⟨front, back, hs, -⟩ := List.lookup_eq_some_iff.mp he
    rw [hs]
    simp

theorem mem_below (h : tree.WellFormed) : (names, entry) ∈ tree.below location ↔
    names ≠ [] ∧ tree.entry? (location ++ names) = some entry := by
  unfold below
  rw [List.mem_filterMap]
  constructor
  · rintro ⟨⟨place, there⟩, hm, hi⟩
    dsimp only at hi
    split at hi
    · rename_i hp
      obtain ⟨hp, hl⟩ := Bool.and_eq_true_iff.mp hp
      obtain ⟨more, rfl⟩ := List.isPrefixOf_iff_prefix.mp hp
      rw [List.drop_left] at hi
      obtain ⟨rfl, rfl⟩ := Prod.mk.inj (Option.some.inj hi)
      refine ⟨?_, ((mem_entries h).mp hm).2⟩
      rintro rfl
      simp at hl
    · cases hi
  · rintro ⟨hne, he⟩
    refine ⟨_, (mem_entries h).mpr ⟨by simp [hne], he⟩, ?_⟩
    have hl : 0 < names.length := List.length_pos_iff.mpr hne
    simp [hl]

/-- What is around anything is a directory. -/
theorem directory_around (h : tree.WellFormed) (he : tree.entry? (location ++ names) = some entry)
    (hne : names ≠ []) : tree.entry? location = some .directory := by
  induction names using List.reverseRecOn generalizing entry with
  | nil => exact (hne rfl).elim
  | append_singleton before last ih =>
      have hm := (mem_entries h).mpr ⟨by simp, he⟩
      have ha := (h.around _ hm).2
      rw [← List.append_assoc, List.dropLast_concat] at ha
      by_cases hb : before = []
      · simpa [hb] using ha
      · exact ih ha hb

theorem plain_of_entry (h : tree.WellFormed) (he : tree.entry? location = some entry)
    {name : String} (hn : name ∈ location) : IsPlain name :=
  h.plain _ ((mem_entries h).mpr ⟨List.ne_nil_of_mem hn, he⟩) name hn

/-! ## Ways -/

theorem follow_append (here : Location) (before after : List String) :
    tree.follow here (before ++ after) =
      (tree.follow here before).bind fun location => tree.follow location after := by
  induction before generalizing here with
  | nil => rfl
  | cons piece rest ih =>
      rw [List.cons_append, follow, follow]
      split
      · exact ih _
      · cases tree.entry? here with
        | none => rfl
        | some entry =>
            cases entry with
            | file bytes => rfl
            | directory =>
                simp only [ih]
                split
                · rfl
                · split <;> rfl

/-- Names lead down to what is below a directory. -/
theorem follow_down (h : tree.WellFormed) (he : tree.entry? (location ++ names) = some entry) :
    tree.follow location names = .ok (location ++ names) := by
  induction names generalizing location with
  | nil => simp [follow]
  | cons name rest ih =>
      have hd := directory_around h he (by simp)
      have hname : name ∈ location ++ name :: rest := by simp
      obtain ⟨hempty, hpoint, hback, hroot⟩ := plain_of_entry h he hname
      have hstep := @ih (location ++ [name]) (by simpa using he)
      simpa [follow, hd, hempty, hpoint, hback, hroot] using hstep

theorem lookup?_eq_some {path : Path} : tree.lookup? path = some (location, entry) ↔
    tree.reach path.parts = .ok location ∧ tree.entry? location = some entry := by
  unfold lookup? find?
  cases tree.reach path.parts with
  | error fault => simp
  | ok place =>
      simp only [Option.map_eq_some_iff, Prod.mk.injEq, Except.ok.injEq]
      constructor
      · rintro ⟨_, he, rfl, rfl⟩
        exact ⟨rfl, he⟩
      · rintro ⟨rfl, he⟩
        exact ⟨_, he, rfl, rfl⟩

theorem lookup?_append (h : tree.WellFormed) {path : Path} {around : Entry}
    (hp : tree.lookup? path = some (location, around))
    (he : tree.entry? (location ++ names) = some entry) :
    tree.lookup? (path.append names) = some (location ++ names, entry) := by
  obtain ⟨hf, -⟩ := lookup?_eq_some.mp hp
  refine lookup?_eq_some.mpr ⟨?_, he⟩
  have hdown := follow_down h he
  unfold reach at hf ⊢
  rw [Path.append, follow_append, hf]
  exact hdown

end Locations

/-! ## Trees that arise -/

section Arising

variable {tree : Tree} {location place : Location} {entry : Entry}

/-- Where something may be put: under plain names, in a directory. -/
structure IsFree (tree : Tree) (location : Location) : Prop where
  plain : ∀ name ∈ location, IsPlain name
  around : tree.entry? location.dropLast = some .directory

theorem wellFormed_empty : WellFormed {} := by
  constructor <;> simp [Tree.entry?]

theorem map_fst_set : (tree.set location entry).entries.map Prod.fst =
    if location ∈ tree.entries.map Prod.fst then tree.entries.map Prod.fst
    else tree.entries.map Prod.fst ++ [location] := by
  have hsome : (tree.entries.lookup location).isSome ↔
      location ∈ tree.entries.map Prod.fst := by
    simp [List.lookup_isSome_iff]
  unfold set
  by_cases hs : (tree.entries.lookup location).isSome
  · rw [if_pos hs, if_pos (hsome.mp hs), List.map_map]
    rfl
  · rw [if_neg hs, if_neg fun hm => hs (hsome.mpr hm), List.map_append]
    rfl

/-- Something is put in its place, unless a file is put where a directory is. -/
theorem WellFormed.set (h : tree.WellFormed) (hf : tree.IsFree location) (hne : location ≠ [])
    (hk : tree.entry? location = some .directory → entry = .directory) :
    (tree.set location entry).WellFormed := by
  have hpaths : ∀ pair ∈ (tree.set location entry).entries,
      pair.1 = location ∨ ∃ old, (pair.1, old) ∈ tree.entries := by
    intro pair hm
    have hm := List.mem_map_of_mem (f := Prod.fst) hm
    rw [map_fst_set] at hm
    split at hm
    · obtain ⟨⟨_, old⟩, hold, rfl⟩ := List.mem_map.mp hm
      exact .inr ⟨old, hold⟩
    · rcases List.mem_append.mp hm with hm | hm
      · obtain ⟨⟨_, old⟩, hold, rfl⟩ := List.mem_map.mp hm
        exact .inr ⟨old, hold⟩
      · exact .inl (List.mem_singleton.mp hm)
  have hdirectory : ∀ place, tree.entry? place = some .directory →
      Tree.entry? (tree.set location entry) place = some .directory := by
    intro place hd
    rw [entry?_set hne]
    split
    · rename_i he
      rw [hk (he ▸ hd)]
    · exact hd
  constructor
  · rw [home_set]
    exact hdirectory _ h.home
  · rw [map_fst_set]
    split
    · exact h.distinct
    · rename_i hm
      exact List.nodup_append.mpr ⟨h.distinct, by simp, by grind⟩
  · intro pair hm name hn
    rcases hpaths pair hm with he | ⟨old, hold⟩
    · exact hf.plain name (he ▸ hn)
    · exact h.plain _ hold name hn
  · intro pair hm
    rcases hpaths pair hm with he | ⟨old, hold⟩
    · rw [he]
      exact ⟨hne, hdirectory _ hf.around⟩
    · exact (h.around _ hold).imp_right (hdirectory _)

theorem isFree_nil (tree : Tree) : tree.IsFree [] := ⟨by simp, rfl⟩

theorem WellFormed.isFree (h : tree.WellFormed) (he : tree.entry? location = some entry) :
    tree.IsFree location := by
  cases location with
  | nil => exact isFree_nil tree
  | cons name rest =>
      have hm := (mem_entries h).mpr ⟨List.cons_ne_nil name rest, he⟩
      exact ⟨h.plain _ hm, (h.around _ hm).2⟩

/-- A way ends where something may be put. -/
theorem WellFormed.follow (h : tree.WellFormed) {here : Location} {pieces : List String}
    (hh : tree.IsFree here) (hf : tree.follow here pieces = .ok location) :
    tree.IsFree location := by
  induction pieces generalizing here with
  | nil =>
      cases hf
      exact hh
  | cons piece rest ih =>
      unfold Tree.follow at hf
      split at hf
      · exact ih (isFree_nil tree) hf
      · rename_i hroot
        cases he : tree.entry? here with
        | none => simp [he] at hf
        | some entry =>
            cases entry with
            | file bytes => simp [he] at hf
            | directory =>
                simp only [he] at hf
                split at hf
                · exact ih hh hf
                · rename_i hstay
                  split at hf
                  · exact ih (h.isFree hh.around) hf
                  · rename_i hback
                    have hplain : IsPlain piece := by
                      simpa [IsPlain, not_or, and_assoc] using
                        And.intro hstay (And.intro hback hroot)
                    refine ih ⟨fun name hn => ?_, ?_⟩ hf
                    · rcases List.mem_append.mp hn with hn | hn
                      · exact hh.plain name hn
                      · exact List.mem_singleton.mp hn ▸ hplain
                    · rwa [List.dropLast_concat]

theorem WellFormed.reach (h : tree.WellFormed) {pieces : List String}
    (hf : tree.reach pieces = .ok location) : tree.IsFree location :=
  h.follow (h.isFree h.home) hf

theorem WellFormed.write (h : tree.WellFormed) {path : Path} {bytes : List UInt8} {written : Tree}
    (hw : tree.write path bytes = .ok written) : written.WellFormed := by
  obtain ⟨location, hf, hd, -, rfl⟩ := write_eq_ok.mp hw
  exact h.set (h.reach hf) (ne_nil_of_ne_directory hd) fun he => (hd he).elim

/-- The path that is written leads to what is written. -/
theorem lookup?_write {path : Path} {bytes : List UInt8} {written : Tree}
    (hw : tree.write path bytes = .ok written) :
    ∃ location, written.lookup? path = some (location, .file bytes) := by
  obtain ⟨location, hf, hd, -, rfl⟩ := write_eq_ok.mp hw
  have hne := ne_nil_of_ne_directory hd
  refine ⟨location, lookup?_eq_some.mpr ⟨?_, ?_⟩⟩
  · unfold Tree.reach at hf ⊢
    rw [home_set]
    refine follow_of_directories (fun {place} hp => ?_) hf
    have hother : place ≠ location := by
      rintro rfl
      exact hd hp
    rw [entry?_set hne, if_neg hother]
    exact hp
  · rw [entry?_set hne, if_pos rfl]

theorem WellFormed.makeDirectory (h : tree.WellFormed) {parts : List String} {made : Tree}
    (hm : tree.makeDirectory parts = .ok made) : made.WellFormed := by
  obtain ⟨location, hf, hn, -, rfl⟩ := makeDirectory_eq_ok.mp hm
  have hne : location ≠ [] :=
    ne_nil_of_ne_directory (by simp [hn] : tree.entry? location ≠ some .directory)
  exact h.set (h.reach hf) hne fun _ => rfl

theorem WellFormed.makeDirectories (h : tree.WellFormed) (reversed : List String) :
    (tree.makeDirectories reversed).1.WellFormed := by
  induction reversed with
  | nil => exact h
  | cons last before ih =>
      obtain ⟨start, hs, hresult⟩ := makeDirectories_cons tree last before
      have hstart : start.WellFormed := by
        rcases hs with rfl | rfl
        · exact h
        · exact ih
      rcases hresult with ⟨made, hm, hr⟩ | ⟨fault, hr, -⟩
      · rw [hr]
        exact hstart.makeDirectory hm
      · rw [hr]
        exact hstart

/-- Sets the first of directories that are not there, each at some of the names of a location. -/
def setAround (tree : Tree) (location : Location) (count : Nat) : Tree :=
  (((List.range count).map fun count => location.take count).filter fun place =>
    (tree.entry? place).isNone).foldl (fun tree place => tree.set place .directory) tree

theorem insert_eq (tree : Tree) (location : Location) (entry : Entry) :
    tree.insert location entry = (tree.setAround location location.length).set location entry :=
  rfl

theorem setAround_succ (tree : Tree) (location : Location) (count : Nat) :
    tree.setAround location (count + 1) =
      if (tree.entry? (location.take count)).isNone
      then (tree.setAround location count).set (location.take count) .directory
      else tree.setAround location count := by
  unfold setAround
  rw [List.range_succ, List.map_append, List.filter_append, List.foldl_append]
  simp only [List.map_cons, List.map_nil, List.filter_cons, List.filter_nil]
  split <;> rfl

/-- The directories around a location are there once they are set. -/
theorem setAround_spec (h : tree.WellFormed) (hp : ∀ name ∈ location, IsPlain name)
    (hd : ∀ count < location.length, ∀ bytes,
      tree.entry? (location.take count) ≠ some (.file bytes)) (count : Nat)
    (hc : count ≤ location.length) : (tree.setAround location count).WellFormed
      ∧ (∀ before < count, Tree.entry? (tree.setAround location count) (location.take before) =
        some .directory)
      ∧ ∀ place, (∀ before < count, place ≠ location.take before) →
        Tree.entry? (tree.setAround location count) place = tree.entry? place := by
  induction count with
  | zero => exact ⟨h, fun _ hb => (Nat.not_lt_zero _ hb).elim, fun _ _ => rfl⟩
  | succ count ih =>
      obtain ⟨hw, hdirectory, hother⟩ := ih (by omega)
      have htakes : ∀ before < count, location.take count ≠ location.take before := by
        intro before hb he
        have hl := congrArg List.length he
        simp only [List.length_take] at hl
        omega
      have hsame := hother _ htakes
      rw [setAround_succ]
      cases he : tree.entry? (location.take count) with
      | none =>
          have hne : location.take count ≠ [] :=
            ne_nil_of_ne_directory (by simp [he] : tree.entry? _ ≠ some .directory)
          have hpos : count ≠ 0 := fun hz => hne (by rw [hz, List.take_zero])
          have haround : (tree.setAround location count).IsFree (location.take count) := by
            refine ⟨fun name hn => hp name (List.mem_of_mem_take hn), ?_⟩
            rw [List.dropLast_take (by omega)]
            exact hdirectory _ (by omega)
          refine ⟨hw.set haround hne fun _ => rfl, fun before hb => ?_, fun place hpl => ?_⟩
          · rw [Option.isNone_none, if_pos rfl, entry?_set hne]
            split
            · rfl
            · rename_i hb'
              exact hdirectory _ (by grind)
          · rw [Option.isNone_none, if_pos rfl, entry?_set hne, if_neg (hpl count (by omega))]
            exact hother place fun before hb => hpl before (by omega)
      | some there =>
          rw [Option.isNone_some, if_neg Bool.false_ne_true]
          refine ⟨hw, fun before hb => ?_, fun place hpl => hother place fun before hb =>
            hpl before (by omega)⟩
          rcases Nat.lt_succ_iff_lt_or_eq.mp hb with hb | rfl
          · exact hdirectory before hb
          · cases there with
            | file bytes => exact (hd before (by omega) bytes he).elim
            | directory => rw [hsame, he]

/-- A location is set with the directories around it, where no file is in their place. -/
theorem WellFormed.insert (h : tree.WellFormed) (hne : location ≠ [])
    (hp : ∀ name ∈ location, IsPlain name)
    (hd : ∀ count < location.length, ∀ bytes,
      tree.entry? (location.take count) ≠ some (.file bytes))
    (hk : tree.entry? location = some .directory → entry = .directory) :
    (tree.insert location entry).WellFormed := by
  obtain ⟨hw, hdirectory, hother⟩ := setAround_spec h hp hd location.length (Nat.le_refl _)
  have hl : 0 < location.length := List.length_pos_iff.mpr hne
  rw [insert_eq]
  refine hw.set ⟨hp, ?_⟩ hne ?_
  · rw [List.dropLast_eq_take]
    exact hdirectory _ (by omega)
  · rw [hother location]
    · exact hk
    · intro before hb he
      have := congrArg List.length he
      simp only [List.length_take] at this
      omega

end Arising

end SdlAssembly.Files.Tree
