import SdlAssembly.Files.Tree

/-!
# Changes of file trees

A file that is written takes the place of what is at its location, and directories that are made lie
on the way of their path. All else in a tree stays as it is.
-/

namespace SdlAssembly.Files.Tree

/-! ## Entries -/

section Entries

variable {tree : Tree} {location place : Location} {entry : Entry}

theorem lookup_set : (tree.set location entry).entries.lookup place =
    if place = location then some entry else tree.entries.lookup place := by
  obtain ⟨entries, home⟩ := tree
  have hmap : ∀ entries : List (Location × Entry),
      (entries.map fun pair => (pair.1, if pair.1 == location then entry else pair.2)).lookup place =
        if place = location then (entries.lookup place).map fun _ => entry
        else entries.lookup place := by
    intro entries
    induction entries with
    | nil => simp
    | cons pair rest ih =>
        obtain ⟨there, old⟩ := pair
        rw [List.map_cons, List.lookup_cons, List.lookup_cons, ih]
        by_cases hp : place = there
        · subst hp
          by_cases hl : place = location <;> simp [hl]
        · have hp : (place == there) = false := by simpa using hp
          simp [hp]
  unfold set
  split
  · rename_i hs
    refine (hmap entries).trans ?_
    by_cases hp : place = location
    · obtain ⟨old, ho⟩ := Option.isSome_iff_exists.mp hs
      simp [hp, ho]
    · simp [hp]
  · rename_i hs
    have hnone : entries.lookup location = none := Option.not_isSome_iff_eq_none.mp hs
    rw [List.lookup_append]
    by_cases hp : place = location
    · subst hp
      simp [hnone]
    · have hp' : (place == location) = false := by simpa using hp
      simp [hp, hp', List.lookup_cons]

/-- Only one entry is set. -/
theorem entry?_set (h : location ≠ []) : Tree.entry? (tree.set location entry) place =
    if place = location then some entry else tree.entry? place := by
  unfold entry?
  by_cases hp : place = []
  · subst hp
    simp [h.symm]
  · simp [hp, lookup_set]

@[simp] theorem home_set : (tree.set location entry).home = tree.home := by
  unfold set
  split <;> rfl

/-- The root is no place for anything else. -/
theorem ne_nil_of_ne_directory (h : tree.entry? location ≠ some .directory) : location ≠ [] := by
  rintro rfl
  exact h rfl

end Entries

/-! ## Added directories -/

/-- Everything stays as it is, but for directories that are added at some places. -/
structure Adds (P : Location → Prop) (old new : Tree) : Prop where
  home : new.home = old.home
  kept : ∀ {location entry}, old.entry? location = some entry → new.entry? location = some entry
  added : ∀ {location entry}, old.entry? location = none → new.entry? location = some entry →
    entry = .directory ∧ P location

section Adding

variable {P Q : Location → Prop} {old middle new tree made : Tree} {parts : List String}

@[refl] theorem Adds.refl (tree : Tree) : tree.Adds P tree :=
  ⟨rfl, id, fun hn hs => by simp [hn] at hs⟩

theorem Adds.mono (h : old.Adds P new) (hi : ∀ location, P location → Q location) :
    old.Adds Q new :=
  ⟨h.home, h.kept, fun hn hs => (h.added hn hs).imp_right (hi _)⟩

theorem Adds.trans (hf : old.Adds P middle) (hs : middle.Adds P new) : old.Adds P new := by
  refine ⟨hs.home.trans hf.home, fun h => hs.kept (hf.kept h), fun {location entry} hn he => ?_⟩
  cases hm : middle.entry? location with
  | none => exact hs.added hm he
  | some between =>
      obtain rfl : between = entry := Option.some.inj ((hs.kept hm).symm.trans he)
      exact hf.added hn hm

/-- A way that can be gone can still be gone where all directories stay. -/
theorem follow_of_directories
    (h : ∀ {place}, old.entry? place = some .directory → new.entry? place = some .directory)
    {pieces : List String} {here location : Location}
    (hf : old.follow here pieces = .ok location) : new.follow here pieces = .ok location := by
  induction pieces generalizing here with
  | nil => exact hf
  | cons piece rest ih =>
      unfold Tree.follow at hf ⊢
      split
      · rename_i hr
        exact ih (by simpa [hr] using hf)
      · rename_i hr
        simp only [hr, Bool.false_eq_true, ↓reduceIte] at hf
        cases he : old.entry? here with
        | none => simp [he] at hf
        | some entry =>
            cases entry with
            | file bytes => simp [he] at hf
            | directory =>
                simp only [he] at hf
                simp only [h he]
                split
                · rename_i hp
                  exact ih (by simpa [hp] using hf)
                · rename_i hp
                  split
                  · rename_i hb
                    exact ih (by simpa [hp, hb] using hf)
                  · rename_i hb
                    exact ih (by simpa [hp, hb] using hf)

theorem Adds.reach (h : old.Adds P new) {pieces : List String} {location : Location}
    (hf : old.reach pieces = .ok location) : new.reach pieces = .ok location := by
  unfold Tree.reach at hf ⊢
  rw [h.home]
  exact follow_of_directories h.kept hf

/-- The locations that the start of a path leads to. -/
def OnTheWay (tree : Tree) (parts : List String) (location : Location) : Prop :=
  ∃ start, start <+: parts ∧ tree.reach start = .ok location

theorem OnTheWay.further {start : List String} {location : Location}
    (hw : tree.OnTheWay start location) (hs : start <+: parts) : tree.OnTheWay parts location := by
  obtain ⟨first, hp, hf⟩ := hw
  exact ⟨first, hp.trans hs, hf⟩

theorem OnTheWay.mono {location : Location} (hw : old.OnTheWay parts location)
    (h : old.Adds P new) : new.OnTheWay parts location := by
  obtain ⟨first, hp, hf⟩ := hw
  exact ⟨first, hp, h.reach hf⟩

/-! ## Making directories -/

theorem makeDirectory_eq_ok : tree.makeDirectory parts = .ok made ↔
    ∃ location, tree.reach parts = .ok location ∧ tree.entry? location = none
      ∧ isTooLong location = false ∧ made = tree.set location .directory := by
  unfold makeDirectory
  cases hf : tree.reach parts with
  | error fault => simp [bind, Except.bind]
  | ok location =>
      cases he : tree.entry? location with
      | some entry => simp [bind, Except.bind, he, throw, throwThe, MonadExceptOf.throw]
      | none =>
          cases hl : isTooLong location with
          | true => simp [bind, Except.bind, he, hl, throw, throwThe, MonadExceptOf.throw]
          | false => simp [bind, Except.bind, he, hl, pure, Except.pure, eq_comm (a := made)]

theorem makeDirectory_adds (h : tree.makeDirectory parts = .ok made) :
    tree.Adds (made.OnTheWay parts) made := by
  obtain ⟨location, hf, hn, -, rfl⟩ := makeDirectory_eq_ok.mp h
  have hset : ∀ place, Tree.entry? (tree.set location .directory) place =
      if place = location then some .directory else tree.entry? place :=
    fun place => entry?_set (ne_nil_of_ne_directory (by simp [hn] : tree.entry? location ≠ _))
  have hadds : tree.Adds (· = location) (tree.set location .directory) := by
    refine ⟨home_set, ?_, ?_⟩
    · intro place entry he
      rw [hset, if_neg]
      · exact he
      · rintro rfl
        simp [hn] at he
    · intro place entry hp he
      rw [hset] at he
      split at he
      · cases he
        exact ⟨rfl, by assumption⟩
      · simp [hp] at he
  refine hadds.mono fun place hp => ⟨parts, List.prefix_refl _, ?_⟩
  rw [hp]
  exact hadds.reach hf

/-- Either the last directory is made, in the tree or where those around it are made, or it is not and
is only fine if it is there. -/
theorem makeDirectories_cons (tree : Tree) (last : String) (before : List String) :
    ∃ start, (start = tree ∨ start = (tree.makeDirectories before).1)
      ∧ ((∃ made, start.makeDirectory (last :: before).reverse = .ok made
          ∧ tree.makeDirectories (last :: before) = (made, none))
        ∨ ∃ fault, tree.makeDirectories (last :: before) = (start, fault)
          ∧ (fault = none → start.isDirectory ⟨(last :: before).reverse⟩)) := by
  rw [makeDirectories]
  dsimp only
  split
  · rename_i made hm
    exact ⟨tree, .inl rfl, .inl ⟨made, hm, rfl⟩⟩
  · split
    · rename_i after fault hr
      exact ⟨after, .inr (by rw [hr]), .inr ⟨some fault, rfl, fun h => nomatch h⟩⟩
    · rename_i after hr
      refine ⟨after, .inr (by rw [hr]), ?_⟩
      split
      · rename_i made hm
        exact .inl ⟨made, hm, rfl⟩
      · exact .inr ⟨_, rfl, fun h => by simpa using h⟩
  · exact ⟨tree, .inl rfl, .inr ⟨_, rfl, fun h => by simpa using h⟩⟩

/-- Directories are only made on the way of a path, also if not all of them can be made. -/
theorem makeDirectories_adds (tree : Tree) (reversed : List String) :
    tree.Adds ((tree.makeDirectories reversed).1.OnTheWay reversed.reverse)
      (tree.makeDirectories reversed).1 := by
  induction reversed with
  | nil => exact .refl tree
  | cons last before ih =>
      have hbefore : before.reverse <+: (last :: before).reverse := by
        rw [List.reverse_cons]
        exact List.prefix_append _ _
      obtain ⟨start, hs, hresult⟩ := makeDirectories_cons tree last before
      have hstart : tree.Adds (start.OnTheWay (last :: before).reverse) start := by
        rcases hs with rfl | rfl
        · exact .refl start
        · exact ih.mono fun place hw => hw.further hbefore
      rcases hresult with ⟨made, hm, hr⟩ | ⟨fault, hr, -⟩
      · rw [hr]
        have hadds := makeDirectory_adds hm
        exact (hstart.mono fun place hw => hw.mono hadds).trans hadds
      · rw [hr]
        exact hstart

theorem isDirectory_iff {path : Path} : tree.isDirectory path = true ↔
    ∃ location, tree.reach path.parts = .ok location
      ∧ tree.entry? location = some .directory := by
  unfold isDirectory lookup? find?
  cases tree.reach path.parts with
  | error fault => simp
  | ok location =>
      cases he : tree.entry? location with
      | none => simp [he]
      | some entry => cases entry <;> simp [he]

/-- Where there is a directory, nothing is made. -/
theorem makeDirectories_of_isDirectory {reversed : List String}
    (h : tree.isDirectory ⟨reversed.reverse⟩) : tree.makeDirectories reversed = (tree, none) := by
  cases reversed with
  | nil =>
      have h : tree.isDirectory ⟨[]⟩ := h
      rw [makeDirectories, if_pos h]
  | cons last before =>
      obtain ⟨location, hf, he⟩ := isDirectory_iff.mp h
      have hthere : tree.makeDirectory (last :: before).reverse = .error .alreadyThere := by
        unfold makeDirectory
        rw [hf]
        simp [bind, Except.bind, he, throw, throwThe, MonadExceptOf.throw]
      rw [makeDirectories]
      simp only [hthere, h, ↓reduceIte]

/-- Directories that are made without a fault are there. -/
theorem isDirectory_of_makeDirectories {reversed : List String}
    (h : (tree.makeDirectories reversed).2 = none) :
    (tree.makeDirectories reversed).1.isDirectory ⟨reversed.reverse⟩ := by
  cases reversed with
  | nil => simpa [makeDirectories] using h
  | cons last before =>
      obtain ⟨start, -, ⟨made, hm, hr⟩ | ⟨fault, hr, hd⟩⟩ := makeDirectories_cons tree last before
      · rw [hr]
        have hadds := makeDirectory_adds hm
        obtain ⟨location, hf, hn, -, rfl⟩ := makeDirectory_eq_ok.mp hm
        refine isDirectory_iff.mpr ⟨location, hadds.reach hf, ?_⟩
        have hne : location ≠ [] := ne_nil_of_ne_directory (by simp [hn] : start.entry? location ≠ _)
        rw [entry?_set hne, if_pos rfl]
      · rw [hr] at h ⊢
        exact hd h

end Adding

/-! ## Writing -/

section Writing

variable {tree written : Tree} {path : Path} {bytes : List UInt8}

theorem write_eq_ok : tree.write path bytes = .ok written ↔
    ∃ location, tree.reach path.parts = .ok location ∧ tree.entry? location ≠ some .directory
      ∧ isTooLong location = false ∧ written = tree.set location (.file bytes) := by
  unfold write
  cases hf : tree.reach path.parts with
  | error fault => simp [bind, Except.bind]
  | ok location =>
      cases he : tree.entry? location with
      | none =>
          cases hl : isTooLong location with
          | true => simp [bind, Except.bind, he, hl, throw, throwThe, MonadExceptOf.throw]
          | false => simp [bind, Except.bind, he, hl, pure, Except.pure, eq_comm (a := written)]
      | some entry =>
          cases entry with
          | directory => simp [bind, Except.bind, he, throw, throwThe, MonadExceptOf.throw]
          | file old =>
              cases hl : isTooLong location with
              | true => simp [bind, Except.bind, he, hl, throw, throwThe, MonadExceptOf.throw]
              | false => simp [bind, Except.bind, he, hl, pure, Except.pure, eq_comm (a := written)]

end Writing

/-! ## Parents -/

section Parents

variable {tree : Tree} {path : Path}

theorem makeParents_adds (tree : Tree) (path : Path) :
    tree.Adds ((tree.makeParents path).1.OnTheWay path.parent.parts) (tree.makeParents path).1 := by
  have h := makeDirectories_adds tree path.parent.parts.reverse
  rwa [List.reverse_reverse] at h

theorem makeParents_of_isDirectory (h : tree.isDirectory path.parent) :
    tree.makeParents path = (tree, none) :=
  makeDirectories_of_isDirectory (by rwa [List.reverse_reverse])

theorem isDirectory_of_makeParents (h : (tree.makeParents path).2 = none) :
    (tree.makeParents path).1.isDirectory path.parent := by
  have hd := isDirectory_of_makeDirectories h
  rwa [List.reverse_reverse] at hd

end Parents

end SdlAssembly.Files.Tree
