import SdlAssembly.Files.Load
import SdlAssembly.Proofs.Files.Locations
import SdlAssembly.Proofs.Files.Ordering

/-!
# What paths resolve to

A path gives itself if it leads to a file. If it leads to a directory, it gives what is inside by
names only, be it a file or a directory, and results are told apart by how they are spelled. So
there may be directories among them, which are lost when the results are resolved again, and one
file may be among them under several spellings.
-/

namespace SdlAssembly.Files.Tree

open Documents

/-! ## What a path gives -/

/-- Whether the last of names has the extension of documents. -/
def EndsAsDocument (names : List String) : Prop :=
  ∃ name, names.getLast? = some name ∧ name.endsWith documentExtension

/-- Whether a path leads to a location where there is something. -/
def LeadsTo (tree : Tree) (path : Path) (location : Location) : Prop :=
  ∃ entry, tree.lookup? path = some (location, entry)

/-- Whether a path leads to a file. -/
def LeadsToFile (tree : Tree) (path : Path) : Prop :=
  ∃ location bytes, tree.lookup? path = some (location, .file bytes)

/-- The names by which a path gives something: none for the file that it leads to, and those of what
is inside the directory that it leads to. -/
inductive Gives (tree : Tree) (path : Path) : List String → Prop
  | file {location : Location} {bytes : List UInt8}
      (leads : tree.lookup? path = some (location, .file bytes)) : Gives tree path []
  | inside {location : Location} {names : List String} {entry : Entry}
      (leads : tree.lookup? path = some (location, .directory))
      (there : tree.entry? (location ++ names) = some entry) (named : EndsAsDocument names) :
      Gives tree path names

theorem isDocumentName_iff {names : List String} :
    isDocumentName names ↔ EndsAsDocument names := by
  unfold isDocumentName EndsAsDocument
  cases names.getLast? <;> simp

theorem EndsAsDocument.ne_nil {names : List String} (h : EndsAsDocument names) : names ≠ [] := by
  rintro rfl
  obtain ⟨_, hl, -⟩ := h
  cases hl

theorem endsAsDocument_append {before names : List String} (h : names ≠ []) :
    EndsAsDocument (before ++ names) ↔ EndsAsDocument names := by
  unfold EndsAsDocument
  rw [List.getLast?_append_of_ne_nil before h]

section Resolving

variable {tree : Tree} {path given : Path} {paths : List Path} {names : List String}
  {location location' : Location}

theorem LeadsTo.unique (hl : tree.LeadsTo path location) (hl' : tree.LeadsTo path location') :
    location = location' := by
  obtain ⟨entry, he⟩ := hl
  obtain ⟨entry', he'⟩ := hl'
  exact (Prod.mk.inj (Option.some.inj (he.symm.trans he'))).1

theorem resolve_inOrder (paths : List Path) : Path.InOrder (tree.resolve paths) :=
  Path.ordered_inOrder _

/-- Files in order resolve to themselves. -/
theorem resolve_of_leadsToFile (ho : Path.InOrder paths)
    (hf : ∀ path ∈ paths, tree.LeadsToFile path) : tree.resolve paths = paths := by
  have hone : ∀ path ∈ paths, tree.resolvePath path = [path] := by
    intro path hm
    obtain ⟨location, bytes, hl⟩ := hf path hm
    simp [resolvePath, hl]
  have hall : paths.flatMap tree.resolvePath = paths := by
    rw [List.flatMap_def, List.map_congr_left hone, ← List.flatMap_def]
    exact List.flatMap_singleton' paths
  rw [resolve, hall, ho.ordered_eq]

variable (h : tree.WellFormed)

include h

theorem mem_resolvePath : path ∈ tree.resolvePath given ↔
    ∃ names, tree.Gives given names ∧ path = given.append names := by
  unfold resolvePath
  constructor
  · intro hm
    split at hm
    · cases hm
    · rename_i leads
      exact ⟨[], .file leads, by rw [List.mem_singleton.mp hm, Path.append_nil]⟩
    · rename_i leads
      obtain ⟨⟨names, entry⟩, hi, rfl⟩ := List.mem_map.mp hm
      obtain ⟨hb, hn⟩ := List.mem_filter.mp hi
      exact ⟨names, .inside leads ((mem_below h).mp hb).2 (isDocumentName_iff.mp hn), rfl⟩
  · rintro ⟨names, hg, rfl⟩
    cases hg with
    | file leads => simp [leads, Path.append_nil]
    | inside leads there named =>
        have hb := (mem_below h).mpr ⟨named.ne_nil, there⟩
        simp only [leads]
        exact List.mem_map.mpr
          ⟨_, List.mem_filter.mpr ⟨hb, isDocumentName_iff.mpr named⟩, rfl⟩

theorem mem_resolve : path ∈ tree.resolve paths ↔
    ∃ given ∈ paths, ∃ names, tree.Gives given names ∧ path = given.append names := by
  rw [resolve, Path.mem_ordered, List.mem_flatMap]
  simp only [mem_resolvePath h]

/-- What is given by names is where the names lead from the path. -/
theorem Gives.leadsTo (hg : tree.Gives given names) : ∃ location,
    tree.LeadsTo given location ∧ tree.LeadsTo (given.append names) (location ++ names) := by
  cases hg with
  | @file location _ leads =>
      refine ⟨location, ⟨_, leads⟩, ?_⟩
      rw [Path.append_nil, List.append_nil]
      exact ⟨_, leads⟩
  | inside leads there named => exact ⟨_, ⟨_, leads⟩, _, lookup?_append h leads there⟩

/-! ## Files -/

/-- A file is among the results if it was named, or is inside a directory that was named and has the
extension of documents. -/
theorem exists_mem_resolve_iff {bytes : List UInt8}
    (hf : tree.entry? location = some (.file bytes)) :
    (∃ path ∈ tree.resolve paths, tree.lookup? path = some (location, .file bytes)) ↔
      ∃ given ∈ paths, tree.lookup? given = some (location, .file bytes)
        ∨ ∃ around names, tree.lookup? given = some (around, .directory)
          ∧ location = around ++ names ∧ EndsAsDocument names := by
  constructor
  · rintro ⟨path, hm, hl⟩
    obtain ⟨given, hgiven, names, hg, rfl⟩ := (mem_resolve h).mp hm
    refine ⟨given, hgiven, ?_⟩
    cases hg with
    | file leads => exact .inl (by rwa [Path.append_nil] at hl)
    | inside leads there named =>
        rw [lookup?_append h leads there] at hl
        cases hl
        exact .inr ⟨_, names, leads, rfl, named⟩
  · rintro ⟨given, hgiven, hl | ⟨around, names, hl, rfl, hn⟩⟩
    · refine ⟨given, (mem_resolve h).mpr ⟨given, hgiven, [], .file hl, ?_⟩, hl⟩
      rw [Path.append_nil]
    · exact ⟨given.append names,
        (mem_resolve h).mpr ⟨given, hgiven, names, .inside hl hf hn, rfl⟩, lookup?_append h hl hf⟩

theorem leadsToFile_resolve_iff :
    (∀ path ∈ tree.resolve paths, tree.LeadsToFile path) ↔
      ∀ given ∈ paths, ∀ around names, tree.lookup? given = some (around, .directory) →
        EndsAsDocument names → tree.entry? (around ++ names) ≠ some .directory := by
  constructor
  · intro hf given hgiven around names hl hn hd
    obtain ⟨location, bytes, hp⟩ :=
      hf _ ((mem_resolve h).mpr ⟨given, hgiven, names, .inside hl hd hn, rfl⟩)
    rw [lookup?_append h hl hd] at hp
    cases hp
  · intro hd path hm
    obtain ⟨given, hgiven, names, hg, rfl⟩ := (mem_resolve h).mp hm
    cases hg with
    | file leads =>
        rw [Path.append_nil]
        exact ⟨_, _, leads⟩
    | @inside location _ entry leads there named =>
        cases entry with
        | file bytes => exact ⟨_, bytes, lookup?_append h leads there⟩
        | directory => exact (hd given hgiven location names leads named there).elim

/-! ## Spellings -/

/-- Results lead to a location by one spelling where of any two paths that give it the one is
spelled as the other with the names that lead from there to it. -/
theorem resolve_injective_iff :
    (∀ first ∈ tree.resolve paths, ∀ second ∈ tree.resolve paths, tree.LeadsTo first location →
        tree.LeadsTo second location → first = second) ↔
      ∀ outer ∈ paths, ∀ inner ∈ paths, ∀ around names more, tree.LeadsTo outer around →
        tree.LeadsTo inner (around ++ names) → location = around ++ (names ++ more) →
        tree.Gives outer (names ++ more) → tree.Gives inner more → inner = outer.append names := by
  constructor
  · rintro he outer houter inner hinner around names more hout hin rfl hgo hgi
    obtain ⟨place, hplace, ho⟩ := hgo.leadsTo h
    obtain ⟨place', hplace', hi⟩ := hgi.leadsTo h
    obtain rfl := hplace.unique hout
    obtain rfl := hplace'.unique hin
    rw [List.append_assoc] at hi
    have heq := he _ ((mem_resolve h).mpr ⟨outer, houter, _, hgo, rfl⟩)
      _ ((mem_resolve h).mpr ⟨inner, hinner, _, hgi, rfl⟩) ho hi
    rw [← Path.append_append, Path.eq_iff_parts] at heq
    exact (Path.eq_iff_parts.mpr (List.append_cancel_right heq)).symm
  · intro hs first hfirst second hsecond hl hl'
    obtain ⟨given, hgiven, names, hg, rfl⟩ := (mem_resolve h).mp hfirst
    obtain ⟨given', hgiven', names', hg', rfl⟩ := (mem_resolve h).mp hsecond
    obtain ⟨place, hp, hn⟩ := hg.leadsTo h
    obtain ⟨place', hp', hn'⟩ := hg'.leadsTo h
    obtain rfl := hn.unique hl
    -- of two locations with one below both, one is below the other
    rcases List.append_eq_append_iff.mp (hn'.unique hl') with
      ⟨between, rfl, rfl⟩ | ⟨between, rfl, rfl⟩
    · have hsame := hs given' hgiven' given hgiven place' between names hp' hp
        (List.append_assoc _ _ _) hg' hg
      rw [hsame, Path.append_append]
    · have hsame := hs given hgiven given' hgiven' place between names' hp hp' rfl hg hg'
      rw [hsame, Path.append_append]

/-! ## Resolving again -/

/-- What a result gives is a result. -/
theorem resolve_resolve_subset : tree.resolve (tree.resolve paths) ⊆ tree.resolve paths := by
  intro path hm
  obtain ⟨middle, hmiddle, names, hg, rfl⟩ := (mem_resolve h).mp hm
  cases hg with
  | file leads => rwa [Path.append_nil]
  | @inside place _ entry leads there named =>
      obtain ⟨given, hgiven, before, hb, rfl⟩ := (mem_resolve h).mp hmiddle
      cases hb with
      | file hfile =>
          rw [Path.append_nil, hfile] at leads
          cases leads
      | inside hdirectory hthere hnamed =>
          rw [lookup?_append h hdirectory hthere] at leads
          obtain ⟨rfl, -⟩ := Prod.mk.inj (Option.some.inj leads)
          rw [List.append_assoc] at there
          exact (mem_resolve h).mpr ⟨given, hgiven, before ++ names,
            .inside hdirectory there ((endsAsDocument_append named.ne_nil).mpr named),
            Path.append_append given before names⟩

theorem resolve_resolve_sublist :
    (tree.resolve (tree.resolve paths)).Sublist (tree.resolve paths) :=
  (resolve_inOrder _).sublist (resolve_inOrder paths) (resolve_resolve_subset h)

/-- The shortest of the directories among paths is not given by any of them. -/
theorem leadsToFile_of_subset (hs : paths ⊆ tree.resolve paths) :
    ∀ path ∈ paths, tree.LeadsToFile path := by
  intro path hm
  induction hn : path.parts.length using Nat.strongRecOn generalizing path with
  | ind count ih =>
      obtain ⟨given, hgiven, names, hg, rfl⟩ := (mem_resolve h).mp (hs hm)
      cases hg with
      | file leads =>
          rw [Path.append_nil]
          exact ⟨_, _, leads⟩
      | inside leads there named =>
          have hshorter : given.parts.length < count := by
            have hl := List.length_pos_iff.mpr named.ne_nil
            rw [Path.append, List.length_append] at hn
            omega
          obtain ⟨_, _, hfile⟩ := ih _ hshorter given hgiven rfl
          rw [leads] at hfile
          cases hfile

theorem resolve_resolve_iff : tree.resolve (tree.resolve paths) = tree.resolve paths ↔
    ∀ path ∈ tree.resolve paths, tree.LeadsToFile path :=
  ⟨fun he => leadsToFile_of_subset h (fun _ hm => by rwa [he]),
    resolve_of_leadsToFile (resolve_inOrder paths)⟩

end Resolving

/-! ## Loading -/

theorem documentsAt_eq_ok {tree : Tree} {paths : List Path} {documents : List NamedDocument} :
    (tree.documentsAt paths).value = .ok documents ↔
      paths.map tree.documentAt = documents.map .ok := by
  induction paths generalizing documents with
  | nil => cases documents <;> simp [documentsAt]
  | cons path rest ih =>
      rw [documentsAt, List.map_cons]
      cases tree.documentAt path with
      | error failure => cases documents <;> simp
      | ok d =>
          simp only [Logged.value_andThen, Logged.value_map]
          cases documents with
          | nil => cases (tree.documentsAt rest).value <;> simp [Except.map]
          | cons first later =>
              rw [List.map_cons, List.cons.injEq, Except.ok.injEq, ← ih]
              cases (tree.documentsAt rest).value <;> simp [Except.map]

/-- Some of the paths give some of the documents. -/
theorem documentsAt_sublist {tree : Tree} {paths others : List Path}
    {documents : List NamedDocument} (hs : others.Sublist paths)
    (hd : (tree.documentsAt paths).value = .ok documents) :
    ∃ documents', (tree.documentsAt others).value = .ok documents'
      ∧ documents'.Sublist documents ∧ (documents' = documents ↔ others = paths) := by
  have hmap := documentsAt_eq_ok.mp hd
  have hsome := hs.map tree.documentAt
  rw [hmap] at hsome
  obtain ⟨documents', hd', he⟩ := List.sublist_map_iff.mp hsome
  refine ⟨documents', documentsAt_eq_ok.mpr he, hd', fun hsame => ?_, fun hsame => ?_⟩
  · refine hs.eq_of_length ?_
    subst hsame
    rw [← List.length_map tree.documentAt, he, ← hmap, List.length_map]
  · subst hsame
    exact List.map_injective_iff.mpr (fun _ _ => Except.ok.inj) (he.symm.trans hmap)

/-- What paths give, in order and each path once. A file is among it if it was named, or is inside a
named directory under a name with the extension of documents; so is a directory, which is why all of
it are files only where no such directory is inside a named one. A location is led to once where no
two given paths that give it are spelled apart. Resolving again changes nothing exactly if all are
files. Then loading what paths resolve to, as commands do, loads what the paths stand for; with a
directory among it, fewer documents are loaded. -/
theorem resolve_exact {tree : Tree} (h : tree.WellFormed) (paths : List Path) :
    Path.InOrder (tree.resolve paths)
      ∧ (∀ path, path ∈ tree.resolve paths ↔
        ∃ given ∈ paths, ∃ names, tree.Gives given names ∧ path = given.append names)
      ∧ (∀ location bytes, tree.entry? location = some (.file bytes) →
        ((∃ path ∈ tree.resolve paths, tree.lookup? path = some (location, .file bytes)) ↔
          ∃ given ∈ paths, tree.lookup? given = some (location, .file bytes)
            ∨ ∃ around names, tree.lookup? given = some (around, .directory)
              ∧ location = around ++ names ∧ EndsAsDocument names))
      ∧ ((∀ path ∈ tree.resolve paths, tree.LeadsToFile path) ↔
        ∀ given ∈ paths, ∀ around names, tree.lookup? given = some (around, .directory) →
          EndsAsDocument names → tree.entry? (around ++ names) ≠ some .directory)
      ∧ (∀ location, (∀ first ∈ tree.resolve paths, ∀ second ∈ tree.resolve paths,
          tree.LeadsTo first location → tree.LeadsTo second location → first = second) ↔
        ∀ outer ∈ paths, ∀ inner ∈ paths, ∀ around names more, tree.LeadsTo outer around →
          tree.LeadsTo inner (around ++ names) → location = around ++ (names ++ more) →
          tree.Gives outer (names ++ more) → tree.Gives inner more → inner = outer.append names)
      ∧ (tree.resolve (tree.resolve paths) = tree.resolve paths ↔
        ∀ path ∈ tree.resolve paths, tree.LeadsToFile path)
      ∧ ((∀ path ∈ tree.resolve paths, tree.LeadsToFile path) →
        tree.load (tree.resolve paths) = tree.load paths)
      ∧ ∀ documents, (tree.load paths).value = .ok documents →
        ∃ documents', (tree.load (tree.resolve paths)).value = .ok documents'
          ∧ documents'.Sublist documents
          ∧ (documents' = documents ↔ ∀ path ∈ tree.resolve paths, tree.LeadsToFile path) := by
  refine ⟨resolve_inOrder paths, fun _ => mem_resolve h, fun _ _ => exists_mem_resolve_iff h,
    leadsToFile_resolve_iff h, fun _ => resolve_injective_iff h, resolve_resolve_iff h, ?_, ?_⟩
  · intro hf
    rw [load, (resolve_resolve_iff h).mpr hf]
    rfl
  · intro documents hd
    rw [← resolve_resolve_iff h]
    exact documentsAt_sublist (resolve_resolve_sublist h) hd

/-- A document in a directory that is called like one. -/
def nestedTree : Tree where
  entries := [(["d"], .directory), (["d", "x.graphql"], .directory),
    (["d", "x.graphql", "a.graphql"], .file "scalar A".toUTF8.toList)]

theorem nestedTree_wellFormed : nestedTree.WellFormed := by
  refine ⟨rfl, by decide, ?_, by decide⟩
  unfold IsPlain
  decide

/-- The directory is among the results, and not among the results of these. -/
theorem nestedTree_resolves : nestedTree.resolve [⟨["d"]⟩] =
      [⟨["d", "x.graphql"]⟩, ⟨["d", "x.graphql", "a.graphql"]⟩]
    ∧ nestedTree.resolve [⟨["d", "x.graphql"]⟩, ⟨["d", "x.graphql", "a.graphql"]⟩] =
      [⟨["d", "x.graphql", "a.graphql"]⟩]
    ∧ nestedTree.resolve [⟨["d", "x.graphql", "a.graphql"]⟩,
        ⟨["d", "..", "d", "x.graphql", "a.graphql"]⟩] =
      [⟨["d", "..", "d", "x.graphql", "a.graphql"]⟩, ⟨["d", "x.graphql", "a.graphql"]⟩]
    ∧ (nestedTree.documentsAt
        [⟨["d", "x.graphql"]⟩, ⟨["d", "x.graphql", "a.graphql"]⟩]).value.isOk := by
  decide +kernel

/-- The directory is loaded as well, and lost where the results are resolved again. -/
theorem resolve_exact_nested :
    nestedTree.WellFormed ∧ ∃ documents documents',
      (nestedTree.load [⟨["d"]⟩]).value = .ok documents
        ∧ (nestedTree.load (nestedTree.resolve [⟨["d"]⟩])).value = .ok documents'
        ∧ documents'.Sublist documents ∧ documents' ≠ documents := by
  refine ⟨nestedTree_wellFormed, ?_⟩
  obtain ⟨-, -, -, -, -, hagain, -, hload⟩ := resolve_exact nestedTree_wellFormed [⟨["d"]⟩]
  obtain ⟨hfirst, hsecond, -, hk⟩ := nestedTree_resolves
  rw [← hfirst] at hk
  cases hl : (nestedTree.load [⟨["d"]⟩]).value with
  | error failure =>
      rw [load] at hl
      rw [hl] at hk
      cases hk
  | ok documents =>
      obtain ⟨documents', hl', hs, he⟩ := hload documents hl
      refine ⟨documents, documents', rfl, hl', hs, fun hsame => ?_⟩
      have hsame := hagain.mpr (he.mp hsame)
      rw [hfirst, hsecond] at hsame
      cases hsame

/-- A directory among the results, a result that is another when it is resolved again, and one file
under two spellings. -/
theorem resolve_repeats :
    ⟨["d", "x.graphql"]⟩ ∈ nestedTree.resolve [⟨["d"]⟩]
      ∧ nestedTree.isDirectory ⟨["d", "x.graphql"]⟩
      ∧ nestedTree.resolve (nestedTree.resolve [⟨["d"]⟩]) ≠ nestedTree.resolve [⟨["d"]⟩]
      ∧ nestedTree.resolve [⟨["d", "x.graphql", "a.graphql"]⟩,
          ⟨["d", "..", "d", "x.graphql", "a.graphql"]⟩] =
        [⟨["d", "..", "d", "x.graphql", "a.graphql"]⟩, ⟨["d", "x.graphql", "a.graphql"]⟩]
      ∧ nestedTree.lookup? ⟨["d", "..", "d", "x.graphql", "a.graphql"]⟩ =
        nestedTree.lookup? ⟨["d", "x.graphql", "a.graphql"]⟩ := by
  obtain ⟨hfirst, hsecond, htwice, -⟩ := nestedTree_resolves
  rw [hfirst, hsecond]
  exact ⟨List.mem_cons_self, rfl, by simp, htwice, rfl⟩

end SdlAssembly.Files.Tree
