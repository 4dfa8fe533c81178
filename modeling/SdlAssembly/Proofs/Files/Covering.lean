import SdlAssembly.Proofs.Files.Resolving

/-!
# Paths that add nothing

What paths resolve to is in order and so decided by which paths are given. A path gives nothing new
beside a path to a directory that it is inside of, if it is spelled by further names and is a
directory or a document itself: what is below it is given there already, spelled alike.
-/

namespace SdlAssembly.Files.Tree

variable {tree : Tree} {path : Path} {paths paths' : List Path}

/-! ## The same paths -/

/-- The order and the repetition of paths make no difference. -/
theorem resolve_congr (hm : ∀ path, path ∈ paths' ↔ path ∈ paths) :
    tree.resolve paths' = tree.resolve paths := by
  refine Path.InOrder.eq_of_mem_iff (resolve_inOrder _) (resolve_inOrder _) fun path => ?_
  simp only [resolve, Path.mem_ordered, List.mem_flatMap, hm]

/-! ## Paths inside of others -/

/-- A path is covered by others if it is one of them, or if it leads by names only from a directory
that one of them leads to, to a directory or to a file with the extension of documents. -/
inductive Covers (tree : Tree) (paths : List Path) : Path → Prop
  | named {path : Path} (named : path ∈ paths) : Covers tree paths path
  | directory {given : Path} {around : Location} {names : List String} (named : given ∈ paths)
      (leads : tree.lookup? given = some (around, .directory))
      (there : tree.entry? (around ++ names) = some .directory) :
      Covers tree paths (given.append names)
  | document {given : Path} {around : Location} {names : List String} {bytes : List UInt8}
      (named : given ∈ paths) (leads : tree.lookup? given = some (around, .directory))
      (there : tree.entry? (around ++ names) = some (.file bytes)) (ends : EndsAsDocument names) :
      Covers tree paths (given.append names)

/-- What a covered path gives is given already. -/
theorem Covers.mem_resolve {names : List String} (h : tree.WellFormed) (hc : tree.Covers paths path)
    (hg : tree.Gives path names) : path.append names ∈ tree.resolve paths := by
  refine (Tree.mem_resolve h).mpr ?_
  cases hc with
  | named named => exact ⟨path, named, names, hg, rfl⟩
  | @directory given around before named leads there =>
      have hinner := lookup?_append h leads there
      refine ⟨given, named, before ++ names, ?_, Path.append_append ..⟩
      cases hg with
      | file hfile =>
          rw [hinner] at hfile
          cases hfile
      | inside hdirectory below ends =>
          rw [hinner] at hdirectory
          cases hdirectory
          rw [List.append_assoc] at below
          exact .inside leads below ((endsAsDocument_append ends.ne_nil).mpr ends)
  | @document given around before bytes named leads there ends =>
      have hinner := lookup?_append h leads there
      cases hg with
      | file =>
          exact ⟨given, named, before, .inside leads there ends, Path.append_nil _⟩
      | inside hdirectory =>
          rw [hinner] at hdirectory
          cases hdirectory

theorem resolve_subset_of_covers (h : tree.WellFormed)
    (hc : ∀ path ∈ paths', tree.Covers paths path) :
    tree.resolve paths' ⊆ tree.resolve paths := by
  intro path hm
  obtain ⟨given, hgiven, names, hg, rfl⟩ := (Tree.mem_resolve h).mp hm
  exact (hc given hgiven).mem_resolve h hg

/-- Paths that cover each other stand for the same. -/
theorem resolve_of_covers (h : tree.WellFormed) (hc : ∀ path ∈ paths', tree.Covers paths path)
    (hc' : ∀ path ∈ paths, tree.Covers paths' path) : tree.resolve paths' = tree.resolve paths :=
  Path.InOrder.eq_of_mem_iff (resolve_inOrder _) (resolve_inOrder _) fun _ =>
    ⟨fun hm => resolve_subset_of_covers h hc hm, fun hm => resolve_subset_of_covers h hc' hm⟩

end SdlAssembly.Files.Tree
