import SdlAssembly.Proofs.Command.Runs
import SdlAssembly.Proofs.Files.Trees

/-!
# What failed runs leave behind

A run that fails before its output leaves the file tree as it is, but for its log file. A later
failure finds the directories of the output made, and the last one finds the output written.
-/

namespace SdlAssembly.Command

open Files Console Model Annotated

/-! ## Commands -/

/-- What a failed command leaves of a tree: all of it as it is, or directories on the way to its
output, or the output, empty if its text cannot be encoded, or whole if it cannot be told. -/
inductive Leaves (around : Surroundings) (verb : Verb) (request : Request) (started : Tree) :
    Option Escape → Tree → Prop
  | nothing {failure : Option Escape}
    (hl : ∀ escape ∈ failure, escape.late = true → request.target verb = none) :
    Leaves around verb request started failure started
  | directories {path : Path} {escape : Escape} {after : Tree}
    (ho : request.target verb = some path)
    (ha : started.Adds (after.OnTheWay path.parent.parts) after)
    (hn : started.isDirectory path.parent → after = started)
    (hp : ∀ failure, escape = .print failure → after.isDirectory path.parent) :
    Leaves around verb request started (some escape) after
  | emptied {draft : Draft} {path : Path} {text : String} {made emptied : Tree}
    (ho : request.target verb = some path)
    (hd : request.draft around.deepest started verb = .ok draft) (hx : draft.text = .ok text)
    (he : around.encoding text = none)
    (ha : started.Adds (made.OnTheWay path.parent.parts) made)
    (hn : started.isDirectory path.parent → made = started)
    (hw : made.write path [] = .ok emptied) :
    Leaves around verb request started (some .unencodable) emptied
  | output {draft : Draft} {path : Path} {text : String} {bytes : List UInt8} {fault : DisplayFault}
    {made written : Tree} (ho : request.target verb = some path)
    (hd : request.draft around.deepest started verb = .ok draft) (hx : draft.text = .ok text)
    (he : around.encoding text = some bytes)
    (ha : started.Adds (made.OnTheWay path.parent.parts) made)
    (hn : started.isDirectory path.parent → made = started)
    (hw : made.write path bytes = .ok written)
    (hb : ∀ cause, fault = .markup cause → '[' ∈ path.text.toList) :
    Leaves around verb request started (some (.display fault)) written

section Leaving

variable {around : Surroundings} {verb : Verb} {request : Request} {started after : Tree}
  {path : Path} {escape : Escape}

theorem makeParents_leaves {fault : Option FileFault}
    (h : started.makeParents path = (after, fault)) :
    started.Adds (after.OnTheWay path.parent.parts) after
      ∧ (started.isDirectory path.parent → after = started)
      ∧ (fault = none → after.isDirectory path.parent) := by
  have ha := Tree.makeParents_adds started path
  have hd : (started.makeParents path).2 = none →
      (started.makeParents path).1.isDirectory path.parent := Tree.isDirectory_of_makeParents
  rw [h] at ha hd
  refine ⟨ha, fun hs => ?_, hd⟩
  rw [Tree.makeParents_of_isDirectory hs] at h
  exact (Prod.mk.inj h).1.symm

/-- What is shown of a failure is the failure itself, unless it shows early. -/
theorem Course.leaves (h : Course around verb request started (some escape) after)
    {failure : Option Escape} (hf : failure = some escape ∨ failure = none ∧ escape.late = false) :
    Leaves around verb request started failure after := by
  cases h with
  | undrafted hd =>
      refine .nothing fun escape' he hl => ?_
      rcases hf with rfl | ⟨rfl, -⟩
      · cases he
        rw [draft_early hd] at hl
        cases hl
      · cases he
  | shown hd ho ht => exact .nothing fun _ _ _ => ho
  | unmade hd ho hp =>
      obtain ⟨ha, hn, -⟩ := makeParents_leaves hp
      rcases hf with rfl | ⟨-, hl⟩
      · exact .directories ho ha hn fun failure he => nomatch he
      · cases hl
  | unprinted hd hx ho hp =>
      obtain ⟨-, -, -, -, failure, -, -, -, rfl⟩ := draft_missing hd hx
      obtain ⟨ha, hn, hm⟩ := makeParents_leaves hp
      rcases hf with rfl | ⟨-, hl⟩
      · exact .directories ho ha hn fun _ _ => hm rfl
      · cases hl
  | unwritten hd hx ho hp hw =>
      obtain ⟨ha, hn, -⟩ := makeParents_leaves hp
      cases hw with
      | refused hw =>
          rcases hf with rfl | ⟨-, hl⟩
          · exact .directories ho ha hn fun failure he => nomatch he
          · cases hl
      | emptied he hw =>
          rcases hf with rfl | ⟨-, hl⟩
          · exact .emptied ho hd hx he ha hn hw
          · cases hl
  | written hd hx ho hp hw ht =>
      obtain ⟨ha, hn, -⟩ := makeParents_leaves hp
      cases hw with
      | filled he hw =>
          cases ht with
          | broken ht =>
              rcases hf with rfl | ⟨-, hl⟩
              · refine .output ho hd hx he ha hn hw fun cause hc => ?_
                obtain ⟨target, ht, hm⟩ := draft_markup hd (hc ▸ ht)
                cases ho.symm.trans ht
                exact hm
              · cases hl

end Leaving

/-! ## Log files -/

end SdlAssembly.Command
