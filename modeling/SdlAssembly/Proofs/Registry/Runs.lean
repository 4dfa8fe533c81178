import Mathlib.Data.List.Perm.Subperm
import SdlAssembly.Proofs.Registry
import SdlAssembly.Proofs.Schema.Sources
import SdlAssembly.Registry.Operation

/-!
# Runs of operations on a registry

Of all the pairs that operations attempt to add, a registry holds the first one of each key. Each
operation answers as the list of these pairs does, and only an addition changes it.
-/

namespace SdlAssembly.Registry

variable {α : Type}

/-! ## Attempts -/

/-- The pair that an operation attempts to add. -/
def Operation.attempt? : Operation α → Option (String × α)
  | tryAdd key value => some (key, value)
  | _ => none

/-- The pairs that operations attempt to add, in order. -/
def attempts (operations : List (Operation α)) : List (String × α) :=
  operations.filterMap Operation.attempt?

/-! ## Answers of a list -/

/-- Whether pairs of distinct keys are a mapping that is given by pairs, a later one of which
replaces an earlier one with its key. The order does not matter. -/
def SameMapping (same : α → α → Bool) (kept pairs : List (String × α)) : Prop :=
  ∀ key, Option.Rel (fun a b => same a b) (kept.lookup key) (pairs.reverse.lookup key)

/-- The answers to operations when the given pairs were kept of all that were attempted. -/
inductive Tells (same : α → α → Bool) (text : α → String) (attempted kept : List (String × α)) :
    Operation α → Answer α → Prop
  | added {key value} (h : key ∉ attempted.map Prod.fst) :
    Tells same text attempted kept (.tryAdd key value) (.flag true)
  | taken {key value} (h : key ∈ attempted.map Prod.fst) :
    Tells same text attempted kept (.tryAdd key value) (.flag false)
  | got {key default value} (h : kept.lookup key = some value) :
    Tells same text attempted kept (.get key default) (.value (some value))
  | notGot {key default} (h : key ∉ attempted.map Prod.fst) :
    Tells same text attempted kept (.get key default) (.value default)
  | entry {key value} (h : kept.lookup key = some value) :
    Tells same text attempted kept (.entry key) (.value (some value))
  | noEntry {key} (h : key ∉ attempted.map Prod.fst) :
    Tells same text attempted kept (.entry key) (.refused (.noEntry key))
  | contained {key} (h : key ∈ attempted.map Prod.fst) :
    Tells same text attempted kept (.contains key) (.flag true)
  | notContained {key} (h : key ∉ attempted.map Prod.fst) :
    Tells same text attempted kept (.contains key) (.flag false)
  | size : Tells same text attempted kept .size (.count kept.length)
  | full (h : kept ≠ []) : Tells same text attempted kept .isFull (.flag true)
  | notFull (h : kept = []) : Tells same text attempted kept .isFull (.flag false)
  | items : Tells same text attempted kept .items (.items kept)
  | keys : Tells same text attempted kept .keys (.keys (kept.map Prod.fst))
  | values : Tells same text attempted kept .values (.values (kept.map Prod.snd))
  | equal {pairs} (h : SameMapping same kept pairs) :
    Tells same text attempted kept (.equals pairs) (.flag true)
  | notEqual {pairs} (h : ¬SameMapping same kept pairs) :
    Tells same text attempted kept (.equals pairs) (.flag false)
  | described {r : Registry α} (h : r.toList = kept) :
    Tells same text attempted kept .describe (.text (r.describe text))
  | assigned {key value} :
    Tells same text attempted kept (.assign key value) (.refused .noAssignment)
  | deleted {key} : Tells same text attempted kept (.delete key) (.refused .noDeletion)

/-! ## Mappings given by pairs -/

section Mappings

variable {pairs : List (String × α)} {key : String}

theorem mem_keys_iff_lookup :
    key ∈ pairs.map Prod.fst ↔ (pairs.lookup key).isSome := by
  rw [List.mem_map, List.lookup_isSome_iff]
  exact exists_congr fun pair => and_congr_right fun _ => by rw [beq_iff_eq, eq_comm]

/-- A pair is passed over if a later one has its key. -/
theorem lastOfEach_cons (key : String) (value : α) (rest : List (String × α)) :
    lastOfEach ((key, value) :: rest) =
      if (rest.reverse.lookup key).isSome then lastOfEach rest
      else (key, value) :: lastOfEach rest := by
  have hlater : (rest.any fun pair => pair.1 == key) = (rest.reverse.lookup key).isSome := by
    rw [Bool.eq_iff_iff, List.any_eq_true, List.lookup_isSome_iff]
    simp only [List.mem_reverse, BEq.comm]
  exact hlater ▸ rfl

theorem lookup_lastOfEach (pairs : List (String × α)) (key : String) :
    (lastOfEach pairs).lookup key = pairs.reverse.lookup key := by
  induction pairs with
  | nil => rfl
  | cons first rest ih =>
      obtain ⟨k, value⟩ := first
      rw [List.reverse_cons, List.lookup_append, lastOfEach_cons]
      by_cases hk : key = k
      · subst hk
        cases hr : rest.reverse.lookup key <;> simp [ih, hr]
      · have hne : (key == k) = false := beq_eq_false_iff_ne.mpr hk
        split <;> simp [List.lookup_cons, hne, ih]

theorem nodup_lastOfEach (pairs : List (String × α)) : ((lastOfEach pairs).map Prod.fst).Nodup := by
  induction pairs with
  | nil => exact List.nodup_nil
  | cons first rest ih =>
      obtain ⟨k, value⟩ := first
      rw [lastOfEach_cons]
      split
      · exact ih
      · rename_i hn
        refine List.nodup_cons.mpr ⟨fun hm => hn ?_, ih⟩
        rw [← lookup_lastOfEach]
        exact mem_keys_iff_lookup.mp hm

end Mappings

/-! ## Equality -/

section Equality

variable {same : α → α → Bool} {r : Registry α} {pairs : List (String × α)}

theorem isSome_of_rel {a b : Option α} (h : Option.Rel (fun x y => same x y) a b) :
    a.isSome = b.isSome := by
  cases h <;> rfl

theorem exists_of_rel {a : Option α} {b : α} (h : Option.Rel (fun x y => same x y) a (some b)) :
    ∃ found, a = some found ∧ same found b = true := by
  cases h with
  | some hs => exact ⟨_, rfl, hs⟩

theorem agrees_iff_forall : r.agrees same pairs = true ↔ r.keys.length = (lastOfEach pairs).length
    ∧ ∀ key value, (lastOfEach pairs).lookup key = some value →
      ∃ found, r.toList.lookup key = some found ∧ same found value = true := by
  have hsize : r.size = r.keys.length := by simp [size, keys]
  simp only [agrees, Bool.and_eq_true, beq_iff_eq, List.all_eq_true, Prod.forall,
    Schemas.mem_iff_lookup (nodup_lastOfEach pairs), hsize]
  refine and_congr_right fun _ => forall_congr' fun key => forall_congr' fun value =>
    imp_congr_right fun _ => ?_
  have hget : r.get? key = r.toList.lookup key := rfl
  rw [hget]
  cases r.toList.lookup key <;> simp

/-- A registry with as many entries as a mapping, and with all those of the mapping, has no
others. -/
theorem agrees_iff : r.agrees same pairs = true ↔ SameMapping same r.toList pairs := by
  have hd := nodup_lastOfEach pairs
  have hothers : (lastOfEach pairs).length = ((lastOfEach pairs).map Prod.fst).length := by simp
  unfold SameMapping
  simp only [agrees_iff_forall, ← lookup_lastOfEach, hothers]
  constructor
  · rintro ⟨hs, hv⟩ key
    have hsub : (lastOfEach pairs).map Prod.fst ⊆ r.keys := by
      intro key hk
      obtain ⟨value, ho⟩ := Option.isSome_iff_exists.mp (mem_keys_iff_lookup.mp hk)
      obtain ⟨found, hf, -⟩ := hv key value ho
      exact mem_keys_iff_lookup.mpr (Option.isSome_iff_exists.mpr ⟨found, hf⟩)
    -- Distinct keys that are all among as many others are these in another order.
    have hkeys := (List.Nodup.subperm hd hsub).perm_of_length_le (Nat.le_of_eq hs)
    cases ho : (lastOfEach pairs).lookup key with
    | some value =>
        obtain ⟨found, hf, hsame⟩ := hv key value ho
        rw [hf]
        exact .some hsame
    | none =>
        have hn : r.toList.lookup key = none := by
          rw [← Option.not_isSome_iff_eq_none, ← mem_keys_iff_lookup]
          intro hm
          have hm := mem_keys_iff_lookup.mp (hkeys.mem_iff.mpr hm)
          rw [ho] at hm
          cases hm
        rw [hn]
        exact .none
  · intro hv
    refine ⟨List.Perm.length_eq ((List.perm_ext_iff_of_nodup r.nodup hd).mpr fun key => ?_), ?_⟩
    · show key ∈ r.toList.map Prod.fst ↔ _
      rw [mem_keys_iff_lookup, mem_keys_iff_lookup, isSome_of_rel (hv key)]
    · intro key value ho
      have hrel := hv key
      rw [ho] at hrel
      exact exists_of_rel hrel

end Equality

/-! ## Steps -/

/-- A registry holds, of all attempted pairs, the first one of each key. -/
def Holds (r : Registry α) (attempted : List (String × α)) : Prop :=
  r.toList = firstOfEach attempted

section Steps

variable {r : Registry α} {attempted : List (String × α)}

theorem holds_iff : r.Holds attempted ↔ r = ({} : Registry α).addAll attempted :=
  ⟨fun h => ext_toList (h.trans (toList_addAll_empty attempted).symm),
    fun h => h ▸ toList_addAll_empty attempted⟩

theorem Holds.contains_iff (h : r.Holds attempted) (key : String) :
    r.contains key = true ↔ key ∈ attempted.map Prod.fst := by
  rw [holds_iff.mp h, contains_addAll_empty]
  simp

theorem Holds.not_contains (h : r.Holds attempted) {key : String} (hc : r.contains key = false) :
    key ∉ attempted.map Prod.fst := fun hm =>
  Bool.false_ne_true (hc.symm.trans ((h.contains_iff key).mpr hm))

theorem contains_of_get? {key : String} (h : r.get? key = none) : r.contains key = false := by
  rw [← Bool.not_eq_true, contains, List.contains_iff_mem, keys_eq_map, mem_keys_iff_lookup,
    show r.toList.lookup key = none from h]
  exact Bool.false_ne_true

/-- An operation changes a registry by its attempt only. -/
theorem Holds.after (h : r.Holds attempted) (operation : Operation α) :
    (r.after operation).Holds (attempted ++ operation.attempt?.toList) := by
  have hafter : r.after operation = r.addAll operation.attempt?.toList := by
    cases operation <;> rfl
  rw [holds_iff, hafter, addAll_append, ← holds_iff.mp h]

/-- A registry answers as the pairs do that it holds. -/
theorem Holds.tells (h : r.Holds attempted) (same : α → α → Bool) (text : α → String)
    (operation : Operation α) :
    Tells same text attempted (firstOfEach attempted) operation (r.answer same text operation) := by
  rw [← show r.toList = firstOfEach attempted from h]
  cases operation with
  | tryAdd key value =>
      show Tells _ _ _ _ _ (.flag !r.contains key)
      cases hc : r.contains key with
      | true => exact .taken ((h.contains_iff key).mp hc)
      | false => exact .added (h.not_contains hc)
  | get key default =>
      show Tells _ _ _ _ _ (.value (r.get? key <|> default))
      cases hg : r.get? key with
      | some value => exact .got hg
      | none => exact .notGot (h.not_contains (contains_of_get? hg))
  | entry key =>
      cases hg : r.get? key with
      | some value =>
          simp only [answer, hg]
          exact .entry hg
      | none =>
          simp only [answer, hg]
          exact .noEntry (h.not_contains (contains_of_get? hg))
  | contains key =>
      show Tells _ _ _ _ _ (.flag (r.contains key))
      cases hc : r.contains key with
      | true => exact .contained ((h.contains_iff key).mp hc)
      | false => exact .notContained (h.not_contains hc)
  | size => exact .size
  | isFull =>
      show Tells _ _ _ _ _ (.flag !r.toList.isEmpty)
      cases he : r.toList with
      | nil => exact .notFull rfl
      | cons pair rest => exact .full (List.cons_ne_nil pair rest)
  | items => exact .items
  | keys => exact .keys
  | values => exact .values
  | equals pairs =>
      show Tells _ _ _ _ _ (.flag (r.agrees same pairs))
      cases ha : r.agrees same pairs with
      | true => exact .equal (agrees_iff.mp ha)
      | false => exact .notEqual fun hm => Bool.false_ne_true (ha.symm.trans (agrees_iff.mpr hm))
  | describe => exact .described rfl
  | assign key value => exact .assigned
  | delete key => exact .deleted

end Steps

/-! ## Runs -/

section Runs

variable (same : α → α → Bool) (text : α → String) {r : Registry α}
  {attempted : List (String × α)}

/-- A run adds the attempts of its operations. -/
theorem Holds.run (h : r.Holds attempted) (operations : List (Operation α)) :
    (r.run same text operations).2.Holds (attempted ++ attempts operations) := by
  induction operations generalizing r attempted with
  | nil => exact (List.append_nil attempted).symm ▸ h
  | cons operation rest ih =>
      have hrest := ih (h.after operation)
      rw [List.append_assoc] at hrest
      have hattempts : attempts (operation :: rest) =
          operation.attempt?.toList ++ attempts rest := by
        cases operation <;> rfl
      rw [hattempts]
      exact hrest

theorem length_run (r : Registry α) (operations : List (Operation α)) :
    (r.run same text operations).1.length = operations.length := by
  induction operations generalizing r with
  | nil => rfl
  | cons operation rest ih => exact congrArg (· + 1) (ih _)

/-- A run that goes on from another one. -/
theorem run_append (r : Registry α) (operations rest : List (Operation α)) :
    r.run same text (operations ++ rest) =
      ((r.run same text operations).1 ++ ((r.run same text operations).2.run same text rest).1,
        ((r.run same text operations).2.run same text rest).2) := by
  induction operations generalizing r with
  | nil => rfl
  | cons operation operations ih => simp only [List.cons_append, Registry.run, ih]

end Runs

/-- After any operations, a registry that was empty holds of all the pairs that they attempted to
add the first one of each key, in order. Whatever operation comes next answers as these pairs do,
and leaves them as they are unless it is an addition. -/
theorem run_tells (same : α → α → Bool) (text : α → String) (before : List (Operation α))
    (operation : Operation α) (rest : List (Operation α)) :
    (({} : Registry α).run same text before).2.toList = firstOfEach (attempts before)
      ∧ (∃ answer,
        (({} : Registry α).run same text (before ++ operation :: rest)).1[before.length]?
            = some answer
          ∧ Tells same text (attempts before) (firstOfEach (attempts before)) operation answer)
      ∧ ((∃ key value, operation = .tryAdd key value)
        ∨ (({} : Registry α).run same text (before ++ [operation])).2 =
          (({} : Registry α).run same text before).2) := by
  have hempty : ({} : Registry α).Holds [] := rfl
  have hheld := hempty.run same text before
  rw [List.nil_append] at hheld
  refine ⟨hheld, ⟨_, ?_, hheld.tells same text operation⟩, ?_⟩
  · have hlength := length_run same text ({} : Registry α) before
    rw [run_append, List.getElem?_append_right (Nat.le_of_eq hlength), hlength, Nat.sub_self]
    rfl
  · rw [run_append]
    cases operation with
    | tryAdd key value => exact .inl ⟨key, value, rfl⟩
    | _ => exact .inr rfl

/-- The second pair of a key is not kept, and equality does not tell of the order. -/
example : (({} : Registry Nat).run (· == ·) toString
    [.tryAdd "b" 0, .tryAdd "a" 1, .tryAdd "b" 2, .assign "b" 3, .equals [("a", 1), ("b", 0)],
      .items]).1 =
    [.flag true, .flag true, .flag false, .refused .noAssignment, .flag true,
      .items [("b", 0), ("a", 1)]] := rfl

end SdlAssembly.Registry
