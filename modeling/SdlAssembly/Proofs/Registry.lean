import SdlAssembly.Registry

/-!
# Registries keep the first pair of each key

Adding pairs one after the other leaves the entries that a list of all pairs gives when only the
first pair of each key is kept.
-/

namespace SdlAssembly.Registry

variable {α : Type}

/-! ## The first pair of each key -/

/-- The first pair of each key, in order. -/
def firstOfEach : List (String × α) → List (String × α)
  | [] => []
  | pair :: rest => pair :: (firstOfEach rest).filter fun later => later.1 != pair.1

theorem mem_of_mem_firstOfEach {pairs : List (String × α)} {pair : String × α}
    (h : pair ∈ firstOfEach pairs) : pair ∈ pairs := by
  induction pairs with
  | nil => cases h
  | cons first rest ih =>
      rcases List.mem_cons.mp h with rfl | h
      · exact List.mem_cons_self
      · exact List.mem_cons_of_mem _ (ih (List.mem_filter.mp h).1)

/-- The pairs of keys that a registry does not have. -/
def fresh (r : Registry α) (pairs : List (String × α)) : List (String × α) :=
  pairs.filter fun pair => !r.contains pair.1

/-! ## Adding pairs -/

@[simp] theorem toList_empty : (empty : Registry α).toList = [] := rfl

@[simp] theorem toList_emptyCollection : ({} : Registry α).toList = [] := rfl

theorem toList_tryAdd (r : Registry α) (key : String) (value : α) :
    (r.tryAdd key value).toList =
      if r.contains key then r.toList else r.toList ++ [(key, value)] := by
  unfold tryAdd
  by_cases h : key ∈ r.keys <;> simp [h, toList, contains]

theorem keys_eq_map (r : Registry α) : r.keys = r.toList.map Prod.fst := rfl

theorem contains_tryAdd (r : Registry α) (key : String) (value : α) (other : String) :
    (r.tryAdd key value).contains other = (r.contains other || other == key) := by
  have hk : (r.tryAdd key value).keys = if r.contains key then r.keys else r.keys ++ [key] := by
    rw [keys_eq_map, toList_tryAdd]
    split <;> simp [keys_eq_map]
  by_cases h : key ∈ r.keys
  · by_cases ho : other = key <;> simp [contains, hk, h, ho]
  · by_cases ho : other = key <;> simp [contains, hk, h, ho]

/-- Adds pairs one after the other. -/
def addAll (r : Registry α) (pairs : List (String × α)) : Registry α :=
  pairs.foldl (fun r pair => r.tryAdd pair.1 pair.2) r

@[simp] theorem addAll_nil (r : Registry α) : r.addAll [] = r := rfl

@[simp] theorem addAll_cons (r : Registry α) (pair : String × α) (pairs : List (String × α)) :
    r.addAll (pair :: pairs) = (r.tryAdd pair.1 pair.2).addAll pairs := rfl

@[simp] theorem addAll_append (r : Registry α) (xs ys : List (String × α)) :
    r.addAll (xs ++ ys) = (r.addAll xs).addAll ys := List.foldl_append

theorem contains_addAll (r : Registry α) (pairs : List (String × α)) (key : String) :
    (r.addAll pairs).contains key = (r.contains key || pairs.any fun pair => pair.1 == key) := by
  induction pairs generalizing r with
  | nil => simp
  | cons pair rest ih =>
      rw [addAll_cons, ih, contains_tryAdd, List.any_cons, Bool.or_assoc, BEq.comm]

theorem contains_addAll_empty (pairs : List (String × α)) (key : String) :
    (({} : Registry α).addAll pairs).contains key = pairs.any fun pair => pair.1 == key := by
  rw [contains_addAll]
  rfl

/-- Adding pairs appends the first ones of the keys that are new. -/
theorem toList_addAll (r : Registry α) (pairs : List (String × α)) :
    (r.addAll pairs).toList = r.toList ++ r.fresh (firstOfEach pairs) := by
  induction pairs generalizing r with
  | nil => simp [fresh, firstOfEach]
  | cons pair rest ih =>
      rw [addAll_cons, ih, toList_tryAdd]
      by_cases h : r.contains pair.1
      · have hf : (r.tryAdd pair.1 pair.2).fresh (firstOfEach rest) =
            r.fresh (firstOfEach (pair :: rest)) := by
          simp only [fresh, firstOfEach, List.filter_cons, h, Bool.not_true, Bool.false_eq_true,
            ↓reduceIte, List.filter_filter, contains_tryAdd]
          apply List.filter_congr
          intro later _
          by_cases he : later.1 = pair.1 <;> simp [he, h, bne]
        rw [if_pos h, hf]
      · have hf : (r.tryAdd pair.1 pair.2).fresh (firstOfEach rest) =
            r.fresh ((firstOfEach rest).filter fun later => later.1 != pair.1) := by
          simp only [fresh, List.filter_filter, contains_tryAdd]
          apply List.filter_congr
          intro later _
          simp [bne, Bool.not_or]
        rw [if_neg h, hf]
        simp [fresh, firstOfEach, h]

/-- From nothing, a registry holds the first pair of each key. -/
theorem toList_addAll_empty (pairs : List (String × α)) :
    (({} : Registry α).addAll pairs).toList = firstOfEach pairs := by
  have hc : ∀ key, ({} : Registry α).contains key = false := fun _ => rfl
  simp [toList_addAll, fresh, hc]

/-! ## Entries -/

/-- A registry is its entries. -/
theorem ext_toList {r r' : Registry α} (h : r.toList = r'.toList) : r = r' := by
  cases r
  cases r'
  obtain rfl : _ = _ := h
  rfl

theorem lookup_map {β : Type} (key : β → String) (value : β → α) (items : List β) (name : String) :
    (items.map fun item => (key item, value item)).lookup name =
      (items.find? fun item => key item == name).map value := by
  induction items with
  | nil => rfl
  | cons item items ih =>
      rw [List.map_cons, List.lookup_cons, List.find?_cons, ih, BEq.comm]
      cases key item == name <;> rfl

theorem get?_tryAdd (r : Registry α) (key : String) (value : α) (other : String) :
    (r.tryAdd key value).get? other = (r.get? other).or ([(key, value)].lookup other) := by
  have hentries : (r.tryAdd key value).get? other = (r.tryAdd key value).toList.lookup other := rfl
  rw [hentries, toList_tryAdd]
  split
  · rename_i hc
    have hget : r.toList.lookup other = r.get? other := rfl
    by_cases ho : other = key
    · obtain ⟨pair, hp, hk⟩ := List.mem_map.mp (List.contains_iff_mem.mp hc)
      have hsome : (r.toList.lookup other).isSome :=
        List.lookup_isSome_iff.mpr ⟨pair, hp, by simp [ho, hk]⟩
      obtain ⟨found, hf⟩ := Option.isSome_iff_exists.mp hsome
      rw [← hget, hf, Option.some_or]
    · have hne : (other == key) = false := beq_eq_false_iff_ne.mpr ho
      simp [hget, List.lookup_cons, hne]
  · exact List.lookup_append

/-- A registry that pairs are added to has for each key its own entry, or the first of the pairs. -/
theorem get?_addAll (r : Registry α) (pairs : List (String × α)) (key : String) :
    (r.addAll pairs).get? key = (r.get? key).or (pairs.lookup key) := by
  induction pairs generalizing r with
  | nil => simp
  | cons pair pairs ih =>
      have hcons : (pair :: pairs).lookup key = ([pair].lookup key).or (pairs.lookup key) := by
        rw [← List.singleton_append, List.lookup_append]
      rw [addAll_cons, ih, get?_tryAdd, hcons, Option.or_assoc]

/-! ## Keys that are taken -/

theorem tryAdd_of_contains {r : Registry α} {key : String} (h : r.contains key) (value : α) :
    r.tryAdd key value = r := by
  have hk : key ∈ r.keys := by simpa [contains] using h
  simp [tryAdd, hk]

/-- Pairs of taken keys add nothing. -/
theorem addAll_of_contains {r : Registry α} {pairs : List (String × α)}
    (h : ∀ pair ∈ pairs, r.contains pair.1) : r.addAll pairs = r := by
  induction pairs with
  | nil => rfl
  | cons pair rest ih =>
      obtain ⟨hpair, hrest⟩ := List.forall_mem_cons.mp h
      rw [addAll_cons, tryAdd_of_contains hpair]
      exact ih hrest

theorem contains_addAll_of_mem {r : Registry α} {pairs : List (String × α)} {pair : String × α}
    (h : pair ∈ pairs) : (r.addAll pairs).contains pair.1 := by
  have ha : pairs.any (fun other => other.1 == pair.1) := List.any_eq_true.mpr ⟨pair, h, by simp⟩
  rw [contains_addAll, ha, Bool.or_true]

end SdlAssembly.Registry
