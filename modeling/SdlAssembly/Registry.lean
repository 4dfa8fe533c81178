/-!
# Registries

A registry keeps the first value given for each key, in the order in which keys were first given.
Entries are never changed or taken out. The view of a registry is its list of entries.
-/

namespace SdlAssembly

structure Registry (α : Type) where
  entries : List (String × α)
  nodup : (entries.map Prod.fst).Nodup := by simp

namespace Registry

variable {α : Type}

def empty : Registry α := { entries := [] }

instance : EmptyCollection (Registry α) := ⟨empty⟩

instance : Inhabited (Registry α) := ⟨empty⟩

/-! ## Reading -/

def toList (r : Registry α) : List (String × α) := r.entries

def keys (r : Registry α) : List String := r.entries.map Prod.fst

def values (r : Registry α) : List α := r.entries.map Prod.snd

def size (r : Registry α) : Nat := r.entries.length

def isEmpty (r : Registry α) : Bool := r.entries.isEmpty

def contains (r : Registry α) (key : String) : Bool := r.keys.contains key

def get? (r : Registry α) (key : String) : Option α := r.entries.lookup key

/-! ## Adding -/

/-- Adds an entry unless its key is taken. -/
def tryAdd (r : Registry α) (key : String) (value : α) : Registry α :=
  if taken : key ∈ r.keys then r
  else
    { entries := r.entries ++ [(key, value)]
      nodup := by
        have disjoint : ∀ a ∈ r.entries.map Prod.fst, ∀ b ∈ [key], a ≠ b := by
          intro a ha b hb
          simp only [List.mem_singleton] at hb
          subst hb
          exact fun h => taken (h ▸ ha)
        simpa [List.map_append] using List.nodup_append.2 ⟨r.nodup, by simp, disjoint⟩ }

/-- The registry of the first pair of each key. -/
def ofList (pairs : List (String × α)) : Registry α :=
  pairs.foldl (fun r pair => r.tryAdd pair.1 pair.2) empty

end Registry

end SdlAssembly
