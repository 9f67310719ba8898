import Mathlib.Data.Finmap

/-!
# Stores that are only inserted into

A map filled by insertions under fresh keys holds exactly what was inserted: `Indexes` is this
relation between the map and the history of insertions, and `Indexes.insert` the rule for one more.
-/

namespace InsertOnly

variable {κ ν : Type*} [DecidableEq κ] {key : ν → κ}

/-- The store finds exactly the values of the history, each under its key. -/
def Indexes (key : ν → κ) (store : Finmap fun _ : κ => ν) (history : List ν) : Prop :=
  ∀ k value, store.lookup k = some value ↔ value ∈ history ∧ key value = k

theorem Indexes.empty : Indexes key (∅ : Finmap fun _ : κ => ν) [] := by
  intro k value
  simp

/-- An insertion under a key the history has not used. -/
theorem Indexes.insert {store : Finmap fun _ : κ => ν} {history : List ν}
    (h : Indexes key store history) {new : ν} (hfresh : ∀ old ∈ history, key old ≠ key new) :
    Indexes key (store.insert (key new) new) (history ++ [new]) := by
  intro k value
  simp only [List.mem_append, List.mem_singleton]
  by_cases hk : k = key new
  · subst hk
    rw [Finmap.lookup_insert, Option.some.injEq]
    constructor
    · rintro rfl
      exact ⟨.inr rfl, rfl⟩
    · rintro ⟨hold | rfl, hkey⟩
      · exact absurd hkey (hfresh value hold)
      · rfl
  · rw [Finmap.lookup_insert_of_ne store hk, h k value]
    constructor
    · intro h
      obtain ⟨hold, hkey⟩ := h
      exact ⟨.inl hold, hkey⟩
    · rintro ⟨hold | rfl, hkey⟩
      · exact ⟨hold, hkey⟩
      · exact absurd hkey.symm hk

end InsertOnly
