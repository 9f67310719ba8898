import Mathlib.Data.List.Nodup
import Mathlib.Data.List.Perm.Basic

/-!
# First-match lookup by a unique key

A list whose elements have pairwise distinct keys, searched from the front. `find_eq_some_iff`
says the search finds exactly the elements of the list, and `find_perm` that their order does not
matter.
-/

namespace UniqueKeys

variable {α κ : Type*} [DecidableEq κ] {key : α → κ} {elements : List α}

omit [DecidableEq κ] in
/-- Two elements with one key are the same element. -/
theorem eq_of_key_eq (hnodup : (elements.map key).Nodup) {x y : α} (hx : x ∈ elements)
    (hy : y ∈ elements) (heq : key x = key y) : x = y :=
  List.inj_on_of_nodup_map hnodup hx hy heq

/-- The first match is the only match. -/
theorem find_eq_some_iff (hnodup : (elements.map key).Nodup) {k : κ} {x : α} :
    elements.find? (fun y => decide (key y = k)) = some x ↔ x ∈ elements ∧ key x = k := by
  constructor
  · intro h
    exact ⟨List.mem_of_find?_eq_some h, by simpa using List.find?_some h⟩
  · intro h
    obtain ⟨hmem, hkey⟩ := h
    cases hfind : elements.find? (fun y => decide (key y = k)) with
    | none =>
        rw [List.find?_eq_none] at hfind
        exact absurd (decide_eq_true hkey) (hfind x hmem)
    | some y =>
        have hy : key y = k := by simpa using List.find?_some hfind
        have hmatch := List.mem_of_find?_eq_some hfind
        exact congrArg some (eq_of_key_eq hnodup hmatch hmem (hy.trans hkey.symm))

/-- Permuting the list does not change any lookup. -/
theorem find_perm {permuted : List α} (hnodup : (elements.map key).Nodup)
    (hperm : elements.Perm permuted) (k : κ) :
    elements.find? (fun y => decide (key y = k)) =
      permuted.find? (fun y => decide (key y = k)) := by
  have hnodup' : (permuted.map key).Nodup := (hperm.map key).nodup_iff.mp hnodup
  ext x
  rw [find_eq_some_iff hnodup, find_eq_some_iff hnodup', hperm.mem_iff]

end UniqueKeys
