import Mathlib.Data.List.Basic

/-!
# Texts with separators

A text is a list of letters. `cutFirst` and `cutLast` cut it at the first and at the last place where
a separator stands; every other cut lies between the two (`cutFirst_le`, `le_cutLast`). Joining
entries with a separator letter loses nothing as long as the letter stands in none of them and their
number is known: `entries_eq_of_join_eq` asks this of one of two equal joins only.
-/

namespace SeparatedText

variable {α : Type*} [DecidableEq α]

/-- The text before and after the first separator. -/
def cutFirst (sep : List α) : List α → Option (List α × List α)
  | [] => none
  | letter :: rest =>
      if sep.isPrefixOf (letter :: rest) then some ([], (letter :: rest).drop sep.length)
      else (cutFirst sep rest).map fun cut => (letter :: cut.1, cut.2)

/-- The text before and after the last separator. -/
def cutLast (sep : List α) : List α → Option (List α × List α)
  | [] => none
  | letter :: rest =>
      match cutLast sep rest with
      | some cut => some (letter :: cut.1, cut.2)
      | none =>
          if sep.isPrefixOf (letter :: rest) then some ([], (letter :: rest).drop sep.length)
          else none

variable {sep text before after : List α}

theorem eq_append_drop (h : sep.isPrefixOf text = true) :
    text = [] ++ sep ++ text.drop sep.length := by
  obtain ⟨rest, rfl⟩ := List.isPrefixOf_iff_prefix.mp h
  simp

/-- A cut of a longer text is at its start or inside. -/
theorem cut_cons {letter : α} {rest : List α} (h : letter :: rest = before ++ sep ++ after) :
    (before = [] ∧ sep.isPrefixOf (letter :: rest) = true) ∨
      ∃ tail, before = letter :: tail ∧ rest = tail ++ sep ++ after := by
  cases before with
  | nil =>
      left
      rw [h]
      exact ⟨rfl, List.isPrefixOf_iff_prefix.mpr (by simp)⟩
  | cons head tail =>
      obtain ⟨rfl, hrest⟩ := List.cons.inj h
      exact .inr ⟨tail, rfl, hrest⟩

theorem append_of_cutFirst (h : cutFirst sep text = some (before, after)) :
    text = before ++ sep ++ after := by
  induction text generalizing before with
  | nil => cases h
  | cons letter rest ih =>
      rw [cutFirst] at h
      split at h
      · next hhere =>
          cases h
          exact eq_append_drop hhere
      · obtain ⟨⟨tail, _⟩, hcut, hsome⟩ := Option.map_eq_some_iff.mp h
        cases hsome
        rw [ih hcut]
        simp

theorem append_of_cutLast (h : cutLast sep text = some (before, after)) :
    text = before ++ sep ++ after := by
  induction text generalizing before with
  | nil => cases h
  | cons letter rest ih =>
      rw [cutLast] at h
      split at h
      · next cut hcut =>
          cases h
          rw [ih hcut]
          simp
      · split at h
        · next hhere =>
            cases h
            exact eq_append_drop hhere
        · cases h

/-- No cut lies before the first one. -/
theorem cutFirst_le (hsep : sep ≠ []) (h : text = before ++ sep ++ after) :
    ∃ first rest, cutFirst sep text = some (first, rest) ∧ first.length ≤ before.length := by
  induction text generalizing before with
  | nil => simp [hsep] at h
  | cons letter tail ih =>
      rw [cutFirst]
      by_cases hhere : sep.isPrefixOf (letter :: tail) = true
      · exact ⟨[], _, if_pos hhere, Nat.zero_le _⟩
      · rcases cut_cons h with ⟨_, hstart⟩ | ⟨inside, rfl, htail⟩
        · exact absurd hstart hhere
        · obtain ⟨first, rest, hcut, hle⟩ := ih htail
          rw [if_neg hhere, hcut]
          exact ⟨letter :: first, rest, rfl, Nat.succ_le_succ hle⟩

/-- No cut lies after the last one. -/
theorem le_cutLast (hsep : sep ≠ []) (h : text = before ++ sep ++ after) :
    ∃ last rest, cutLast sep text = some (last, rest) ∧ before.length ≤ last.length := by
  induction text generalizing before with
  | nil => simp [hsep] at h
  | cons letter tail ih =>
      rw [cutLast]
      rcases cut_cons h with ⟨rfl, hstart⟩ | ⟨inside, rfl, htail⟩
      · cases hcut : cutLast sep tail with
        | some cut => exact ⟨letter :: cut.1, cut.2, rfl, Nat.zero_le _⟩
        | none => exact ⟨[], _, if_pos hstart, Nat.zero_le _⟩
      · obtain ⟨last, rest, hcut, hle⟩ := ih htail
        rw [hcut]
        exact ⟨letter :: last, rest, rfl, Nat.succ_le_succ hle⟩

omit [DecidableEq α] in
/-- A letter that ends a field and stands in none of its values tells where the field ends. -/
theorem field_eq_of_append_eq {letter : α} {field field' rest rest' : List α}
    (hfield : letter ∉ field) (hfield' : letter ∉ field')
    (h : field ++ letter :: rest = field' ++ letter :: rest') : field = field' ∧ rest = rest' := by
  induction field generalizing field' with
  | nil =>
      cases field' with
      | nil => exact ⟨rfl, (List.cons.inj h).2⟩
      | cons head tail =>
          obtain ⟨rfl, _⟩ := List.cons.inj h
          exact absurd List.mem_cons_self hfield'
  | cons first inside ih =>
      cases field' with
      | nil =>
          obtain ⟨rfl, _⟩ := List.cons.inj h
          exact absurd List.mem_cons_self hfield
      | cons head tail =>
          obtain ⟨rfl, htail⟩ := List.cons.inj h
          obtain ⟨rfl, rfl⟩ := ih (List.not_mem_of_not_mem_cons hfield)
            (List.not_mem_of_not_mem_cons hfield') htail
          exact ⟨rfl, rfl⟩

/-! ## Joined entries -/

/-- A join has one separator fewer than entries, and those inside the entries. -/
theorem count_join (letter : α) {entries : List (List α)} (h : entries ≠ []) :
    ([letter].intercalate entries).count letter + 1 =
      entries.length + entries.flatten.count letter := by
  induction entries with
  | nil => exact absurd rfl h
  | cons entry rest ih =>
      cases rest with
      | nil =>
          rw [List.intercalate_singleton, List.flatten_singleton, List.length_singleton,
            Nat.add_comm]
      | cons next others =>
          have hrest := ih (List.cons_ne_nil _ _)
          rw [List.intercalate_cons_cons, List.count_append, List.count_append,
            List.count_singleton_self, List.length_cons, List.flatten_cons, List.count_append]
          omega

/-- No separator stands in the entries when none stands in their concatenation. -/
theorem count_flatten_eq_zero_iff {letter : α} {entries : List (List α)} :
    entries.flatten.count letter = 0 ↔ ∀ entry ∈ entries, letter ∉ entry := by
  rw [List.count_eq_zero, List.mem_flatten]
  constructor
  · intro h entry hentry hletter
    exact h ⟨entry, hentry, hletter⟩
  · intro h hsome
    obtain ⟨entry, hentry, hletter⟩ := hsome
    exact h entry hentry hletter

/-- Entries without the separator are the only ones of their number with their join. -/
theorem entries_eq_of_join_eq (letter : α) {entries other : List (List α)}
    (hfree : ∀ entry ∈ entries, letter ∉ entry) (hlength : other.length = entries.length)
    (hjoin : [letter].intercalate other = [letter].intercalate entries) : other = entries := by
  cases entries with
  | nil => exact List.length_eq_zero_iff.mp hlength
  | cons entry rest =>
      have hne : other ≠ [] := by
        intro hnil
        rw [hnil] at hlength
        cases hlength
      have hother := count_join letter hne
      have hentries := count_join letter (List.cons_ne_nil entry rest)
      have hzero := count_flatten_eq_zero_iff.mpr hfree
      -- no separator is left over for the other entries
      have hotherFree : ∀ entry ∈ other, letter ∉ entry := by
        rw [← count_flatten_eq_zero_iff]
        rw [hjoin] at hother
        omega
      rw [← List.splitOn_intercalate letter hotherFree hne, hjoin,
        List.splitOn_intercalate letter hfree (List.cons_ne_nil _ _)]

end SeparatedText
