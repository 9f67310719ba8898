import Mathlib.Data.Finmap

/-!
# Counting the entries of a map

A test on values may be counted over the entries of a finite map or over its keys, by looking each
one up (`card_filter_keys`). Of two tests, one weaker than the other, the counts agree only if no
value tells them apart (`card_filter_eq_iff`). The entries of a map under one more key, or one key
less, are one more or one less (`entries_insert`, `entries_of_lookup`).
-/

namespace StoreCount

variable {κ ν : Type*} [DecidableEq κ]

/-- Counting keys by what they look up is counting entries. -/
theorem card_filter_keys (store : Finmap fun _ : κ => ν) (onKey : κ → Prop) (onValue : ν → Prop)
    [DecidablePred onKey] [DecidablePred onValue]
    (h : ∀ key value, store.lookup key = some value → (onKey key ↔ onValue value)) :
    (store.keys.filter onKey).card =
      (store.entries.filter fun entry => onValue entry.2).card := by
  have hentries : ∀ entry ∈ store.entries, (onKey entry.1 ↔ onValue entry.2) :=
    fun entry hentry => h entry.1 entry.2 (Finmap.mem_lookup_iff.mpr hentry)
  calc (store.keys.filter onKey).card
      = ((store.entries.map Sigma.fst).filter onKey).card := rfl
    _ = (store.entries.filter (onKey ∘ Sigma.fst)).card := by
        rw [Multiset.filter_map, Multiset.card_map]
    _ = (store.entries.filter fun entry => onValue entry.2).card := by
        exact congrArg _ (Multiset.filter_congr hentries)

/-- A stronger test is passed as often as a weaker one when no element tells them apart. -/
theorem card_filter_eq_iff {α : Type*} (entries : Multiset α) {strong weak : α → Prop}
    [DecidablePred strong] [DecidablePred weak] (himp : ∀ entry, strong entry → weak entry) :
    (entries.filter strong).card = (entries.filter weak).card ↔
      ∀ entry ∈ entries, weak entry → strong entry := by
  constructor
  · intro hcard entry hentry hweak
    have hle : entries.filter strong ≤ entries.filter weak :=
      Multiset.monotone_filter_right entries himp
    have heq := Multiset.eq_of_le_of_card_le hle (le_of_eq hcard.symm)
    have hmem : entry ∈ entries.filter strong := by
      rw [heq]
      exact Multiset.mem_filter.mpr ⟨hentry, hweak⟩
    exact (Multiset.mem_filter.mp hmem).2
  · intro h
    rw [Multiset.filter_congr fun entry hentry => ⟨himp entry, h entry hentry⟩]

/-- A new key is a new entry. -/
theorem entries_insert {store : Finmap fun _ : κ => ν} {key : κ} (h : store.lookup key = none)
    (value : ν) : (store.insert key value).entries = ⟨key, value⟩ ::ₘ store.entries :=
  Finmap.entries_insert_of_notMem (Finmap.lookup_eq_none.mp h)

/-- The entry of a key, beside those of the other keys. -/
theorem entries_of_lookup {store : Finmap fun _ : κ => ν} {key : κ} {value : ν}
    (h : store.lookup key = some value) :
    store.entries = ⟨key, value⟩ ::ₘ (store.erase key).entries := by
  have hstore : store = (store.erase key).insert key value := by
    refine Finmap.ext_lookup fun other => ?_
    by_cases hother : other = key
    · rw [hother, h, Finmap.lookup_insert]
    · rw [Finmap.lookup_insert_of_ne _ hother, Finmap.lookup_erase_ne hother]
  calc store.entries = ((store.erase key).insert key value).entries := congrArg _ hstore
    _ = ⟨key, value⟩ ::ₘ (store.erase key).entries :=
      entries_insert (Finmap.lookup_erase key store) value

end StoreCount
