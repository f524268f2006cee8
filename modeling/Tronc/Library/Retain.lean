import Mathlib.Data.List.AList

namespace AList

variable {κ ν : Type*}

/-- Keep the entries `p` admits, as a hash map's `retain` does. -/
def retain (p : κ → ν → Bool) (s : AList fun _ : κ => ν) : AList fun _ : κ => ν where
  entries := s.entries.filter fun e => p e.1 e.2
  nodupKeys := by
    have hn : (s.entries.map Sigma.fst).Nodup := s.nodupKeys
    exact hn.sublist (List.filter_sublist.map _)

/-- The keys whose entries `p` admits. -/
def keysWhere (p : κ → ν → Bool) (s : AList fun _ : κ => ν) : List κ :=
  (s.entries.filter fun e => p e.1 e.2).map Sigma.fst

theorem retain_entries_sublist (p : κ → ν → Bool) (s : AList fun _ : κ => ν) :
    (s.retain p).entries.Sublist s.entries := List.filter_sublist

variable [DecidableEq κ]

theorem mem_entries_iff {k : κ} {v : ν} {s : AList fun _ : κ => ν} :
    ⟨k, v⟩ ∈ s.entries ↔ s.lookup k = some v :=
  (mem_lookup_iff (β := fun _ : κ => ν)).symm

theorem lookup_retain_eq_some {p : κ → ν → Bool} {s : AList fun _ : κ => ν} {k : κ} {v : ν} :
    (s.retain p).lookup k = some v ↔ s.lookup k = some v ∧ p k v := by
  rw [← mem_entries_iff, ← mem_entries_iff]
  simp [retain]

theorem lookup_retain (p : κ → ν → Bool) (s : AList fun _ : κ => ν) (k : κ) :
    (s.retain p).lookup k = (s.lookup k).filter (p k) := by
  apply Option.ext
  intro v
  rw [lookup_retain_eq_some, Option.filter_eq_some_iff]

theorem mem_keysWhere {p : κ → ν → Bool} {s : AList fun _ : κ => ν} {k : κ} :
    k ∈ s.keysWhere p ↔ ∃ v, s.lookup k = some v ∧ p k v := by
  simp [keysWhere, mem_entries_iff]

theorem erase_entries_sublist (k : κ) (s : AList fun _ : κ => ν) :
    (s.erase k).entries.Sublist s.entries := List.kerase_sublist k s.entries

theorem lookup_erase_eq_some {k k' : κ} {v : ν} {s : AList fun _ : κ => ν} :
    (s.erase k).lookup k' = some v ↔ k' ≠ k ∧ s.lookup k' = some v := by
  by_cases hk : k' = k
  · subst hk
    simp
  · simp [lookup_erase_ne hk, hk]

theorem entries_erase {k : κ} {v : ν} {s : AList fun _ : κ => ν} (h : s.lookup k = some v) :
    ∃ before after, s.entries = before ++ ⟨k, v⟩ :: after ∧
      (s.erase k).entries = before ++ after := by
  have hk : k ∈ s.entries.keys := lookup_isSome.mp (by rw [h]; rfl)
  obtain ⟨b, before, after, _, he, hr⟩ := List.exists_of_kerase hk
  have hb : s.lookup k = some b := by
    rw [← mem_entries_iff, he]
    simp
  rw [h] at hb
  obtain rfl := Option.some.inj hb
  exact ⟨before, after, he, hr⟩

theorem length_erase {k : κ} {v : ν} {s : AList fun _ : κ => ν} (h : s.lookup k = some v) :
    s.entries.length = (s.erase k).entries.length + 1 := by
  obtain ⟨before, after, he, hr⟩ := entries_erase h
  rw [he, hr]
  simp only [List.length_append, List.length_cons]
  omega

theorem countP_erase {k : κ} {v : ν} {s : AList fun _ : κ => ν} (h : s.lookup k = some v)
    {p : (Sigma fun _ : κ => ν) → Bool} (hp : p ⟨k, v⟩ = true) :
    s.entries.countP p = (s.erase k).entries.countP p + 1 := by
  obtain ⟨before, after, he, hr⟩ := entries_erase h
  rw [he, hr]
  simp only [List.countP_append, List.countP_cons, hp, if_true]
  omega

theorem entries_insert_of_lookup {k : κ} (v : ν) {s : AList fun _ : κ => ν}
    (h : s.lookup k = none) : (s.insert k v).entries = ⟨k, v⟩ :: s.entries :=
  entries_insert_of_notMem (lookup_eq_none.mp h)

end AList
