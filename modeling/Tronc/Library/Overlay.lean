import Mathlib.Data.List.AList

namespace AList

variable {κ ν : Type*} [DecidableEq κ]

/-- Each entry of the later map is inserted in the earlier one, as a hash map's `extend` does. -/
def extend (s later : AList fun _ : κ => ν) : AList fun _ : κ => ν := later ∪ s

/-- Maps laid over each other, the one on top first. -/
def overlay (layers : List (AList fun _ : κ => ν)) : AList fun _ : κ => ν :=
  layers.foldr (fun top below => below.extend top) ∅

def mapValues (f : ν → ν) (s : AList fun _ : κ => ν) : AList fun _ : κ => ν where
  entries := s.entries.map fun e => ⟨e.1, f e.2⟩
  nodupKeys := by
    have hkeys : (s.entries.map fun e : Sigma fun _ : κ => ν =>
        (⟨e.1, f e.2⟩ : Sigma fun _ : κ => ν)).keys = s.entries.keys := by
      simp [List.keys, Function.comp_def]
    unfold List.NodupKeys
    rw [hkeys]
    exact s.nodupKeys

theorem lookup_extend (s later : AList fun _ : κ => ν) (k : κ) :
    (s.extend later).lookup k = (later.lookup k).or (s.lookup k) := by
  unfold extend
  by_cases hk : k ∈ later
  · obtain ⟨v, hv⟩ := Option.isSome_iff_exists.mp (lookup_isSome.mpr hk)
    rw [lookup_union_left hk, hv, Option.some_or]
  · rw [lookup_union_right hk, lookup_eq_none.mpr hk, Option.none_or]

/-- The topmost map that has the key decides; not everything need have a map. -/
theorem lookup_overlay {α : Type*} (layer : α → Option (AList fun _ : κ => ν)) (xs : List α) (k : κ) :
    (overlay (xs.filterMap layer)).lookup k =
      xs.findSome? fun x => (layer x).bind fun top => top.lookup k := by
  induction xs with
  | nil => rfl
  | cons x xs ih =>
    rw [List.filterMap_cons, List.findSome?_cons, ← ih]
    cases layer x with
    | none => rfl
    | some top =>
      have hrest : overlay (top :: xs.filterMap layer) = (overlay (xs.filterMap layer)).extend top := rfl
      dsimp only [Option.bind_some]
      rw [hrest, lookup_extend]
      cases top.lookup k <;> rfl

theorem lookup_mapValues (f : ν → ν) (s : AList fun _ : κ => ν) (k : κ) :
    (s.mapValues f).lookup k = (s.lookup k).map f := by
  have hentries : ∀ entries : List (Sigma fun _ : κ => ν),
      (entries.map fun e => (⟨e.1, f e.2⟩ : Sigma fun _ : κ => ν)).dlookup k =
        (entries.dlookup k).map f := by
    intro entries
    induction entries with
    | nil => simp
    | cons e rest ih =>
      rw [List.map_cons]
      by_cases hk : k = e.1
      · subst hk
        rw [List.dlookup_cons_eq, List.dlookup_cons_eq, Option.map_some]
      · have hmapped : k ≠ (⟨e.1, f e.2⟩ : Sigma fun _ : κ => ν).1 := hk
        rw [List.dlookup_cons_ne rest e hk, List.dlookup_cons_ne _ _ hmapped, ih]
  exact hentries s.entries

end AList
