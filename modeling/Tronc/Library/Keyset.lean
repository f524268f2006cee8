import Mathlib.Order.Lattice
import Mathlib.Data.List.Basic

namespace Keyset

variable {T K : Type*} [LinearOrder K] {key : T → K} {after : Option K} {listing : List T}

/-- Whether a key is past the one served last, if any was. -/
def Beyond (after : Option K) (k : K) : Prop := ∀ last ∈ after, last < k

instance (after : Option K) (k : K) : Decidable (Beyond after k) :=
  inferInstanceAs (Decidable (∀ last ∈ after, last < k))

/-- A page of what a listing has past `after`; `next` is its last key when there is more. -/
structure IsPage (key : T → K) (after : Option K) (listing items : List T) (next : Option K) :
    Prop where
  sorted : (items.map key).Pairwise (· < ·)
  sound : ∀ x ∈ items, x ∈ listing ∧ Beyond after (key x)
  last : next = none → ∀ x ∈ listing, Beyond after (key x) → x ∈ items
  more : ∀ k, next = some k → (∃ x ∈ items, key x = k) ∧ (∀ x ∈ items, key x ≤ k) ∧
    ∀ x ∈ listing, Beyond after (key x) → key x ≤ k → x ∈ items

/-- Pages got one after another, each from the listing of its time; `true` when the last one said
there is no more. -/
inductive Walk (key : T → K) : Option K → List (List T) → List (List T) → Bool → Prop where
  | stop (after : Option K) : Walk key after [] [] false
  | last {after : Option K} {listing items : List T} : IsPage key after listing items none →
      Walk key after [listing] [items] true
  | more {after : Option K} {listing items : List T} {k : K} {listings pages : List (List T)}
      {finished : Bool} : IsPage key after listing items (some k) →
      Walk key (some k) listings pages finished →
      Walk key after (listing :: listings) (items :: pages) finished

variable {listings pages : List (List T)} {finished : Bool}

theorem Beyond.trans {k k' : K} (h : Beyond after k) (hlt : k < k') : Beyond after k' :=
  fun last hlast => lt_trans (h last hlast) hlt

/-- A page with a next key has an item of that key. -/
theorem IsPage.beyond {items : List T} {k : K} (h : IsPage key after listing items (some k)) :
    Beyond after k := by
  obtain ⟨⟨x, hx, rfl⟩, -⟩ := h.more k rfl
  exact (h.sound x hx).2

theorem Walk.beyond (h : Walk key after listings pages finished) :
    ∀ x ∈ pages.flatten, Beyond after (key x) := by
  induction h with
  | stop => simp
  | last hpage =>
    intro x hx
    rw [List.flatten_cons, List.flatten_nil, List.append_nil] at hx
    exact (hpage.sound x hx).2
  | more hpage _ ih =>
    intro x hx
    rw [List.flatten_cons] at hx
    rcases List.mem_append.mp hx with hx | hx
    · exact (hpage.sound x hx).2
    · exact hpage.beyond.trans (ih x hx _ rfl)

/-- Keys are served in strictly increasing order. -/
theorem Walk.sorted (h : Walk key after listings pages finished) :
    (pages.flatten.map key).Pairwise (· < ·) := by
  induction h with
  | stop => exact .nil
  | last hpage =>
    rw [List.flatten_cons, List.flatten_nil, List.append_nil]
    exact hpage.sorted
  | @more _ _ items k _ _ _ hpage hwalk ih =>
    rw [List.flatten_cons, List.map_append]
    refine List.pairwise_append.mpr ⟨hpage.sorted, ih, ?_⟩
    intro a ha b hb
    obtain ⟨x, hx, rfl⟩ := List.mem_map.mp ha
    obtain ⟨y, hy, rfl⟩ := List.mem_map.mp hb
    have hle := (hpage.more k rfl).2.1 x hx
    exact lt_of_le_of_lt hle (hwalk.beyond y hy k rfl)

/-- Every page serves items of the listing it is from. -/
theorem Walk.sound (h : Walk key after listings pages finished) :
    ∀ x ∈ pages.flatten, ∃ listing ∈ listings, x ∈ listing := by
  induction h with
  | stop => simp
  | last hpage =>
    intro x hx
    rw [List.flatten_cons, List.flatten_nil, List.append_nil] at hx
    exact ⟨_, .head _, (hpage.sound x hx).1⟩
  | more hpage _ ih =>
    intro x hx
    rw [List.flatten_cons] at hx
    rcases List.mem_append.mp hx with hx | hx
    · exact ⟨_, .head _, (hpage.sound x hx).1⟩
    · obtain ⟨listing, hlisting, hmem⟩ := ih x hx
      exact ⟨listing, .tail _ hlisting, hmem⟩

/-- What every listing has is served by the end of the walk. -/
theorem Walk.covers (h : Walk key after listings pages finished) (hfinished : finished = true)
    {x : T} (hall : ∀ listing ∈ listings, x ∈ listing) (hx : Beyond after (key x)) :
    x ∈ pages.flatten := by
  induction h with
  | stop => cases hfinished
  | last hpage =>
    have hlast := hpage.last rfl x (hall _ (.head _)) hx
    exact List.mem_flatten.mpr ⟨_, .head _, hlast⟩
  | @more _ listing _ k _ _ _ hpage _ ih =>
    rw [List.flatten_cons]
    rcases le_or_gt (key x) k with hle | hgt
    · have hmore := (hpage.more k rfl).2.2 x (hall listing (.head _)) hx hle
      exact List.mem_append_left _ hmore
    · have hrest := ih hfinished (fun l hl => hall l (.tail _ hl)) ?_
      · exact List.mem_append_right _ hrest
      · intro last hlast
        rw [← Option.some.inj hlast]
        exact hgt

/-- What is left of a listing past `after`. -/
def left (key : T → K) (after : Option K) (listing : List T) : Nat :=
  listing.countP fun x => Beyond after (key x)

/-- A page with a next key leaves less. -/
theorem IsPage.left_lt {items : List T} {k : K} (h : IsPage key after listing items (some k)) :
    left key (some k) listing < left key after listing := by
  obtain ⟨⟨x, hx, hkey⟩, -⟩ := h.more k rfl
  obtain ⟨hmem, hbeyond⟩ := h.sound x hx
  have hsub : ∀ y ∈ listing, decide (Beyond (some k) (key y)) = true →
      decide (Beyond after (key y)) = true := by
    intro y _ hy
    exact decide_eq_true (h.beyond.trans (of_decide_eq_true hy k rfl))
  have hx' : ¬ Beyond (some k) (key x) := by
    intro hb
    have hlt := hb k rfl
    rw [hkey] at hlt
    exact lt_irrefl k hlt
  obtain ⟨before, rest, rfl⟩ := List.append_of_mem hmem
  unfold left
  rw [List.countP_append, List.countP_append, List.countP_cons, List.countP_cons]
  have h₁ : before.countP (fun y => decide (Beyond (some k) (key y))) ≤
      before.countP fun y => decide (Beyond after (key y)) :=
    List.countP_mono_left fun y hy => hsub y (List.mem_append_left _ hy)
  have h₂ : rest.countP (fun y => decide (Beyond (some k) (key y))) ≤
      rest.countP fun y => decide (Beyond after (key y)) :=
    List.countP_mono_left fun y hy => hsub y (List.mem_append_right _ (.tail _ hy))
  simp only [decide_eq_true hbeyond, decide_eq_false hx', if_true, Bool.false_eq_true, if_false]
  omega

end Keyset
