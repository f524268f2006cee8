import Mathlib.Data.List.Basic

namespace Tronc.Labelled

variable {α σ : Type}

/-- No character, read with what follows it, is a control. -/
def Harmless (control : α → List α → Prop) (text : List α) : Prop :=
  ∀ before c after, text = before ++ c :: after → ¬ control c after

/-- Every control is of a trusted source. -/
def Safe (control : α → List α → Prop) (trusted : σ → Prop) (text : List (α × σ)) : Prop :=
  ∀ before c source after, text = before ++ (c, source) :: after →
    control c (after.map Prod.fst) → trusted source

def label (source : σ) (text : List α) : List (α × σ) := text.map fun c => (c, source)

@[simp]
theorem map_fst_label (source : σ) (text : List α) :
    (label source text).map Prod.fst = text := by
  simp [label, Function.comp_def]

section

variable {control : α → List α → Prop} {trusted : σ → Prop}

theorem harmless_nil : Harmless control [] := by
  intro before c after h
  simp at h

theorem harmless_cons {c : α} {rest : List α} :
    Harmless control (c :: rest) ↔ ¬ control c rest ∧ Harmless control rest := by
  constructor
  · intro h
    refine ⟨h [] c rest rfl, fun before d after hrest => ?_⟩
    exact h (c :: before) d after (by rw [hrest]; rfl)
  · rintro ⟨hc, hrest⟩ before d after h
    cases before with
    | nil =>
      obtain ⟨rfl, rfl⟩ := List.cons.inj h
      exact hc
    | cons e before => exact hrest before d after (List.cons.inj h).2

theorem safe_nil : Safe control trusted [] := by
  intro before c source after h
  simp at h

theorem safe_cons {c : α} {source : σ} {rest : List (α × σ)} :
    Safe control trusted ((c, source) :: rest) ↔
      (control c (rest.map Prod.fst) → trusted source) ∧ Safe control trusted rest := by
  constructor
  · intro h
    refine ⟨h [] c source rest rfl, fun before d source' after hrest => ?_⟩
    exact h ((c, source) :: before) d source' after (by rw [hrest]; rfl)
  · rintro ⟨hc, hrest⟩ before d source' after h
    cases before with
    | nil =>
      obtain ⟨hhead, rfl⟩ := List.cons.inj h
      obtain ⟨rfl, rfl⟩ := Prod.mk.inj hhead
      exact hc
    | cons e before => exact hrest before d source' after (List.cons.inj h).2

/-- A trusted source may write anything. -/
theorem safe_label_trusted {source : σ} (h : trusted source) (text : List α)
    {rest : List (α × σ)} (hrest : Safe control trusted rest) :
    Safe control trusted (label source text ++ rest) := by
  induction text with
  | nil => exact hrest
  | cons c text ih => exact safe_cons.mpr ⟨fun _ => h, ih⟩

section

variable (hmono : ∀ c rest more, control c (rest ++ more) → control c rest)

include hmono

theorem Harmless.append {text more : List α} (h : Harmless control text)
    (hmore : Harmless control more) : Harmless control (text ++ more) := by
  induction text with
  | nil => exact hmore
  | cons c text ih =>
    obtain ⟨hc, htext⟩ := harmless_cons.mp h
    exact harmless_cons.mpr ⟨fun hcontrol => hc (hmono c text more hcontrol), ih htext⟩

theorem harmless_flatMap {β : Type} {f : β → List α} (h : ∀ b, Harmless control (f b))
    (l : List β) : Harmless control (l.flatMap f) := by
  induction l with
  | nil => exact harmless_nil
  | cons b l ih =>
    rw [List.flatMap_cons]
    exact (h b).append hmono ih

/-- A harmless text may come from anywhere. -/
theorem safe_label_harmless {source : σ} {text : List α} (h : Harmless control text)
    {rest : List (α × σ)} (hrest : Safe control trusted rest) :
    Safe control trusted (label source text ++ rest) := by
  induction text with
  | nil => exact hrest
  | cons c text ih =>
    obtain ⟨hc, htext⟩ := harmless_cons.mp h
    refine safe_cons.mpr ⟨fun hcontrol => absurd ?_ hc, ih htext⟩
    change control c ((label source text ++ rest).map Prod.fst) at hcontrol
    rw [List.map_append, map_fst_label] at hcontrol
    exact hmono c text _ hcontrol

theorem safe_parts {parts : List (σ × List α)}
    (h : ∀ p ∈ parts, trusted p.1 ∨ Harmless control p.2) :
    Safe control trusted (parts.flatMap fun p => label p.1 p.2) := by
  induction parts with
  | nil => exact safe_nil
  | cons p parts ih =>
    have hrest := ih fun q hq => h q (List.mem_cons_of_mem _ hq)
    rw [List.flatMap_cons]
    rcases h p List.mem_cons_self with htrusted | hharmless
    · exact safe_label_trusted htrusted p.2 hrest
    · exact safe_label_harmless hmono hharmless hrest

end

/-- What an untrusted source writes is harmless, where what follows hides no control in it. -/
theorem harmless_of_safe {source : σ} (h : ¬ trusted source) {text : List α}
    {rest : List (α × σ)}
    (hkeep : ∀ c after, control c after → control c (after ++ rest.map Prod.fst))
    (hsafe : Safe control trusted (label source text ++ rest)) : Harmless control text := by
  induction text with
  | nil => exact harmless_nil
  | cons c text ih =>
    have hcons : Safe control trusted ((c, source) :: (label source text ++ rest)) := hsafe
    obtain ⟨hc, htext⟩ := safe_cons.mp hcons
    refine harmless_cons.mpr ⟨fun hcontrol => h (hc ?_), ih htext⟩
    rw [List.map_append, map_fst_label]
    exact hkeep c text hcontrol

end

end Tronc.Labelled
