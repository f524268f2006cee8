import Tronc.Library.Slices
import Tronc.Mcp.Observe

namespace Tronc.Mcp

open Slices

/-- `truncate_utf8`: `none` when it cuts within a character. -/
def truncateUtf8Bytes (json : String) (maxBytes : Nat) : Option CapturedPayload :=
  if (Text.utf8 json).length ≤ maxBytes then some (.json json)
  else if maxBytes < (Text.utf8 TRUNCATION_MARKER).length then some (.omitted .limitTooSmall)
  else
    let budget := maxBytes - (Text.utf8 TRUNCATION_MARKER).length
    (truncate (floorCharBoundary json.toList budget) json.toList).map fun kept =>
      .json (.ofList kept ++ TRUNCATION_MARKER)

theorem longestWithin_fitting (budget : Nat) (text : List Char) :
    LongestWithin budget text (fitting budget text) := by
  induction text generalizing budget with
  | nil => exact ⟨List.prefix_refl [], Nat.zero_le budget, fun other hother _ => hother⟩
  | cons c rest ih =>
    unfold fitting
    split
    · rename_i hfits
      obtain ⟨hinit, hwithin, hlongest⟩ := ih (budget - c.utf8Size)
      refine ⟨List.cons_prefix_cons.mpr ⟨rfl, hinit⟩, ?_, fun other hother hbound => ?_⟩
      · rw [length_encode_cons]
        omega
      · cases other with
        | nil => exact List.nil_prefix
        | cons d other =>
          obtain ⟨rfl, hrest⟩ := List.cons_prefix_cons.mp hother
          rw [length_encode_cons] at hbound
          exact List.cons_prefix_cons.mpr ⟨rfl, hlongest other hrest (by omega)⟩
    · rename_i hlarge
      refine ⟨List.nil_prefix, Nat.zero_le budget, fun other hother hbound => ?_⟩
      cases other with
      | nil => exact List.nil_prefix
      | cons d other =>
        obtain ⟨rfl, -⟩ := List.cons_prefix_cons.mp hother
        rw [length_encode_cons] at hbound
        omega

theorem length_utf8 (s : String) : (Text.utf8 s).length = s.utf8ByteSize := by
  have hsize := utf8ByteSize_ofList s.toList
  rw [String.ofList_toList] at hsize
  exact hsize.symm

/-- No cut is within a character. -/
theorem truncateUtf8Bytes_eq (json : String) (maxBytes : Nat) :
    truncateUtf8Bytes json maxBytes = some (truncateUtf8 json maxBytes) := by
  unfold truncateUtf8Bytes truncateUtf8
  rw [length_utf8, length_utf8]
  split
  · rfl
  · by_cases hmarker : TRUNCATION_MARKER.utf8ByteSize ≤ maxBytes
    · have hroom : ¬ maxBytes < TRUNCATION_MARKER.utf8ByteSize := Nat.not_lt_of_le hmarker
      obtain ⟨kept, hcut, hkept⟩ := longestWithin_truncate json.toList
        (maxBytes - TRUNCATION_MARKER.utf8ByteSize)
      have hsame := hkept.unique (longestWithin_fitting _ _)
      rw [if_neg hroom, if_pos hmarker]
      dsimp only
      rw [hcut, hsame, Option.map_some]
    · rw [if_pos (Nat.lt_of_not_le hmarker), if_neg hmarker]

/-- Whatever the text and the limit, no cut is within a character; what is captured is within the
limit, the text itself or the longest front of it that leaves room for the marker, and the marker;
and nothing is captured exactly when the text is too long and the limit has no room for the marker. -/
theorem truncateUtf8_exact (json : String) (maxBytes : Nat) :
    truncateUtf8Bytes json maxBytes = some (truncateUtf8 json maxBytes) ∧
    (∀ text, truncateUtf8 json maxBytes = .json text →
      text.utf8ByteSize ≤ maxBytes ∧
      (json.utf8ByteSize ≤ maxBytes ∧ text = json ∨
        maxBytes < json.utf8ByteSize ∧ TRUNCATION_MARKER.utf8ByteSize ≤ maxBytes ∧
          ∃ kept, LongestWithin (maxBytes - TRUNCATION_MARKER.utf8ByteSize) json.toList kept ∧
            text = .ofList kept ++ TRUNCATION_MARKER)) ∧
    ((∃ reason, truncateUtf8 json maxBytes = .omitted reason) ↔
      maxBytes < json.utf8ByteSize ∧ maxBytes < TRUNCATION_MARKER.utf8ByteSize) := by
  refine ⟨truncateUtf8Bytes_eq json maxBytes, ?_⟩
  unfold truncateUtf8
  by_cases hshort : json.utf8ByteSize ≤ maxBytes
  · rw [if_pos hshort]
    constructor
    · intro text htext
      obtain rfl := CapturedPayload.json.inj htext
      exact ⟨hshort, .inl ⟨hshort, rfl⟩⟩
    · refine iff_of_false ?_ fun h => Nat.not_lt_of_le hshort h.1
      rintro ⟨reason, hreason⟩
      cases hreason
  · rw [if_neg hshort]
    have hlong := Nat.lt_of_not_le hshort
    by_cases hmarker : TRUNCATION_MARKER.utf8ByteSize ≤ maxBytes
    · rw [if_pos hmarker]
      constructor
      · intro text htext
        obtain rfl := CapturedPayload.json.inj htext
        have hkept := longestWithin_fitting (maxBytes - TRUNCATION_MARKER.utf8ByteSize) json.toList
        have hwithin := hkept.within
        rw [String.utf8ByteSize_append, utf8ByteSize_ofList]
        exact ⟨by omega, .inr ⟨hlong, hmarker, _, hkept, rfl⟩⟩
      · refine iff_of_false ?_ fun h => Nat.not_lt_of_le hmarker h.2
        rintro ⟨reason, hreason⟩
        cases hreason
    · rw [if_neg hmarker]
      constructor
      · intro text htext
        cases htext
      · exact iff_of_true ⟨_, rfl⟩ ⟨hlong, Nat.lt_of_not_le hmarker⟩

example : truncateUtf8 "\x22éééééééééé\x22" 20 = .json ("\x22éé" ++ TRUNCATION_MARKER) := by
  decide +kernel

end Tronc.Mcp
