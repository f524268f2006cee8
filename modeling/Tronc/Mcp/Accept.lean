import Mathlib.Algebra.Order.Ring.Rat
import Tronc.HttpClient.Entries
import Tronc.Library.Ranked
import Tronc.Mcp.CallStream
import Tronc.Mcp.Headers

namespace Tronc.Mcp

open HttpClient (split splitOnce eqIgnoreAsciiCase)

def APPLICATION_JSON : String := "application/json"

def TEXT_EVENT_STREAM : String := "text/event-stream"

/-- One media range of an `Accept` header. -/
structure MediaRange where
  media : String
  quality : ℚ
  deriving DecidableEq

namespace MediaRange

/-- Whether a range names a media type, exactly or through a wildcard. -/
def covers (range : MediaRange) (media : String) : Bool :=
  if range.media = "*/*" ∨ eqIgnoreAsciiCase range.media media then true
  else
    match splitOnce '/' range.media, splitOnce '/' media with
    | some (rangeType, "*"), some (wantedType, _) => eqIgnoreAsciiCase rangeType wantedType
    | _, _ => false

/-- How narrowly a range names a type. -/
def specificity (range : MediaRange) : Nat :=
  match splitOnce '/' range.media with
  | some ("*", "*") => 0
  | some (_, "*") => 1
  | _ => 2

end MediaRange

def ACCEPT : String := "accept"

/-- What the readable `Accept` headers list. -/
def acceptTexts (headers : HeaderMap) : List String :=
  ((headers.getAll ACCEPT).filterMap HeaderValue.toStr).flatMap (split ',')

section Negotiation

-- what `str::parse::<f32>` makes of a text, as an exact rational
variable (parse : String → Option ℚ)

/-- A range and its weight: 1 without a readable `q`. -/
def mediaRange (range : String) : Option MediaRange :=
  let parts := split ';' range
  let media := Text.trim (parts.headD "")
  if media = "" then none
  else
    let params := parts.tail.filterMap fun param => splitOnce '=' (Text.trim param)
    let quality := ((params.find? fun p => eqIgnoreAsciiCase (Text.trim p.1) "q").bind fun p =>
      parse (Text.trim p.2)).getD 1
    some ⟨media, quality⟩

def acceptRanges (headers : HeaderMap) : List MediaRange :=
  if headers.any fun h => h.1 == ACCEPT then (acceptTexts headers).filterMap (mediaRange parse)
  else [⟨"*/*", 1⟩]

/-- The weight the client gives a media type. -/
def acceptWeight (ranges : List MediaRange) (media : String) : ℚ :=
  (((ranges.filter fun range => range.covers media).foldl (fun best range =>
    Ranked.hold best (range.specificity, range.quality)) none).map Prod.snd).getD 0

/-- `Rendering::negotiate`. -/
def negotiate (headers : HeaderMap) : Option Rendering :=
  let ranges := acceptRanges parse headers
  let json := acceptWeight ranges APPLICATION_JSON
  let eventStream := acceptWeight ranges TEXT_EVENT_STREAM
  if json > 0 ∨ eventStream > 0 then some ⟨eventStream > json, eventStream > 0⟩ else none

end Negotiation

/-- A covering range that no other covering range is narrower than. -/
structure Narrowest (ranges : List MediaRange) (media : String) (range : MediaRange) : Prop where
  mem : range ∈ ranges
  covers : range.covers media = true
  specificity_le : ∀ other ∈ ranges, other.covers media = true →
    other.specificity ≤ range.specificity

/-- The greatest weight among the narrowest covering ranges, and nothing if none covers. -/
inductive IsWeight (ranges : List MediaRange) (media : String) : ℚ → Prop where
  | narrowest {range : MediaRange} : Narrowest ranges media range →
    (∀ other, Narrowest ranges media other → other.quality ≤ range.quality) →
    IsWeight ranges media range.quality
  | uncovered : (∀ range ∈ ranges, range.covers media = false) → IsWeight ranges media 0

section Weights

variable {ranges ranges' : List MediaRange} {media : String} {range : MediaRange} {w w' : ℚ}

/-- A covering range as it is ranked. -/
def ranking (ranges : List MediaRange) (media : String) : List (Nat × ℚ) :=
  (ranges.filter fun range => range.covers media).map fun range =>
    (range.specificity, range.quality)

theorem acceptWeight_eq : acceptWeight ranges media =
    ((Ranked.best (ranking ranges media)).map Prod.snd).getD 0 := by
  unfold acceptWeight ranking Ranked.best
  rw [List.foldl_map]

theorem mem_ranking {x : Nat × ℚ} : x ∈ ranking ranges media ↔
    ∃ range ∈ ranges, range.covers media = true ∧ (range.specificity, range.quality) = x := by
  unfold ranking
  rw [List.mem_map]
  simp only [List.mem_filter, and_assoc]

/-- The fold computes the weight. -/
theorem isWeight_acceptWeight (ranges : List MediaRange) (media : String) :
    IsWeight ranges media (acceptWeight ranges media) := by
  rw [acceptWeight_eq]
  cases hbest : Ranked.best (ranking ranges media) with
  | none =>
    refine .uncovered fun range hmem => ?_
    by_contra hcovers
    have hin : (range.specificity, range.quality) ∈ ranking ranges media :=
      mem_ranking.mpr ⟨range, hmem, by simpa using hcovers, rfl⟩
    rw [Ranked.best_eq_none_iff.mp hbest] at hin
    cases hin
  | some b =>
    have h := Ranked.best_eq_some_iff.mp hbest
    obtain ⟨range, hmem, hcovers, rfl⟩ := mem_ranking.mp h.mem
    refine .narrowest ⟨hmem, hcovers, fun other ho hc => ?_⟩ fun other ho => ?_
    · exact h.rank_le _ (mem_ranking.mpr ⟨other, ho, hc, rfl⟩)
    · have hin := mem_ranking.mpr ⟨other, ho.mem, ho.covers, rfl⟩
      have hrank : other.specificity = range.specificity :=
        le_antisymm (h.rank_le _ hin) (ho.specificity_le range hmem hcovers)
      exact h.weight_le _ hin hrank

theorem acceptWeight_perm (h : ranges.Perm ranges') :
    acceptWeight ranges media = acceptWeight ranges' media := by
  have hranking : (ranking ranges media).Perm (ranking ranges' media) := (h.filter _).map _
  rw [acceptWeight_eq, acceptWeight_eq, Ranked.best_perm hranking]

/-- No narrowest range weighs more than nothing. -/
def Unwanted (ranges : List MediaRange) (media : String) : Prop :=
  ∀ range, Narrowest ranges media range → range.quality ≤ 0

/-- There are covering ranges, and every narrowest one weighs less than nothing. -/
def Negative (ranges : List MediaRange) (media : String) : Prop :=
  (∃ range ∈ ranges, range.covers media = true) ∧
    ∀ range, Narrowest ranges media range → range.quality < 0

theorem acceptWeight_nonpos_iff : acceptWeight ranges media ≤ 0 ↔ Unwanted ranges media := by
  have hweight := isWeight_acceptWeight ranges media
  generalize acceptWeight ranges media = w at hweight
  cases hweight with
  | narrowest hnarrowest hgreatest =>
    exact ⟨fun h other ho => (hgreatest other ho).trans h, fun h => h _ hnarrowest⟩
  | uncovered hnone =>
    refine iff_of_true le_rfl fun range h => ?_
    cases (hnone range h.mem).symm.trans h.covers

theorem acceptWeight_neg_iff : acceptWeight ranges media < 0 ↔ Negative ranges media := by
  have hweight := isWeight_acceptWeight ranges media
  generalize acceptWeight ranges media = w at hweight
  cases hweight with
  | narrowest hnarrowest hgreatest =>
    exact ⟨fun h => ⟨⟨_, hnarrowest.mem, hnarrowest.covers⟩,
      fun other ho => (hgreatest other ho).trans_lt h⟩, fun h => h.2 _ hnarrowest⟩
  | uncovered hnone =>
    refine iff_of_false (lt_irrefl _) fun h => ?_
    obtain ⟨range, hmem, hcovers⟩ := h.1
    cases (hnone range hmem).symm.trans hcovers

end Weights

/-- What a range says of the media type with this type and subtype, by how narrowly it says it. -/
inductive Covers (type subtype media : String) : Nat → Prop where
  | any : media = "*/*" → Covers type subtype media 0
  | type {rangeType : String} : media = rangeType ++ ("/" ++ "*") →
    eqIgnoreAsciiCase rangeType type = true → Covers type subtype media 1
  | exact : eqIgnoreAsciiCase media (type ++ ("/" ++ subtype)) = true → Covers type subtype media 2

section Ranges

variable {type subtype media : String} {n : Nat}

/-- The slash of a media type stands at the same place in any case. -/
theorem eqIgnoreAsciiCase_slash
    (h : eqIgnoreAsciiCase media (type ++ ("/" ++ subtype)) = true) :
    ∃ a b, media = a ++ ("/" ++ b) ∧ eqIgnoreAsciiCase a type = true ∧
      eqIgnoreAsciiCase b subtype = true := by
  have hlower := congrArg String.toList (eq_of_beq h)
  rw [Text.toList_asciiLower, Text.toList_asciiLower, String.toList_append, String.toList_append,
    List.map_append, List.map_append] at hlower
  obtain ⟨a, rest, hmedia, ha, hrest⟩ := List.map_eq_append_iff.mp hlower
  obtain ⟨slash, b, hsplit, hslash, hb⟩ := List.map_eq_append_iff.mp hrest
  obtain ⟨c, hc⟩ : ∃ c, slash = [c] := List.length_eq_one_iff.mp (by
    have hlength := congrArg List.length hslash
    simpa using hlength)
  subst hc
  have hchar : Text.asciiLowerChar c = '/' := (List.cons.inj hslash).1
  obtain rfl := Text.eq_of_asciiLowerChar (by decide) hchar
  refine ⟨.ofList a, .ofList b, ?_, ?_, ?_⟩
  · apply String.toList_injective
    rw [hmedia, hsplit, String.toList_append, String.toList_append, String.toList_ofList,
      String.toList_ofList (l := b)]
    rfl
  · apply beq_of_eq
    apply String.toList_injective
    rw [Text.toList_asciiLower, Text.toList_asciiLower, String.toList_ofList, ha]
  · apply beq_of_eq
    apply String.toList_injective
    rw [Text.toList_asciiLower, Text.toList_asciiLower, String.toList_ofList, hb]

theorem specificity_of_split {range : MediaRange} {a b : String}
    (h : splitOnce '/' range.media = some (a, b)) :
    range.specificity = if b = "*" then (if a = "*" then 0 else 1) else 2 := by
  unfold MediaRange.specificity
  rw [h]
  split
  · rename_i heq
    obtain ⟨rfl, rfl⟩ := Prod.mk.inj (Option.some.inj heq)
    rfl
  · rename_i hne heq
    obtain ⟨rfl, rfl⟩ := Prod.mk.inj (Option.some.inj heq)
    have ha : a ≠ "*" := fun ha => hne (ha ▸ rfl)
    rw [if_pos rfl, if_neg ha]
  · rename_i hany hne
    have hb : b ≠ "*" := fun hb => hne a (hb ▸ rfl)
    rw [if_neg hb]

theorem splitOnce_slash {a b : String} (h : '/' ∉ a.toList) :
    splitOnce '/' (a ++ ("/" ++ b)) = some (a, b) := by
  refine HttpClient.splitOnce_eq_some_iff.mpr ⟨?_, h⟩
  rw [String.toList_append, String.toList_append]
  rfl

/-- How narrowly a range that covers a media type names it. -/
theorem covers_iff {range : MediaRange} (hslash : '/' ∉ type.toList)
    (htype : '*' ∉ type.toList) (hsubtype : '*' ∉ subtype.toList) :
    range.covers (type ++ ("/" ++ subtype)) = true ∧ range.specificity = n ↔
      Covers type subtype range.media n := by
  obtain ⟨m, quality⟩ := range
  have hstar {a b : String} (h : eqIgnoreAsciiCase a b = true) (hb : '*' ∉ b.toList) : a ≠ "*" := by
    rintro rfl
    exact hb (HttpClient.mem_of_eqIgnoreAsciiCase h (by decide) List.mem_cons_self)
  have hnoslash {a : String} (h : eqIgnoreAsciiCase a type = true) : '/' ∉ a.toList :=
    fun hmem => hslash (HttpClient.mem_of_eqIgnoreAsciiCase h (by decide) hmem)
  have hexact (h : eqIgnoreAsciiCase m (type ++ ("/" ++ subtype)) = true) :
      MediaRange.specificity ⟨m, quality⟩ = 2 := by
    obtain ⟨a, b, rfl, ha, hb⟩ := eqIgnoreAsciiCase_slash h
    have hsplit : splitOnce '/' (MediaRange.mk (a ++ ("/" ++ b)) quality).media = some (a, b) :=
      splitOnce_slash (hnoslash ha)
    rw [specificity_of_split hsplit, if_neg (hstar hb hsubtype)]
  have hany : MediaRange.specificity ⟨"*/*", quality⟩ = 0 := by
    have hsplit : splitOnce '/' "*/*" = some ("*", "*") := by decide
    rw [specificity_of_split hsplit, if_pos rfl, if_pos rfl]
  constructor
  · rintro ⟨hcovers, rfl⟩
    unfold MediaRange.covers at hcovers
    split at hcovers
    · rename_i h
      rcases h with h | h
      · dsimp only at h
        subst h
        rw [hany]
        exact .any rfl
      · rw [hexact h]
        exact .exact h
    · rw [splitOnce_slash hslash] at hcovers
      dsimp only at hcovers
      cases hm : splitOnce '/' m with
      | none =>
        rw [hm] at hcovers
        cases hcovers
      | some parts =>
        obtain ⟨a, b⟩ := parts
        rw [hm] at hcovers
        split at hcovers
        · rename_i heq hwanted
          obtain ⟨rfl, rfl⟩ := Prod.mk.inj (Option.some.inj heq)
          obtain ⟨rfl, -⟩ := Prod.mk.inj (Option.some.inj hwanted)
          have hmedia : m = a ++ ("/" ++ "*") := by
            apply String.toList_injective
            rw [(HttpClient.splitOnce_eq_some_iff.mp hm).1, String.toList_append]
            rfl
          rw [specificity_of_split hm, if_pos rfl, if_neg (hstar hcovers htype)]
          exact .type hmedia hcovers
        · cases hcovers
  · intro h
    cases h with
    | any hm =>
      dsimp only at hm
      subst hm
      exact ⟨if_pos (.inl rfl), hany⟩
    | @type rangeType hm h =>
      dsimp only at hm
      have hsplit : splitOnce '/' m = some (rangeType, "*") := by
        rw [hm]
        exact splitOnce_slash (hnoslash h)
      refine ⟨?_, ?_⟩
      · unfold MediaRange.covers
        split
        · rfl
        · rw [splitOnce_slash hslash]
          dsimp only
          rw [hsplit]
          exact h
      · rw [specificity_of_split hsplit, if_pos rfl, if_neg (hstar h htype)]
    | exact h =>
      refine ⟨?_, hexact h⟩
      unfold MediaRange.covers
      exact if_pos (.inr h)

theorem covers_json (range : MediaRange) (n : Nat) :
    range.covers APPLICATION_JSON = true ∧ range.specificity = n ↔
      Covers "application" "json" range.media n := by
  have htext : APPLICATION_JSON = "application" ++ ("/" ++ "json") := by decide
  rw [htext]
  exact covers_iff (by decide) (by decide) (by decide)

theorem covers_eventStream (range : MediaRange) (n : Nat) :
    range.covers TEXT_EVENT_STREAM = true ∧ range.specificity = n ↔
      Covers "text" "event-stream" range.media n := by
  have htext : TEXT_EVENT_STREAM = "text" ++ ("/" ++ "event-stream") := by decide
  rw [htext]
  exact covers_iff (by decide) (by decide) (by decide)

end Ranges

/-- The `Accept` headers of a request are weighed by precedence. -/
structure Negotiates (parse : String → Option ℚ) (headers : HeaderMap) : Prop where
  json : ∀ (range : MediaRange) (n : Nat),
    range.covers APPLICATION_JSON = true ∧ range.specificity = n ↔
      Covers "application" "json" range.media n
  eventStream : ∀ (range : MediaRange) (n : Nat),
    range.covers TEXT_EVENT_STREAM = true ∧ range.specificity = n ↔
      Covers "text" "event-stream" range.media n
  weight : ∀ media, IsWeight (acceptRanges parse headers) media
    (acceptWeight (acceptRanges parse headers) media)
  perm : ∀ headers' : HeaderMap, headers'.any (fun h => h.1 == ACCEPT) =
      headers.any (fun h => h.1 == ACCEPT) → (acceptTexts headers').Perm (acceptTexts headers) →
    negotiate parse headers' = negotiate parse headers
  split : ∀ (before after : HeaderMap) (value first second : HeaderValue) (a b : String),
    headers = before ++ (ACCEPT, value) :: after → value.toStr = some (a ++ "," ++ b) →
    first.toStr = some a → second.toStr = some b →
    negotiate parse (before ++ (ACCEPT, first) :: (ACCEPT, second) :: after) =
      negotiate parse headers
  refuses : negotiate parse headers = none ↔
    acceptWeight (acceptRanges parse headers) APPLICATION_JSON = 0 ∧
      acceptWeight (acceptRanges parse headers) TEXT_EVENT_STREAM = 0
  event : ∀ rendering, negotiate parse headers = some rendering →
    (rendering.singleAsEvent = true ↔
      acceptWeight (acceptRanges parse headers) APPLICATION_JSON <
        acceptWeight (acceptRanges parse headers) TEXT_EVENT_STREAM)
  absent : headers.any (fun h => h.1 == ACCEPT) = false →
    acceptRanges parse headers = [⟨"*/*", 1⟩]

section Negotiation

variable {parse : String → Option ℚ} {headers headers' : HeaderMap} {rendering : Rendering}

theorem negotiate_perm (hany : headers'.any (fun h => h.1 == ACCEPT) =
      headers.any fun h => h.1 == ACCEPT)
    (h : (acceptTexts headers').Perm (acceptTexts headers)) :
    negotiate parse headers' = negotiate parse headers := by
  have hranges : (acceptRanges parse headers').Perm (acceptRanges parse headers) := by
    unfold acceptRanges
    rw [hany]
    split
    · exact h.filterMap _
    · exact .refl _
  unfold negotiate
  dsimp only
  rw [acceptWeight_perm hranges, acceptWeight_perm hranges]

theorem split_append (a b : String) : HttpClient.split ',' (a ++ "," ++ b) =
    HttpClient.split ',' a ++ HttpClient.split ',' b := by
  have hlist : (a ++ "," ++ b).toList = a.toList ++ ',' :: b.toList := by
    simp [String.toList_append]
  unfold HttpClient.split
  rw [hlist, List.splitOn_append_cons_self, List.map_append]

/-- One header or two is the same. -/
theorem acceptTexts_split {before after : HeaderMap} {value first second : HeaderValue}
    {a b : String} (hvalue : value.toStr = some (a ++ "," ++ b)) (hfirst : first.toStr = some a)
    (hsecond : second.toStr = some b) :
    acceptTexts (before ++ (ACCEPT, first) :: (ACCEPT, second) :: after) =
      acceptTexts (before ++ (ACCEPT, value) :: after) := by
  have hself : (ACCEPT == ACCEPT) = true := rfl
  unfold acceptTexts HeaderMap.getAll
  simp only [List.filter_append, List.map_append, List.filterMap_append, List.flatMap_append,
    List.filter_cons, hself, if_true, List.map_cons, List.filterMap_cons, hvalue, hfirst, hsecond,
    List.flatMap_cons, split_append, List.append_assoc]

theorem negotiate_eq_none : negotiate parse headers = none ↔
    Unwanted (acceptRanges parse headers) APPLICATION_JSON ∧
      Unwanted (acceptRanges parse headers) TEXT_EVENT_STREAM := by
  rw [← acceptWeight_nonpos_iff, ← acceptWeight_nonpos_iff]
  unfold negotiate
  dsimp only
  split
  · rename_i h
    refine iff_of_false (fun h => nomatch h) fun hnone => ?_
    exact h.elim (not_lt.mpr hnone.1) (not_lt.mpr hnone.2)
  · rename_i h
    obtain ⟨hjson, hevent⟩ := not_or.mp h
    exact iff_of_true rfl ⟨not_lt.mp hjson, not_lt.mp hevent⟩

theorem singleAsEvent_iff (h : negotiate parse headers = some rendering) :
    rendering.singleAsEvent = true ↔
      acceptWeight (acceptRanges parse headers) APPLICATION_JSON <
        acceptWeight (acceptRanges parse headers) TEXT_EVENT_STREAM := by
  unfold negotiate at h
  dsimp only at h
  split at h
  · rw [← Option.some.inj h]
    exact decide_eq_true_iff
  · cases h

/-- Precedence is followed exactly unless neither media type weighs more than nothing and one of
them weighs less. -/
theorem negotiates_iff : Negotiates parse headers ↔
    ¬ (Unwanted (acceptRanges parse headers) APPLICATION_JSON ∧
      Unwanted (acceptRanges parse headers) TEXT_EVENT_STREAM ∧
      (Negative (acceptRanges parse headers) APPLICATION_JSON ∨
        Negative (acceptRanges parse headers) TEXT_EVENT_STREAM)) := by
  constructor
  · rintro h ⟨hjson, hevent, hnegative⟩
    obtain ⟨hjson0, hevent0⟩ := h.refuses.mp (negotiate_eq_none.mpr ⟨hjson, hevent⟩)
    rcases hnegative with hnegative | hnegative
    · have hlt := acceptWeight_neg_iff.mpr hnegative
      exact hlt.ne hjson0
    · have hlt := acceptWeight_neg_iff.mpr hnegative
      exact hlt.ne hevent0
  · intro h
    refine ⟨covers_json, covers_eventStream, isWeight_acceptWeight _, fun _ => negotiate_perm, ?_,
      ?_, fun _ => singleAsEvent_iff, ?_⟩
    · intro before after value first second a b hheaders hvalue hfirst hsecond
      rw [hheaders]
      refine negotiate_perm ?_ ?_
      · simp [List.any_append]
      · rw [acceptTexts_split hvalue hfirst hsecond]
    · rw [negotiate_eq_none]
      constructor
      · rintro ⟨hjson, hevent⟩
        have hnot := not_or.mp fun hneg => h ⟨hjson, hevent, hneg⟩
        exact ⟨le_antisymm (acceptWeight_nonpos_iff.mpr hjson)
            (not_lt.mp fun hlt => hnot.1 (acceptWeight_neg_iff.mp hlt)),
          le_antisymm (acceptWeight_nonpos_iff.mpr hevent)
            (not_lt.mp fun hlt => hnot.2 (acceptWeight_neg_iff.mp hlt))⟩
      · rintro ⟨hjson, hevent⟩
        exact ⟨acceptWeight_nonpos_iff.mp hjson.le, acceptWeight_nonpos_iff.mp hevent.le⟩
    · intro habsent
      unfold acceptRanges
      rw [habsent]
      rfl

end Negotiation

/-- A decimal number as `str::parse::<f32>` reads it, but for the infinities and NaN and before it is
rounded. -/
def parseDecimal (text : String) : Option ℚ :=
  let (negative, digits) := match text.toList with
    | '-' :: digits => (true, digits)
    | '+' :: digits => (false, digits)
    | digits => (false, digits)
  let int := digits.takeWhile Char.isDigit
  let (frac, rest) := match digits.dropWhile Char.isDigit with
    | '.' :: rest => (rest.takeWhile Char.isDigit, rest.dropWhile Char.isDigit)
    | rest => ([], rest)
  if int = [] ∧ frac = [] then none
  else (Binary64.parseExponent rest).map fun (exponent : Int) =>
    let magnitude : ℚ := match exponent - frac.length with
      | Int.ofNat k => Binary64.digitsValue (int ++ frac) * 10^k
      | Int.negSucc k => Binary64.digitsValue (int ++ frac) / 10^(k + 1)
    if negative then -magnitude else magnitude

example : (parseDecimal "0.25", parseDecimal "-1e-1", parseDecimal "q") =
    (some (1 / 4), some (-1 / 10), none) := by decide +kernel

/-- A client that weighs JSON at -1 is refused as if it weighed nothing. -/
theorem negative_weight_refused :
    negotiate parseDecimal [(ACCEPT, .ofString "application/json;q=-1")] = none ∧
      acceptWeight (acceptRanges parseDecimal
        [(ACCEPT, .ofString "application/json;q=-1")]) APPLICATION_JSON = -1 ∧
      ¬ Negotiates parseDecimal [(ACCEPT, .ofString "application/json;q=-1")] := by
  have hnone : negotiate parseDecimal [(ACCEPT, .ofString "application/json;q=-1")] = none := by
    decide +kernel
  have hweight : acceptWeight (acceptRanges parseDecimal
      [(ACCEPT, .ofString "application/json;q=-1")]) APPLICATION_JSON = -1 := by
    decide +kernel
  refine ⟨hnone, hweight, fun h => ?_⟩
  have hzero := (h.refuses.mp hnone).1
  rw [hweight] at hzero
  exact absurd hzero (by decide)

end Tronc.Mcp
