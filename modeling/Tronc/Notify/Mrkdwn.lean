import Tronc.Library.Labelled
import Tronc.Notify.Render

namespace Tronc.Notify

open Labelled (Harmless Safe label)

/-- Where a piece of a rendered text is from. -/
inductive Source where
  | layer
  | name
  | key
  | value
  deriving DecidableEq

abbrev Part := Source × String

/-- One of the three escapes stands at the head of the text. -/
def BeginsEscape (text : List Char) : Prop :=
  ∃ escape ∈ ["&lt;", "&gt;", "&amp;"], escape.toList <+: text

/-- A character that `mrkdwn` gives a meaning to, read with what follows it. -/
def IsControl (c : Char) (rest : List Char) : Prop :=
  c = '<' ∨ c = '>' ∨ (c = '&' ∧ ¬ BeginsEscape (c :: rest))

/-- A text with no `<`, no `>`, and no `&` but those of the escapes. -/
def IsEscaped (text : String) : Prop := Harmless IsControl text.toList

/-- The rendered text, each character with its source. -/
def marked (parts : List Part) : List (Char × Source) :=
  (parts.map fun p => (p.1, p.2.toList)).flatMap fun p => label p.1 p.2

def textOf (parts : List Part) : String := .ofList ((marked parts).map Prod.fst)

/-- The event name or a field key. -/
def Source.IsLabel (source : Source) : Prop := source = .name ∨ source = .key

/-- Each control of the text is the event name's or a field key's. -/
def NoInjection (parts : List Part) : Prop := Safe IsControl Source.IsLabel (marked parts)

def headlineParts (eventName : String) (fields : Fields) : List Part :=
  let emoji := (fields.lookup "emoji").filter (· ≠ "")
  let message := ((fields.lookup "message").filter (· ≠ "")).map escapeMrkdwn
  match emoji, message with
  | some e, some m =>
    [(.value, e), (.layer, " *"), (.name, eventName), (.layer, "* — "), (.value, m)]
  | some e, none => [(.value, e), (.layer, " *"), (.name, eventName), (.layer, "*")]
  | none, some m => [(.layer, "*"), (.name, eventName), (.layer, "* — "), (.value, m)]
  | none, none => [(.layer, "*"), (.name, eventName), (.layer, "*")]

def pairParts (format : String → String → String) (e : String × String) : List Part :=
  [(.key, e.1), (.layer, "="), (.value, format e.1 e.2)]

/-- The headline, and the pairs on a line below it. -/
def withPairs (head : List Part) (pairs : List (List Part)) : List Part :=
  if pairs = [] then head else head ++ (.layer, "\n") :: [(.layer, ", ")].intercalate pairs

def lineParts (eventName : String) (fields : Fields) : List Part :=
  withPairs (headlineParts eventName fields)
    ((rendered renderable fields).map (pairParts formatValue))

def sectionParts (eventName : String) (fields : Fields) : List Part :=
  withPairs (headlineParts eventName fields)
    ((rendered (fun k => renderable k && !isIdField k) fields).map (pairParts formatValue))

def contextParts (fields : Fields) : List Part :=
  [(.layer, "  ·  ")].intercalate
    ((rendered (fun k => renderable k && isIdField k) fields).map
      (pairParts fun _ value => escapeMrkdwn value))

section Texts

theorem textOf_nil : textOf [] = "" := rfl

theorem textOf_cons (p : Part) (parts : List Part) : textOf (p :: parts) = p.2 ++ textOf parts := by
  apply String.toList_injective
  unfold textOf marked
  rw [String.toList_append, String.toList_ofList, String.toList_ofList, List.map_cons,
    List.flatMap_cons, List.map_append, Labelled.map_fst_label]

theorem textOf_append (first second : List Part) :
    textOf (first ++ second) = textOf first ++ textOf second := by
  induction first with
  | nil => rw [List.nil_append, textOf_nil, String.empty_append]
  | cons p first ih => rw [List.cons_append, textOf_cons, textOf_cons, ih, String.append_assoc]

theorem textOf_intercalate (separator : String) (pairs : List (List Part)) :
    textOf ([(.layer, separator)].intercalate pairs) = separator.intercalate (pairs.map textOf) := by
  induction pairs with
  | nil => rfl
  | cons pair pairs ih =>
    cases pairs with
    | nil => simp
    | cons next pairs =>
      rw [List.intercalate_cons_cons, List.map_cons, List.map_cons, String.intercalate_cons_cons,
        textOf_append, textOf_append, ih, textOf_cons, textOf_nil, String.append_empty,
        List.map_cons]

theorem textOf_headline (eventName : String) (fields : Fields) :
    textOf (headlineParts eventName fields) = headline eventName fields := by
  unfold headlineParts headline
  dsimp only
  generalize (fields.lookup "emoji").filter (· ≠ "") = emoji
  generalize ((fields.lookup "message").filter (· ≠ "")).map escapeMrkdwn = message
  cases emoji with
  | none =>
    cases message with
    | none => simp [textOf_cons, textOf_nil, String.append_assoc]
    | some m => simp [textOf_cons, textOf_nil, String.append_assoc]
  | some e =>
    cases message with
    | none => simp [textOf_cons, textOf_nil, String.append_assoc]
    | some m => simp [textOf_cons, textOf_nil, String.append_assoc]

theorem textOf_pair (format : String → String → String) (e : String × String) :
    textOf (pairParts format e) = e.1 ++ "=" ++ format e.1 e.2 := by
  unfold pairParts
  rw [textOf_cons, textOf_cons, textOf_cons, textOf_nil, String.append_empty, String.append_assoc]

theorem textOf_withPairs (eventName : String) (fields : Fields) (entries : List (String × String)) :
    textOf (withPairs (headlineParts eventName fields) (entries.map (pairParts formatValue))) =
      let pairs := entries.map fun e => e.1 ++ "=" ++ formatValue e.1 e.2
      if pairs = [] then headline eventName fields
      else headline eventName fields ++ "\n" ++ ", ".intercalate pairs := by
  have hpairs : (entries.map (pairParts formatValue)).map textOf =
      entries.map fun e => e.1 ++ "=" ++ formatValue e.1 e.2 := by
    rw [List.map_map]
    exact List.map_congr_left fun e _ => textOf_pair formatValue e
  unfold withPairs
  dsimp only
  by_cases hnil : entries = []
  · rw [if_pos (by rw [hnil]; rfl), if_pos (by rw [hnil]; rfl)]
    exact textOf_headline eventName fields
  · rw [if_neg (by rwa [List.map_eq_nil_iff]), if_neg (by rwa [List.map_eq_nil_iff]), ← hpairs,
      textOf_append, textOf_cons, textOf_intercalate, textOf_headline, String.append_assoc]

theorem textOf_line (eventName : String) (fields : Fields) :
    textOf (lineParts eventName fields) = formatLine eventName fields :=
  textOf_withPairs eventName fields (rendered renderable fields)

theorem eventBlocks_eq (eventName : String) (fields : Fields) :
    eventBlocks eventName fields =
      sectionBlock eventName (textOf (sectionParts eventName fields)) ::
        if rendered (fun k => renderable k && isIdField k) fields = [] then [] else
          [.object [("type", .string "context"), ("elements", .array [.object
            [("type", .string "mrkdwn"), ("text", .string (textOf (contextParts fields)))]])]] := by
  have hcontext : textOf (contextParts fields) = "  ·  ".intercalate
      ((rendered (fun k => renderable k && isIdField k) fields).map fun e =>
        e.1 ++ "=" ++ escapeMrkdwn e.2) := by
    unfold contextParts
    rw [textOf_intercalate, List.map_map]
    congr 1
    exact List.map_congr_left fun e _ => textOf_pair _ e
  unfold sectionParts
  rw [textOf_withPairs, hcontext]
  rfl

end Texts

section Escapes

/-- What the three replacements make of one character. -/
def escapeChar (c : Char) : List Char :=
  if c = '&' then "&amp;".toList
  else if c = '<' then "&lt;".toList
  else if c = '>' then "&gt;".toList
  else [c]

theorem toList_escapeMrkdwn (text : String) :
    (escapeMrkdwn text).toList = text.toList.flatMap escapeChar := by
  have hreplace (c : Char) (replacement text : String) :
      (replaceChar c replacement text).toList =
        text.toList.flatMap fun d => if d = c then replacement.toList else [d] :=
    String.toList_ofList
  unfold escapeMrkdwn
  rw [hreplace, hreplace, hreplace, List.flatMap_assoc, List.flatMap_assoc]
  congr 1
  funext c
  unfold escapeChar
  by_cases hamp : c = '&'
  · rw [if_pos hamp, if_pos hamp]
    decide
  · rw [if_neg hamp, if_neg hamp, List.flatMap_singleton]
    by_cases hlt : c = '<'
    · rw [if_pos hlt, if_pos hlt]
      decide
    · rw [if_neg hlt, if_neg hlt, List.flatMap_singleton]

theorem isControl_mono (c : Char) (rest more : List Char) (h : IsControl c (rest ++ more)) :
    IsControl c rest := by
  rcases h with hlt | hgt | ⟨hamp, hnone⟩
  · exact .inl hlt
  · exact .inr (.inl hgt)
  · refine .inr (.inr ⟨hamp, ?_⟩)
    rintro ⟨escape, hmem, hinit⟩
    exact hnone ⟨escape, hmem, hinit.trans (List.prefix_append (c :: rest) more)⟩

/-- No escape reaches over a blank. -/
theorem isControl_blank {c : Char} {rest : List Char} (more : List Char) (h : IsControl c rest) :
    IsControl c (rest ++ ' ' :: more) := by
  rcases h with hlt | hgt | ⟨hamp, hnone⟩
  · exact .inl hlt
  · exact .inr (.inl hgt)
  · refine .inr (.inr ⟨hamp, ?_⟩)
    rintro ⟨escape, hmem, hinit⟩
    have hall : ∀ escape ∈ ["&lt;", "&gt;", "&amp;"], ' ' ∉ escape.toList := by decide
    have hblank := hall escape hmem
    apply hnone
    refine ⟨escape, hmem, ?_⟩
    have hshort : c :: rest <+: c :: (rest ++ ' ' :: more) := List.prefix_append (c :: rest) _
    rcases List.prefix_or_prefix_of_prefix hinit hshort with hin | ⟨tail, htail⟩
    · exact hin
    · rw [← htail] at hinit hblank
      cases tail with
      | nil =>
        rw [List.append_nil] at htail
        rw [← htail]
      | cons d tail =>
        have hd : d :: tail <+: ' ' :: more :=
          (List.prefix_append_right_inj (c :: rest)).mp hinit
        have hfirst : d = ' ' := (List.cons_prefix_cons.mp hd).1
        exact absurd (by simp [hfirst]) hblank

/-- A text without the three characters is harmless. -/
theorem harmless_of_plain {text : List Char} (h : ∀ c ∈ text, c ≠ '<' ∧ c ≠ '>' ∧ c ≠ '&') :
    Harmless IsControl text := by
  intro before c after htext
  obtain ⟨hlt, hgt, hamp⟩ := h c (by rw [htext]; simp)
  rintro (hc | hc | ⟨hc, -⟩)
  · exact hlt hc
  · exact hgt hc
  · exact hamp hc

theorem harmless_escape {tail : List Char} (hescape : BeginsEscape ('&' :: tail))
    (htail : ∀ c ∈ tail, c ≠ '<' ∧ c ≠ '>' ∧ c ≠ '&') : Harmless IsControl ('&' :: tail) := by
  refine Labelled.harmless_cons.mpr ⟨?_, harmless_of_plain htail⟩
  rintro (hc | hc | ⟨-, hnone⟩)
  · exact absurd hc (by decide)
  · exact absurd hc (by decide)
  · exact hnone hescape

theorem harmless_escapeChar (c : Char) : Harmless IsControl (escapeChar c) := by
  unfold escapeChar
  split
  · exact harmless_escape ⟨"&amp;", by decide, List.prefix_refl _⟩ (by decide)
  · split
    · exact harmless_escape ⟨"&lt;", by decide, List.prefix_refl _⟩ (by decide)
    · split
      · exact harmless_escape ⟨"&gt;", by decide, List.prefix_refl _⟩ (by decide)
      · rename_i hamp hlt hgt
        apply harmless_of_plain
        intro d hd
        obtain rfl := List.mem_singleton.mp hd
        exact ⟨hlt, hgt, hamp⟩

theorem isEscaped_escapeMrkdwn (text : String) : IsEscaped (escapeMrkdwn text) := by
  unfold IsEscaped
  rw [toList_escapeMrkdwn]
  exact Labelled.harmless_flatMap isControl_mono harmless_escapeChar text.toList

theorem isEscaped_append {first second : String} (h : IsEscaped first) (h' : IsEscaped second) :
    IsEscaped (first ++ second) := by
  unfold IsEscaped
  rw [String.toList_append]
  exact Harmless.append isControl_mono h h'

theorem isEscaped_toString (n : Nat) : IsEscaped (toString n) := by
  apply harmless_of_plain
  intro c hc
  have hdigits : c ∈ Nat.toDigits 10 n := by
    rw [← Nat.toList_repr]
    exact hc
  have hdigit := Nat.isDigit_of_mem_toDigits (by decide) (by decide) hdigits
  refine ⟨?_, ?_, ?_⟩
  · rintro rfl
    exact absurd hdigit (by decide)
  · rintro rfl
    exact absurd hdigit (by decide)
  · rintro rfl
    exact absurd hdigit (by decide)

/-- A humanised duration is numbers and units. -/
theorem isEscaped_formatDurationMs (ms : Nat) : IsEscaped (formatDurationMs ms) := by
  have hunit : ∀ unit ∈ ["ms", "s", ".", "m", "m ", "h", "h "], IsEscaped unit := by
    intro unit hmem
    apply harmless_of_plain
    revert unit
    decide
  have htext (n : Nat) {unit : String} (h : unit ∈ ["ms", "s", ".", "m", "m ", "h", "h "]) :
      IsEscaped (toString n ++ unit) := isEscaped_append (isEscaped_toString n) (hunit unit h)
  have hthree (n : Nat) : IsEscaped (threeDigits n) :=
    isEscaped_append (isEscaped_append (isEscaped_toString _) (isEscaped_toString _))
      (isEscaped_toString _)
  unfold formatDurationMs
  dsimp only
  split
  · exact htext ms (by decide)
  · split
    · split
      · exact htext _ (by decide)
      · exact isEscaped_append (isEscaped_append (htext _ (by decide)) (hthree _))
          (hunit "s" (by decide))
    · split
      · split
        · exact htext _ (by decide)
        · exact isEscaped_append (isEscaped_append (htext _ (by decide)) (isEscaped_toString _))
            (hunit "s" (by decide))
      · split
        · exact htext _ (by decide)
        · exact isEscaped_append (isEscaped_append (htext _ (by decide)) (isEscaped_toString _))
            (hunit "m" (by decide))

theorem isEscaped_formatValue (key value : String) : IsEscaped (formatValue key value) := by
  unfold formatValue
  split
  · exact isEscaped_formatDurationMs _
  · exact isEscaped_escapeMrkdwn value

end Escapes

section Injection

variable {eventName : String} {fields : Fields}

/-- A piece that may stand in a rendered text: a name's, a key's, or an escaped one. -/
def IsFine (p : Part) : Prop := p.1.IsLabel ∨ IsEscaped p.2

theorem noInjection_of_isFine {parts : List Part} (h : ∀ p ∈ parts, IsFine p) :
    NoInjection parts := by
  have hparts : ∀ p ∈ parts.map fun p => (p.1, p.2.toList),
      p.1.IsLabel ∨ Harmless IsControl p.2 := by
    intro p hp
    obtain ⟨part, hpart, rfl⟩ := List.mem_map.mp hp
    exact h part hpart
  exact Labelled.safe_parts isControl_mono hparts

theorem isFine_layer : ∀ text ∈ ["*", " *", "* — ", "=", "\n", ", ", "  ·  "],
    IsFine (.layer, text) := by
  intro text hmem
  refine .inr (harmless_of_plain ?_)
  revert text
  decide

theorem isFine_pair {format : String → String → String}
    (hformat : ∀ key value, IsEscaped (format key value)) (e : String × String) :
    ∀ p ∈ pairParts format e, IsFine p := by
  intro p hp
  simp only [pairParts, List.mem_cons, List.not_mem_nil, or_false] at hp
  rcases hp with rfl | rfl | rfl
  · exact .inl (.inr rfl)
  · exact isFine_layer "=" (by decide)
  · exact .inr (hformat e.1 e.2)

theorem isFine_intercalate {separator : String} (hseparator : IsFine (.layer, separator))
    {pairs : List (List Part)} (h : ∀ pair ∈ pairs, ∀ p ∈ pair, IsFine p) :
    ∀ p ∈ [((.layer, separator) : Part)].intercalate pairs, IsFine p := by
  induction pairs with
  | nil =>
    intro p hp
    cases hp
  | cons pair pairs ih =>
    have hpair := h pair List.mem_cons_self
    have hpairs := ih fun other hother => h other (List.mem_cons_of_mem _ hother)
    cases pairs with
    | nil => simpa using hpair
    | cons next pairs =>
      intro p hp
      rw [List.intercalate_cons_cons, List.mem_append, List.mem_append] at hp
      rcases hp with (hfirst | hsep) | hrest
      · exact hpair p hfirst
      · rw [List.mem_singleton.mp hsep]
        exact hseparator
      · exact hpairs p hrest

theorem isFine_headline
    (hemoji : ∀ emoji, fields.lookup "emoji" = some emoji → IsEscaped emoji) :
    ∀ p ∈ headlineParts eventName fields, IsFine p := by
  have hname : IsFine (.name, eventName) := .inl (.inl rfl)
  have hstar := isFine_layer "*" (by decide)
  have hopen := isFine_layer " *" (by decide)
  have hdash := isFine_layer "* — " (by decide)
  have hlead : ∀ e, (fields.lookup "emoji").filter (· ≠ "") = some e → IsFine (.value, e) :=
    fun e he => .inr (hemoji e (Option.filter_eq_some_iff.mp he).1)
  have hbody : ∀ m, ((fields.lookup "message").filter (· ≠ "")).map escapeMrkdwn = some m →
      IsFine (.value, m) := by
    intro m hm
    obtain ⟨text, -, rfl⟩ := Option.map_eq_some_iff.mp hm
    exact .inr (isEscaped_escapeMrkdwn text)
  unfold headlineParts
  dsimp only
  generalize (fields.lookup "emoji").filter (· ≠ "") = emoji at hlead
  generalize ((fields.lookup "message").filter (· ≠ "")).map escapeMrkdwn = message at hbody
  cases emoji with
  | none =>
    cases message with
    | none => simp [hname, hstar]
    | some m => simp [hname, hstar, hdash, hbody m rfl]
  | some e =>
    cases message with
    | none => simp [hname, hstar, hopen, hlead e rfl]
    | some m => simp [hname, hopen, hdash, hlead e rfl, hbody m rfl]

theorem isFine_withPairs {head : List Part} (hhead : ∀ p ∈ head, IsFine p)
    (entries : List (String × String)) :
    ∀ p ∈ withPairs head (entries.map (pairParts formatValue)), IsFine p := by
  unfold withPairs
  split
  · exact hhead
  · intro p hp
    rw [List.mem_append, List.mem_cons] at hp
    rcases hp with hfirst | rfl | hrest
    · exact hhead p hfirst
    · exact isFine_layer "\n" (by decide)
    · refine isFine_intercalate (isFine_layer ", " (by decide)) ?_ p hrest
      intro pair hpair
      obtain ⟨e, -, rfl⟩ := List.mem_map.mp hpair
      exact isFine_pair isEscaped_formatValue e

theorem noInjection_context : NoInjection (contextParts fields) := by
  apply noInjection_of_isFine
  apply isFine_intercalate (isFine_layer "  ·  " (by decide))
  intro pair hpair
  obtain ⟨e, -, rfl⟩ := List.mem_map.mp hpair
  exact isFine_pair (fun _ value => isEscaped_escapeMrkdwn value) e

/-- An emoji stands before a blank, as it was given. -/
theorem headlineParts_emoji {emoji : String} (h : fields.lookup "emoji" = some emoji)
    (hne : emoji ≠ "") :
    ∃ rest, headlineParts eventName fields = (.value, emoji) :: (.layer, " *") :: rest := by
  have hfilter : (fields.lookup "emoji").filter (· ≠ "") = some emoji := by
    rw [h, Option.filter_some, if_pos (by simpa using hne)]
  unfold headlineParts
  rw [hfilter]
  dsimp only
  cases ((fields.lookup "message").filter (· ≠ "")).map escapeMrkdwn with
  | none => exact ⟨_, rfl⟩
  | some m => exact ⟨_, rfl⟩

theorem emoji_of_noInjection {pairs : List (List Part)}
    (h : NoInjection (withPairs (headlineParts eventName fields) pairs)) {emoji : String}
    (hemoji : fields.lookup "emoji" = some emoji) : IsEscaped emoji := by
  by_cases hne : emoji = ""
  · rw [hne]
    exact Labelled.harmless_nil
  · obtain ⟨rest, hhead⟩ : ∃ rest, headlineParts eventName fields =
        (.value, emoji) :: (.layer, " *") :: rest := headlineParts_emoji hemoji hne
    have hparts : ∃ more, withPairs (headlineParts eventName fields) pairs =
        (.value, emoji) :: (.layer, " *") :: more := by
      unfold withPairs
      rw [hhead]
      split
      · exact ⟨rest, rfl⟩
      · exact ⟨rest ++ (.layer, "\n") :: [(.layer, ", ")].intercalate pairs, rfl⟩
    obtain ⟨more, hmore⟩ := hparts
    rw [hmore] at h
    have htail : ∀ c after, IsControl c after →
        IsControl c (after ++ (marked ((.layer, " *") :: more)).map Prod.fst) := by
      intro c after hcontrol
      exact isControl_blank _ hcontrol
    have hvalue : ¬ Source.value.IsLabel := by
      rintro (hname | hkey)
      · cases hname
      · cases hkey
    exact Labelled.harmless_of_safe hvalue htail h

theorem noInjection_withPairs_iff (entries : List (String × String)) :
    NoInjection (withPairs (headlineParts eventName fields)
      (entries.map (pairParts formatValue))) ↔
      ∀ emoji, fields.lookup "emoji" = some emoji → IsEscaped emoji := by
  constructor
  · intro h emoji hemoji
    exact emoji_of_noInjection h hemoji
  · intro h
    exact noInjection_of_isFine (isFine_withPairs (isFine_headline h) entries)

/-- The texts that are rendered, with their sources, have no control of a value's exactly when the
emoji has none of its own: it alone is rendered as it is given. -/
theorem no_injection_iff (eventName : String) (fields : Fields) :
    (textOf (lineParts eventName fields) = formatLine eventName fields ∧
      eventBlocks eventName fields =
        sectionBlock eventName (textOf (sectionParts eventName fields)) ::
          if rendered (fun k => renderable k && isIdField k) fields = [] then [] else
            [.object [("type", .string "context"), ("elements", .array [.object
              [("type", .string "mrkdwn"), ("text", .string (textOf (contextParts fields)))]])]]) ∧
    (NoInjection (lineParts eventName fields) ∧ NoInjection (sectionParts eventName fields) ∧
      NoInjection (contextParts fields) ↔
        ∀ emoji, fields.lookup "emoji" = some emoji → IsEscaped emoji) := by
  refine ⟨⟨textOf_line eventName fields, eventBlocks_eq eventName fields⟩, ?_⟩
  unfold lineParts sectionParts
  rw [noInjection_withPairs_iff, noInjection_withPairs_iff]
  constructor
  · exact fun h => h.1
  · exact fun h => ⟨h, h, noInjection_context⟩

/-- An emoji that pings the room. -/
theorem emoji_pings :
    formatLine "user.signup" (AList.insert "emoji" "<!channel>" ∅) =
      "<!channel> *user.signup*" ∧
    ¬ NoInjection (lineParts "user.signup" (AList.insert "emoji" "<!channel>" ∅)) := by
  have hrendered : rendered renderable (AList.insert "emoji" "<!channel>" ∅) = [] := by
    have hdropped : renderable "emoji" = false := by decide
    simp [rendered, hdropped]
  refine ⟨?_, fun h => ?_⟩
  · unfold formatLine
    rw [hrendered]
    decide
  · have hescaped : IsEscaped "<!channel>" := emoji_of_noInjection h rfl
    exact hescaped [] '<' "!channel>".toList (by decide) (.inl rfl)

end Injection

end Tronc.Notify
