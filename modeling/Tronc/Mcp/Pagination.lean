import Mathlib.Data.PNat.Defs
import Mathlib.Data.String.Basic
import Tronc.Library.Base64
import Tronc.Library.Keyset
import Tronc.Library.Text
import Tronc.Mcp.Protocol

namespace Tronc.Mcp

open Keyset

/-- A cursor this server never issued. -/
structure InvalidCursor where
  deriving DecidableEq

def InvalidCursor.text (_ : InvalidCursor) : String := "Invalid cursor"

/-- One page of a list method's answer. -/
structure Page (T : Type) where
  items : List T
  nextCursor : Option String
  deriving DecidableEq

/-- The `cursor` of a list request's `params`. -/
def cursorParam (params : Option Json) : Except InvalidCursor (Option String) :=
  match params.bind fun p => p.get "cursor" with
  | none | some .null => .ok none
  | some (.string cursor) => .ok (some cursor)
  | some _ => .error ⟨⟩

variable (engine : Base64.UrlEngine)

def encodeCursor (key : String) : String := engine.encode (Text.utf8 key)

def decodeCursor (cursor : String) : Except InvalidCursor String :=
  match engine.decode cursor with
  | none => .error ⟨⟩
  | some bytes =>
    match Text.fromUtf8 bytes with
    | none => .error ⟨⟩
    | some key => .ok key

/-- `slice::partition_point`. -/
def partitionPoint {T : Type} (items : List T) (p : T → Bool) : Nat := (items.takeWhile p).length

variable {T : Type}

/-- What is left to serve, cut to the page size. -/
def cut (rest : List T) (pageSize : Option ℕ+) (key : T → String) : Page T :=
  match pageSize with
  | some size =>
    if size.val < rest.length then
      let page := rest.take size.val
      ⟨page, page.getLast?.map fun last => encodeCursor engine (key last)⟩
    else ⟨rest, none⟩
  | none => ⟨rest, none⟩

/-- The page of `items` after `cursor`, at most `pageSize` long. -/
def paginate (items : List T) (cursor : Option String) (pageSize : Option ℕ+)
    (key : T → String) : Except InvalidCursor (Page T) :=
  let items := items.mergeSort fun a b => key a ≤ key b
  let start := match cursor with
    | some cursor => (decodeCursor engine cursor).map fun after =>
        partitionPoint items fun item => key item ≤ after
    | none => .ok 0
  start.map fun start => cut engine (items.drop start) pageSize key

/-- `handle_tools_list`, of the definitions that the dispatcher or the registry lists. -/
def handleToolsList (id params : Option Json) (pageSize : Option ℕ+) (name : T → String)
    (toValue : T → Json) (definitions : List T) : JsonRpcResponse :=
  match (cursorParam params).bind fun cursor => paginate engine definitions cursor pageSize name with
  | .error invalid => .failure id ErrorCode.invalidParams invalid.text
  | .ok page =>
    let tools := [("tools", Json.array (page.items.map toValue))]
    let next := page.nextCursor.toList.map fun cursor => ("nextCursor", Json.string cursor)
    .success id (.object (tools ++ next))

/-- A client that follows the cursors, from `cursor` on: the pages it gets, each from the listing of
its time, until one has no next cursor. -/
def follow (pageSize : Option ℕ+) (key : T → String) :
    Option String → List (List T) → Except InvalidCursor (List (Page T))
  | _, [] => .ok []
  | cursor, items :: later => do
    let page ← paginate engine items cursor pageSize key
    match page.nextCursor with
    | none => pure [page]
    | some next =>
      let pages ← follow pageSize key (some next) later
      pure (page :: pages)

/-- The last page has no next cursor. -/
def Finished (pages : List (Page T)) : Prop := ∃ last ∈ pages.getLast?, last.nextCursor = none

def served (pages : List (Page T)) : List T := pages.flatMap Page.items

variable {engine}

theorem decodeCursor_encodeCursor (key : String) :
    decodeCursor engine (encodeCursor engine key) = .ok key := by
  unfold decodeCursor encodeCursor
  rw [engine.decode_encode]
  dsimp only
  rw [Text.fromUtf8_utf8]

variable {key : T → String} {items : List T} {pageSize : Option ℕ+}

/-- Sorted by key, what lies past the partition point is what is past the cursor. -/
theorem drop_partitionPoint {after : String} (h : (items.map key).Pairwise (· ≤ ·)) :
    items.drop (partitionPoint items fun item => key item ≤ after) =
      items.filter fun item => after < key item := by
  unfold partitionPoint
  induction items with
  | nil => rfl
  | cons item items ih =>
    rw [List.map_cons, List.pairwise_cons] at h
    obtain ⟨hhead, htail⟩ := h
    by_cases hle : key item ≤ after
    · have hkeep := List.takeWhile_cons_of_pos (p := fun item : T => decide (key item ≤ after))
        (l := items) (decide_eq_true hle)
      rw [hkeep, List.length_cons, List.drop_succ_cons,
        ih htail, List.filter_cons_of_neg]
      exact fun hlt => absurd (of_decide_eq_true hlt) (not_lt.mpr hle)
    · have hstop := List.takeWhile_cons_of_neg (p := fun item : T => decide (key item ≤ after))
        (l := items) (by simpa using hle)
      rw [hstop]
      refine (List.filter_eq_self.mpr fun x hx => decide_eq_true ?_).symm
      rcases List.mem_cons.mp hx with rfl | hx
      · exact lt_of_not_ge hle
      · exact lt_of_lt_of_le (lt_of_not_ge hle) (hhead _ (List.mem_map_of_mem hx))

/-- The listing in key order. -/
def inOrder (key : T → String) (items : List T) : List T :=
  items.mergeSort fun a b => key a ≤ key b

theorem inOrder_perm (key : T → String) (items : List T) : (inOrder key items).Perm items :=
  List.mergeSort_perm items _

theorem inOrder_sorted (h : (items.map key).Nodup) :
    ((inOrder key items).map key).Pairwise (· < ·) := by
  have hle : ((inOrder key items).map key).Pairwise (· ≤ ·) := by
    refine List.pairwise_map.mpr ?_
    refine (List.pairwise_mergeSort ?_ ?_ items).imp fun hab => of_decide_eq_true hab
    · intro a b c hab hbc
      exact decide_eq_true ((of_decide_eq_true hab).trans (of_decide_eq_true hbc))
    · intro a b
      simpa using le_total (key a) (key b)
  have hnodup : ((inOrder key items).map key).Nodup :=
    ((inOrder_perm key items).map key).nodup_iff.mpr h
  refine (hle.and hnodup).imp fun ⟨hle, hne⟩ => lt_of_le_of_ne hle hne

/-- What the listing has past the key served last, in key order. -/
def restAfter (key : T → String) (after : Option String) (items : List T) : List T :=
  (inOrder key items).filter fun item => Beyond after (key item)

theorem mem_restAfter {after : Option String} {x : T} :
    x ∈ restAfter key after items ↔ x ∈ items ∧ Beyond after (key x) := by
  unfold restAfter
  rw [List.mem_filter, (inOrder_perm key items).mem_iff, decide_eq_true_iff]

theorem restAfter_sorted (h : (items.map key).Nodup) (after : Option String) :
    ((restAfter key after items).map key).Pairwise (· < ·) :=
  (inOrder_sorted h).sublist (List.filter_sublist.map key)

/-- What `paginate` answers for a cursor it issued. -/
theorem paginate_eq (h : (items.map key).Nodup) (after : Option String) :
    paginate engine items (after.map (encodeCursor engine)) pageSize key =
      .ok (cut engine (restAfter key after items) pageSize key) := by
  have hle := (inOrder_sorted h).imp fun {a b} (hlt : a < b) => hlt.le
  unfold paginate
  cases after with
  | none =>
    have hall : restAfter key none items = inOrder key items :=
      List.filter_eq_self.mpr fun x _ => decide_eq_true fun last hlast => nomatch hlast
    rw [hall]
    rfl
  | some after =>
    have hrest : (inOrder key items).drop
        (partitionPoint (inOrder key items) fun item => key item ≤ after) =
          restAfter key (some after) items := by
      rw [drop_partitionPoint hle]
      refine List.filter_congr fun x _ => ?_
      rw [decide_eq_decide]
      simp [Beyond]
    rw [← hrest, Option.map_some]
    dsimp only
    rw [decodeCursor_encodeCursor]
    rfl

/-- A page that `paginate` cuts is one of the listing, and its cursor names its last key. -/
theorem cut_isPage (h : (items.map key).Nodup) (after : Option String) :
    ∃ next, (cut engine (restAfter key after items) pageSize key).nextCursor =
        next.map (encodeCursor engine) ∧
      IsPage key after items (cut engine (restAfter key after items) pageSize key).items next := by
  have hsorted := restAfter_sorted h after
  have hwhole : IsPage key after items (restAfter key after items) none :=
    ⟨hsorted, fun _ => mem_restAfter.mp, fun _ _ hx hb => mem_restAfter.mpr ⟨hx, hb⟩,
      fun _ hk => nomatch hk⟩
  unfold cut
  cases pageSize with
  | none => exact ⟨none, rfl, hwhole⟩
  | some size =>
    dsimp only
    split
    · rename_i hmore
      generalize hrest : restAfter key after items = rest at *
      have hpage : rest.take size.val ≠ [] := by
        intro hnil
        have hlength := congrArg List.length hnil
        rw [List.length_take, List.length_nil] at hlength
        have hpos := size.pos
        omega
      have hsplit := hsorted
      rw [← List.take_append_drop size.val rest, List.map_append, List.pairwise_append] at hsplit
      obtain ⟨hfront, -, hacross⟩ := hsplit
      refine ⟨some (key ((rest.take size.val).getLast hpage)), ?_, hfront, ?_, ?_, ?_⟩
      · rw [List.getLast?_eq_some_getLast hpage]
        rfl
      · intro x hx
        have hmem := List.mem_of_mem_take hx
        rw [← hrest] at hmem
        exact mem_restAfter.mp hmem
      · exact fun hnone => nomatch hnone
      · intro k hk
        obtain rfl := Option.some.inj hk
        refine ⟨⟨_, List.getLast_mem hpage, rfl⟩, ?_, ?_⟩
        · intro x hx
          rw [← List.dropLast_append_getLast hpage] at hx
          rcases List.mem_append.mp hx with hx | hx
          · rw [← List.dropLast_append_getLast hpage, List.map_append, List.pairwise_append]
              at hfront
            exact (hfront.2.2 _ (List.mem_map_of_mem hx) _ (.head _)).le
          · rw [List.mem_singleton.mp hx]
        · intro x hx hb hle
          have hmem : x ∈ rest := by
            rw [← hrest]
            exact mem_restAfter.mpr ⟨hx, hb⟩
          rw [← List.take_append_drop size.val rest] at hmem
          rcases List.mem_append.mp hmem with hmem | hmem
          · exact hmem
          · have hlt := hacross _ (List.mem_map_of_mem (List.getLast_mem hpage)) _
              (List.mem_map_of_mem hmem)
            exact absurd hlt (not_lt.mpr hle)
    · exact ⟨none, rfl, hwhole⟩

/-- A page of what a listing has past `after`: no longer than the page size, and with a next cursor
where it leaves something out, which only a full page does. -/
structure Fits (pageSize : Option ℕ+) (key : T → String) (after : Option String) (items : List T)
    (page : Page T) : Prop where
  bounded : ∀ size, pageSize = some size → page.items.length ≤ size.val
  more : page.nextCursor.isSome ↔ ∃ x ∈ items, Beyond after (key x) ∧ x ∉ page.items
  full : page.nextCursor.isSome → ∃ size, pageSize = some size ∧ page.items.length = size.val

theorem cut_fits (h : (items.map key).Nodup) (after : Option String) :
    Fits pageSize key after items (cut engine (restAfter key after items) pageSize key) := by
  have hwhole (hsize : ∀ size, pageSize = some size → (restAfter key after items).length ≤ size.val) :
      Fits pageSize key after items ⟨restAfter key after items, none⟩ := by
    refine ⟨hsize, iff_of_false (fun hnext => nomatch hnext) ?_, fun hnext => nomatch hnext⟩
    rintro ⟨x, hx, hbeyond, hleft⟩
    exact hleft (mem_restAfter.mpr ⟨hx, hbeyond⟩)
  unfold cut
  cases pageSize with
  | none => exact hwhole fun size hsize => nomatch hsize
  | some size =>
    dsimp only
    split
    · rename_i hmore
      have hnodup : (restAfter key after items).Nodup :=
        ((restAfter_sorted h after).imp fun hlt => ne_of_lt hlt).of_map key
          fun _ _ hne heq => hne (congrArg key heq)
      generalize hrest : restAfter key after items = rest at *
      have hlength : (rest.take size.val).length = size.val := by
        rw [List.length_take]
        omega
      have hnext : (rest.take size.val).getLast?.isSome := by
        rw [List.getLast?_isSome]
        intro hnil
        rw [hnil, List.length_nil] at hlength
        exact size.ne_zero hlength.symm
      refine ⟨fun other hother => ?_, iff_of_true (by simpa using hnext) ?_,
        fun _ => ⟨size, rfl, hlength⟩⟩
      · rw [← Option.some.inj hother]
        exact hlength.le
      · have hmem : rest[size.val] ∈ rest.drop size.val :=
          List.mem_drop_iff_getElem.mpr ⟨0, by omega, by simp⟩
        have hin : rest[size.val] ∈ restAfter key after items := by
          rw [hrest]
          exact List.mem_of_mem_drop hmem
        obtain ⟨hx, hbeyond⟩ := mem_restAfter.mp hin
        refine ⟨rest[size.val], hx, hbeyond, fun htake => ?_⟩
        rw [← List.take_append_drop size.val rest] at hnodup
        exact List.disjoint_of_nodup_append hnodup htake hmem
    · rename_i hall
      exact hwhole fun other hother => by
        rw [← Option.some.inj hother]
        omega

/-- Following the cursors is a walk through the listings consulted, up to a last page. -/
theorem follow_walk (listings : List (List T))
    (h : ∀ items ∈ listings, (items.map key).Nodup) (after : Option String) :
    ∃ pages finished, follow engine pageSize key (after.map (encodeCursor engine)) listings =
        .ok pages ∧
      Walk key after (listings.take pages.length) (pages.map Page.items) finished ∧
      (finished = true ↔ Finished pages) ∧
      (finished = false → pages.length = listings.length) := by
  induction listings generalizing after with
  | nil => exact ⟨[], false, rfl, .stop after, by simp [Finished], fun _ => rfl⟩
  | cons items later ih =>
    obtain ⟨hitems, hlater⟩ := List.forall_mem_cons.mp h
    obtain ⟨next, hnext, hpage⟩ := @cut_isPage engine T key items pageSize hitems after
    generalize hcut : cut engine (restAfter key after items) pageSize key = page at hnext hpage
    have hpaginate := @paginate_eq engine T key items pageSize hitems after
    rw [hcut] at hpaginate
    cases next with
    | none =>
      rw [Option.map_none] at hnext
      refine ⟨[page], true, ?_, .last hpage, ?_, fun hf => nomatch hf⟩
      · rw [follow, hpaginate]
        simp only [bind, Except.bind, hnext]
        rfl
      · simp [Finished, hnext]
    | some last =>
      rw [Option.map_some] at hnext
      obtain ⟨pages, finished, hfollow, hwalk, hfinished, hall⟩ := ih hlater (some last)
      refine ⟨page :: pages, finished, ?_, .more hpage hwalk, ?_, ?_⟩
      · rw [Option.map_some] at hfollow
        rw [follow, hpaginate]
        simp only [bind, Except.bind, hnext, hfollow]
        rfl
      · rw [hfinished]
        cases pages with
        | nil => simp [Finished, hnext]
        | cons second rest => simp [Finished]
      · intro hf
        rw [List.length_cons, List.length_cons, hall hf]

/-- A walk through one listing ends once it was consulted as often as it has items, and once
more. -/
theorem follow_finishes (n : Nat) (h : (items.map key).Nodup) (after : Option String)
    (hn : left key after items < n) : ∃ pages, follow engine pageSize key
      (after.map (encodeCursor engine)) (.replicate n items) = .ok pages ∧ Finished pages := by
  induction n generalizing after with
  | zero => omega
  | succ n ih =>
    obtain ⟨next, hnext, hpage⟩ := @cut_isPage engine T key items pageSize h after
    generalize hcut : cut engine (restAfter key after items) pageSize key = page at hnext hpage
    have hpaginate := @paginate_eq engine T key items pageSize h after
    rw [hcut] at hpaginate
    rw [List.replicate_succ, follow, hpaginate]
    simp only [bind, Except.bind]
    cases next with
    | none =>
      rw [Option.map_none] at hnext
      rw [hnext]
      exact ⟨[page], rfl, by simp [Finished, hnext]⟩
    | some last =>
      rw [Option.map_some] at hnext
      have hless := hpage.left_lt
      obtain ⟨pages, hfollow, final, hfinal, hdone⟩ := ih (some last) (by omega)
      rw [Option.map_some] at hfollow
      rw [hnext]
      simp only [hfollow]
      refine ⟨page :: pages, rfl, final, ?_, hdone⟩
      cases pages with
      | nil => cases hfinal
      | cons second rest => simpa using hfinal

/-- A page reaches the client that echoes its cursor as `params.cursor`, with the cursor of the next
one. -/
theorem handleToolsList_page {id : Option Json} {cursor : Option String} {toValue : T → Json}
    {page : Page T} (h : paginate engine items cursor pageSize key = .ok page) :
    handleToolsList engine id (cursor.map fun c => .object [("cursor", .string c)]) pageSize key
        toValue items =
      .success id (.object ([("tools", .array (page.items.map toValue))] ++
        page.nextCursor.toList.map fun next => ("nextCursor", .string next))) := by
  have hparam : cursorParam (cursor.map fun c => .object [("cursor", .string c)]) = .ok cursor := by
    cases cursor with
    | none => rfl
    | some c => rfl
  unfold handleToolsList
  rw [hparam]
  simp only [Except.bind, h]

/-- Whatever the page size and however the listings change, the cursors serve keys in strictly
increasing order, and a walk to the last page serves once what every listing had; a listing that
does not change is served whole and in order; a page fits its size, and has a cursor where it leaves
something out; and a cursor names its key. -/
theorem pages_cover [DecidableEq T] (engine : Base64.UrlEngine) (key : T → String)
    (pageSize : Option ℕ+) (listings : List (List T))
    (h : ∀ items ∈ listings, (items.map key).Nodup) :
    (∃ pages, follow engine pageSize key none listings = .ok pages ∧
      ((served pages).map key).Pairwise (· < ·) ∧
      (pages.length < listings.length → Finished pages) ∧
      (Finished pages → ∀ x, (∀ items ∈ listings.take pages.length, x ∈ items) →
        (served pages).count x = 1)) ∧
    (∀ items ∈ listings, ∃ pages, follow engine pageSize key none
        (.replicate (items.length + 1) items) = .ok pages ∧ Finished pages ∧
      ((served pages).map key).Pairwise (· < ·) ∧ (served pages).Perm items) ∧
    (∀ items ∈ listings, ∀ after, ∃ page,
      paginate engine items (after.map (encodeCursor engine)) pageSize key = .ok page ∧
        Fits pageSize key after items page) ∧
    ∀ k, decodeCursor engine (encodeCursor engine k) = .ok k := by
  have hserved (pages : List (Page T)) : (pages.map Page.items).flatten = served pages :=
    List.flatMap_def.symm
  have hnodup {xs : List T} (hs : (xs.map key).Pairwise (· < ·)) : xs.Nodup :=
    (hs.imp fun hlt => ne_of_lt hlt).of_map key fun _ _ hne heq => hne (congrArg key heq)
  refine ⟨?_, ?_, ?_, decodeCursor_encodeCursor⟩
  · obtain ⟨pages, finished, hfollow, hwalk, hfinished, hall⟩ :=
      @follow_walk engine T key pageSize listings h none
    have hsorted := hwalk.sorted
    rw [hserved] at hsorted
    refine ⟨pages, hfollow, hsorted, ?_, ?_⟩
    · intro hshort
      refine hfinished.mp ?_
      cases finished with
      | true => rfl
      | false => exact absurd (hall rfl) (by omega)
    · intro hdone x hx
      have hmem := hwalk.covers (hfinished.mpr hdone) hx fun last hlast => nomatch hlast
      rw [hserved] at hmem
      exact List.count_eq_one_of_mem (hnodup hsorted) hmem
  · intro items hitems
    have hkeys := h items hitems
    have hsame : ∀ l ∈ List.replicate (items.length + 1) items, (l.map key).Nodup := by
      intro l hl
      rw [List.eq_of_mem_replicate hl]
      exact hkeys
    obtain ⟨pages, hfollow, hdone⟩ := @follow_finishes engine T key items pageSize
      (items.length + 1) hkeys none (Nat.lt_succ_of_le (List.countP_le_length))
    obtain ⟨pages', finished, hfollow', hwalk, hfinished, -⟩ :=
      @follow_walk engine T key pageSize _ hsame none
    obtain rfl := Except.ok.inj (hfollow.symm.trans hfollow')
    have hsorted := hwalk.sorted
    have hsound := hwalk.sound
    rw [hserved] at hsorted hsound
    refine ⟨pages, hfollow, hdone, hsorted, ?_⟩
    refine (List.perm_ext_iff_of_nodup (hnodup hsorted) (List.Nodup.of_map key hkeys)).mpr ?_
    intro x
    constructor
    · intro hx
      obtain ⟨l, hl, hmem⟩ := hsound x hx
      rw [List.eq_of_mem_replicate (List.mem_of_mem_take hl)] at hmem
      exact hmem
    · intro hx
      have hmem := hwalk.covers (x := x) (hfinished.mpr hdone) (fun l hl => ?_)
        fun last hlast => nomatch hlast
      · rw [hserved] at hmem
        exact hmem
      · rw [List.eq_of_mem_replicate (List.mem_of_mem_take hl)]
        exact hx
  · intro items hitems after
    exact ⟨_, paginate_eq (h items hitems) after, cut_fits (h items hitems) after⟩

theorem pages_cover_changing : ∃ pages,
    follow Base64.urlSafe (some 2) id none [["c", "a", "b", "d"], ["e", "d", "c"]] = .ok pages ∧
      ((served pages).map id).Pairwise (· < ·) := by
  have hcover := pages_cover Base64.urlSafe id (some 2) [["c", "a", "b", "d"], ["e", "d", "c"]]
    (by decide)
  obtain ⟨⟨pages, hfollow, hsorted, -⟩, -⟩ := hcover
  exact ⟨pages, hfollow, hsorted⟩

end Tronc.Mcp
