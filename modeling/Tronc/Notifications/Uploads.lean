import Tronc.Notifications.SlackClient

namespace Tronc.Notifications

open Mcp (Crates)
open Server (StatusCode)
open Transition

/-- What a call of one request asks. -/
def SlackCall.ask : SlackCall → Option SlackAsk
  | .postMessage channel blocks => some (.post channel blocks)
  | .updateMessage channel messageTs blocks => some (.update channel messageTs blocks)
  | .openView triggerId view => some (.openView triggerId view)
  | .uploadFile _ _ _ => none

/-- What Slack is to keep of a file. -/
def SlackFile.upload (file : SlackFile) : SlackUpload :=
  ⟨file.filename, toString file.bytes.length, file.altText⟩

def SlackFile.shownAs (file : SlackFile) : String := file.title.getD file.filename

/-- The first request of an upload. -/
def reserveSent (i : Nat) (client : SlackClient) (file : SlackFile) (landed : Bool) : SlackSent :=
  ⟨i, .calling, client.form SLACK_GET_UPLOAD_URL_URL (reserveUploadForm file), landed⟩

def uploadSent (i : Nat) (file : SlackFile) (r : ReservedUpload) (landed : Bool) : SlackSent :=
  ⟨i, .posting r, ⟨r.uploadUrl, none, .bytes file.bytes⟩, landed⟩

section Sharing

variable (crates : Crates) (r : ReservedUpload) (channel : String) (file : SlackFile)
  (comment : Option String)

def shareForm : List (String × String) :=
  completeUploadForm crates r.fileId file.shownAs channel comment

def shareSent (i : Nat) (client : SlackClient) (landed : Bool) : SlackSent :=
  ⟨i, .completing r, client.form SLACK_COMPLETE_UPLOAD_URL (shareForm crates r channel file comment),
    landed⟩

end Sharing

/-- What a call has sent, what Slack holds of it and what it did, by the last request it sent and by
whether that has landed. -/
inductive Progress (crates : Crates) (i : Nat) (client : SlackClient) : SlackCall → SlackStage →
    List SlackSent → List SlackSlot → List SlackEffect → Prop where
  | single (call : SlackCall) (ask : SlackAsk) (post : SlackPost) (landed : Bool) :
      call.ask = some ask → client.request crates call .calling = some post →
      Progress crates i client call .calling [⟨i, .calling, post, landed⟩] []
        (if landed then [.did ask] else [])
  | reserving (channel : String) (file : SlackFile) (comment : Option String) :
      Progress crates i client (.uploadFile channel file comment) .calling
        [reserveSent i client file false] [] []
  | reserved (channel : String) (file : SlackFile) (comment : Option String) (r : ReservedUpload) :
      Progress crates i client (.uploadFile channel file comment) .calling
        [reserveSent i client file true] [⟨i, file.upload, r, none⟩] []
  | posting (channel : String) (file : SlackFile) (comment : Option String) (r : ReservedUpload)
      (landed : Bool) : Progress crates i client (.uploadFile channel file comment) (.posting r)
        [reserveSent i client file true, uploadSent i file r landed]
        [⟨i, file.upload, r, if landed then some file.bytes else none⟩] []
  | completing (channel : String) (file : SlackFile) (comment : Option String) (r : ReservedUpload)
      (landed : Bool) : Progress crates i client (.uploadFile channel file comment) (.completing r)
        [reserveSent i client file true, uploadSent i file r true,
          shareSent crates r channel file comment i client landed]
        [⟨i, file.upload, r, some file.bytes⟩]
        (if landed then [.shared file.upload file.shownAs channel comment file.bytes] else [])

/-- A call is where its last request leaves it, or at an end: with `ok` only when it did what it is
for. -/
structure Tracked (crates : Crates) (s : SlackWorld) (i : Nat) (entry : SlackEntry) : Prop where
  progress : ∃ last, Progress crates i entry.client entry.call last (s.sentOf i) (s.slotsOf i)
      (s.effectsOf i) ∧
    (entry.stage = last ∨ ∃ result, entry.stage = .ended result ∧
      (result = .ok → s.effectsOf i ≠ []))

structure Kept (crates : Crates) (s : SlackWorld) : Prop where
  tracked : ∀ i entry, s.entries[i]? = some entry → Tracked crates s i entry
  quiet : ∀ i, s.entries.length ≤ i → s.sentOf i = [] ∧ s.slotsOf i = [] ∧ s.effectsOf i = []
  urls : (s.slots.map fun slot => slot.reserved.uploadUrl).Nodup
  ids : (s.slots.map fun slot => slot.reserved.fileId).Nodup
  foreign : ∀ slot ∈ s.slots, slot.reserved.uploadUrl ∉ SLACK_API_URLS

/-- One call is concerned alone. -/
structure Touches (i : Nat) (s t : SlackWorld) : Prop where
  entries : ∀ j, j ≠ i → t.entries[j]? = s.entries[j]?
  sent : ∀ j, j ≠ i → t.sentOf j = s.sentOf j
  slots : ∀ j, j ≠ i → t.slotsOf j = s.slotsOf j
  effects : ∀ j, j ≠ i → t.effectsOf j = s.effectsOf j

section Frames

variable {crates : Crates} {display : StatusCode → String} {s t : SlackWorld} {i j : Nat}
  {entry : SlackEntry}

theorem Kept.touched (h : Kept crates s) (ht : Touches i s t) (hi : t.entries[i]? = some entry)
    (htracked : Tracked crates t i entry)
    (urls : (t.slots.map fun slot => slot.reserved.uploadUrl).Nodup)
    (ids : (t.slots.map fun slot => slot.reserved.fileId).Nodup)
    (foreign : ∀ slot ∈ t.slots, slot.reserved.uploadUrl ∉ SLACK_API_URLS) : Kept crates t := by
  refine ⟨?_, ?_, urls, ids, foreign⟩
  · intro j entry' hj
    by_cases hji : j = i
    · subst hji
      obtain rfl := Option.some.inj (hi.symm.trans hj)
      exact htracked
    · rw [ht.entries j hji] at hj
      obtain ⟨last, hprogress, hstage⟩ := (h.tracked j entry' hj).progress
      rw [← ht.sent j hji, ← ht.slots j hji, ← ht.effects j hji] at hprogress
      rw [← ht.effects j hji] at hstage
      exact ⟨last, hprogress, hstage⟩
  · intro j hj
    have hnone : t.entries[j]? = none := List.getElem?_eq_none hj
    have hji : j ≠ i := by
      intro heq
      rw [heq, hi] at hnone
      cases hnone
    rw [ht.sent j hji, ht.slots j hji, ht.effects j hji]
    rw [ht.entries j hji] at hnone
    exact h.quiet j (List.getElem?_eq_none_iff.mp hnone)

theorem SlackWorld.sentOf_send (entries : List SlackEntry) (entry : SlackEntry) :
    (s.send crates entries i entry).sentOf j = s.sentOf j ++
      if i = j then ((entry.client.request crates entry.call entry.stage).map fun post =>
        (⟨i, entry.stage, post, false⟩ : SlackSent)).toList else [] := by
  unfold send sentOf
  rw [List.filter_append]
  cases entry.client.request crates entry.call entry.stage with
  | none => simp
  | some post => by_cases h : i = j <;> simp [h]

theorem SlackWorld.sentOf_arrived {stage : SlackStage} : (s.arrived i stage).sentOf j =
    (s.sentOf j).map fun x =>
      if x.owner = i ∧ x.stage = stage then { x with landed := true } else x := by
  unfold arrived sentOf
  rw [List.filter_map]
  congr 1
  refine List.filter_congr ?_
  intro x _
  simp only [Function.comp_apply]
  split <;> rfl

theorem SlackWorld.sentOf_arrived_of_ne {stage : SlackStage} (h : j ≠ i) :
    (s.arrived i stage).sentOf j = s.sentOf j := by
  rw [sentOf_arrived]
  refine (List.map_congr_left ?_).trans (List.map_id _)
  intro x hx
  have howner : x.owner = j := of_decide_eq_true (List.mem_filter.mp hx).2
  rw [if_neg fun hboth => h (howner.symm.trans hboth.1)]
  rfl

end Frames

section Heard

variable {display : StatusCode → String} {answer : SlackAnswer} {call : SlackCall}

theorem readSlackResponse_error {failure : SlackResult}
    (h : readSlackResponse display answer = .error failure) : failure ≠ .ok := by
  rintro rfl
  unfold readSlackResponse at h
  split at h
  · cases h
  · split at h
    · cases h
    · split at h
      · cases h
      · unfold okBody at h
        split at h <;> cases h

theorem reservedUpload_error {body : Json} {failure : SlackResult}
    (h : reservedUpload body = .error failure) : failure ≠ .ok := by
  rintro rfl
  unfold reservedUpload at h
  split at h <;> cases h

theorem readUploadResponse_error {failure : SlackResult}
    (h : readUploadResponse display answer = .error failure) : failure ≠ .ok := by
  rintro rfl
  unfold readUploadResponse at h
  split at h
  · cases h
  · split at h <;> cases h

/-- What an answer may come to. -/
inductive Next : SlackCall → SlackStage → SlackStage → Prop where
  | failed (call : SlackCall) (stage : SlackStage) (failure : SlackResult) : failure ≠ .ok →
      Next call stage (.ended failure)
  | done (call : SlackCall) (ask : SlackAsk) : call.ask = some ask → Next call .calling (.ended .ok)
  | reserved (channel : String) (file : SlackFile) (comment : Option String) (r : ReservedUpload) :
      Next (.uploadFile channel file comment) .calling (.posting r)
  | uploaded (call : SlackCall) (r : ReservedUpload) : Next call (.posting r) (.completing r)
  | completed (call : SlackCall) (r : ReservedUpload) : Next call (.completing r) (.ended .ok)

theorem next_single {call : SlackCall} {ask : SlackAsk} (h : call.ask = some ask) :
    Next call .calling (.ended (SlackClient.resultOf (readSlackResponse display answer))) := by
  cases hread : readSlackResponse display answer with
  | ok body => exact .done call ask h
  | error failure => exact .failed call .calling failure (readSlackResponse_error hread)

theorem heard_next {stage : SlackStage} (h : ∀ result, stage ≠ .ended result) :
    Next call stage (SlackClient.heard display call answer stage) := by
  cases stage with
  | calling =>
    cases call with
    | uploadFile channel file comment =>
      unfold SlackClient.heard
      dsimp only
      cases hread : readSlackResponse display answer with
      | error failure => exact .failed _ _ failure (readSlackResponse_error hread)
      | ok body =>
        dsimp only [Except.bind]
        cases hreserved : reservedUpload body with
        | ok r => exact .reserved channel file comment r
        | error failure => exact .failed _ _ failure (reservedUpload_error hreserved)
    | postMessage channel blocks => exact next_single rfl
    | updateMessage channel messageTs blocks => exact next_single rfl
    | openView triggerId view => exact next_single rfl
  | posting r =>
    unfold SlackClient.heard
    dsimp only
    cases hread : readUploadResponse display answer with
    | ok _ => exact .uploaded call r
    | error failure => exact .failed _ _ failure (readUploadResponse_error hread)
  | completing r =>
    unfold SlackClient.heard
    dsimp only
    cases hread : readSlackResponse display answer with
    | ok body => exact .completed call r
    | error failure => exact .failed _ _ failure (readSlackResponse_error hread)
  | ended result => exact absurd rfl (h result)

end Heard

section Steps

variable {crates : Crates} {display : StatusCode → String} {reads : SlackPost → Option SlackAsk}
  {s t : SlackWorld} {i : Nat}

theorem Kept.start : Kept crates ⟨[], [], [], []⟩ := by
  refine ⟨?_, fun i _ => ⟨rfl, rfl, rfl⟩, List.nodup_nil, List.nodup_nil, nofun⟩
  intro i entry h
  simp at h

/-- A request that was sent first, and has not landed. -/
theorem progress_first (client : SlackClient) (call : SlackCall) : Progress crates i client call .calling
    ((client.request crates call .calling).map fun post =>
      (⟨i, .calling, post, false⟩ : SlackSent)).toList [] [] := by
  cases call with
  | uploadFile channel file comment => exact .reserving channel file comment
  | postMessage channel blocks => exact .single _ _ _ false rfl rfl
  | updateMessage channel messageTs blocks => exact .single _ _ _ false rfl rfl
  | openView triggerId view => exact .single _ _ _ false rfl rfl

variable (crates) in
/-- What a call sends next is its own, and all else stays. -/
theorem touches_send {entries : List SlackEntry} (entry : SlackEntry)
    (h : ∀ j, j ≠ i → entries[j]? = s.entries[j]?) : Touches i s (s.send crates entries i entry) := by
  refine ⟨h, ?_, fun _ _ => rfl, fun _ _ => rfl⟩
  intro j hj
  rw [SlackWorld.sentOf_send, if_neg (Ne.symm hj), List.append_nil]

theorem Kept.calls (h : Kept crates s) {client : SlackClient} {call : SlackCall}
    (hstep : s.step crates display reads (.call client call) = some t) : Kept crates t := by
  obtain rfl := Option.some.inj hstep
  obtain ⟨hsent, hslots, heffects⟩ := h.quiet _ (Nat.le_refl s.entries.length)
  have others (j : Nat) (hj : j ≠ s.entries.length) :
      (s.entries ++ [⟨client, call, .calling⟩])[j]? = s.entries[j]? := by
    rcases Nat.lt_or_gt_of_ne hj with hlt | hgt
    · exact List.getElem?_append_left hlt
    · rw [List.getElem?_eq_none (Nat.le_of_lt hgt), List.getElem?_eq_none]
      rw [List.length_append, List.length_singleton]
      exact hgt
  refine h.touched (touches_send crates ⟨client, call, .calling⟩ others) List.getElem?_concat_length
    ⟨.calling, ?_, .inl rfl⟩ h.urls h.ids h.foreign
  show Progress crates _ client call .calling _ (s.slotsOf s.entries.length)
    (s.effectsOf s.entries.length)
  rw [SlackWorld.sentOf_send, if_pos rfl, hsent, hslots, heffects]
  exact progress_first client call

theorem hear_eq_some {answer : SlackAnswer}
    (h : s.step crates display reads (.hear i answer) = some t) :
    ∃ entry, s.entries[i]? = some entry ∧ (∀ result, entry.stage ≠ .ended result) ∧
      let entry := { entry with stage := SlackClient.heard display entry.call answer entry.stage }
      t = s.send crates (s.entries.set i entry) i entry := by
  simp only [SlackWorld.step] at h
  split at h
  · rename_i entry hi
    split at h
    · cases h
    · rename_i hstage
      exact ⟨entry, hi, hstage, (Option.some.inj h).symm⟩
  · cases h

/-- What landed, of what a call sent at one of its stages. -/
theorem landed_of_any {stage : SlackStage}
    (h : (s.sent.any fun x => x.owner = i && x.stage = stage && x.landed) = true) :
    ∃ x ∈ s.sentOf i, x.stage = stage ∧ x.landed = true := by
  obtain ⟨x, hx, hall⟩ := List.any_eq_true.mp h
  simp only [Bool.and_eq_true, decide_eq_true_eq] at hall
  exact ⟨x, List.mem_filter.mpr ⟨hx, decide_eq_true hall.1.1⟩, hall.1.2, hall.2⟩

/-- What Slack says is so. -/
structure Confirmed (s : SlackWorld) (i : Nat) (stage next : SlackStage) : Prop where
  reserved : ∀ r, next = .posting r → ∃ slot ∈ s.slotsOf i, slot.reserved = r
  landed : (∃ r, next = .completing r) ∨ next = .ended .ok →
    ∃ x ∈ s.sentOf i, x.stage = stage ∧ x.landed = true

theorem confirmed_of_honest {answer : SlackAnswer} {entry : SlackEntry}
    (hi : s.entries[i]? = some entry) (h : s.honest display (.hear i answer) = true) :
    Confirmed s i entry.stage (SlackClient.heard display entry.call answer entry.stage) := by
  simp only [SlackWorld.honest, hi] at h
  generalize SlackClient.heard display entry.call answer entry.stage = next at h ⊢
  refine ⟨?_, ?_⟩
  · rintro r rfl
    obtain ⟨slot, hslot, hboth⟩ := List.any_eq_true.mp h
    simp only [Bool.and_eq_true, decide_eq_true_eq] at hboth
    exact ⟨slot, List.mem_filter.mpr ⟨hslot, decide_eq_true hboth.1⟩, hboth.2⟩
  · rintro (⟨r, rfl⟩ | rfl)
    · exact landed_of_any h
    · exact landed_of_any h

/-- One more stage of a call, on an answer. -/
theorem Progress.hears {client : SlackClient} {call : SlackCall} {last next : SlackStage}
    (hprogress : Progress crates i client call last (s.sentOf i) (s.slotsOf i) (s.effectsOf i))
    (hnext : Next call last next) (confirmed : Confirmed s i last next) :
    ∃ last', Progress crates i client call last'
        (s.sentOf i ++ ((client.request crates call next).map fun post =>
          (⟨i, next, post, false⟩ : SlackSent)).toList) (s.slotsOf i) (s.effectsOf i) ∧
      (next = last' ∨ ∃ result, next = .ended result ∧ (result = .ok → s.effectsOf i ≠ [])) := by
  obtain ⟨hreserved, hlanded⟩ := confirmed
  generalize s.sentOf i = sent at hprogress hlanded ⊢
  generalize s.slotsOf i = slots at hprogress hreserved ⊢
  generalize s.effectsOf i = effects at hprogress ⊢
  have silent (result : SlackResult) : client.request crates call (.ended result) = none := by
    cases call <;> rfl
  cases hnext with
  | failed _ _ failure hfailure =>
    refine ⟨last, ?_, .inr ⟨failure, rfl, fun hok => absurd hok hfailure⟩⟩
    rw [silent, Option.map_none, Option.toList_none, List.append_nil]
    exact hprogress
  | done _ _ hsingle =>
    obtain ⟨x, hx, _, hxlanded⟩ := hlanded (.inr rfl)
    rw [silent, Option.map_none, Option.toList_none, List.append_nil]
    refine ⟨.calling, hprogress, .inr ⟨.ok, rfl, fun _ => ?_⟩⟩
    cases hprogress with
    | single _ _ post landed _ _ =>
      obtain rfl := List.mem_singleton.mp hx
      obtain rfl : landed = true := hxlanded
      exact List.cons_ne_nil _ _
    | reserving => cases hsingle
    | reserved => cases hsingle
  | reserved channel file comment r =>
    obtain ⟨slot, hslot, rfl⟩ := hreserved r rfl
    cases hprogress with
    | single _ _ _ _ hsingle _ => cases hsingle
    | reserving => cases hslot
    | reserved _ _ _ r =>
      obtain rfl := List.mem_singleton.mp hslot
      exact ⟨.posting r, .posting channel file comment r false, .inl rfl⟩
  | uploaded _ r =>
    obtain ⟨x, hx, hxstage, hxlanded⟩ := hlanded (.inl ⟨r, rfl⟩)
    cases hprogress with
    | posting channel file comment _ landed =>
      rcases List.mem_pair.mp hx with rfl | rfl
      · cases hxstage
      · obtain rfl : landed = true := hxlanded
        exact ⟨.completing r, .completing channel file comment r false, .inl rfl⟩
  | completed _ r =>
    obtain ⟨x, hx, hxstage, hxlanded⟩ := hlanded (.inr rfl)
    rw [silent, Option.map_none, Option.toList_none, List.append_nil]
    refine ⟨.completing r, hprogress, .inr ⟨.ok, rfl, fun _ => ?_⟩⟩
    cases hprogress with
    | completing channel file comment _ landed =>
      simp only [List.mem_cons, List.not_mem_nil, or_false] at hx
      rcases hx with rfl | rfl | rfl
      · cases hxstage
      · cases hxstage
      · obtain rfl : landed = true := hxlanded
        exact List.cons_ne_nil _ _

theorem Kept.hears (h : Kept crates s) {answer : SlackAnswer}
    (hstep : s.step crates display reads (.hear i answer) = some t)
    (honest : s.honest display (.hear i answer) = true) : Kept crates t := by
  obtain ⟨entry, hi, hopen, rfl⟩ := hear_eq_some hstep
  obtain ⟨last, hprogress, hlast⟩ := (h.tracked i entry hi).progress
  have hlast : entry.stage = last := by
    rcases hlast with hlast | ⟨result, hended, _⟩
    · exact hlast
    · exact absurd hended (hopen result)
  have hnext : Next entry.call entry.stage
      (SlackClient.heard display entry.call answer entry.stage) := heard_next hopen
  have confirmed := confirmed_of_honest hi honest
  generalize SlackClient.heard display entry.call answer entry.stage = next at hnext confirmed ⊢
  rw [hlast] at hnext confirmed
  have others (j : Nat) (hj : j ≠ i) :
      (s.entries.set i { entry with stage := next })[j]? = s.entries[j]? :=
    List.getElem?_set_ne (Ne.symm hj)
  have updated : (s.entries.set i { entry with stage := next })[i]? =
      some { entry with stage := next } :=
    List.getElem?_set_self (List.getElem?_eq_some_iff.mp hi).1
  refine h.touched (touches_send crates { entry with stage := next } others) updated ⟨?_⟩ h.urls h.ids
    h.foreign
  rw [SlackWorld.sentOf_send, if_pos rfl]
  exact hprogress.hears hnext confirmed

theorem land_eq_some {stage : SlackStage} {fresh : ReservedUpload}
    (h : s.step crates display reads (.land i stage fresh) = some t) :
    ∃ x ∈ s.sentOf i, x.stage = stage ∧ x.landed = false ∧ ∃ ask, reads x.post = some ask ∧
      (s.arrived i stage).take i fresh ask = some t := by
  simp only [SlackWorld.step] at h
  split at h
  · rename_i owner stage' post hfind
    have found := List.find?_some hfind
    obtain ⟨rfl, rfl⟩ : owner = i ∧ stage' = stage := of_decide_eq_true found
    refine ⟨_, List.mem_filter.mpr ⟨List.mem_of_find?_eq_some hfind, ?_⟩, rfl, rfl,
      Option.bind_eq_some_iff.mp h⟩
    exact decide_eq_true rfl
  · cases h

/-- Slack's own records of one call, a request of which has landed. -/
theorem touches_arrived {stage : SlackStage} {slots : List SlackSlot} {effects : List (Nat × SlackEffect)}
    (hslots : ∀ j, j ≠ i → slots.filter (fun slot => slot.owner = j) = s.slotsOf j)
    (heffects : ∀ j, j ≠ i → (effects.filter fun e => e.1 = j).map Prod.snd = s.effectsOf j) :
    Touches i s { s.arrived i stage with slots, effects } := by
  refine ⟨fun _ _ => rfl, ?_, hslots, heffects⟩
  intro j hj
  exact SlackWorld.sentOf_arrived_of_ne hj

theorem effectsOf_append (i j : Nat) (effect : SlackEffect) :
    ((s.effects ++ [(i, effect)]).filter fun e => e.1 = j).map Prod.snd =
      s.effectsOf j ++ if i = j then [effect] else [] := by
  rw [List.filter_append, List.map_append]
  by_cases h : i = j <;> simp [h, SlackWorld.effectsOf]

/-- A slot of a URL is the only one. -/
theorem slot_unique {α : Type} {f : SlackSlot → α} (h : (s.slots.map f).Nodup) {slot other : SlackSlot}
    (hslot : slot ∈ s.slotsOf i) (hother : other ∈ s.slots) (heq : f other = f slot) : other = slot :=
  List.inj_on_of_nodup_map h hother (List.mem_filter.mp hslot).1 heq

/-- What a request that lands does of a call's, and that it does no more. -/
structure Lands (crates : Crates) (s t : SlackWorld) (i : Nat) (client : SlackClient) (call : SlackCall)
    (last : SlackStage) : Prop where
  touches : Touches i s t
  entries : t.entries = s.entries
  progress : Progress crates i client call last (t.sentOf i) (t.slotsOf i) (t.effectsOf i)
  effects : s.effectsOf i ≠ [] → t.effectsOf i ≠ []
  urls : (t.slots.map fun slot => slot.reserved.uploadUrl).Nodup
  ids : (t.slots.map fun slot => slot.reserved.fileId).Nodup
  foreign : ∀ slot ∈ t.slots, slot.reserved.uploadUrl ∉ SLACK_API_URLS

theorem nodup_concat {f : SlackSlot → String} {slots : List SlackSlot} {slot : SlackSlot}
    (h : (slots.map f).Nodup) (hnew : ∀ other ∈ slots, f other ≠ f slot) :
    ((slots ++ [slot]).map f).Nodup := by
  rw [List.map_append, List.map_singleton, List.nodup_append]
  refine ⟨h, List.nodup_singleton _, ?_⟩
  intro url hurl other hother
  obtain ⟨slot', hslot, rfl⟩ := List.mem_map.mp hurl
  rw [List.mem_singleton.mp hother]
  exact hnew slot' hslot

theorem Kept.foreign_of (h : Kept crates s) {slot : SlackSlot} (hslots : s.slotsOf i = [slot]) :
    slot.reserved.uploadUrl ∉ SLACK_API_URLS := by
  have own : slot ∈ s.slotsOf i := by
    rw [hslots]
    exact List.mem_singleton_self slot
  exact h.foreign slot (List.mem_filter.mp own).1

section Asking

variable (client : SlackClient)

/-- Slack reads the request of a call as what the call asks. -/
theorem SlackApi.reads_single (api : SlackApi crates reads) {call : SlackCall} {ask : SlackAsk} {post : SlackPost}
    (hask : call.ask = some ask) (hrequest : client.request crates call .calling = some post) :
    reads post = some ask := by
  cases call with
  | uploadFile channel file comment => cases hask
  | postMessage channel blocks =>
    obtain rfl := Option.some.inj hask
    obtain rfl := Option.some.inj hrequest
    exact api.post _ _ channel blocks rfl rfl
  | updateMessage channel messageTs blocks =>
    obtain rfl := Option.some.inj hask
    obtain rfl := Option.some.inj hrequest
    exact api.update _ _ channel messageTs blocks rfl rfl rfl
  | openView triggerId view =>
    obtain rfl := Option.some.inj hask
    obtain rfl := Option.some.inj hrequest
    exact api.openView _ _ triggerId view rfl rfl

theorem SlackApi.reads_reserve (api : SlackApi crates reads) (file : SlackFile) :
    reads (client.form SLACK_GET_UPLOAD_URL_URL (reserveUploadForm file)) =
      some (.reserve file.upload) := by
  have read := api.reserve client.botToken (reserveUploadForm file) file.filename
    (toString file.bytes.length) rfl rfl
  have alt : (reserveUploadForm file).lookup "alt_txt" = file.altText := by
    unfold reserveUploadForm
    cases file.altText <;> rfl
  rw [alt] at read
  exact read

theorem SlackApi.reads_share (api : SlackApi crates reads) (r : ReservedUpload) (channel : String)
    (file : SlackFile) (comment : Option String) :
    reads (client.form SLACK_COMPLETE_UPLOAD_URL (shareForm crates r channel file comment)) =
      some (.share r.fileId file.shownAs channel comment) := by
  have read := api.share client.botToken (shareForm crates r channel file comment) r.fileId
    file.shownAs channel rfl rfl
  have said : (shareForm crates r channel file comment).lookup "initial_comment" = comment := by
    unfold shareForm completeUploadForm
    cases comment <;> rfl
  rw [said] at read
  exact read

end Asking

section Landings

variable {client : SlackClient} {call : SlackCall} {ask : SlackAsk} {post : SlackPost}
  {channel : String} {file : SlackFile} {comment : Option String} {r fresh : ReservedUpload}

theorem Kept.lands_single (h : Kept crates s) (hask : call.ask = some ask)
    (hrequest : client.request crates call .calling = some post)
    (hsent : s.sentOf i = [⟨i, .calling, post, false⟩]) (hslots : s.slotsOf i = [])
    (heffects : s.effectsOf i = [])
    (htake : (s.arrived i .calling).take i fresh ask = some t) :
    Lands crates s t i client call .calling := by
  have htaken : some { s.arrived i .calling with effects := s.effects ++ [(i, .did ask)] } =
      some t := by
    cases call with
    | uploadFile channel file comment => cases hask
    | postMessage channel blocks =>
      obtain rfl := Option.some.inj hask
      exact htake
    | updateMessage channel messageTs blocks =>
      obtain rfl := Option.some.inj hask
      exact htake
    | openView triggerId view =>
      obtain rfl := Option.some.inj hask
      exact htake
  obtain rfl := Option.some.inj htaken
  have sent : (s.arrived i .calling).sentOf i = [⟨i, .calling, post, true⟩] := by
    rw [SlackWorld.sentOf_arrived, hsent]
    simp
  have effects : SlackWorld.effectsOf { s.arrived i .calling with
      effects := s.effects ++ [(i, .did ask)] } i = [.did ask] := by
    refine (effectsOf_append i i _).trans ?_
    rw [if_pos rfl, heffects]
    rfl
  refine ⟨touches_arrived (fun _ _ => rfl) ?_, rfl, ?_, ?_, h.urls, h.ids, h.foreign⟩
  · intro j hj
    rw [effectsOf_append, if_neg (Ne.symm hj), List.append_nil]
  · show Progress crates i client call .calling ((s.arrived i .calling).sentOf i) (s.slotsOf i) _
    rw [sent, hslots, effects]
    exact .single call ask post true hask hrequest
  · intro _
    rw [effects]
    exact List.cons_ne_nil _ _

theorem Kept.lands_reserving (h : Kept crates s)
    (hsent : s.sentOf i = [reserveSent i client file false])
    (hslots : s.slotsOf i = []) (heffects : s.effectsOf i = [])
    (htake : (s.arrived i .calling).take i fresh (.reserve file.upload) = some t) :
    Lands crates s t i client (.uploadFile channel file comment) .calling := by
  simp only [SlackWorld.take] at htake
  split at htake
  · cases htake
  · rename_i hfresh
    obtain rfl := Option.some.inj htake
    rw [Bool.not_eq_true, Bool.or_eq_false_iff] at hfresh
    have sent : (s.arrived i .calling).sentOf i = [reserveSent i client file true] := by
      rw [SlackWorld.sentOf_arrived, hsent]
      simp [reserveSent]
    have slots (j : Nat) : (s.slots ++ [(⟨i, file.upload, fresh, none⟩ : SlackSlot)]).filter
        (fun slot => slot.owner = j) =
        s.slotsOf j ++ if i = j then [⟨i, file.upload, fresh, none⟩] else [] := by
      rw [List.filter_append]
      by_cases hij : i = j <;> simp [hij, SlackWorld.slotsOf]
    have unused (slot : SlackSlot) (hslot : slot ∈ s.slots) :
        slot.reserved.uploadUrl ≠ fresh.uploadUrl ∧ slot.reserved.fileId ≠ fresh.fileId := by
      have hnone := List.any_eq_false.mp hfresh.1 slot hslot
      simpa using hnone
    refine ⟨touches_arrived ?_ (fun _ _ => rfl), rfl, ?_, id,
      nodup_concat h.urls fun slot hslot => (unused slot hslot).1,
      nodup_concat h.ids fun slot hslot => (unused slot hslot).2, ?_⟩
    · intro j hj
      exact (slots j).trans (by rw [if_neg (Ne.symm hj), List.append_nil])
    · show Progress crates i client _ .calling ((s.arrived i .calling).sentOf i)
        ((s.slots ++ [(⟨i, file.upload, fresh, none⟩ : SlackSlot)]).filter
          fun slot => slot.owner = i) (s.effectsOf i)
      rw [sent, heffects, slots, hslots, if_pos rfl]
      exact .reserved channel file comment fresh
    · intro slot hslot
      rcases List.mem_append.mp hslot with hold | hnew
      · exact h.foreign slot hold
      · rw [List.mem_singleton.mp hnew]
        intro hmem
        rw [List.contains_iff_mem.mpr hmem] at hfresh
        cases hfresh.2

@[simp] theorem SlackSlot.owner_fill (url : String) (bytes : List UInt8) (slot : SlackSlot) :
    (slot.fill url bytes).owner = slot.owner := by
  unfold fill
  split <;> rfl

@[simp] theorem SlackSlot.reserved_fill (url : String) (bytes : List UInt8) (slot : SlackSlot) :
    (slot.fill url bytes).reserved = slot.reserved := by
  unfold fill
  split <;> rfl

theorem map_fill {α : Type} (f : ReservedUpload → α) (url : String) (bytes : List UInt8) :
    (s.slots.map (SlackSlot.fill url bytes)).map (fun slot => f slot.reserved) =
      s.slots.map fun slot => f slot.reserved := by
  rw [List.map_map]
  refine List.map_congr_left ?_
  intro slot _
  exact congrArg f (slot.reserved_fill url bytes)

theorem filter_fill (url : String) (bytes : List UInt8) (j : Nat) :
    (s.slots.map (SlackSlot.fill url bytes)).filter (fun slot => slot.owner = j) =
      (s.slotsOf j).map (SlackSlot.fill url bytes) := by
  rw [List.filter_map]
  unfold SlackWorld.slotsOf
  congr 1
  refine List.filter_congr ?_
  intro slot _
  rw [Function.comp_apply, SlackSlot.owner_fill]

/-- Bytes that are posted to a URL are the file of the call that it was reserved for. -/
theorem Kept.lands_posting (h : Kept crates s)
    (hsent : s.sentOf i = [reserveSent i client file true, uploadSent i file r false])
    (hslots : s.slotsOf i = [⟨i, file.upload, r, none⟩]) (heffects : s.effectsOf i = [])
    (htake : (s.arrived i (.posting r)).take i fresh (.fill r.uploadUrl file.bytes) = some t) :
    Lands crates s t i client (.uploadFile channel file comment) (.posting r) := by
  have htaken : some { s.arrived i (.posting r) with
      slots := s.slots.map (SlackSlot.fill r.uploadUrl file.bytes) } = some t := htake
  obtain rfl := Option.some.inj htaken
  have own : (⟨i, file.upload, r, none⟩ : SlackSlot) ∈ s.slotsOf i := by
    rw [hslots]
    exact List.mem_singleton_self _
  have sent : (s.arrived i (.posting r)).sentOf i =
      [reserveSent i client file true, uploadSent i file r true] := by
    rw [SlackWorld.sentOf_arrived, hsent]
    simp [reserveSent, uploadSent]
  have filled : [(⟨i, file.upload, r, none⟩ : SlackSlot)].map
      (SlackSlot.fill r.uploadUrl file.bytes) = [⟨i, file.upload, r, some file.bytes⟩] := by
    simp [SlackSlot.fill]
  refine ⟨touches_arrived ?_ (fun _ _ => rfl), rfl, ?_, id, ?_, ?_, ?_⟩
  · intro j hj
    rw [filter_fill]
    refine (List.map_congr_left ?_).trans (List.map_id _)
    intro slot hslot
    obtain ⟨hmem, howner⟩ := List.mem_filter.mp hslot
    refine if_neg ?_
    intro hurl
    have same : slot = ⟨i, file.upload, r, none⟩ := slot_unique h.urls own hmem hurl
    rw [same] at howner
    exact hj (of_decide_eq_true howner).symm
  · show Progress crates i client _ (.posting r) ((s.arrived i (.posting r)).sentOf i)
      ((s.slots.map (SlackSlot.fill r.uploadUrl file.bytes)).filter fun slot => slot.owner = i)
      (s.effectsOf i)
    rw [sent, heffects, filter_fill, hslots, filled]
    exact .posting channel file comment r true
  · show ((s.slots.map (SlackSlot.fill r.uploadUrl file.bytes)).map
      fun slot => slot.reserved.uploadUrl).Nodup
    rw [map_fill ReservedUpload.uploadUrl]
    exact h.urls
  · show ((s.slots.map (SlackSlot.fill r.uploadUrl file.bytes)).map
      fun slot => slot.reserved.fileId).Nodup
    rw [map_fill ReservedUpload.fileId]
    exact h.ids
  · intro slot hslot
    obtain ⟨before, hbefore, rfl⟩ := List.mem_map.mp hslot
    rw [SlackSlot.reserved_fill]
    exact h.foreign before hbefore

/-- A file that is shared is that of the call which shares it. -/
theorem Kept.lands_completing (h : Kept crates s)
    (hsent : s.sentOf i =
      [reserveSent i client file true, uploadSent i file r true,
        shareSent crates r channel file comment i client false])
    (hslots : s.slotsOf i = [⟨i, file.upload, r, some file.bytes⟩]) (heffects : s.effectsOf i = [])
    (htake : (s.arrived i (.completing r)).take i fresh
      (.share r.fileId file.shownAs channel comment) = some t) :
    Lands crates s t i client (.uploadFile channel file comment) (.completing r) := by
  have own : (⟨i, file.upload, r, some file.bytes⟩ : SlackSlot) ∈ s.slotsOf i := by
    rw [hslots]
    exact List.mem_singleton_self _
  simp only [SlackWorld.take] at htake
  split at htake
  · rename_i owner upload reserved bytes hfind
    have found := List.find?_some hfind
    have same : (⟨owner, upload, reserved, some bytes⟩ : SlackSlot) =
        ⟨i, file.upload, r, some file.bytes⟩ :=
      slot_unique h.ids own (List.mem_of_find?_eq_some hfind) (of_decide_eq_true found)
    obtain ⟨-, rfl, -, hbytes⟩ := SlackSlot.mk.inj same
    obtain rfl : bytes = file.bytes := Option.some.inj hbytes
    obtain rfl := Option.some.inj htake
    have sent : (s.arrived i (.completing r)).sentOf i =
        [reserveSent i client file true, uploadSent i file r true,
          shareSent crates r channel file comment i client true] := by
      rw [SlackWorld.sentOf_arrived, hsent]
      simp [reserveSent, uploadSent, shareSent]
    have added (j : Nat) := effectsOf_append (s := s) i j
      (.shared file.upload file.shownAs channel comment file.bytes)
    have shared := added i
    rw [if_pos rfl, heffects, List.nil_append] at shared
    refine ⟨touches_arrived (fun _ _ => rfl) ?_, rfl, ?_, ?_, h.urls, h.ids, h.foreign⟩
    · intro j hj
      refine (added j).trans ?_
      rw [if_neg (Ne.symm hj), List.append_nil]
    · show Progress crates i client _ (.completing r) ((s.arrived i (.completing r)).sentOf i)
        (s.slotsOf i) _
      rw [sent, hslots]
      refine (congrArg (Progress crates i client _ _ _ _) shared).mpr ?_
      exact .completing channel file comment r true
    · intro _ hnone
      exact List.cons_ne_nil _ _ (shared.symm.trans hnone)
  · cases htake

theorem Kept.lands_last (api : SlackApi crates reads) (h : Kept crates s) {last : SlackStage}
    {x : SlackSent}
    (hprogress : Progress crates i client call last (s.sentOf i) (s.slotsOf i) (s.effectsOf i))
    (hx : x ∈ s.sentOf i) (hlanded : x.landed = false)
    (hread : reads x.post = some ask) (htake : (s.arrived i x.stage).take i fresh ask = some t) :
    Lands crates s t i client call last := by
  generalize hsent : s.sentOf i = sent at hprogress hx
  generalize hslots : s.slotsOf i = slots at hprogress
  generalize heffects : s.effectsOf i = effects at hprogress
  -- only the last request may still be on its way
  cases hprogress with
  | single _ own post landed hask hrequest =>
    obtain rfl := List.mem_singleton.mp hx
    obtain rfl : landed = false := hlanded
    obtain rfl := Option.some.inj (hread.symm.trans (api.reads_single client hask hrequest))
    exact h.lands_single hask hrequest hsent hslots heffects htake
  | reserving channel file comment =>
    obtain rfl := List.mem_singleton.mp hx
    obtain rfl := Option.some.inj (hread.symm.trans (api.reads_reserve client file))
    exact h.lands_reserving hsent hslots heffects htake
  | reserved channel file comment r =>
    obtain rfl := List.mem_singleton.mp hx
    cases hlanded
  | posting channel file comment r landed =>
    rcases List.mem_pair.mp hx with rfl | rfl
    · cases hlanded
    · obtain rfl : landed = false := hlanded
      obtain rfl := Option.some.inj (hread.symm.trans (api.fill _ _ (h.foreign_of hslots)))
      exact h.lands_posting hsent hslots heffects htake
  | completing channel file comment r landed =>
    simp only [List.mem_cons, List.not_mem_nil, or_false] at hx
    rcases hx with rfl | rfl | rfl
    · cases hlanded
    · cases hlanded
    · obtain rfl : landed = false := hlanded
      obtain rfl := Option.some.inj (hread.symm.trans (api.reads_share client r channel file comment))
      exact h.lands_completing hsent hslots heffects htake

end Landings

theorem Kept.lands (api : SlackApi crates reads) (h : Kept crates s) {stage : SlackStage}
    {fresh : ReservedUpload}
    (hstep : s.step crates display reads (.land i stage fresh) = some t) : Kept crates t := by
  obtain ⟨x, hx, rfl, hlanded, ask, hread, htake⟩ := land_eq_some hstep
  have hlt : i < s.entries.length := by
    by_contra hnot
    rw [(h.quiet i (Nat.le_of_not_lt hnot)).1] at hx
    cases hx
  obtain ⟨entry, hi⟩ : ∃ entry, s.entries[i]? = some entry := ⟨_, List.getElem?_eq_getElem hlt⟩
  obtain ⟨last, hprogress, hlast⟩ := (h.tracked i entry hi).progress
  have hlands := h.lands_last api hprogress hx hlanded hread htake
  refine h.touched hlands.touches (hlands.entries ▸ hi) ⟨last, hlands.progress, ?_⟩
    hlands.urls hlands.ids hlands.foreign
  rcases hlast with hlast | ⟨result, hended, hdone⟩
  · exact .inl hlast
  · exact .inr ⟨result, hended, fun hok => hlands.effects (hdone hok)⟩

theorem Kept.step (api : SlackApi crates reads) {e : SlackEvent} (h : Kept crates s)
    (hstep : (slack crates display reads).step s e t) : Kept crates t := by
  cases e with
  | call client call => exact h.calls hstep.1
  | land i stage fresh => exact h.lands api hstep.1
  | hear i answer => exact h.hears hstep.1 hstep.2

theorem Kept.run (api : SlackApi crates reads) {s₀ : SlackWorld}
    {tr : List (Taken SlackWorld SlackEvent)} (h₀ : (slack crates display reads).init s₀)
    (hr : (slack crates display reads).Run s₀ tr s) : Kept crates s := by
  obtain rfl : s₀ = ⟨[], [], [], []⟩ := h₀
  exact hr.invariant (fun _ _ _ h hstep => Kept.step api h hstep) Kept.start

end Steps

/-- What a call is for: its one request is done, or its file is shared as it asks. -/
inductive Does : SlackCall → SlackEffect → Prop where
  | posted (channel : String) (blocks : Json) :
      Does (.postMessage channel blocks) (.did (.post channel blocks))
  | updated (channel messageTs : String) (blocks : Json) :
      Does (.updateMessage channel messageTs blocks) (.did (.update channel messageTs blocks))
  | opened (triggerId : String) (view : Json) :
      Does (.openView triggerId view) (.did (.openView triggerId view))
  | shared (channel : String) (file : SlackFile) (comment : Option String) :
      Does (.uploadFile channel file comment)
        (.shared ⟨file.filename, toString file.bytes.length, file.altText⟩
          (file.title.getD file.filename) channel comment file.bytes)

/-- What the requests of a call ask Slack for. -/
inductive Wants : SlackCall → SlackAsk → Prop where
  | single (call : SlackCall) (ask : SlackAsk) : Does call (.did ask) → Wants call ask
  | reserve (channel : String) (file : SlackFile) (comment : Option String) :
      Wants (.uploadFile channel file comment)
        (.reserve ⟨file.filename, toString file.bytes.length, file.altText⟩)
  | fill (channel : String) (file : SlackFile) (comment : Option String) (url : String) :
      Wants (.uploadFile channel file comment) (.fill url file.bytes)
  | share (channel : String) (file : SlackFile) (comment : Option String) (fileId : String) :
      Wants (.uploadFile channel file comment)
        (.share fileId (file.title.getD file.filename) channel comment)

theorem does_ask {call : SlackCall} {ask : SlackAsk} (h : call.ask = some ask) :
    Does call (.did ask) := by
  cases call with
  | uploadFile channel file comment => cases h
  | postMessage channel blocks =>
    rw [← Option.some.inj h]
    exact .posted channel blocks
  | updateMessage channel messageTs blocks =>
    rw [← Option.some.inj h]
    exact .updated channel messageTs blocks
  | openView triggerId view =>
    rw [← Option.some.inj h]
    exact .opened triggerId view

/-- Where a request of call `i` goes: with the token to one of Slack's methods; without it, the
bytes of the call's file, to a URL that Slack reserved for this call and for no other. -/
inductive Confided (s : SlackWorld) (i : Nat) (client : SlackClient) : SlackCall → SlackPost → Prop where
  | api (call : SlackCall) (post : SlackPost) : post.bearer = some client.botToken →
      post.url ∈ SLACK_API_URLS → Confided s i client call post
  | upload (channel : String) (file : SlackFile) (comment : Option String) (url : String) :
      (∃ slot ∈ s.slots, slot.reserved.uploadUrl = url) →
      (∀ slot ∈ s.slots, slot.reserved.uploadUrl = url → slot.owner = i) →
      Confided s i client (.uploadFile channel file comment) ⟨url, none, .bytes file.bytes⟩

/-- What holds of a call: its requests ask Slack for what it is for and go where they may; it does what
it is for once at most, and has done it where it ends well. -/
structure TakesEffect (reads : SlackPost → Option SlackAsk) (s : SlackWorld) (i : Nat)
    (entry : SlackEntry) : Prop where
  confided : ∀ x ∈ s.sentOf i, Confided s i entry.client entry.call x.post
  asked : ∀ x ∈ s.sentOf i, ∃ ask, reads x.post = some ask ∧ Wants entry.call ask
  once : (s.effectsOf i).length ≤ 1
  meant : ∀ effect ∈ s.effectsOf i, Does entry.call effect
  done : entry.stage = .ended .ok → s.effectsOf i ≠ []

section Effects

variable {crates : Crates} {display : StatusCode → String} {reads : SlackPost → Option SlackAsk}
  {s s₀ : SlackWorld} {i : Nat} {client : SlackClient} {call : SlackCall} {last : SlackStage}
  {entry : SlackEntry} {tr : List (Taken SlackWorld SlackEvent)}

theorem request_confided {ask : SlackAsk} {post : SlackPost} (hask : call.ask = some ask)
    (h : client.request crates call .calling = some post) : Confided s i client call post := by
  cases call with
  | uploadFile channel file comment => cases hask
  | postMessage channel blocks =>
    obtain rfl := Option.some.inj h
    exact .api _ _ rfl (by simp [SLACK_API_URLS, SlackClient.json])
  | updateMessage channel messageTs blocks =>
    obtain rfl := Option.some.inj h
    exact .api _ _ rfl (by simp [SLACK_API_URLS, SlackClient.json])
  | openView triggerId view =>
    obtain rfl := Option.some.inj h
    exact .api _ _ rfl (by simp [SLACK_API_URLS, SlackClient.json])

theorem reserve_confided (call : SlackCall) (fields : List (String × String)) :
    Confided s i client call (client.form SLACK_GET_UPLOAD_URL_URL fields) :=
  .api _ _ rfl (by simp [SLACK_API_URLS, SlackClient.form])

theorem complete_confided (call : SlackCall) (fields : List (String × String)) :
    Confided s i client call (client.form SLACK_COMPLETE_UPLOAD_URL fields) :=
  .api _ _ rfl (by simp [SLACK_API_URLS, SlackClient.form])

theorem Kept.upload_confided (h : Kept crates s) {slot : SlackSlot} (hslots : s.slotsOf i = [slot])
    (channel : String) (file : SlackFile) (comment : Option String) :
    Confided s i client (.uploadFile channel file comment)
      ⟨slot.reserved.uploadUrl, none, .bytes file.bytes⟩ := by
  have own : slot ∈ s.slotsOf i := by
    rw [hslots]
    exact List.mem_singleton_self slot
  obtain ⟨hmem, howner⟩ := List.mem_filter.mp own
  refine .upload channel file comment _ ⟨slot, hmem, rfl⟩ ?_
  intro other hother hurl
  rw [slot_unique h.urls own hother hurl]
  exact of_decide_eq_true howner

theorem Kept.confided (h : Kept crates s)
    (hprogress : Progress crates i client call last (s.sentOf i) (s.slotsOf i) (s.effectsOf i)) :
    ∀ x ∈ s.sentOf i, Confided s i client call x.post := by
  intro x hx
  generalize s.sentOf i = sent at hprogress hx
  generalize hslots : s.slotsOf i = slots at hprogress
  generalize s.effectsOf i = effects at hprogress
  cases hprogress with
  | single _ _ post landed hask hrequest =>
    obtain rfl := List.mem_singleton.mp hx
    exact request_confided hask hrequest
  | reserving channel file comment =>
    obtain rfl := List.mem_singleton.mp hx
    exact reserve_confided _ _
  | reserved channel file comment r =>
    obtain rfl := List.mem_singleton.mp hx
    exact reserve_confided _ _
  | posting channel file comment r landed =>
    rcases List.mem_pair.mp hx with rfl | rfl
    · exact reserve_confided _ _
    · exact h.upload_confided hslots channel file comment
  | completing channel file comment r landed =>
    simp only [List.mem_cons, List.not_mem_nil, or_false] at hx
    rcases hx with rfl | rfl | rfl
    · exact reserve_confided _ _
    · exact h.upload_confided hslots channel file comment
    · exact complete_confided _ _

/-- Slack reads what a call asks of each of its requests. -/
theorem Kept.asked (api : SlackApi crates reads) (h : Kept crates s)
    (hprogress : Progress crates i client call last (s.sentOf i) (s.slotsOf i) (s.effectsOf i)) :
    ∀ x ∈ s.sentOf i, ∃ ask, reads x.post = some ask ∧ Wants call ask := by
  intro x hx
  generalize s.sentOf i = sent at hprogress hx
  generalize hslots : s.slotsOf i = slots at hprogress
  generalize s.effectsOf i = effects at hprogress
  cases hprogress with
  | single _ ask post landed hask hrequest =>
    obtain rfl := List.mem_singleton.mp hx
    exact ⟨ask, api.reads_single client hask hrequest, .single _ _ (does_ask hask)⟩
  | reserving channel file comment =>
    obtain rfl := List.mem_singleton.mp hx
    exact ⟨_, api.reads_reserve client file, .reserve channel file comment⟩
  | reserved channel file comment r =>
    obtain rfl := List.mem_singleton.mp hx
    exact ⟨_, api.reads_reserve client file, .reserve channel file comment⟩
  | posting channel file comment r landed =>
    rcases List.mem_pair.mp hx with rfl | rfl
    · exact ⟨_, api.reads_reserve client file, .reserve channel file comment⟩
    · exact ⟨_, api.fill _ _ (h.foreign_of hslots), .fill channel file comment _⟩
  | completing channel file comment r landed =>
    simp only [List.mem_cons, List.not_mem_nil, or_false] at hx
    rcases hx with rfl | rfl | rfl
    · exact ⟨_, api.reads_reserve client file, .reserve channel file comment⟩
    · exact ⟨_, api.fill _ _ (h.foreign_of hslots), .fill channel file comment _⟩
    · exact ⟨_, api.reads_share client r channel file comment, .share channel file comment _⟩

/-- One effect at most, and that which the call is for. -/
theorem Progress.effects {sent : List SlackSent} {slots : List SlackSlot} {effects : List SlackEffect}
    (h : Progress crates i client call last sent slots effects) :
    effects.length ≤ 1 ∧ ∀ effect ∈ effects, Does call effect := by
  cases h with
  | single _ ask post landed hask hrequest =>
    cases landed with
    | false => simp
    | true => simpa using does_ask hask
  | reserving channel file comment => simp
  | reserved channel file comment r => simp
  | posting channel file comment r landed => simp
  | completing channel file comment r landed =>
    cases landed with
    | false => simp
    | true => simpa [SlackFile.upload, SlackFile.shownAs] using Does.shared channel file comment

theorem not_progress_ended {result : SlackResult} {sent : List SlackSent} {slots : List SlackSlot}
    {effects : List SlackEffect} :
    ¬ Progress crates i client call (.ended result) sent slots effects := by
  intro h
  cases h

end Effects

section Reading

def FILE_ID_LEAD : List Char := ['[', '\x7b', '\x22', 'i', 'd', '\x22', ':', '\x22']

def FILE_TITLE_LEAD : List Char := [',', '\x22', 't', 'i', 't', 'l', 'e', '\x22', ':', '\x22']

/-- The id and the title of the one file in the JSON of a list of files. -/
def readFile (text : String) : Option (String × String) := do
  let rest ← text.toList.dropPrefix? FILE_ID_LEAD
  let (fileId, rest) ← Mcp.readQuoted text.toList.length rest
  let rest ← rest.dropPrefix? FILE_TITLE_LEAD
  let (title, rest) ← Mcp.readQuoted text.toList.length rest
  if rest = ['\x7d', ']'] then some (.ofList fileId, .ofList title) else none

/-- What Slack's methods read of their requests. -/
def readSlackPost : SlackPost → Option SlackAsk
  | ⟨url, some _, .json payload⟩ =>
    if url = SLACK_POST_MESSAGE_URL then do
      let channel ← (payload.get "channel").bind Json.asStr
      let blocks ← payload.get "blocks"
      some (.post channel blocks)
    else if url = SLACK_CHAT_UPDATE_URL then do
      let channel ← (payload.get "channel").bind Json.asStr
      let messageTs ← (payload.get "ts").bind Json.asStr
      let blocks ← payload.get "blocks"
      some (.update channel messageTs blocks)
    else if url = SLACK_VIEWS_OPEN_URL then do
      let triggerId ← (payload.get "trigger_id").bind Json.asStr
      let view ← payload.get "view"
      some (.openView triggerId view)
    else none
  | ⟨url, some _, .form fields⟩ =>
    if url = SLACK_GET_UPLOAD_URL_URL then do
      let filename ← fields.lookup "filename"
      let length ← fields.lookup "length"
      some (.reserve ⟨filename, length, fields.lookup "alt_txt"⟩)
    else if url = SLACK_COMPLETE_UPLOAD_URL then do
      let (fileId, title) ← (fields.lookup "files").bind readFile
      let channel ← fields.lookup "channel_id"
      some (.share fileId title channel (fields.lookup "initial_comment"))
    else none
  | ⟨url, none, .bytes bytes⟩ => if url ∈ SLACK_API_URLS then none else some (.fill url bytes)
  | _ => none

theorem toText_sharedFile (crates : Crates) (fileId title : String) :
    Mcp.toText crates (sharedFile fileId title) = "[" ++ ("\x7b" ++ (Mcp.quoted "id" ++ ":" ++
      Mcp.quoted fileId ++ "," ++ (Mcp.quoted "title" ++ ":" ++ Mcp.quoted title)) ++ "\x7d") ++ "]" := by
  simp only [sharedFile, Mcp.toText, Mcp.toTexts, Mcp.toMembers]
  rfl

theorem toList_sharedFile (crates : Crates) (fileId title : String) :
    (Mcp.toText crates (sharedFile fileId title)).toList = FILE_ID_LEAD ++
      (fileId.toList.flatMap Mcp.escapeChar ++ '\x22' :: (FILE_TITLE_LEAD ++
        (title.toList.flatMap Mcp.escapeChar ++ ['\x22', '\x7d', ']']))) := by
  have body (name : String) : (Mcp.quoted name).toList =
      '\x22' :: (name.toList.flatMap Mcp.escapeChar ++ ['\x22']) := String.toList_ofList
  have id : (Mcp.quoted "id").toList = ['\x22', 'i', 'd', '\x22'] := by decide
  have title' : (Mcp.quoted "title").toList = ['\x22', 't', 'i', 't', 'l', 'e', '\x22'] := by decide
  rw [toText_sharedFile]
  simp only [String.toList_append, id, title', body, List.append_assoc]
  simp [FILE_ID_LEAD, FILE_TITLE_LEAD]

theorem readFile_sharedFile (crates : Crates) (fileId title : String) :
    readFile (Mcp.toText crates (sharedFile fileId title)) = some (fileId, title) := by
  have text := toList_sharedFile crates fileId title
  generalize Mcp.toText crates (sharedFile fileId title) = written at text
  have len : fileId.toList.length < written.toList.length ∧
      title.toList.length < written.toList.length := by
    have hid := Mcp.length_le_escaped fileId.toList
    have htitle := Mcp.length_le_escaped title.toList
    rw [text]
    simp only [List.length_append, List.length_cons, List.length_nil]
    omega
  unfold readFile
  generalize written.toList.length = fuel at len
  rw [text]
  simp [List.dropPrefix?_append_of_beq _ (beq_self_eq_true _), Mcp.readQuoted_escaped _ len.1,
    Mcp.readQuoted_escaped _ len.2]

theorem readSlackPost_api (crates : Crates) : SlackApi crates readSlackPost where
  post token payload channel blocks hchannel hblocks := by
    simp [readSlackPost, hchannel, hblocks, Json.asStr]
  update token payload channel messageTs blocks hchannel hts hblocks := by
    have other : SLACK_CHAT_UPDATE_URL ≠ SLACK_POST_MESSAGE_URL := by decide
    simp [readSlackPost, hchannel, hts, hblocks, Json.asStr, other]
  openView token payload triggerId view htrigger hview := by
    have other : SLACK_VIEWS_OPEN_URL ≠ SLACK_POST_MESSAGE_URL := by decide
    have other' : SLACK_VIEWS_OPEN_URL ≠ SLACK_CHAT_UPDATE_URL := by decide
    simp [readSlackPost, htrigger, hview, Json.asStr, other, other']
  reserve token fields filename length hfilename hlength := by
    simp [readSlackPost, hfilename, hlength]
  fill url bytes hurl := if_neg hurl
  share token fields fileId title channel hfiles hchannel := by
    have other : SLACK_COMPLETE_UPLOAD_URL ≠ SLACK_GET_UPLOAD_URL_URL := by decide
    simp [readSlackPost, hfiles, hchannel, readFile_sharedFile, other]

end Reading

def ops : SlackClient := ⟨"xoxb-1"⟩

def report : SlackCall := .uploadFile "C1" ⟨"report.txt", none, none, [104, 105]⟩ none

def reportSlot : ReservedUpload := ⟨"https://files.slack.com/upload/1", "F1"⟩

def answeredWith (fields : Map) : SlackAnswer := .replied ⟨.OK, .ok (.object fields)⟩

/-- The three requests of an upload, each taken before its answer is heard. -/
def reportRun : List SlackEvent :=
  [.call ops report, .land 0 .calling reportSlot,
    .hear 0 (answeredWith [("ok", .bool true), ("upload_url", .string reportSlot.uploadUrl),
      ("file_id", .string reportSlot.fileId)]),
    .land 0 (.posting reportSlot) reportSlot, .hear 0 (answeredWith []),
    .land 0 (.completing reportSlot) reportSlot, .hear 0 (answeredWith [("ok", .bool true)])]

end Tronc.Notifications
