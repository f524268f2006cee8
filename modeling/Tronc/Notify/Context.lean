import Tronc.Notify.Spans

namespace Tronc.Notify

open Transition

/-- Whether a value names the event, so that it is no field of its own. -/
def isName (value : String × Recorded) : Bool :=
  value.1 == EVENT_FIELD && match value.2 with
    | .str _ | .debug _ => true
    | .shown _ => false

/-- The text of the last value a call records of those `p` admits. -/
def lastText (p : String × Recorded → Bool) (values : Values) : Option String :=
  (values.reverse.find? p).map fun value => value.2.text

/-- What an event says of a field. -/
def ownField (values : Values) (key : String) : Option String :=
  lastText (fun value => value.1 == key && !isName value) values

/-- What a call says of a field of its span, where `event` is one too. -/
def spanField (values : Values) (key : String) : Option String :=
  if key = EVENT_FIELD then (lastText isName values).or (ownField values key)
  else ownField values key

/-- What a span's calls, the latest last, say of a field: the latest that says something. -/
def latest (calls : List Values) (key : String) : Option String :=
  calls.reverse.findSome? fun values => spanField values key

def Occurrence.unrouted (occurrence : Occurrence) : Occurrence :=
  { occurrence with route := none, drawn := false }

namespace Tracing

/-- What a step records on the span. -/
def callsAt (id : Nat) (x : Taken Tracing Event) : List Values :=
  match x.label with
  | .newSpan _ attrs => if id = x.source.spans.length then [attrs] else []
  | .record i values => if i = id ∧ id < x.source.spans.length then [values] else []
  | .hiddenSpan _ | .event _ | .register _ | .slack _ => []

/-- What has been recorded on the span, the latest last. -/
def callsOn (tr : List (Taken Tracing Event)) (id : Nat) : List Values := tr.flatMap (callsAt id)

/-- What the innermost of the spans says that says anything. -/
def inherited (tr : List (Taken Tracing Event)) (scope : List Nat) (key : String) : Option String :=
  scope.findSome? fun id => latest (callsOn tr id) key

/-- The values registered as secrets, the latest last. -/
def registeredIn (tr : List (Taken Tracing Event)) : List String :=
  tr.filterMap fun x => match x.label with
    | .register value => some value
    | _ => none

/-- What both sinks are handed of an event: of each field what the event says of it, and where it
says nothing what the spans around it say, as the host enriches it and with every value redacted. -/
structure HandedOn (attached : Attached) (tr : List (Taken Tracing Event)) (scope : List Nat)
    (values : Values) (name : String) (fields : Fields) : Prop where
  explained : ∃ merged : Fields,
    (∀ key, merged.lookup key = (ownField values key).or (inherited tr scope key)) ∧
    ∀ key, fields.lookup key = ((attached.enrich name merged).lookup key).map
      (Secrets.redact (Secrets.registered (registeredIn tr)))
  masked : ∀ secret ∈ Secrets.registered (registeredIn tr), Secrets.Plain secret →
    ∀ key, ∀ value ∈ fields.lookup key, ¬ secret.toList <:+: value.toList

/-- The step as a layer takes it whose Slack side is left out, if it takes it. -/
def traced : Event → Option Event
  | .event occurrence => some (.event occurrence.unrouted)
  | .slack _ => none
  | a => some a

end Tracing

theorem lastText_snoc (p : String × Recorded → Bool) (values : Values) (value : String × Recorded) :
    lastText p (values ++ [value]) = if p value then some value.2.text else lastText p values := by
  unfold lastText
  rw [List.reverse_append, List.reverse_singleton, List.singleton_append, List.find?_cons]
  cases p value <;> simp

namespace NotifyVisitor

theorem visit_snoc (values : Values) (value : String × Recorded) :
    visit (values ++ [value]) = (visit values).record value.1 value.2 := by
  simp [visit]

theorem record_name (visitor : NotifyVisitor) (field : String) (value : Recorded) :
    (visitor.record field value).eventName =
      if isName (field, value) then some value.text else visitor.eventName := by
  cases value <;> by_cases hfield : field = EVENT_FIELD <;>
    simp [record, isName, Recorded.text, hfield]

theorem record_fields (visitor : NotifyVisitor) (field : String) (value : Recorded) :
    (visitor.record field value).fields =
      if isName (field, value) then visitor.fields else visitor.fields.insert field value.text := by
  cases value <;> by_cases hfield : field = EVENT_FIELD <;>
    simp [record, isName, Recorded.text, hfield]

theorem visit_name (values : Values) : (visit values).eventName = lastText isName values := by
  induction values using List.reverseRecOn with
  | nil => simp [visit, new, lastText]
  | append_singleton values value ih => rw [visit_snoc, record_name, lastText_snoc, ih]

theorem lookup_visit (values : Values) (key : String) :
    (visit values).fields.lookup key = ownField values key := by
  induction values using List.reverseRecOn with
  | nil => simp [visit, new, ownField, lastText]
  | append_singleton values value ih =>
    unfold ownField at ih ⊢
    rw [visit_snoc, record_fields, lastText_snoc, ← ih]
    by_cases hname : isName value = true
    · simp [hname]
    · by_cases hkey : value.1 = key
      · subst hkey
        simp [hname]
      · have hother : key ≠ value.1 := Ne.symm hkey
        simp [hname, hkey, AList.lookup_insert_ne hother]

theorem lookup_kept (values : Values) (fields : Fields) (key : String) :
    ((visit values).kept fields).lookup key = (spanField values key).or (fields.lookup key) := by
  unfold kept spanField
  rw [visit_name]
  cases hname : lastText isName values with
  | none => simp [AList.lookup_extend, lookup_visit]
  | some name =>
    by_cases hkey : key = EVENT_FIELD
    · subst hkey
      simp
    · simp [hkey, AList.lookup_insert_ne hkey, AList.lookup_extend, lookup_visit]

end NotifyVisitor

theorem latest_snoc (calls : List Values) (values : Values) (key : String) :
    latest (calls ++ [values]) key = (spanField values key).or (latest calls key) := by
  unfold latest
  rw [List.reverse_append, List.reverse_singleton, List.singleton_append, List.findSome?_cons]
  cases spanField values key <;> simp

theorem latest_nil (key : String) : latest [] key = none := by simp [latest]

namespace Tracing

variable {attached : Attached} {s t : Tracing} {tr : List (Taken Tracing Event)}

/-- What a span keeps of a field. -/
def keptOf (s : Tracing) (id : Nat) (key : String) : Option String :=
  (s.stashOf id).bind fun stash => stash.lookup key

theorem callsOn_snoc (id : Nat) (x : Taken Tracing Event) :
    callsOn (tr ++ [x]) id = callsOn tr id ++ callsAt id x := by simp [callsOn]

theorem keptOf_opened (parent : Option Nat) (stash : Option Fields) (id : Nat) (key : String) :
    (s.opened parent stash).keptOf id key =
      if id = s.spans.length then stash.bind (·.lookup key) else s.keptOf id key := by
  unfold keptOf stashOf opened
  rw [List.getElem?_append]
  split
  · rename_i hlt
    rw [if_neg (Nat.ne_of_lt hlt)]
  · rename_i hle
    split
    · rename_i heq
      subst heq
      simp
    · have hnone : s.spans[id]? = none := List.getElem?_eq_none (by omega)
      have hrest : ([⟨s.spans.length :: s.scopeOf parent, stash⟩] : List Span)[id - s.spans.length]? =
          none := List.getElem?_eq_none (by simp; omega)
      rw [hnone, hrest]

theorem keptOf_none {id : Nat} (h : s.spans.length ≤ id) (key : String) : s.keptOf id key = none := by
  unfold keptOf stashOf
  rw [List.getElem?_eq_none h]
  rfl

theorem keptOf_onRecord (i : Nat) (values : Values) (id : Nat) (key : String) :
    (s.onRecord i values).keptOf id key =
      if i = id ∧ id < s.spans.length then (spanField values key).or (s.keptOf id key)
      else s.keptOf id key := by
  unfold onRecord
  cases hspan : s.spans[i]? with
  | none =>
    have hle : s.spans.length ≤ i := List.getElem?_eq_none_iff.mp hspan
    rw [if_neg (by omega)]
  | some span =>
    have hlt : i < s.spans.length := (List.getElem?_eq_some_iff.mp hspan).1
    unfold keptOf stashOf
    by_cases hid : i = id
    · subst hid
      rw [if_pos ⟨rfl, hlt⟩, List.getElem?_set_self hlt, hspan]
      simp only [Option.bind_some, NotifyVisitor.lookup_kept]
      cases span.stash <;> simp
    · rw [if_neg (fun h => hid h.1), List.getElem?_set_ne hid]

theorem onEvent_ignored {occurrence : Occurrence}
    (h : occurrence.target ≠ NOTIFY_TARGET ∨ lastText isName occurrence.values = none) :
    s.onEvent attached occurrence = s := by
  unfold onEvent
  rcases h with htarget | hname
  · rw [if_pos htarget]
  · simp [NotifyVisitor.visit_name, hname]

theorem onEvent_named {occurrence : Occurrence} {name : String}
    (htarget : occurrence.target = NOTIFY_TARGET)
    (hname : lastText isName occurrence.values = some name) {fields : Fields}
    (hfields : fields = s.enriched attached name
      (s.merged (s.scopeOf occurrence.span) (NotifyVisitor.visit occurrence.values).fields)) :
    s.onEvent attached occurrence =
      (s.captureAnalytics attached name fields).dispatchTo attached occurrence name fields := by
  subst hfields
  unfold onEvent
  simp [htarget, NotifyVisitor.visit_name, hname]

theorem captureAnalytics_eq (name : String) (fields : Fields) :
    s.captureAnalytics attached name fields = { s with captured := s.captured ++
      ((attached.analytics.bind fun captureFor => captureFor name fields).map fun capture =>
        (⟨capture.distinctId, name, capture.properties⟩ : Captured)).toList } := by
  unfold captureAnalytics
  cases attached.analytics with
  | none => simp
  | some captureFor =>
    dsimp only [Option.bind_some]
    cases captureFor name fields <;> simp

theorem onEvent_frame (occurrence : Occurrence) :
    (s.onEvent attached occurrence).spans = s.spans ∧
      (s.onEvent attached occurrence).secrets = s.secrets := by
  by_cases htarget : occurrence.target = NOTIFY_TARGET
  · cases hname : lastText isName occurrence.values with
    | none => simp [onEvent_ignored (.inr hname)]
    | some name => simp [onEvent_named htarget hname rfl, captureAnalytics_eq, dispatchTo]
  · simp [onEvent_ignored (.inl htarget)]

/-- Every span's stash holds, for each field, what its calls say of it, and the registry is what
was registered. -/
structure Faithful (tr : List (Taken Tracing Event)) (s : Tracing) : Prop where
  kept : ∀ id key, s.keptOf id key = latest (callsOn tr id) key
  fresh : ∀ id, s.spans.length ≤ id → callsOn tr id = []
  secrets : s.secrets = Secrets.registered (registeredIn tr)

theorem Faithful.start (h : (tracing attached).init s) : Faithful [] s := by
  obtain ⟨hspans, hsecrets, -⟩ := h
  refine ⟨?_, ?_, ?_⟩
  · intro id key
    have hnone : s.keptOf id key = none := keptOf_none (by simp [hspans]) key
    rw [hnone]
    exact (latest_nil key).symm
  · intro id _
    rfl
  · exact hsecrets

/-- A step that records nothing and registers nothing. -/
theorem Faithful.frame {a : Event} (h : Faithful tr s) (hspans : t.spans = s.spans)
    (hsecrets : t.secrets = s.secrets) (hcalls : ∀ id, callsAt id ⟨s, a, t⟩ = [])
    (hregister : ∀ value, a ≠ .register value) : Faithful (tr ++ [⟨s, a, t⟩]) t := by
  have hkept : ∀ id key, t.keptOf id key = s.keptOf id key := by
    intro id key
    simp [keptOf, stashOf, hspans]
  refine ⟨?_, ?_, ?_⟩
  · intro id key
    rw [hkept, h.kept, callsOn_snoc, hcalls, List.append_nil]
  · intro id hid
    rw [hspans] at hid
    rw [callsOn_snoc, hcalls, h.fresh id hid, List.append_nil]
  · rw [hsecrets, h.secrets]
    cases a with
    | register value => exact absurd rfl (hregister value)
    | newSpan | hiddenSpan | record | event | slack => simp [registeredIn]

theorem Faithful.opened {parent : Option Nat} {stash : Option Fields} {a : Event}
    (h : Faithful tr s) (hregister : ∀ value, a ≠ .register value)
    (hold : ∀ id, id < s.spans.length → callsAt id ⟨s, a, s.opened parent stash⟩ = [])
    (hlater : ∀ id, s.spans.length < id → callsAt id ⟨s, a, s.opened parent stash⟩ = [])
    (hnew : ∀ key, stash.bind (·.lookup key) =
      latest (callsAt s.spans.length ⟨s, a, s.opened parent stash⟩) key) :
    Faithful (tr ++ [⟨s, a, s.opened parent stash⟩]) (s.opened parent stash) := by
  have hlength : (s.opened parent stash).spans.length = s.spans.length + 1 := by
    simp [Tracing.opened]
  refine ⟨?_, ?_, ?_⟩
  · intro id key
    rw [keptOf_opened, callsOn_snoc]
    split
    · rename_i heq
      subst heq
      rw [hnew, h.fresh _ (Nat.le_refl _), List.nil_append]
    · rename_i hne
      have hnone : callsAt id ⟨s, a, s.opened parent stash⟩ = [] := by
        rcases Nat.lt_or_gt_of_ne hne with hlt | hgt
        · exact hold id hlt
        · exact hlater id hgt
      rw [hnone, List.append_nil]
      exact h.kept id key
  · intro id hid
    rw [callsOn_snoc, hlater id (by omega), h.fresh id (by omega), List.append_nil]
  · have hsame : (s.opened parent stash).secrets = s.secrets := rfl
    rw [hsame, h.secrets]
    cases a with
    | register value => exact absurd rfl (hregister value)
    | newSpan | hiddenSpan | record | event | slack => simp [registeredIn]

theorem Faithful.recorded {i : Nat} {values : Values} (h : Faithful tr s) :
    Faithful (tr ++ [⟨s, .record i values, s.onRecord i values⟩]) (s.onRecord i values) := by
  have hlength : (s.onRecord i values).spans.length = s.spans.length := by
    unfold onRecord
    cases s.spans[i]? <;> simp
  have hsecrets : (s.onRecord i values).secrets = s.secrets := by
    unfold onRecord
    cases s.spans[i]? <;> simp
  refine ⟨?_, ?_, ?_⟩
  · intro id key
    rw [keptOf_onRecord, callsOn_snoc]
    by_cases hid : i = id ∧ id < s.spans.length
    · simp only [callsAt, if_pos hid]
      rw [latest_snoc, h.kept]
    · simp only [callsAt, if_neg hid]
      rw [List.append_nil, h.kept]
  · intro id hid
    rw [hlength] at hid
    have hout : ¬ (i = id ∧ id < s.spans.length) := by omega
    rw [callsOn_snoc, h.fresh id hid]
    simp only [callsAt, if_neg hout, List.nil_append]
  · rw [hsecrets, h.secrets]
    simp [registeredIn]

theorem Faithful.registered {value : String} (h : Faithful tr s) :
    Faithful (tr ++ [⟨s, .register value, { s with secrets := Secrets.register s.secrets value }⟩])
      { s with secrets := Secrets.register s.secrets value } := by
  have hkept (id : Nat) (key : String) :
      keptOf { s with secrets := Secrets.register s.secrets value } id key = s.keptOf id key := by
    simp [keptOf, stashOf]
  refine ⟨?_, ?_, ?_⟩
  · intro id key
    rw [hkept, h.kept, callsOn_snoc]
    simp [callsAt]
  · intro id hid
    rw [callsOn_snoc, h.fresh id hid]
    rfl
  · dsimp only
    rw [h.secrets]
    simp [registeredIn, Secrets.registered]

theorem Faithful.step {a : Event} (h : Faithful tr s) (hstep : s.step attached a = some t) :
    Faithful (tr ++ [⟨s, a, t⟩]) t := by
  cases a with
  | newSpan parent attrs =>
    obtain rfl := Option.some.inj hstep
    refine h.opened (by intro _ heq; cases heq) ?_ ?_ ?_
    · intro id hid
      simp [callsAt, Nat.ne_of_lt hid]
    · intro id hid
      simp [callsAt, Nat.ne_of_gt hid]
    · intro key
      have hone := latest_snoc [] attrs key
      rw [latest_nil, List.nil_append] at hone
      simp [callsAt, hone, NotifyVisitor.lookup_kept]
  | hiddenSpan parent =>
    obtain rfl := Option.some.inj hstep
    refine h.opened (by intro _ heq; cases heq) ?_ ?_ ?_
    · intro id _
      rfl
    · intro id _
      rfl
    · intro key
      simp [callsAt, latest_nil]
  | record i values =>
    obtain rfl := Option.some.inj hstep
    exact h.recorded
  | event occurrence =>
    obtain rfl := Option.some.inj hstep
    have hframe : (s.onEvent attached occurrence).spans = s.spans ∧
        (s.onEvent attached occurrence).secrets = s.secrets := onEvent_frame occurrence
    exact h.frame hframe.1 hframe.2 (fun _ => rfl) (by intro _ heq; cases heq)
  | register value =>
    obtain rfl := Option.some.inj hstep
    exact h.registered
  | slack event =>
    have hframe : t.spans = s.spans ∧ t.secrets = s.secrets := by
      cases event with
      | dispatch => cases hstep
      | enqueue | tick | wake | drain | post =>
        cases hslack : s.slack with
        | none => simp [Tracing.step, hslack] at hstep
        | some layer =>
          simp only [Tracing.step, hslack] at hstep
          obtain ⟨layer', -, rfl⟩ := Option.map_eq_some_iff.mp hstep
          exact ⟨rfl, rfl⟩
    exact h.frame hframe.1 hframe.2 (fun _ => rfl) (by intro _ heq; cases heq)

theorem run_faithful {s₀ : Tracing} (h₀ : (tracing attached).init s₀)
    (h : (tracing attached).Run s₀ tr s) : Faithful tr s := by
  induction h with
  | start => exact .start h₀
  | next _ hstep ih => exact ih.step hstep

/-- The spans around lie over each other, the innermost on top, and the event's own fields over
them. -/
theorem merged_eq (scope : List Nat) (own : Fields) :
    s.merged scope own = (AList.overlay (scope.filterMap s.stashOf)).extend own := by
  unfold merged
  rw [List.foldl_reverse]
  refine congrArg (AList.extend · own) ?_
  induction scope with
  | nil => rfl
  | cons id scope ih =>
    rw [List.foldr_cons, List.filterMap_cons]
    cases s.stashOf id with
    | none => exact ih
    | some stash => exact congrArg (AList.extend · stash) ih

theorem lookup_merged (scope : List Nat) (own : Fields) (key : String) :
    (s.merged scope own).lookup key =
      (own.lookup key).or (scope.findSome? fun id => s.keptOf id key) := by
  rw [merged_eq, AList.lookup_extend, AList.lookup_overlay]
  rfl

/-- In every run, an event that has a name hands one map to both sinks: the event's own fields over
those of the spans around it, the innermost and the latest first. Any other event does nothing. -/
theorem context_carried {s₀ : Tracing} {occurrence : Occurrence} (h₀ : (tracing attached).init s₀)
    (h : (tracing attached).Run s₀ tr s) (hstep : s.step attached (.event occurrence) = some t) :
    (occurrence.target ≠ NOTIFY_TARGET ∨ lastText isName occurrence.values = none → t = s) ∧
    ∀ name, occurrence.target = NOTIFY_TARGET → lastText isName occurrence.values = some name →
      ∃ fields, HandedOn attached tr (s.scopeOf occurrence.span) occurrence.values name fields ∧
        t = { s with
          captured := s.captured ++
            ((attached.analytics.bind fun captureFor => captureFor name fields).map fun capture =>
              (⟨capture.distinctId, name, capture.properties⟩ : Captured)).toList
          slack := s.slack.map fun layer => layer.dispatch ⟨name, fields, occurrence.route,
            occurrence.drawn, attached.actions.bind fun actionsFor => actionsFor name fields⟩ } := by
  have hfaithful : Faithful tr s := run_faithful h₀ h
  have htaken : s.onEvent attached occurrence = t := Option.some.inj hstep
  constructor
  · intro hignored
    rw [← htaken, onEvent_ignored hignored]
  · intro name htarget hname
    let scope := s.scopeOf occurrence.span
    let merged := s.merged scope (NotifyVisitor.visit occurrence.values).fields
    have hmerged (key : String) : merged.lookup key =
        (ownField occurrence.values key).or (inherited tr scope key) := by
      have hspans : (fun id => s.keptOf id key) = fun id => latest (callsOn tr id) key :=
        funext fun id => hfaithful.kept id key
      simp only [merged, lookup_merged, NotifyVisitor.lookup_visit, hspans, inherited]
    have hfields (key : String) : (s.enriched attached name merged).lookup key =
        ((attached.enrich name merged).lookup key).map
          (Secrets.redact (Secrets.registered (registeredIn tr))) := by
      unfold enriched
      rw [AList.lookup_mapValues, hfaithful.secrets]
    refine ⟨s.enriched attached name merged, ⟨⟨merged, hmerged, hfields⟩, ?_⟩, ?_⟩
    · intro secret hsecret hplain key value hvalue
      rw [hfields, Option.mem_def] at hvalue
      obtain ⟨text, -, rfl⟩ := Option.map_eq_some_iff.mp hvalue
      exact Secrets.redact_removes hplain hsecret text
    · rw [← htaken, onEvent_named htarget hname rfl, captureAnalytics_eq]
      rfl

/-- A layer with analytics alone, before the first span. -/
def untraced : Tracing := ⟨[], [], none, []⟩

/-- A host that captures an event under the tenant it happened for. -/
def byTenant : Attached :=
  ⟨none, some fun _ fields => (fields.lookup "tenant_id").map fun id => ⟨id, .null⟩, none⟩

/-- A span whose tenant is known late, and one inside it. -/
def loginSpans : List Event :=
  [.newSpan none [("route", .str "/login")], .newSpan (some 0) [("user_id", .shown "7")],
    .record 0 [("tenant_id", .debug "\"t1\"")]]

def login : Occurrence := ⟨"notify", some 1, [("event", .str "user.login")], none, true⟩

theorem context_carried_login : ∃ tr s t, (tracing byTenant).Run untraced tr s ∧
    s.step byTenant (.event login) = some t ∧ t.captured = [⟨"t1", "user.login", .null⟩] ∧
    ∃ fields, HandedOn byTenant tr (s.scopeOf login.span) login.values "user.login" fields := by
  obtain ⟨s, hs⟩ : ∃ s, exec (Tracing.step byTenant) untraced loginSpans = some s := ⟨_, rfl⟩
  obtain ⟨tr, hr, -⟩ := Lts.Run.labels (M := tracing byTenant) (fun _ _ _ h => h) loginSpans hs
    (.start untraced)
  have hlogin : s.step byTenant (.event login) = some (s.onEvent byTenant login) := rfl
  have hname : lastText isName login.values = some "user.login" := by decide
  obtain ⟨fields, hfields, -⟩ := (context_carried ⟨rfl, rfl, rfl⟩ hr hlogin).2 _ rfl hname
  refine ⟨tr, s, _, hr, hlogin, ?_, fields, hfields⟩
  obtain rfl := Option.some.inj hs
  decide +kernel

/-- The layer without its Slack side. -/
def quiet (s : Tracing) : Tracing := { s with slack := none }

theorem quiet_onEvent (occurrence : Occurrence) :
    (s.onEvent attached occurrence).quiet = s.quiet.onEvent attached occurrence.unrouted := by
  by_cases htarget : occurrence.target = NOTIFY_TARGET
  · cases hname : lastText isName occurrence.values with
    | none =>
      have hquiet : s.quiet.onEvent attached occurrence.unrouted = s.quiet :=
        onEvent_ignored (.inr hname)
      rw [onEvent_ignored (.inr hname), hquiet]
    | some name =>
      let fields := s.enriched attached name
        (s.merged (s.scopeOf occurrence.span) (NotifyVisitor.visit occurrence.values).fields)
      have hbare : occurrence.unrouted.target = NOTIFY_TARGET := htarget
      have hquiet : s.quiet.onEvent attached occurrence.unrouted =
          (s.quiet.captureAnalytics attached name fields).dispatchTo attached occurrence.unrouted
            name fields := onEvent_named hbare hname rfl
      rw [onEvent_named htarget hname rfl, hquiet, captureAnalytics_eq, captureAnalytics_eq]
      rfl
  · have hquiet : s.quiet.onEvent attached occurrence.unrouted = s.quiet :=
      onEvent_ignored (.inl htarget)
    rw [onEvent_ignored (.inl htarget), hquiet]

theorem quiet_onRecord (id : Nat) (values : Values) :
    (s.onRecord id values).quiet = s.quiet.onRecord id values := by
  unfold onRecord quiet
  cases s.spans[id]? <;> rfl

theorem quiet_step {a : Event} (hstep : s.step attached a = some t) :
    exec (Tracing.step attached) s.quiet (traced a).toList = some t.quiet := by
  cases a with
  | newSpan | hiddenSpan =>
    obtain rfl := Option.some.inj hstep
    rfl
  | register value =>
    obtain rfl := Option.some.inj hstep
    simp [exec, Tracing.step, traced, quiet]
  | record id values =>
    obtain rfl := Option.some.inj hstep
    rw [quiet_onRecord]
    rfl
  | event occurrence =>
    obtain rfl := Option.some.inj hstep
    rw [quiet_onEvent]
    rfl
  | slack event =>
    cases event with
    | dispatch => cases hstep
    | enqueue | tick | wake | drain | post =>
      cases hslack : s.slack with
      | none => simp [Tracing.step, hslack] at hstep
      | some layer =>
        simp only [Tracing.step, hslack] at hstep
        obtain ⟨layer', -, rfl⟩ := Option.map_eq_some_iff.mp hstep
        rfl

theorem quiet_exec {labels : List Event} (h : exec (Tracing.step attached) s labels = some t) :
    exec (Tracing.step attached) s.quiet (labels.filterMap traced) = some t.quiet := by
  induction labels generalizing s with
  | nil =>
    obtain rfl := Option.some.inj h
    rfl
  | cons a labels ih =>
    obtain ⟨next, hnext, hrest⟩ := Option.bind_eq_some_iff.mp h
    have hquiet := quiet_step hnext
    have hlater := ih hrest
    cases ha : traced a with
    | none =>
      rw [ha] at hquiet
      obtain heq : s.quiet = next.quiet := Option.some.inj hquiet
      rw [List.filterMap_cons_none ha, heq]
      exact hlater
    | some b =>
      rw [ha] at hquiet
      obtain ⟨mid, hmid, hend⟩ := Option.bind_eq_some_iff.mp hquiet
      obtain rfl : mid = next.quiet := Option.some.inj hend
      rw [List.filterMap_cons_some ha]
      exact Option.bind_eq_some_iff.mpr ⟨next.quiet, hmid, hlater⟩

/-- What the analytics sink is given does not depend on the Slack side: not on whether there is one,
what its rules are, how they route, sample or deduplicate, or when its flusher works. -/
theorem captures_unsuppressed {s' t' : Tracing} {labels labels' : List Event}
    (hsame : s.quiet = s'.quiet) (hlabels : labels.filterMap traced = labels'.filterMap traced)
    (h : exec (Tracing.step attached) s labels = some t)
    (h' : exec (Tracing.step attached) s' labels' = some t') : t.captured = t'.captured := by
  have hone := quiet_exec h
  have hother := quiet_exec h'
  rw [hsame, hlabels, hother] at hone
  have hquiet : t'.quiet = t.quiet := Option.some.inj hone
  exact (congrArg Tracing.captured hquiet).symm

/-- A layer whose one rule is switched off, and one whose rule posts. -/
def ruled (enabled : Bool) : Tracing :=
  { untraced with
    slack := some (.build "production" (some { RoutingRule.toChannel "#ops" with enabled })) }

theorem captures_unsuppressed_disabled :
    (exec (Tracing.step byTenant) (ruled false) (loginSpans ++ [.event login])).map captured =
      (exec (Tracing.step byTenant) (ruled true)
        (loginSpans ++ [.event login, .slack .wake])).map captured := by
  obtain ⟨t, ht⟩ : ∃ t, exec (Tracing.step byTenant) (ruled false)
    (loginSpans ++ [.event login]) = some t := ⟨_, rfl⟩
  obtain ⟨t', ht'⟩ : ∃ t', exec (Tracing.step byTenant) (ruled true)
    (loginSpans ++ [.event login, .slack .wake]) = some t' := ⟨_, rfl⟩
  rw [ht, ht']
  have hsame : (ruled false).quiet = (ruled true).quiet := rfl
  have hlabels : (loginSpans ++ [Event.event login]).filterMap traced =
      (loginSpans ++ [Event.event login, .slack .wake]).filterMap traced := rfl
  exact congrArg some (captures_unsuppressed hsame hlabels ht ht')

end Tracing

end Tronc.Notify
