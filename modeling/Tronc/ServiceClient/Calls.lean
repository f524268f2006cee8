import Tronc.ServiceClient.Client

namespace Tronc.ServiceClient

open Mcp (HeaderMap HeaderValue Serde TRACEPARENT TRACESTATE isLoopbackHost)
open Server

section Headers

variable {headers : HeaderMap} {name other : String} {value : HeaderValue}

theorem getAll_insertHeader : (insertHeader headers name value).getAll name = [value] := by
  have dropped : ((headers.filter fun h => h.1 != name).filter fun h => h.1 == name) = [] := by
    rw [List.filter_filter, List.filter_eq_nil_iff]
    intro h _
    simp
  unfold insertHeader HeaderMap.getAll
  rw [List.filter_append, dropped]
  simp

theorem getAll_removeHeader : HeaderMap.getAll (removeHeader headers name) name = [] := by
  unfold removeHeader HeaderMap.getAll
  rw [List.filter_filter, List.map_eq_nil_iff, List.filter_eq_nil_iff]
  intro h _
  simp

/-- What stands under another name stays. -/
theorem getAll_removeHeader_of_ne (headers : HeaderMap) (h : other ≠ name) :
    HeaderMap.getAll (removeHeader headers name) other = headers.getAll other := by
  unfold removeHeader HeaderMap.getAll
  rw [List.filter_filter]
  congr 2
  funext e
  by_cases he : e.1 = other
  · simp [he, h]
  · simp [he]

theorem getAll_insertHeader_of_ne (h : other ≠ name) :
    (insertHeader headers name value).getAll other = headers.getAll other := by
  have apart : (([(name, value)] : HeaderMap).filter fun h => h.1 == other) = [] := by
    simp [Ne.symm h]
  have kept := getAll_removeHeader_of_ne headers h
  unfold removeHeader HeaderMap.getAll at kept
  unfold insertHeader HeaderMap.getAll
  rw [List.filter_append, apart, List.append_nil, kept]

theorem getAll_injectContext_of_ne {context : Option (HeaderValue × HeaderValue)}
    (hparent : other ≠ TRACEPARENT) (hstate : other ≠ TRACESTATE) :
    (injectContext headers context).getAll other = headers.getAll other := by
  cases context with
  | none => rfl
  | some pair =>
    unfold injectContext
    rw [getAll_insertHeader_of_ne hstate, getAll_insertHeader_of_ne hparent]

end Headers

variable {crates : HttpCrates} {serde : Serde}

namespace RequestIds

variable (ids : RequestIds)

theorem headerValueOf_next : headerValueOf ids.next = some (.ofString ids.next) :=
  headerValueOf_usable (mint_usable ids.instanceId ids.sequence)

theorem skip_skip (m n : Nat) : (ids.skip m).skip n = ids.skip (m + n) := by
  unfold skip
  rw [UInt64.ofNat_add, UInt64.add_assoc]

/-- Ids differ as long as the sequence has not come round between them. -/
theorem next_skip_ne {n : Nat} (hpos : 0 < n) (hlt : n < 2 ^ 64) : (ids.skip n).next ≠ ids.next := by
  intro same
  have sequences : ids.sequence + .ofNat n = ids.sequence := (mint_injective same).2
  have none : UInt64.ofNat n = 0 := by simpa using sequences
  have value := congrArg UInt64.toNat none
  rw [UInt64.toNat_ofNat_of_lt' hlt, UInt64.toNat_zero] at value
  omega

end RequestIds

/-- The id of a call's first attempt. -/
def firstId (ids : RequestIds) (first : Conditions) : String := (ids.skip first.elsewhere).next

/-- The id of a call's second attempt, minted after the first one's. -/
def secondId (ids : RequestIds) (first second : Conditions) : String :=
  (ids.skip (first.elsewhere + 1 + second.elsewhere)).next

theorem secondId_ne {ids : RequestIds} {first second : Conditions}
    (h : second.elsewhere + 1 < 2 ^ 64) : firstId ids first ≠ secondId ids first second := by
  unfold firstId secondId
  rw [Nat.add_assoc, ← RequestIds.skip_skip]
  exact (RequestIds.next_skip_ne _ (by omega) (by omega)).symm

/-- How a request that is handed to the HTTP client stands to the one that was asked for. -/
structure Confined (client : Client crates) (c : Conditions) (id : String) (asked out : Outgoing) :
    Prop where
  method : out.method = asked.method
  url : out.url = asked.url
  body : out.body = asked.body
  timeout : out.timeout = asked.timeout
  /-- It goes to the service and nowhere else. -/
  inside : origin out.url = origin client.base
  /-- It carries the token of the client, encrypted, or no credentials, to a loopback. -/
  authorized : client.audience = none ∧ isLoopbackHost client.host = true ∧
      out.headers.getAll AUTHORIZATION = [] ∨
    ∃ token, client.audience ≠ none ∧ c.token = .ok token ∧ out.url.scheme = "https" ∧
      out.headers.getAll AUTHORIZATION = [.ofString ("Bearer " ++ token)]
  id : out.headers.getAll REQUEST_ID_HEADER = [.ofString id]
  others : ∀ name, name ≠ AUTHORIZATION → name ≠ REQUEST_ID_HEADER → name ≠ TRACEPARENT →
    name ≠ TRACESTATE → out.headers.getAll name = asked.headers.getAll name

theorem origin_scheme {url other : ServiceUrl} (h : origin url = origin other)
    (hhost : other.host ≠ none) (hscheme : other.scheme = "https") : url.scheme = "https" := by
  unfold origin at h
  cases ho : other.host with
  | none => exact absurd ho hhost
  | some host =>
    rw [ho, hscheme] at h
    obtain ⟨own, _, hmap⟩ := Option.bind_eq_some_iff.mp h
    obtain ⟨port, _, hpair⟩ := Option.map_eq_some_iff.mp hmap
    exact (Prod.mk.inj hpair).1

/-- The attempt that a call's outcome names. -/
def exchangeOf : Except CallError ServiceResponse → Option Exchange
  | .ok response => some response.exchange
  | .error failure => failure.exchange?

theorem classify_exchange (serde : Serde) (exchange : Exchange) (status : StatusCode) (headers : HeaderMap)
    (body : List UInt8) :
    exchangeOf ((classify serde exchange status headers body).mapError .response) = some exchange := by
  unfold classify
  dsimp only
  split
  · split
    · rfl
    · split <;> rfl
  · rfl

/-- Whatever a response is read as names the exchange it was read in. -/
theorem readResponse_exchange (exchange : Exchange) (status : StatusCode) (headers : HeaderMap)
    (body : Except String (List UInt8)) :
    exchangeOf ((readResponse serde exchange status headers body).mapError .response) =
      some exchange := by
  cases body with
  | ok body => exact classify_exchange serde exchange status headers body
  | error cause =>
    have named := classify_exchange serde exchange status headers []
    unfold readResponse
    dsimp only
    cases hc : classify serde exchange status headers [] with
    | error failure =>
      rw [hc] at named
      exact named
    | ok response => rfl

/-- A response never says that the connection closed before it. -/
theorem readResponse_not_transport {exchange other : Exchange} {status : StatusCode}
    {headers : HeaderMap} {body : Except String (List UInt8)} {failure : TransportFailure}
    {cause : String} :
    (readResponse serde exchange status headers body).mapError CallError.response ≠
      .error (.transport other failure cause) := by
  intro h
  cases hr : readResponse serde exchange status headers body with
  | ok response =>
    rw [hr] at h
    cases h
  | error e =>
    rw [hr] at h
    cases h

/-- What a request needs to be handed to the HTTP client. -/
def Sendable (client : Client crates) (operation : String) (builder : Builder) (c : Conditions) : Prop :=
  ∃ asked value, builder = .ok asked ∧ origin asked.url = origin client.base ∧
    client.authorization operation c.token = .ok value

/-- The connection closes before any response. -/
def Closes (c : Conditions) : Prop :=
  ∃ error elapsed, c.outcome = .failed error elapsed ∧
    TransportFailure.of error = .closedBeforeResponse

/-- All that one attempt can do. -/
inductive Attempts (client : Client crates) (operation : String) (ids : RequestIds)
    (builder : Builder) (resent : Bool) (c : Conditions) : Attempted → Prop where
  | unsent (failure : CallError) (rest : RequestIds) : ¬ Sendable client operation builder c →
      (∀ exchange, failure.exchange? = some exchange → exchange.requestId = firstId ids c ∧
        exchange.resent = resent) →
      (∀ exchange cause, failure ≠ .transport exchange .closedBeforeResponse cause) →
      (∀ asked, builder = .ok asked → origin asked.url = origin client.base →
        failure.exchange? = none) →
      Attempts client operation ids builder resent c ⟨none, .error failure, rest⟩
  | sent (asked out : Outgoing) (result : Except CallError ServiceResponse) :
      Sendable client operation builder c → builder = .ok asked →
      Confined client c (firstId ids c) asked out →
      (∃ exchange, exchangeOf result = some exchange ∧ exchange.requestId = firstId ids c ∧
        exchange.resent = resent) →
      ((∃ exchange cause, result = .error (.transport exchange .closedBeforeResponse cause)) ↔
        Closes c) →
      Attempts client operation ids builder resent c
        ⟨some out, result, (ids.skip c.elsewhere).skip 1⟩

theorem authorization_cases (client : Client crates) (operation : String)
    (token : Except Iam.TokenError String) :
    (client.authorization operation token = .ok none ∧ client.audience = none) ∨
      (∃ text, client.authorization operation token = .ok (some (.ofString ("Bearer " ++ text))) ∧
        client.audience ≠ none ∧ token = .ok text) ∨
      ∃ source, client.authorization operation token =
        .error (.identity client.service operation source) := by
  unfold Client.authorization
  by_cases hnone : client.audience = none
  · rw [if_pos hnone]
    exact .inl ⟨rfl, hnone⟩
  · rw [if_neg hnone]
    cases token with
    | error source => exact .inr (.inr ⟨source, rfl⟩)
    | ok text =>
      dsimp only
      cases hv : headerValueOf ("Bearer " ++ text) with
      | none => exact .inr (.inr ⟨_, rfl⟩)
      | some value =>
        have value_eq : value = .ofString ("Bearer " ++ text) := by
          unfold headerValueOf at hv
          split at hv
          · exact (Option.some.inj hv).symm
          · cases hv
        rw [value_eq]
        exact .inr (.inl ⟨text, rfl, hnone, rfl⟩)

/-- What the headers of a request become on the way out. -/
def outgoingHeaders (asked : HeaderMap) (value : Option HeaderValue) (id : String)
    (context : Option (HeaderValue × HeaderValue)) : HeaderMap :=
  let headers := match value with
    | some value => insertHeader asked AUTHORIZATION value
    | none => removeHeader asked AUTHORIZATION
  injectContext (insertHeader headers REQUEST_ID_HEADER (.ofString id)) context

section Outgoing

variable (asked : HeaderMap) (value : Option HeaderValue) (id : String)
  (context : Option (HeaderValue × HeaderValue))

theorem outgoingHeaders_id :
    (outgoingHeaders asked value id context).getAll REQUEST_ID_HEADER = [.ofString id] := by
  unfold outgoingHeaders
  rw [getAll_injectContext_of_ne (by decide) (by decide), getAll_insertHeader]

theorem outgoingHeaders_authorization :
    (outgoingHeaders asked value id context).getAll AUTHORIZATION = value.toList := by
  unfold outgoingHeaders
  rw [getAll_injectContext_of_ne (by decide) (by decide), getAll_insertHeader_of_ne (by decide)]
  cases value with
  | none => exact getAll_removeHeader
  | some value => exact getAll_insertHeader

theorem outgoingHeaders_others {name : String} (hauth : name ≠ AUTHORIZATION)
    (hid : name ≠ REQUEST_ID_HEADER) (hparent : name ≠ TRACEPARENT) (hstate : name ≠ TRACESTATE) :
    (outgoingHeaders asked value id context).getAll name = asked.getAll name := by
  unfold outgoingHeaders
  rw [getAll_injectContext_of_ne hparent hstate, getAll_insertHeader_of_ne hid]
  cases value with
  | none => exact getAll_removeHeader_of_ne _ hauth
  | some value => exact getAll_insertHeader_of_ne hauth

end Outgoing

/-- What a sent request comes back with names the exchange. -/
theorem received_exchange (client : Client crates) (operation : String) (resent : Bool) (id : String)
    (outcome : Outcome) :
    ∃ exchange, exchangeOf (client.received serde operation resent id outcome) = some exchange ∧
      exchange.requestId = id ∧ exchange.resent = resent := by
  unfold Client.received
  cases outcome with
  | failed error elapsed => exact ⟨_, rfl, rfl, rfl⟩
  | answered status headers body elapsed =>
    exact ⟨_, readResponse_exchange _ status headers body, rfl, rfl⟩

/-- A sent request fails as cut off exactly where the connection closed before any response. -/
theorem received_closes (client : Client crates) (operation : String) (resent : Bool) (id : String)
    (c : Conditions) :
    (∃ exchange cause, client.received serde operation resent id c.outcome =
      .error (.transport exchange .closedBeforeResponse cause)) ↔ Closes c := by
  unfold Closes Client.received
  cases c.outcome with
  | failed error elapsed =>
    constructor
    · rintro ⟨exchange, cause, h⟩
      obtain ⟨_, hfailure, _⟩ := CallError.transport.inj (Except.error.inj h)
      exact ⟨error, elapsed, rfl, hfailure⟩
    · rintro ⟨error', elapsed', h, hfailure⟩
      obtain ⟨rfl, rfl⟩ := Outcome.failed.inj h
      dsimp only
      rw [hfailure]
      exact ⟨_, _, rfl⟩
  | answered status headers body elapsed =>
    constructor
    · rintro ⟨exchange, cause, h⟩
      exact absurd h readResponse_not_transport
    · rintro ⟨error', elapsed', h, _⟩
      cases h

/-- A request that goes out carries what the client puts on it, and goes nowhere else. -/
theorem outgoing_confined {client : Client crates} {c : Conditions} {id : String} {asked : Outgoing}
    {value : Option HeaderValue} (horigin : origin asked.url = origin client.base)
    (hauth : client.audience = none ∧ value = none ∨ ∃ token, client.audience ≠ none ∧
      c.token = .ok token ∧ value = some (.ofString ("Bearer " ++ token))) :
    Confined client c id asked
      { asked with headers := outgoingHeaders asked.headers value id c.context } := by
  refine ⟨rfl, rfl, rfl, rfl, horigin, ?_, outgoingHeaders_id asked.headers value _ c.context,
    fun name => outgoingHeaders_others asked.headers value _ c.context⟩
  dsimp only
  rw [outgoingHeaders_authorization]
  rcases hauth with ⟨hnone, rfl⟩ | ⟨token, hsome, htoken, rfl⟩
  · exact .inl ⟨hnone, client.gated.mp hnone, rfl⟩
  · refine .inr ⟨token, hsome, htoken, ?_, rfl⟩
    refine origin_scheme horigin ?_ (client.secure hsome)
    rw [client.named]
    exact Option.some_ne_none _

theorem attempt_cases (serde : Serde) (client : Client crates) (operation : String) (ids : RequestIds)
    (builder : Builder) (resent : Bool) (c : Conditions) :
    Attempts client operation ids builder resent c
      (client.attempt serde operation ids builder resent c) := by
  have unsendable (cause : String) (rest : RequestIds) (h : ¬ Sendable client operation builder c)
      (outside : ∀ asked, builder = .ok asked → origin asked.url ≠ origin client.base) :
      Attempts client operation ids builder resent c
        ⟨none, .error (client.unsendable operation resent (ids.skip c.elsewhere) cause), rest⟩ := by
    refine .unsent _ rest h ?_ ?_ fun asked ha hinside => absurd hinside (outside asked ha)
    · intro exchange hexchange
      rw [← Option.some.inj hexchange]
      exact ⟨rfl, rfl⟩
    · intro exchange cause h
      cases (CallError.transport.inj h).2.1
  cases builder with
  | error cause =>
    refine unsendable cause _ ?_ fun asked h => by cases h
    rintro ⟨asked, value, h, _⟩
    cases h
  | ok asked =>
    unfold Client.attempt
    dsimp only
    by_cases horigin : origin asked.url = origin client.base
    · rw [if_neg (not_not_intro horigin), RequestIds.headerValueOf_next]
      have sent (value : Option HeaderValue)
          (hvalue : client.authorization operation c.token = .ok value)
          (hauth : client.audience = none ∧ value = none ∨ ∃ token, client.audience ≠ none ∧
            c.token = .ok token ∧ value = some (.ofString ("Bearer " ++ token))) :
          Attempts client operation ids (.ok asked) resent c
            ⟨some { asked with
                headers := outgoingHeaders asked.headers value (firstId ids c) c.context },
              client.received serde operation resent (firstId ids c) c.outcome,
              (ids.skip c.elsewhere).skip 1⟩ :=
        .sent asked _ _ ⟨asked, value, rfl, horigin, hvalue⟩ rfl (outgoing_confined horigin hauth)
          (received_exchange client operation resent _ c.outcome)
          (received_closes client operation resent _ c)
      rcases authorization_cases client operation c.token with ⟨ha, hnone⟩ | ⟨text, ha, hsome, ht⟩ |
        ⟨source, ha⟩
      · rw [ha]
        exact sent none ha (.inl ⟨hnone, rfl⟩)
      · rw [ha]
        exact sent _ ha (.inr ⟨text, hsome, ht, rfl⟩)
      · rw [ha]
        refine .unsent _ _ ?_ (fun _ h => by cases h) (fun _ _ h => by cases h) fun _ _ _ => rfl
        rintro ⟨_, value, _, _, hvalue⟩
        rw [ha] at hvalue
        cases hvalue
    · rw [if_pos horigin]
      have outside (asked' : Outgoing) (h : (Except.ok asked : Builder) = .ok asked') :
          origin asked'.url ≠ origin client.base := by
        rw [← Except.ok.inj h]
        exact horigin
      refine unsendable _ _ ?_ outside
      rintro ⟨asked', value, h, hinside, _⟩
      exact outside asked' h hinside

/-- All that a call can do. -/
inductive Sends (request : ServiceRequest crates) (ids : RequestIds) (first second : Conditions) :
    Sending → Prop where
  /-- Nothing can be sent. -/
  | unsent (failure : CallError) :
      (request.refused = none → ¬ Sendable request.client request.operation request.builder first) →
      (∀ exchange, failure.exchange? = some exchange → exchange.requestId = firstId ids first ∧
        exchange.resent = false) →
      Sends request ids first second ⟨[], .error failure⟩
  /-- One attempt settles it. -/
  | once (asked out : Outgoing) (result : Except CallError ServiceResponse) :
      request.refused = none → request.builder = .ok asked →
      Confined request.client first (firstId ids first) asked out →
      Sendable request.client request.operation request.builder first →
      (Closes first → request.resendAfterClose = false) →
      (∃ exchange, exchangeOf result = some exchange ∧ exchange.requestId = firstId ids first ∧
        exchange.resent = false) →
      Sends request ids first second ⟨[out], result⟩
  /-- A read whose connection closed is not sent again for want of a token. -/
  | given (asked out : Outgoing) (failure : CallError) :
      request.refused = none → request.builder = .ok asked →
      Confined request.client first (firstId ids first) asked out →
      ¬ Sendable request.client request.operation request.builder second →
      failure.exchange? = none → Sends request ids first second ⟨[out], .error failure⟩
  | twice (asked out again : Outgoing) (result : Except CallError ServiceResponse) :
      request.refused = none → request.builder = .ok asked →
      request.resendAfterClose = true → Closes first →
      Confined request.client first (firstId ids first) asked out →
      Confined request.client second (secondId ids first second) asked again →
      Sendable request.client request.operation request.builder first →
      Sendable request.client request.operation request.builder second →
      (∃ exchange, exchangeOf result = some exchange ∧
        exchange.requestId = secondId ids first second ∧ exchange.resent = true) →
      Sends request ids first second ⟨[out, again], result⟩

/-- A second attempt is made of a read whose first one saw the connection close, and of no other. -/
theorem send_eq (serde : Serde) (request : ServiceRequest crates) (ids : RequestIds)
    (first second : Conditions) (h : request.refused = none) :
    let one := request.client.attempt serde request.operation ids request.builder false first
    (∃ asked exchange cause, request.resendAfterClose = true ∧ request.builder = .ok asked ∧
        one.result = .error (.transport exchange .closedBeforeResponse cause) ∧
        let two := request.client.attempt serde request.operation one.ids request.builder true second
        request.send serde ids first second = ⟨one.sent.toList ++ two.sent.toList, two.result⟩) ∨
      (request.resendAfterClose = true → ∀ asked, request.builder = .ok asked →
        ∀ exchange cause, one.result ≠ .error (.transport exchange .closedBeforeResponse cause)) ∧
        request.send serde ids first second = ⟨one.sent.toList, one.result⟩ := by
  intro one
  unfold ServiceRequest.send
  rw [h]
  dsimp only
  split
  · rename_i spare result asked exchange cause hspare hresult
    split at hspare
    · rename_i hresend
      have hbuilder : request.builder = .ok asked := by
        cases hb : request.builder with
        | error why =>
          rw [hb] at hspare
          cases hspare
        | ok out =>
          rw [hb] at hspare
          rw [Option.some.inj hspare]
      refine .inl ⟨asked, exchange, cause, hresend, hbuilder, hresult, ?_⟩
      rw [← hbuilder]
    · cases hspare
  · rename_i hnone
    refine .inr ⟨fun hresend asked hbuilder exchange cause hresult => ?_, rfl⟩
    refine hnone asked exchange cause ?_ hresult
    rw [if_pos hresend, hbuilder]
    rfl

theorem send_cases (serde : Serde) (request : ServiceRequest crates) (ids : RequestIds)
    (first second : Conditions) :
    Sends request ids first second (request.send serde ids first second) := by
  cases hrefused : request.refused with
  | some cause =>
    unfold ServiceRequest.send
    rw [hrefused]
    refine .unsent _ (by rw [hrefused]; exact nofun) ?_
    intro exchange hexchange
    rw [← Option.some.inj hexchange]
    exact ⟨rfl, rfl⟩
  | none =>
    have one := attempt_cases serde request.client request.operation ids request.builder false first
    rcases send_eq serde request ids first second hrefused with
      ⟨asked, exchange, cause, hresend, hbuilder, hresult, hsend⟩ | ⟨hstop, hsend⟩
    · rw [hsend]
      have two := attempt_cases serde request.client request.operation
        (request.client.attempt serde request.operation ids request.builder false first).ids
        request.builder true second
      generalize request.client.attempt serde request.operation ids request.builder false first = a at *
      generalize request.client.attempt serde request.operation a.ids request.builder true second = b at *
      cases one with
      | unsent failure rest _ _ hclosed _ => exact absurd (Except.error.inj hresult) (hclosed _ _)
      | sent asked' out result hsendable hbuilder' hconfined _ hcloses =>
        have same : asked' = asked := Except.ok.inj (hbuilder'.symm.trans hbuilder)
        subst same
        have closes := hcloses.mp ⟨exchange, cause, hresult⟩
        -- the second attempt mints after the first one
        have later : firstId ((ids.skip first.elsewhere).skip 1) second =
            secondId ids first second := by
          unfold firstId secondId
          rw [RequestIds.skip_skip, RequestIds.skip_skip, Nat.add_assoc]
        cases two with
        | unsent failure rest hunsendable _ _ hidentity =>
          exact .given asked' out failure hrefused hbuilder hconfined hunsendable
            (hidentity asked' hbuilder (hconfined.url ▸ hconfined.inside))
        | sent asked'' again result' hsendable' hbuilder'' hconfined' hexchange' _ =>
          have same : asked'' = asked' := Except.ok.inj (hbuilder''.symm.trans hbuilder)
          subst same
          rw [later] at hconfined' hexchange'
          exact .twice asked'' out again result' hrefused hbuilder hresend closes hconfined hconfined'
            hsendable hsendable' hexchange'
    · rw [hsend]
      generalize request.client.attempt serde request.operation ids request.builder false first = a at *
      cases one with
      | unsent failure rest hunsendable hexchange _ _ =>
        exact .unsent failure (fun _ => hunsendable) hexchange
      | sent asked out result hsendable hbuilder hconfined hexchange hcloses =>
        refine .once asked out result hrefused hbuilder hconfined hsendable (fun closes => ?_) hexchange
        obtain ⟨exchange, cause, hresult⟩ := hcloses.mpr closes
        by_contra hresend
        exact hstop (Bool.eq_true_of_not_eq_false hresend) asked hbuilder exchange cause hresult

/-- Whatever a caller sets on a request, and whatever its path, what each attempt hands to the HTTP
client goes to the client's own service, with the token that this attempt was given over https or, on
a loopback, with no credentials at all, and under the id minted for this attempt; the second attempt's
is another one than the first one's, unless the process's sequence comes round between them. -/
theorem sends_confined (serde : Serde) (request : ServiceRequest crates) (ids : RequestIds)
    (first second : Conditions) :
    let sending := request.send serde ids first second
    (∀ out, sending.sent[0]? = some out → ∃ asked, request.builder = .ok asked ∧
      Confined request.client first (firstId ids first) asked out) ∧
    (∀ out, sending.sent[1]? = some out → ∃ asked, request.builder = .ok asked ∧
      Confined request.client second (secondId ids first second) asked out) ∧
    sending.sent.length ≤ 2 ∧
    (second.elsewhere + 1 < 2 ^ 64 → firstId ids first ≠ secondId ids first second) := by
  intro sending
  have sends : Sends request ids first second sending := send_cases serde request ids first second
  generalize sending = s at *
  cases sends with
  | unsent failure _ _ =>
    refine ⟨?_, ?_, Nat.zero_le _, secondId_ne⟩
    · intro out h
      cases h
    · intro out h
      cases h
  | once asked only result _ hbuilder hconfined _ _ _ =>
    refine ⟨?_, ?_, Nat.le_succ _, secondId_ne⟩
    · intro out h
      rw [← Option.some.inj h]
      exact ⟨asked, hbuilder, hconfined⟩
    · intro out h
      cases h
  | given asked only failure _ hbuilder hconfined _ _ =>
    refine ⟨?_, ?_, Nat.le_succ _, secondId_ne⟩
    · intro out h
      rw [← Option.some.inj h]
      exact ⟨asked, hbuilder, hconfined⟩
    · intro out h
      cases h
  | twice asked one again result _ hbuilder _ _ hconfined hconfined' _ _ _ =>
    refine ⟨?_, ?_, Nat.le_refl _, secondId_ne⟩
    · intro out h
      rw [← Option.some.inj h]
      exact ⟨asked, hbuilder, hconfined⟩
    · intro out h
      rw [← Option.some.inj h]
      exact ⟨asked, hbuilder, hconfined'⟩

/-- A call hands over two requests exactly where it is a read whose first request saw the connection
close before any response and whose second attempt gets its token, and never more; and what it answers
names the last one it handed over. -/
theorem resends_reads_only (serde : Serde) (request : ServiceRequest crates) (ids : RequestIds)
    (first second : Conditions) :
    let sending := request.send serde ids first second
    sending.sent.length ≤ 2 ∧
      (sending.sent.length = 2 ↔ request.refused = none ∧ request.resendAfterClose = true ∧
        Sendable request.client request.operation request.builder first ∧ Closes first ∧
        Sendable request.client request.operation request.builder second) ∧
      (sending.sent.length = 2 → ∀ out ∈ sending.sent, out.method = .get) ∧
      ∀ exchange, exchangeOf sending.result = some exchange →
        (exchange.resent = true ↔ sending.sent.length = 2) ∧
        (sending.sent = [] → exchange.requestId = firstId ids first) ∧
        ∀ out, sending.sent.getLast? = some out →
          out.headers.getAll REQUEST_ID_HEADER = [.ofString exchange.requestId] := by
  intro sending
  have sends : Sends request ids first second sending := send_cases serde request ids first second
  generalize sending = s at *
  cases sends with
  | unsent failure hunsendable hexchange =>
    refine ⟨Nat.zero_le _, ⟨nofun, fun h => absurd h.2.2.1 (hunsendable h.1)⟩, nofun, ?_⟩
    intro exchange h
    obtain ⟨hid, hresent⟩ := hexchange exchange h
    refine ⟨by simp [hresent], fun _ => hid, ?_⟩
    intro out hlast
    cases hlast
  | once asked out result hrefused hbuilder hconfined hsendable hstops hexchange =>
    refine ⟨Nat.le_succ _, ⟨nofun, fun h => ?_⟩, nofun, ?_⟩
    · have read := h.2.1
      rw [hstops h.2.2.2.1] at read
      cases read
    · intro exchange h
      obtain ⟨named, hnamed, hid, hresent⟩ := hexchange
      obtain rfl := Option.some.inj (hnamed.symm.trans h)
      refine ⟨by simp [hresent], nofun, fun last hlast => ?_⟩
      rw [← Option.some.inj hlast, hid]
      exact hconfined.id
  | given asked out failure hrefused hbuilder hconfined hunsendable hidentity =>
    refine ⟨Nat.le_succ _, ⟨nofun, fun h => absurd h.2.2.2.2 hunsendable⟩, nofun, ?_⟩
    intro exchange h
    have none : failure.exchange? = some exchange := h
    rw [hidentity] at none
    cases none
  | twice asked out again result hrefused hbuilder hresend hcloses hconfined hconfined' hsendable
      hsendable' hexchange =>
    have read : asked.method = .get := request.reads hresend asked hbuilder
    refine ⟨Nat.le_refl _, ⟨fun _ => ⟨hrefused, hresend, hsendable, hcloses, hsendable'⟩,
      fun _ => rfl⟩, fun _ each heach => ?_, ?_⟩
    · rcases List.mem_cons.mp heach with rfl | heach
      · exact hconfined.method.trans read
      · rw [List.mem_singleton.mp heach]
        exact hconfined'.method.trans read
    · intro exchange h
      obtain ⟨named, hnamed, hid, hresent⟩ := hexchange
      obtain rfl := Option.some.inj (hnamed.symm.trans h)
      refine ⟨by simp [hresent], nofun, fun last hlast => ?_⟩
      rw [← Option.some.inj hlast, hid]
      exact hconfined'.id

def noSerde : Serde := ⟨fun _ => .error "EOF while parsing a value", fun _ => none, fun _ => "", fun _ => ""⟩

def searchUrl (path : String) : ServiceUrl :=
  ⟨"https", "", none, some "search.internal", none, path, none, none⟩

/-- The crates, where a service at `search.internal` is asked a query. -/
def searchHttp : HttpCrates where
  parse text :=
    if text = "https://search.internal" then .ok (searchUrl "/") else .error "relative URL without a base"
  sendable text :=
    if text = "https://search.internal/query" then .ok (searchUrl "/query") else .error "builder error"
  appendPairs query _ := query
  header name value := .ok (name, .ofString value)

def searchClient : Client searchHttp where
  service := "search"
  baseUrl := "https://search.internal"
  base := searchUrl "/"
  audience := some "https://search.internal"
  host := "search.internal"
  parsed := by decide
  named := rfl
  scheme := .inr rfl
  gated := by decide +kernel
  secure := fun _ => rfl

/-- A read that brings credentials of its own. -/
def searchQuery : ServiceRequest searchHttp :=
  (searchClient.get "query" "/query").header AUTHORIZATION "Basic c2VjcmV0"

def closing : Conditions where
  elsewhere := 1
  token := .ok "a.b.c"
  context := none
  outcome := .failed ⟨false, false, [.other, .hyper true false], "connection closed"⟩ 3

def answering : Conditions where
  elsewhere := 1
  token := .ok "d.e.f"
  context := none
  outcome := .answered .OK [] (.ok []) 5

def sentHeaders (sending : Sending) : List (List HeaderValue × List HeaderValue) :=
  sending.sent.map fun out => (out.headers.getAll AUTHORIZATION, out.headers.getAll REQUEST_ID_HEADER)

/-- A second request goes out under an id and with a token of its own. -/
example : sentHeaders (searchQuery.send noSerde ⟨7, 0⟩ closing answering) =
    [([.ofString "Bearer a.b.c"], [.ofString "0000000000000007-1"]),
      ([.ofString "Bearer d.e.f"], [.ofString "0000000000000007-3"])] := by
  decide +kernel

end Tronc.ServiceClient
