import Tronc.Mcp.Encoding
import Tronc.Mcp.RoundTrip
import Tronc.ServiceClient.Response

namespace Tronc.ServiceClient

open Mcp (Crates HeaderMap HeaderValue Serde toText)
open Mcp.JsonRpcMessage (ReadsBack)
open Server

/-- What `serde_json` does with the bodies that a client meets: what it wrote of these values it
reads back, and of an empty text it reads nothing. -/
structure ReadsAnswers (crates : Crates) (serde : Serde) (refloat : Double → Option Double)
    (answers : List Json) : Prop where
  reads : ∀ v ∈ answers, ReadsBack crates serde refloat v
  nothing : ∃ e, serde.fromStr "" = .error e

/-- The bodies of a shed, of a deadline and of a panic, these two with any message and with the
guard's own. -/
def guardBodies (marker reason message : String) (wait : UInt64) (deadline : Nat)
    (requestId : String) : List Json :=
  [shedBody marker reason wait,
    ErrorResponse.toValue ⟨⟨REQUEST_TIMEOUT, message⟩⟩,
    ErrorResponse.toValue ⟨⟨HANDLER_PANIC, message⟩⟩,
    ErrorResponse.toValue ⟨⟨REQUEST_TIMEOUT, deadlineMessage deadline⟩⟩,
    ErrorResponse.toValue ⟨⟨HANDLER_PANIC, panicMessage requestId⟩⟩]

/-- An answer is sorted into this failure, whatever headers it comes under. -/
def SortedAs (serde : Serde) (exchange : Exchange) (response : Response) (failure : ServiceError) :
    Prop :=
  ∀ headers, classify serde exchange response.status headers response.body = .error failure

/-- What the status and the headers of an answer tell without its body. -/
def toldByHead (exchange : Exchange) (status : StatusCode) (headers : HeaderMap) :
    Option ServiceError :=
  if status = .SERVICE_UNAVAILABLE then
    some (.shed exchange status ((headerWait headers).getD DEFAULT_SHED_RETRY_AFTER_SECS) none)
  else if status = .GATEWAY_TIMEOUT then
    some (.unfinished exchange status .gatewayDeadline none)
  else if status = .BAD_GATEWAY then some (.unfinished exchange status .badGateway none)
  else none

section Read

variable {crates : Crates} {serde : Serde} {refloat : Double → Option Double}
  {exchange : Exchange} {headers : HeaderMap}

theorem fromSlice_toText {v : Json} (hreads : ReadsBack crates serde refloat v)
    (hdepth : v.depth ≤ 127) (hplain : ∀ d, ¬ v.Doubled d) :
    fromSlice serde (Text.utf8 (toText crates v)) =
      some (v.reread fun d => (refloat d).getD d) := by
  have htext := hreads.reads hdepth fun d hd => absurd hd (hplain d)
  unfold fromSlice
  rw [Text.fromUtf8_utf8, Option.bind_some, htext]
  rfl

theorem fromSlice_nil (hnothing : ∃ e, serde.fromStr "" = .error e) :
    fromSlice serde [] = none := by
  obtain ⟨e, he⟩ := hnothing
  have hempty := Text.fromUtf8_utf8 ""
  unfold fromSlice
  rw [show ([] : List UInt8) = Text.utf8 "" from rfl, hempty, Option.bind_some, he]
  rfl

/-- A wait in its decimal text is read back from the header. -/
theorem headerWait_of_getHeader {wait : UInt64}
    (h : getHeader headers RETRY_AFTER = some (.ofString (toString wait.toNat))) :
    headerWait headers = some wait := by
  have hdigit : ∀ c ∈ (toString wait.toNat).toList, 48 ≤ c.toNat ∧ c.toNat ≤ 57 := by
    intro c hc
    have hc : c.isDigit = true := Mcp.isDigit_repr hc
    rw [Char.isDigit, Bool.and_eq_true, decide_eq_true_eq, decide_eq_true_eq] at hc
    exact ⟨UInt32.le_iff_toNat_le.mp hc.1, UInt32.le_iff_toNat_le.mp hc.2⟩
  have hpermitted : (toString wait.toNat).toList.all Mcp.isPermittedChar = true := by
    rw [List.all_eq_true]
    intro c hc
    obtain ⟨hlow, hhigh⟩ := hdigit c hc
    simp only [Mcp.isPermittedChar, Bool.or_eq_true, beq_iff_eq, Bool.and_eq_true,
      decide_eq_true_eq]
    omega
  have hsolid : ∀ c ∈ (toString wait.toNat).toList, Text.isWhitespace c = false := by
    intro c hc
    obtain ⟨hlow, hhigh⟩ := hdigit c hc
    simp only [Text.isWhitespace, Bool.or_eq_false_iff, beq_eq_false_iff_ne,
      decide_eq_false_iff_not]
    omega
  have htrim : Text.trim (toString wait.toNat) = toString wait.toNat := by
    apply Text.trim_eq_self
    · exact fun c hc => hsolid c (List.mem_of_mem_head? hc)
    · exact fun c hc => hsolid c (List.mem_of_getLast? hc)
  have hread : Notify.parseU64 (toString wait.toNat) = some wait.toNat :=
    Notify.parseU64_repr wait
  unfold headerWait
  rw [h, Option.bind_some, Mcp.toStr_ofString hpermitted, Option.bind_some, htrim, hread,
    Option.map_some, UInt64.ofNat_toNat]

theorem classify_success {status : StatusCode} (h : status.isSuccess = true) (body : List UInt8) :
    classify serde exchange status headers body = .ok ⟨exchange, status, headers, body⟩ := by
  unfold classify
  rw [h]
  rfl

theorem classify_unread {status : StatusCode} {body : List UInt8}
    (h : fromSlice serde body = none) :
    classify serde exchange status headers body =
      match toldByHead exchange status headers with
      | some failure => .error failure
      | none => .ok ⟨exchange, status, headers, body⟩ := by
  by_cases hsuccess : status.isSuccess = true
  · have htold : toldByHead exchange status headers = none := by
      unfold toldByHead
      rw [if_neg, if_neg, if_neg] <;>
        · rintro rfl
          exact absurd hsuccess (by decide)
    rw [classify_success hsuccess, htold]
  · unfold classify toldByHead
    rw [if_pos (by simpa using hsuccess), h]
    simp only [Option.bind_none, Option.isSome_none, Bool.false_eq_true, or_false, Option.none_or,
      Option.map_none]
    by_cases hshed : status = .SERVICE_UNAVAILABLE
    · rw [if_pos hshed, if_pos hshed]
    · rw [if_neg hshed, if_neg hshed]
      unfold unfinishedKind
      by_cases htimeout : status = .GATEWAY_TIMEOUT
      · simp [htimeout]
      · by_cases hgateway : status = .BAD_GATEWAY
        · have hne : StatusCode.BAD_GATEWAY ≠ .GATEWAY_TIMEOUT := by decide
          simp [hgateway, hne]
        · simp [htimeout, hgateway]

theorem readResponse_cut (hnothing : ∃ e, serde.fromStr "" = .error e) (status : StatusCode)
    (cause : String) :
    readResponse serde exchange status headers (.error cause) =
      .error ((toldByHead exchange status headers).getD (.body exchange status cause)) := by
  unfold readResponse
  dsimp only
  rw [classify_unread (fromSlice_nil hnothing)]
  cases toldByHead exchange status headers with
  | none => rfl
  | some failure => rfl

theorem get_fromSlice {fields : Map} (hreads : ReadsBack crates serde refloat (.object fields))
    (hdepth : (Json.object fields).depth ≤ 127) (hplain : ∀ d, ¬ (Json.object fields).Doubled d)
    (hkeys : fields.keys.Nodup) (key : String) :
    (fromSlice serde (Text.utf8 (toText crates (.object fields)))).bind (Json.get · key) =
      (fields.get key).map (Json.reread fun d => (refloat d).getD d) := by
  rw [fromSlice_toText hreads hdepth hplain, Option.bind_some]
  exact Json.get_reread _ hkeys key

/-- A record is read of what its object was written as, each member as it is read. -/
theorem read_reread {α : Type} (read : Double → Double) {fields : Map} {names : List String}
    {least : Nat} {ofFields : (String → Option Json) → Option α} (hkeys : fields.keys.Nodup) :
    Record.read names least ofFields ((Json.object fields).reread read) =
      ofFields fun key => (fields.get key).map (Json.reread read) := by
  unfold Json.reread Record.read
  dsimp only
  congr 1
  funext key
  exact Json.get_reread read hkeys key

/-- A shed is read with the wait and the reason it was written with. -/
theorem classify_shedResponse {marker reason : String} {wait : UInt64}
    (hreads : ReadsBack crates serde refloat (shedBody marker reason wait)) :
    SortedAs serde exchange (shedResponse crates marker reason wait)
      (.shed exchange .SERVICE_UNAVAILABLE wait (some reason)) := by
  have hplain : ∀ d, ¬ (shedBody marker reason wait).Doubled d := by
    intro d h
    simp only [shedBody, Json.doubled_object, List.exists_mem_cons_iff, Record.u64,
      Json.doubled_number, Json.not_doubled_string, List.not_mem_nil, false_and, exists_false,
      reduceCtorEq, or_self] at h
  have hdepth : (shedBody marker reason wait).depth ≤ 127 := by
    simp [shedBody, Record.u64, Json.depth, Json.depthMembers]
  have hkeys : ["error", SHED_REASON_FIELD, RETRY_AFTER_SECS_FIELD].Nodup := by decide
  have hget := get_fromSlice hreads hdepth hplain hkeys
  have hwait : ((fromSlice serde (Text.utf8 (toText crates (shedBody marker reason wait)))).bind
      (Json.get · RETRY_AFTER_SECS_FIELD)).bind Record.readU64 = some wait := by
    unfold shedBody
    rw [hget]
    simp [Map.get, List.lookup_cons, RETRY_AFTER_SECS_FIELD, SHED_REASON_FIELD, Record.u64,
      Json.reread, Record.readU64]
  have hreason : ((fromSlice serde (Text.utf8 (toText crates (shedBody marker reason wait)))).bind
      (Json.get · SHED_REASON_FIELD)).bind Json.asStr = some reason := by
    unfold shedBody
    rw [hget]
    simp [Map.get, List.lookup_cons, SHED_REASON_FIELD, Json.reread, Json.asStr]
  have hstatus : (shedResponse crates marker reason wait).status = .SERVICE_UNAVAILABLE := rfl
  have hfailed : (!StatusCode.SERVICE_UNAVAILABLE.isSuccess) = true := rfl
  intro headers
  rw [shedResponse_body, hstatus]
  unfold classify
  dsimp only
  rw [hwait, hreason, if_pos hfailed, if_pos (.inl rfl), Option.some_or, Option.getD_some]

/-- A failure of the guard is read with its own type and message, and names no wait. -/
theorem fromSlice_failureResponse (status : StatusCode) {errorType message : String}
    (hreads : ReadsBack crates serde refloat (ErrorResponse.toValue ⟨⟨errorType, message⟩⟩)) :
    ∃ json, fromSlice serde (failureResponse crates status errorType message).body = some json ∧
      json.get RETRY_AFTER_SECS_FIELD = none ∧
      ErrorResponse.fromValue json = some ⟨⟨errorType, message⟩⟩ := by
  have hplain : ∀ d, ¬ (ErrorResponse.toValue ⟨⟨errorType, message⟩⟩).Doubled d := by
    intro d h
    simp only [ErrorResponse.toValue, ErrorDetail.toValue, Json.doubled_object,
      List.exists_mem_cons_iff, Json.not_doubled_string, List.not_mem_nil, false_and, exists_false,
      or_self] at h
  have hdepth : (ErrorResponse.toValue ⟨⟨errorType, message⟩⟩).depth ≤ 127 := by
    simp [ErrorResponse.toValue, ErrorDetail.toValue, Json.depth, Json.depthMembers]
  let read : Double → Double := fun d => (refloat d).getD d
  have herror : (Map.keys [("error", ErrorDetail.toValue ⟨errorType, message⟩)]).Nodup :=
    (by decide : ["error"].Nodup)
  have hnames : (Map.keys [("type", .string errorType), ("message", .string message)]).Nodup :=
    (by decide : ["type", "message"].Nodup)
  have hdetail : ErrorDetail.fromValue ((ErrorDetail.toValue ⟨errorType, message⟩).reread read) =
      some ⟨errorType, message⟩ := by
    unfold ErrorDetail.toValue ErrorDetail.fromValue
    rw [read_reread read hnames]
    simp [Map.get, List.lookup_cons, Json.reread, Json.asStr]
  rw [failureResponse_body]
  refine ⟨_, fromSlice_toText hreads hdepth hplain, ?_, ?_⟩
  · unfold ErrorResponse.toValue Json.reread Json.get
    dsimp only
    rw [Json.get_reread read herror]
    simp [Map.get, List.lookup_cons, RETRY_AFTER_SECS_FIELD]
  · unfold ErrorResponse.toValue ErrorResponse.fromValue
    rw [read_reread read herror]
    simp [Map.get, hdetail]

/-- A failure of the guard is sorted by its status and its type, under its own message. -/
theorem classify_failureResponse {status : StatusCode} {errorType message : String}
    {kind : Unfinished}
    (hreads : ReadsBack crates serde refloat (ErrorResponse.toValue ⟨⟨errorType, message⟩⟩))
    (hfailed : status.isSuccess = false) (hshed : status ≠ .SERVICE_UNAVAILABLE)
    (hkind : unfinishedKind status (some ⟨⟨errorType, message⟩⟩) = some kind) :
    SortedAs serde exchange (failureResponse crates status errorType message)
      (.unfinished exchange status kind (some message)) := by
  have hstatus : (failureResponse crates status errorType message).status = status := rfl
  intro headers
  obtain ⟨json, hjson, hwait, hguard⟩ := fromSlice_failureResponse status hreads
  rw [hstatus]
  unfold classify
  dsimp only
  rw [hfailed, hjson, Option.bind_some, Option.bind_some, Option.bind_some, hwait, hguard, hkind]
  exact if_neg (not_or.mpr ⟨hshed, Bool.false_ne_true⟩)

/-- What the deadline answers is a request that the service's own deadline dropped. -/
theorem classify_timeout {message : String} (hreads : ReadsBack crates serde refloat
    (ErrorResponse.toValue ⟨⟨REQUEST_TIMEOUT, message⟩⟩)) :
    SortedAs serde exchange (failureResponse crates .GATEWAY_TIMEOUT REQUEST_TIMEOUT message)
      (.unfinished exchange .GATEWAY_TIMEOUT .serviceDeadline (some message)) := by
  apply classify_failureResponse hreads rfl (by decide)
  unfold unfinishedKind
  rw [if_pos ⟨rfl, rfl⟩]

/-- What the guard answers for a panic is a request whose handler panicked. -/
theorem classify_panic {message : String} (hreads : ReadsBack crates serde refloat
    (ErrorResponse.toValue ⟨⟨HANDLER_PANIC, message⟩⟩)) :
    SortedAs serde exchange (failureResponse crates .INTERNAL_SERVER_ERROR HANDLER_PANIC message)
      (.unfinished exchange .INTERNAL_SERVER_ERROR .handlerPanic (some message)) := by
  apply classify_failureResponse hreads rfl (by decide)
  unfold unfinishedKind
  rw [if_neg (fun h => absurd h.1 (by decide)), if_neg (by decide), if_neg (by decide),
    if_pos ⟨rfl, rfl⟩]

theorem SortedAs.guarded {response : Response} {failure : ServiceError}
    (h : SortedAs serde exchange response failure) (minted : String) (requestHeaders : HeaderMap) :
    SortedAs serde exchange (guardRequests crates minted requestHeaders (some response))
      failure := by
  obtain ⟨headers, hguard, _⟩ := guardRequests_some crates minted requestHeaders response
  rw [hguard]
  exact h

/-- A shed whose body did not arrive keeps the wait that its header names, also behind the guard. -/
theorem readResponse_cut_shed (hnothing : ∃ e, serde.fromStr "" = .error e)
    (marker reason : String) (wait : UInt64) (minted : String) (requestHeaders : HeaderMap)
    (cause : String) :
    readResponse serde exchange .SERVICE_UNAVAILABLE (guardRequests crates minted requestHeaders
        (some (shedResponse crates marker reason wait))).headers (.error cause) =
      .error (.shed exchange .SERVICE_UNAVAILABLE wait none) := by
  obtain ⟨headers, hguard, hkept⟩ := guardRequests_some crates minted requestHeaders
    (shedResponse crates marker reason wait)
  have hnamed : getHeader headers RETRY_AFTER = some (.ofString (toString wait.toNat)) := by
    rw [hkept RETRY_AFTER (by decide)]
    exact getHeader_insertHeader
  rw [hguard, readResponse_cut hnothing]
  unfold toldByHead
  rw [if_pos rfl, headerWait_of_getHeader hnamed, Option.getD_some, Option.getD_some]

/-- The client reads back what the server's guard writes, and of a body that did not arrive what the
status and the headers tell. -/
theorem client_reads_guard {marker reason message : String} {wait : UInt64} {deadline : Nat}
    (minted : String) (requestHeaders : HeaderMap)
    (hreads : ReadsAnswers crates serde refloat (guardBodies marker reason message wait deadline
      (requestIdOf minted requestHeaders))) (exchange : Exchange) :
    SortedAs serde exchange (shedResponse crates marker reason wait)
        (.shed exchange .SERVICE_UNAVAILABLE wait (some reason)) ∧
      SortedAs serde exchange (failureResponse crates .GATEWAY_TIMEOUT REQUEST_TIMEOUT message)
        (.unfinished exchange .GATEWAY_TIMEOUT .serviceDeadline (some message)) ∧
      SortedAs serde exchange (failureResponse crates .INTERNAL_SERVER_ERROR HANDLER_PANIC message)
        (.unfinished exchange .INTERNAL_SERVER_ERROR .handlerPanic (some message)) ∧
      SortedAs serde exchange (enforceDeadline crates deadline none)
        (.unfinished exchange .GATEWAY_TIMEOUT .serviceDeadline (some (deadlineMessage deadline))) ∧
      SortedAs serde exchange (guardRequests crates minted requestHeaders none)
        (.unfinished exchange .INTERNAL_SERVER_ERROR .handlerPanic
          (some (panicMessage (requestIdOf minted requestHeaders)))) ∧
      (∀ status headers body, status.isSuccess = true →
        classify serde exchange status headers body = .ok ⟨exchange, status, headers, body⟩) ∧
      (∀ status headers cause, readResponse serde exchange status headers (.error cause) =
        .error ((toldByHead exchange status headers).getD (.body exchange status cause))) ∧
      (∀ cause, readResponse serde exchange .SERVICE_UNAVAILABLE (guardRequests crates minted
          requestHeaders (some (shedResponse crates marker reason wait))).headers (.error cause) =
        .error (.shed exchange .SERVICE_UNAVAILABLE wait none)) := by
  have hbodies := hreads.reads
  simp only [guardBodies, List.forall_mem_cons] at hbodies
  obtain ⟨hshed, hmessage, hmessagePanic, hdeadline, hguardPanic, _⟩ := hbodies
  refine ⟨classify_shedResponse hshed, classify_timeout hmessage, classify_panic hmessagePanic,
    ?_, ?_, fun status headers body h => classify_success h body,
    fun status headers cause => readResponse_cut hreads.nothing status cause,
    readResponse_cut_shed hreads.nothing marker reason wait minted requestHeaders⟩
  · rw [enforceDeadline_none]
    exact classify_timeout hdeadline
  · rw [guardRequests_none]
    exact (classify_panic hguardPanic).guarded minted requestHeaders

end Read

section Written

variable {crates : Crates}

/-- What reads the texts of these values, and of any other text says that it ended early. -/
def readingEach (crates : Crates) (values : List Json) : Serde where
  fromStr raw :=
    match values.find? fun v => toText crates v = raw with
    | some v => .ok (v.reread fun d => d)
    | none => .error "EOF while parsing a value at line 1 column 0"
  toVec _ := none
  requestReason _ := "missing field"
  responseReason _ := "missing field"

theorem readsAnswers_readingEach {values : List Json} (hdepth : ∀ v ∈ values, v.depth ≤ 127)
    (hdistinct : (values.map (toText crates)).Nodup) (hempty : "" ∉ values.map (toText crates)) :
    ReadsAnswers crates (readingEach crates values) some values where
  reads v hv := by
    have hfound : (values.find? fun w => toText crates w = toText crates v) = some v := by
      have hsome : (values.find? fun w => toText crates w = toText crates v).isSome = true :=
        List.find?_isSome.mpr ⟨v, hv, decide_eq_true rfl⟩
      obtain ⟨w, hw⟩ := Option.isSome_iff_exists.mp hsome
      have htext : toText crates w = toText crates v := by simpa using List.find?_some hw
      rw [hw, List.inj_on_of_nodup_map hdistinct (List.mem_of_find?_eq_some hw) hv htext]
    exact {
      reads := by
        intro _ _
        unfold readingEach
        dsimp only
        rw [hfound]
        rfl
      refuses := by
        rintro (hdeep | ⟨d, _, hnone⟩)
        · exact absurd (hdepth v hv) (not_le.mpr hdeep)
        · cases hnone }
  nothing := by
    have hnone : (values.find? fun w => toText crates w = "") = none := by
      rw [List.find?_eq_none]
      intro w hw heq
      exact hempty (List.mem_map.mpr ⟨w, hw, of_decide_eq_true heq⟩)
    refine ⟨"EOF while parsing a value at line 1 column 0", ?_⟩
    unfold readingEach
    dsimp only
    rw [hnone]

/-- A call of a service behind the guard. -/
def search : Exchange := ⟨"search", "query", "req-42", 12000000, false⟩

/-- The bodies of a service that sheds for half a minute and answers in 30 seconds. -/
def searchBodies : List Json :=
  guardBodies "search_busy" "No worker is free." "The handler failed." 30 30000000000 "req-42"

def searchSerde : Serde := readingEach Mcp.plainCrates searchBodies

theorem search_reads_guard :
    requestIdOf "minted" [(REQUEST_ID_HEADER, .ofString "req-42")] = "req-42" ∧
      SortedAs searchSerde search
        (shedResponse Mcp.plainCrates "search_busy" "No worker is free." 30)
        (.shed search .SERVICE_UNAVAILABLE 30 (some "No worker is free.")) ∧
      SortedAs searchSerde search (enforceDeadline Mcp.plainCrates 30000000000 none)
        (.unfinished search .GATEWAY_TIMEOUT .serviceDeadline
          (some "The request did not complete within 30s.")) := by
  have hid : requestIdOf "minted" [(REQUEST_ID_HEADER, .ofString "req-42")] = "req-42" := by decide
  have hreads : ReadsAnswers Mcp.plainCrates searchSerde some searchBodies :=
    readsAnswers_readingEach (by decide) (by decide +kernel) (by decide +kernel)
  rw [searchBodies, ← hid] at hreads
  have hguard := client_reads_guard "minted" [(REQUEST_ID_HEADER, .ofString "req-42")] hreads search
  exact ⟨hid, hguard.1, hguard.2.2.2.1⟩

end Written

end Tronc.ServiceClient
