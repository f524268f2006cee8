import Tronc.Mcp.Unasked

namespace Tronc.Mcp

open CancelTree Transition

def SessionChange.level : SessionChange → Option LogLevel
  | .setLogLevel level => some level
  | .recordCapabilities _ => none

def SessionChange.declared : SessionChange → Option DeclaredCapabilities
  | .recordCapabilities declared => some (.fromInitialize declared)
  | .setLogLevel _ => none

namespace Clientele

variable {S : Type} (serving : Serving S)

/-- What a step changes in the session. -/
def changeIn (k : Nat) (x : Taken Clientele Event) : Option SessionChange :=
  match x.label with
  | .receive link _ ctx request =>
    if link.session = some k ∧ k < x.source.sessions.length then serving.changeOf link ctx request
    else none
  | .openSession | .log .. | .progress .. | .ask .. | .hangUp _ => none

/-- What the client has asked in the session, the latest last. -/
def changesIn (tr : List (Taken Clientele Event)) (k : Nat) : List SessionChange :=
  tr.filterMap (changeIn serving k)

/-- The least severe level that the client wants of the call: the one its session was last set to, or
the one a modern request named. -/
def minimum (tr : List (Taken Clientele Event)) (call : BoundChannel) : Option LogLevel :=
  if call.logging then
    match call.era with
    | .legacy => call.link.session.bind fun k =>
        ((changesIn serving tr k).filterMap SessionChange.level).getLast?
    | .modern logLevel => logLevel
  else none

/-- Whether the client's last `initialize` in the session declared what is needed of it. -/
def declares (tr : List (Taken Clientele Event)) (call : BoundChannel) (needs : Needs) : Bool :=
  call.era == .legacy && (call.link.session.bind fun k =>
    ((changesIn serving tr k).filterMap SessionChange.declared).getLast?).any needs.declaredIn

/-- What a step may send, by what the clients asked before it. -/
def asked (tr : List (Taken Clientele Event)) (s : Clientele) : Event → List (Nat × JsonRpcRequest)
  | .log i level logger data => s.calls[i]?.toList.flatMap fun call =>
      if (minimum serving tr call).any level.meets then
        s.reaching call (logMessage level logger data)
      else []
  | .progress i done total message => s.calls[i]?.toList.flatMap fun call =>
      call.progressToken.toList.flatMap fun token =>
        s.reaching call (progressMessage token done total message)
  | .ask i needs params id registered => s.calls[i]?.toList.flatMap fun call =>
      if declares serving tr call needs && registered then
        s.reaching call (serverRequest needs params id)
      else []
  | .openSession | .receive .. | .hangUp _ => []

end Clientele

theorem SessionState.logLevel_changes (changes : List SessionChange) :
    (changes.foldl SessionState.change .new).logLevel =
      (changes.filterMap SessionChange.level).getLast? := by
  induction changes using List.reverseRecOn with
  | nil => simp [SessionState.new]
  | append_singleton changes c ih =>
    cases c <;> simp [SessionState.change, SessionChange.level, ih]

theorem SessionState.capabilities_changes (changes : List SessionChange) :
    (changes.foldl SessionState.change .new).capabilities =
      (changes.filterMap SessionChange.declared).getLast?.getD .undeclared := by
  induction changes using List.reverseRecOn with
  | nil => simp [SessionState.new]
  | append_singleton changes c ih =>
    cases c <;> simp [SessionState.change, SessionChange.declared, ih]

theorem Needs.declaredIn_undeclared (needs : Needs) : needs.declaredIn .undeclared = false := by
  cases needs <;> rfl

namespace Clientele

variable {S : Type} {serving : Serving S} {s t : Clientele} {e : Event}
  {tr : List (Taken Clientele Event)}

theorem changesIn_snoc (k : Nat) (x : Taken Clientele Event) :
    changesIn serving (tr ++ [x]) k = changesIn serving tr k ++ (changeIn serving k x).toList := by
  unfold changesIn
  rw [List.filterMap_append]
  cases h : changeIn serving k x <;> simp [h]

/-- The requests that set a session's level: `logging/setLevel` of the `initialize` era that names
one, to a server that declares logging. -/
theorem changeOf_level {link : Link} {ctx : CallContext} {request : JsonRpcRequest}
    {level : LogLevel} : serving.changeOf link ctx request = some (.setLogLevel level) ↔
      dispatch request = some .legacy ∧ request.method = LOGGING_SET_LEVEL ∧ serving.logging = true ∧
      ((request.params.bind (Json.get · "level")).bind Json.asStr).bind LogLevel.fromWire =
        some level ∧ link.session.isSome := by
  have hname : LOGGING_SET_LEVEL ≠ "initialize" := by decide
  unfold Serving.changeOf Serving.logging Methods.McpServer.dispatch dispatch
  by_cases hversion : request.jsonrpc = JSONRPC_VERSION
  swap
  · simp [hversion]
  cases hid : request.id.isSome with
  | false => simp [hversion]
  | true =>
    rw [if_neg (not_not.mpr hversion), if_pos rfl, if_pos ⟨hversion, rfl⟩, Option.bind_some]
    unfold Methods.McpServer.route
    cases Mcp.route request with
    | error refusal => simp [Except.toOption]
    | ok processing =>
      cases processing with
      | modern requestMeta => simp [Except.toOption]
      | legacy =>
        simp only [Except.toOption, true_and]
        unfold Methods.McpServer.processLegacy
        split
        · rename_i hmethod
          rw [hmethod]
          have hother : ¬ "initialize" = LOGGING_SET_LEVEL := Ne.symm hname
          cases link.session <;> simp [hother]
        · split
          · rename_i hlevel
            rw [hlevel.1, hlevel.2]
            unfold Methods.McpServer.handleSetLevel
            cases ((request.params.bind (Json.get · "level")).bind Json.asStr).bind
                LogLevel.fromWire <;>
              cases link.session <;> simp
          · rename_i hnot
            have hneither : ¬ (request.method = LOGGING_SET_LEVEL ∧
                serving.server.capabilities.logging.isSome = true) := hnot
            repeat' split
            all_goals
              constructor
              · intro h
                cases h
              · rintro ⟨hmethod, hlogging, _⟩
                exact absurd ⟨hmethod, hlogging⟩ hneither

/-- Every session is what was asked in it, in turn, and every call's channel was bound for a request
that came in. -/
structure Remembers (serving : Serving S) (tr : List (Taken Clientele Event)) (s : Clientele) :
    Prop where
  sessions : ∀ k state, s.sessions[k]? = some state →
    state = (changesIn serving tr k).foldl SessionState.change .new
  unopened : ∀ k, s.sessions.length ≤ k → changesIn serving tr k = []
  calls : ∀ call ∈ s.calls, ∃ x ∈ tr, ∃ link cancellation ctx request,
    x.label = .receive link cancellation ctx request ∧
      BoundChannel.bind serving.logging link cancellation request = some call

theorem Remembers.start : Remembers serving [] ⟨[], [], [], []⟩ := by
  refine ⟨?_, ?_, ?_⟩
  · intro k state h
    simp at h
  · intro k _
    rfl
  · intro call h
    exact absurd h List.not_mem_nil

/-- A step that leaves the sessions and the calls. -/
theorem Remembers.frame (h : Remembers serving tr s) (hsessions : t.sessions = s.sessions)
    (hcalls : t.calls = s.calls) (hchange : ∀ k, changeIn serving k ⟨s, e, t⟩ = none) :
    Remembers serving (tr ++ [⟨s, e, t⟩]) t := by
  have hsame (k : Nat) : changesIn serving (tr ++ [⟨s, e, t⟩]) k = changesIn serving tr k := by
    rw [changesIn_snoc, hchange, Option.toList_none, List.append_nil]
  refine ⟨?_, ?_, ?_⟩
  · intro k state hk
    rw [hsessions] at hk
    rw [hsame]
    exact h.sessions k state hk
  · intro k hk
    rw [hsessions] at hk
    rw [hsame]
    exact h.unopened k hk
  · intro call hcall
    rw [hcalls] at hcall
    obtain ⟨x, hx, hbound⟩ := h.calls call hcall
    exact ⟨x, List.mem_append_left _ hx, hbound⟩

theorem Remembers.opens (h : Remembers serving tr s) :
    Remembers serving (tr ++ [⟨s, .openSession, { s with sessions := s.sessions ++ [.new] }⟩])
      { s with sessions := s.sessions ++ [.new] } := by
  have hsame (k : Nat) : changesIn serving
      (tr ++ [⟨s, .openSession, { s with sessions := s.sessions ++ [.new] }⟩]) k =
        changesIn serving tr k := by
    rw [changesIn_snoc]
    simp [changeIn]
  refine ⟨?_, ?_, ?_⟩
  · intro k state hk
    rw [hsame]
    rcases Nat.lt_trichotomy k s.sessions.length with hlt | heq | hgt
    · rw [List.getElem?_append_left hlt] at hk
      exact h.sessions k state hk
    · subst heq
      rw [List.getElem?_concat_length] at hk
      rw [h.unopened _ (Nat.le_refl _), ← Option.some.inj hk]
      rfl
    · have hnone : (s.sessions ++ [SessionState.new])[k]? = none :=
        List.getElem?_eq_none (by simp; omega)
      cases hnone.symm.trans hk
  · intro k hk
    have hlength : s.sessions.length ≤ k := by
      simp at hk
      omega
    rw [hsame]
    exact h.unopened k hlength
  · intro call hcall
    obtain ⟨x, hx, hbound⟩ := h.calls call hcall
    exact ⟨x, List.mem_append_left _ hx, hbound⟩

theorem receive_sessions (link : Link) (cancellation : Token) (ctx : CallContext)
    (request : JsonRpcRequest) (k : Nat) :
    (s.receive serving link cancellation ctx request).sessions[k]? =
      s.sessions[k]?.map fun state => (changeIn serving k
        ⟨s, .receive link cancellation ctx request,
          s.receive serving link cancellation ctx request⟩).elim state state.change := by
  unfold receive changeIn
  dsimp only
  cases hlink : link.session with
  | none => simp
  | some j =>
    cases serving.changeOf link ctx request with
    | none => simp
    | some change =>
      dsimp only
      rw [List.getElem?_modify]
      cases hk : s.sessions[k]? with
      | none => rfl
      | some state =>
        have hlt : k < s.sessions.length := (List.getElem?_eq_some_iff.mp hk).1
        by_cases hj : j = k
        · subst hj
          simp [hlt]
        · simp [hj]

theorem receive_length (link : Link) (cancellation : Token) (ctx : CallContext)
    (request : JsonRpcRequest) :
    (s.receive serving link cancellation ctx request).sessions.length = s.sessions.length := by
  unfold receive
  dsimp only
  split <;> simp

theorem Remembers.receives {link : Link} {cancellation : Token} {ctx : CallContext}
    {request : JsonRpcRequest} (h : Remembers serving tr s) :
    Remembers serving (tr ++ [⟨s, .receive link cancellation ctx request,
        s.receive serving link cancellation ctx request⟩])
      (s.receive serving link cancellation ctx request) := by
  refine ⟨?_, ?_, ?_⟩
  · intro k state hk
    rw [receive_sessions] at hk
    obtain ⟨before, hbefore, rfl⟩ := Option.map_eq_some_iff.mp hk
    rw [changesIn_snoc, h.sessions k before hbefore]
    cases changeIn serving k _ <;> simp
  · intro k hk
    rw [receive_length] at hk
    have hout : ¬ (link.session = some k ∧ k < s.sessions.length) := fun hin => by omega
    rw [changesIn_snoc, h.unopened k hk]
    simp only [changeIn, if_neg hout, Option.toList_none, List.append_nil]
  · intro call hcall
    rcases List.mem_append.mp hcall with hcall | hcall
    · obtain ⟨x, hx, hbound⟩ := h.calls call hcall
      exact ⟨x, List.mem_append_left _ hx, hbound⟩
    · exact ⟨_, List.mem_append_right _ (.head _), link, cancellation, ctx, request, rfl,
        Option.mem_toList.mp hcall⟩

/-- Sending leaves all but the queues. -/
theorem send_frame (call : BoundChannel) (message : JsonRpcRequest) :
    (s.send call message).sessions = s.sessions ∧ (s.send call message).calls = s.calls := ⟨rfl, rfl⟩

theorem log_frame (call : BoundChannel) (level : LogLevel) (logger : Option String) (data : Json) :
    (s.log call level logger data).sessions = s.sessions ∧
      (s.log call level logger data).calls = s.calls := by
  unfold log
  split
  · exact send_frame call _
  · exact ⟨rfl, rfl⟩

theorem progress_frame (call : BoundChannel) (done : Binary64) (total : Option Binary64)
    (message : Option String) : (s.progress call done total message).sessions = s.sessions ∧
      (s.progress call done total message).calls = s.calls := by
  unfold progress
  split
  · exact ⟨rfl, rfl⟩
  · exact send_frame call _

theorem ask_frame (call : BoundChannel) (needs : Needs) (params : Json) (id : String)
    (registered : Bool) : (s.ask call needs params id registered).sessions = s.sessions ∧
      (s.ask call needs params id registered).calls = s.calls := by
  unfold ask
  split
  · exact ⟨rfl, rfl⟩
  · split
    · exact send_frame call _
    · exact ⟨rfl, rfl⟩

theorem Remembers.step (h : Remembers serving tr s) (hstep : s.step serving e = some t) :
    Remembers serving (tr ++ [⟨s, e, t⟩]) t := by
  cases e with
  | openSession =>
    obtain rfl := Option.some.inj hstep
    exact h.opens
  | receive link cancellation ctx request =>
    obtain rfl := Option.some.inj hstep
    exact h.receives
  | log i level logger data =>
    obtain ⟨call, -, rfl⟩ := Option.map_eq_some_iff.mp hstep
    exact h.frame (log_frame call level logger data).1 (log_frame call level logger data).2 fun _ => rfl
  | progress i done total message =>
    obtain ⟨call, -, rfl⟩ := Option.map_eq_some_iff.mp hstep
    have hframe := progress_frame (s := s) call done total message
    exact h.frame hframe.1 hframe.2 fun _ => rfl
  | ask i needs params id registered =>
    obtain ⟨call, -, rfl⟩ := Option.map_eq_some_iff.mp hstep
    have hframe := ask_frame (s := s) call needs params id registered
    exact h.frame hframe.1 hframe.2 fun _ => rfl
  | hangUp outbound =>
    obtain rfl := Option.some.inj hstep
    exact h.frame rfl rfl fun _ => rfl

theorem run_remembers {s₀ : Clientele} (h₀ : (clientele serving).init s₀)
    (h : (clientele serving).Run s₀ tr s) : Remembers serving tr s := by
  induction h with
  | start =>
    obtain rfl := h₀
    exact .start
  | next _ hstep ih => exact ih.step hstep

/-- What the session of a call remembers is what was asked in it. -/
theorem Remembers.logLevel (h : Remembers serving tr s) (call : BoundChannel) :
    s.logLevel call = minimum serving tr call := by
  unfold Clientele.logLevel minimum remembered
  cases call.logging with
  | false => rfl
  | true =>
    cases call.era with
    | modern logLevel => rfl
    | legacy =>
      cases call.link.session with
      | none => rfl
      | some k =>
        simp only [Bool.not_true, Bool.false_eq_true, if_false, if_true, Option.bind_some]
        cases hk : s.sessions[k]? with
        | none =>
          rw [h.unopened k (List.getElem?_eq_none_iff.mp hk)]
          rfl
        | some state =>
          rw [Option.bind_some, h.sessions k state hk, SessionState.logLevel_changes]

theorem Remembers.declares (h : Remembers serving tr s) (call : BoundChannel) (needs : Needs) :
    (call.era == .legacy && ((s.remembered call).map SessionState.capabilities).any
      needs.declaredIn) = declares serving tr call needs := by
  unfold Clientele.declares remembered
  cases call.link.session with
  | none => rfl
  | some k =>
    simp only [Option.bind_some]
    cases hk : s.sessions[k]? with
    | none =>
      rw [h.unopened k (List.getElem?_eq_none_iff.mp hk)]
      rfl
    | some state =>
      rw [Option.map_some, h.sessions k state hk, Option.any_some,
        SessionState.capabilities_changes]
      cases ((changesIn serving tr k).filterMap SessionChange.declared).getLast? with
      | none => simp [needs.declaredIn_undeclared]
      | some declared => rfl

theorem ask_queued (call : BoundChannel) (needs : Needs) (params : Json) (id : String)
    (registered : Bool) : (s.ask call needs params id registered).queued = s.queued ++
      if (call.era == .legacy && ((s.remembered call).map SessionState.capabilities).any
        needs.declaredIn) && registered then s.reaching call (serverRequest needs params id)
      else [] := by
  unfold ask ClientChannel.admits channelOf
  dsimp only
  cases call.era with
  | modern logLevel => simp
  | legacy =>
    dsimp only
    cases hdeclared : ((s.remembered call).map SessionState.capabilities).any needs.declaredIn with
    | false => simp
    | true =>
      cases hout : call.link.outbound with
      | none => simp [reaching, hout]
      | some outbound => cases registered <;> simp [send]

theorem log_queued (call : BoundChannel) (level : LogLevel) (logger : Option String) (data : Json) :
    (s.log call level logger data).queued = s.queued ++
      if (s.logLevel call).any level.meets then s.reaching call (logMessage level logger data)
      else [] := by
  unfold log wantsLog
  cases hout : call.link.outbound with
  | none => simp [reaching, hout]
  | some outbound =>
    cases (s.logLevel call).any level.meets <;> simp [send]

/-- A server that declares logging and has no tools. -/
def logger : Serving Unit where
  server :=
    { supported := [PROTOCOL_VERSION]
      name := "logger"
      version := "1.0"
      capabilities := ⟨none, some (.object []), none, none, none, none, none⟩
      instructions := none
      pageSize := none
      tools := .empty
      state := ()
      toolDispatcher := none
      methodHandler := none
      taskManager := none }
  crates := plainCrates
  engine := Base64.urlSafe
  refuse := fun _ => ""

def sessionLink : Link := ⟨some 0, some 0, ⟨none, none, .session "s"⟩, 60⟩

def nobody : CallContext := ⟨⟨⟨none, none⟩, false, []⟩, none, none, none, true⟩

/-- A client that asks for warnings in its session, and then pings. -/
def warned : List Event :=
  [.openSession,
    .receive sessionLink ⟨[0]⟩ nobody (.received JSONRPC_VERSION LOGGING_SET_LEVEL
      (some (.object [("level", .string "warning")])) (some (.string "1"))),
    .receive sessionLink ⟨[0]⟩ nobody (.received JSONRPC_VERSION "ping" none (some (.string "2")))]

end Clientele

end Tronc.Mcp
