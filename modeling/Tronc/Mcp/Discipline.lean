import Tronc.Mcp.Methods

namespace Tronc.Mcp

open Tools (ToolRegistry ToolResponse)

/-- A response as JSON-RPC has it, to the request of this id: a result or an error, not both. -/
structure WellFormed (id : Option Json) (response : JsonRpcResponse) : Prop where
  version : response.jsonrpc = JSONRPC_VERSION
  id : response.id = id
  exclusive : response.result.isSome = response.error.isNone

section Responses

variable {id : Option Json}

theorem WellFormed.success (result : Json) : WellFormed id (.success id result) := ⟨rfl, rfl, rfl⟩

theorem WellFormed.failure (code : Int) (message : String) :
    WellFormed id (.failure id code message) := ⟨rfl, rfl, rfl⟩

theorem WellFormed.failureWithData (code : Int) (message : String) (data : Json) :
    WellFormed id (.failureWithData id code message data) := ⟨rfl, rfl, rfl⟩

theorem WellFormed.frame {response : JsonRpcResponse} (h : WellFormed id response) (method : String) :
    WellFormed id (frameModernResult method response) := by
  unfold frameModernResult
  split
  · rename_i fields hr
    have exclusive := h.exclusive
    rw [hr] at exclusive
    exact ⟨h.version, h.id, exclusive⟩
  · exact h

theorem WellFormed.taskResponse (fields : Tasks.DetailedTask → Map) (outcome : Tasks.Outcome) :
    WellFormed id (taskResponse id fields outcome) := by
  cases outcome with
  | error e => cases e <;> exact .failure _ _
  | _ => exact .success _

theorem WellFormed.handleTaskMethod (manager : Tasks.Call → Tasks.Outcome) (method : String)
    (params : Option Json) (ctx : CallContext) :
    WellFormed id (handleTaskMethod manager method id params ctx) := by
  unfold Mcp.handleTaskMethod
  split
  · exact .failure _ _
  · split
    · exact .taskResponse _ _
    · split
      · split
        · exact .failure _ _
        · exact .taskResponse _ _
      · split
        · exact .taskResponse _ _
        · exact .failure _ _

end Responses

namespace Methods.McpServer

variable {S : Type} (crates : Crates) (engine : Base64.UrlEngine) (refuse : Json → String)
  {server : McpServer S}

/-- The host's own methods are answered as JSON-RPC has it. -/
def HostWellFormed (server : McpServer S) : Prop :=
  ∀ handler, server.methodHandler = some handler → ∀ method id params ctx response,
    handler method id params ctx = some response → WellFormed id response

theorem handleUnknownMethod_wellFormed (h : server.HostWellFormed) (method : String)
    (id params : Option Json) (ctx : CallContext) :
    WellFormed id (server.handleUnknownMethod method id params ctx) := by
  unfold handleUnknownMethod
  split
  · rename_i response hr
    obtain ⟨handler, hs, hresponse⟩ := Option.bind_eq_some_iff.mp hr
    exact h handler hs method id params ctx response hresponse
  · exact .failure _ _

theorem listTools_wellFormed (server : McpServer S) (id params : Option Json) (ctx : CallContext) :
    WellFormed id (server.listTools engine id params ctx) := by
  unfold listTools handleToolsList
  dsimp only
  split
  · exact .failure _ _
  · exact .success _

theorem outcomeResponse_wellFormed (server : McpServer S) (id : Option Json) (name : String)
    (modern allowTasks : Bool) (outcome : CallToolOutcome) :
    WellFormed id (server.outcomeResponse id name modern allowTasks outcome) := by
  cases outcome with
  | immediate response => exact .success _
  | unknownTool => exact .failure _ _
  | task task =>
    unfold outcomeResponse
    dsimp only
    split
    · exact .success _
    · exact .failure _ _
  | inputRequired input =>
    unfold outcomeResponse
    dsimp only
    split
    · exact .success _
    · exact .failure _ _

theorem handleToolsCall_wellFormed (server : McpServer S) (id params : Option Json)
    (ctx : CallContext) (modern allowTasks : Bool) (headers : Option (AList fun _ : String => Json)) :
    WellFormed id (server.handleToolsCall crates refuse id params ctx modern allowTasks headers) := by
  unfold handleToolsCall
  split
  · exact .failure _ _
  · exact .failure _ _
  · exact .failure _ _
  · exact outcomeResponse_wellFormed ..

theorem handleSetLevel_wellFormed (id params : Option Json) (ctx : CallContext) :
    WellFormed id (handleSetLevel id params ctx).response := by
  unfold handleSetLevel
  split
  · exact .failure _ _
  · split
    · exact .success _
    · exact .failure _ _

theorem processLegacy_wellFormed (h : server.HostWellFormed) (request : JsonRpcRequest)
    (ctx : CallContext) :
    WellFormed request.id (server.processLegacy crates engine refuse request ctx).response := by
  unfold processLegacy
  dsimp only
  split
  · exact .success _
  · split
    · exact handleSetLevel_wellFormed ..
    · split
      · exact listTools_wellFormed ..
      · split
        · exact handleToolsCall_wellFormed ..
        · split
          · exact .success _
          · split
            · exact .success _
            · exact handleUnknownMethod_wellFormed h ..

theorem modernResponse_wellFormed (h : server.HostWellFormed) (request : JsonRpcRequest)
    (ctx : CallContext) :
    WellFormed request.id (server.modernResponse crates engine refuse request ctx) := by
  unfold modernResponse
  split
  · exact .success _
  · split
    · exact listTools_wellFormed ..
    · split
      · exact handleToolsCall_wellFormed ..
      · split
        · split
          · split
            · exact .handleTaskMethod ..
            · exact .failureWithData _ _ _
          · exact handleUnknownMethod_wellFormed h ..
        · exact handleUnknownMethod_wellFormed h ..

/-- Every request is answered as JSON-RPC has it and under its own id, in either era and whatever the
host's tools answer, if what the host's own methods answer is. -/
theorem route_wellFormed (h : server.HostWellFormed) (request : JsonRpcRequest) (ctx : CallContext) :
    WellFormed request.id (server.route crates engine refuse request ctx).response := by
  unfold route Mcp.route
  cases ModernRequestMeta.detect (request.getMetadata PROTOCOL_VERSION_HEADER) request.params with
  | malformed reason => exact .failure _ _
  | headerMismatch reason => exact .failure _ _
  | legacy => exact processLegacy_wellFormed crates engine refuse h request ctx
  | modern requestMeta =>
    dsimp only
    unfold processModern
    split
    · exact .failureWithData _ _ _
    · split
      · exact .failure _ _
      · exact (modernResponse_wellFormed crates engine refuse h request _).frame _

end Methods.McpServer

section ResultTypes

/-- What kind of result a response says it carries. -/
def resultType (response : JsonRpcResponse) : Option String :=
  (response.result.bind (Json.get · "resultType")).bind Json.asStr

variable {fields : Map} {key other : String} {value : Json} {id : Option Json}

theorem get_orInsert_of_ne (h : other ≠ key) : (orInsert fields key value).get other = fields.get other := by
  unfold orInsert
  split
  · rfl
  · have apart : (other == key) = false := beq_false_of_ne h
    unfold Map.get
    rw [List.lookup_append, List.lookup_cons, apart, List.lookup_nil, Option.or_none]

theorem get_orInsert : (orInsert fields key value).get key = some ((fields.get key).getD value) := by
  unfold orInsert
  split
  · rename_i h
    obtain ⟨held, hheld⟩ := Option.isSome_iff_exists.mp h
    rw [hheld]
    rfl
  · rename_i h
    have none : fields.get key = none := Option.not_isSome_iff_eq_none.mp h
    rw [none]
    unfold Map.get at none ⊢
    rw [List.lookup_append, none, List.lookup_cons_self]
    rfl

theorem get_frameCacheableResult (method : String) (httl : other ≠ "ttlMs") (hscope : other ≠ "cacheScope") :
    (frameCacheableResult method fields).get other = fields.get other := by
  unfold frameCacheableResult
  split
  · rw [get_orInsert_of_ne hscope, get_orInsert_of_ne httl]
  · rfl

/-- Framing says `complete` of an object that does not say what it is. -/
theorem resultType_frame (method : String) :
    resultType (frameModernResult method (.success id (.object fields))) =
      ((fields.get "resultType").getD (.string "complete")).asStr := by
  unfold resultType frameModernResult JsonRpcResponse.success
  dsimp only [Option.bind_some, Json.get]
  rw [get_frameCacheableResult method (by decide) (by decide), get_orInsert]
  rfl

theorem resultType_object :
    resultType (.success id (.object fields)) = (fields.get "resultType").bind Json.asStr := rfl

theorem toolResponseFields_resultType (response : ToolResponse) :
    (toolResponseFields response).get "resultType" = none :=
  Record.get_compact_of_not_mem (by simp)

theorem inputRequired_resultType (input : InputRequiredResult) :
    input.fields.get "resultType" = some (.string "input_required") := rfl

theorem createTask_resultType (task : Tasks.Task) :
    (createTaskFields task).get "resultType" = some (.string "task") := rfl

/-- A result that is final, or none at all. -/
def Plain (response : JsonRpcResponse) : Prop :=
  resultType response = none ∨ resultType response = some "complete"

theorem Plain.failure (code : Int) (message : String) : Plain (.failure id code message) := .inl rfl

theorem Plain.failureWithData (code : Int) (message : String) (data : Json) :
    Plain (.failureWithData id code message data) := .inl rfl

theorem Plain.object (h : fields.get "resultType" = none) : Plain (.success id (.object fields)) := by
  refine .inl ?_
  rw [resultType_object, h]
  rfl

theorem Plain.complete (h : fields.get "resultType" = some (.string "complete")) :
    Plain (.success id (.object fields)) := by
  refine .inr ?_
  rw [resultType_object, h]
  rfl

theorem Plain.frame {response : JsonRpcResponse} (h : Plain response) (method : String) :
    Plain (frameModernResult method response) := by
  unfold frameModernResult
  split
  · rename_i fields hr
    unfold Plain resultType at h ⊢
    rw [hr] at h
    dsimp only [Option.bind_some, Json.get] at h ⊢
    rw [get_frameCacheableResult method (by decide) (by decide), get_orInsert]
    cases held : Map.get fields "resultType" with
    | none => exact .inr rfl
    | some value =>
      rw [held] at h
      exact h
  · exact h

theorem Plain.taskResponse {fields : Tasks.DetailedTask → Map} (outcome : Tasks.Outcome)
    (h : ∀ task, (fields task).get "resultType" = some (.string "complete")) :
    Plain (taskResponse id fields outcome) := by
  cases outcome with
  | error e => cases e <;> exact .failure _ _
  | task task => exact .complete (h task)
  | run r => exact .complete rfl
  | removed ids => exact .complete rfl
  | responses answer => exact .complete rfl

theorem Plain.handleTaskMethod (manager : Tasks.Call → Tasks.Outcome) (method : String)
    (params : Option Json) (ctx : CallContext) :
    Plain (handleTaskMethod manager method id params ctx) := by
  unfold Mcp.handleTaskMethod
  split
  · exact .failure _ _
  · split
    · exact .taskResponse _ fun _ => rfl
    · split
      · split
        · exact .failure _ _
        · exact .taskResponse _ fun _ => rfl
      · split
        · exact .taskResponse _ fun _ => rfl
        · exact .failure _ _

end ResultTypes

namespace Methods.McpServer

variable {S : Type} (crates : Crates) (engine : Base64.UrlEngine) (refuse : Json → String)
  {server : McpServer S}

/-- What kind of result the outcome of a call is answered with, where that is not a final one. -/
def mark (server : McpServer S) (modern allowTasks : Bool) : CallToolOutcome → Option String
  | .immediate _ | .unknownTool => none
  | .task _ => if allowTasks && server.taskManager.isSome then some "task" else none
  | .inputRequired _ => if modern then some "input_required" else none

theorem listTools_plain (server : McpServer S) (id params : Option Json) (ctx : CallContext) :
    Plain (server.listTools engine id params ctx) := by
  unfold listTools handleToolsList
  dsimp only
  split
  · exact .failure _ _
  · rename_i page _
    refine .object ?_
    cases page.nextCursor <;> rfl

theorem handleUnknownMethod_plain (h : server.methodHandler = none) (method : String)
    (id params : Option Json) (ctx : CallContext) :
    Plain (server.handleUnknownMethod method id params ctx) := by
  unfold handleUnknownMethod
  rw [h]
  exact .failure _ _

theorem handleSetLevel_plain (id params : Option Json) (ctx : CallContext) :
    Plain (handleSetLevel id params ctx).response := by
  unfold handleSetLevel
  split
  · exact .failure _ _
  · split
    · exact .object rfl
    · exact .failure _ _

theorem handleServerDiscover_plain (server : McpServer S) (id : Option Json) :
    Plain (server.handleServerDiscover id) := .complete rfl

/-- In the legacy era a call is answered with a plain result or an error, whatever the host's tools
come to. -/
theorem legacyCall_plain (server : McpServer S) (id params : Option Json) (ctx : CallContext)
    (headers : Option (AList fun _ : String => Json)) :
    Plain (server.handleToolsCall crates refuse id params ctx false false headers) := by
  unfold handleToolsCall
  split
  · exact .failure _ _
  · exact .failure _ _
  · exact .failure _ _
  · rename_i call _
    cases server.callOutcome ctx call with
    | immediate response => exact .object (toolResponseFields_resultType response)
    | unknownTool => exact .failure _ _
    | task task => exact .failure _ _
    | inputRequired input => exact .failure _ _

theorem processLegacy_plain (request : JsonRpcRequest) (ctx : CallContext)
    (h : server.methodHandler = none) :
    Plain (server.processLegacy crates engine refuse request ctx).response := by
  unfold processLegacy
  dsimp only
  split
  · exact .object (Record.get_compact_of_not_mem (by simp))
  · split
    · exact handleSetLevel_plain ..
    · split
      · exact listTools_plain ..
      · split
        · exact legacyCall_plain ..
        · split
          · exact handleServerDiscover_plain ..
          · split
            · exact .object rfl
            · exact handleUnknownMethod_plain h ..

theorem modernResponse_plain (request : JsonRpcRequest) (ctx : CallContext)
    (h : server.methodHandler = none) (hcall : request.method ≠ "tools/call") :
    Plain (server.modernResponse crates engine refuse request ctx) := by
  unfold modernResponse
  split
  · exact handleServerDiscover_plain ..
  · split
    · exact listTools_plain ..
    · split
      · split
        · split
          · exact .handleTaskMethod ..
          · exact .failureWithData _ _ _
        · exact handleUnknownMethod_plain h ..
      · exact handleUnknownMethod_plain h ..

/-- A modern call's result is of the kind that its outcome has. -/
theorem modernCall_resultType (server : McpServer S) (id params : Option Json) (ctx : CallContext)
    (allowTasks : Bool) (headers : Option (AList fun _ : String => Json)) {kind : String}
    (hkind : kind ≠ "complete") :
    resultType (frameModernResult "tools/call"
        (server.handleToolsCall crates refuse id params ctx true allowTasks headers)) = some kind ↔
      ∃ call, server.checked crates params ctx true headers = .ok call ∧
        server.mark true allowTasks (server.callOutcome ctx call) = some kind := by
  have refused {response : JsonRpcResponse} (hplain : Plain response) :
      resultType (frameModernResult "tools/call" response) ≠ some kind := by
    rcases hplain.frame "tools/call" with none | complete
    · rw [none]
      exact nofun
    · rw [complete]
      intro same
      exact hkind (Option.some.inj same).symm
  unfold handleToolsCall
  cases hc : server.checked crates params ctx true headers with
  | error refusal =>
    have absent : ¬ ∃ call, (Except.error refusal : Except CallRefusal ToolCall) = .ok call ∧
        server.mark true allowTasks (server.callOutcome ctx call) = some kind := by
      rintro ⟨call, hcall, _⟩
      cases hcall
    refine iff_of_false ?_ absent
    cases refusal <;> exact refused (.failure _ _)
  | ok call =>
    have only : (∃ other, (Except.ok call : Except CallRefusal ToolCall) = .ok other ∧
        server.mark true allowTasks (server.callOutcome ctx other) = some kind) ↔
        server.mark true allowTasks (server.callOutcome ctx call) = some kind := by
      constructor
      · rintro ⟨other, hother, hmark⟩
        rw [Except.ok.inj hother]
        exact hmark
      · intro hmark
        exact ⟨call, rfl, hmark⟩
    rw [only]
    dsimp only
    cases server.callOutcome ctx call with
    | immediate response =>
      exact iff_of_false (refused (.object (toolResponseFields_resultType response))) nofun
    | unknownTool => exact iff_of_false (refused (.failure _ _)) nofun
    | task task =>
      unfold outcomeResponse mark
      dsimp only
      split
      · rw [resultType_frame, createTask_resultType]
        rfl
      · exact iff_of_false (refused (.failure _ _)) nofun
    | inputRequired input =>
      unfold outcomeResponse mark
      dsimp only
      rw [if_pos rfl, if_pos rfl, resultType_frame, inputRequired_resultType]
      rfl

/-- The revision a request speaks, where it is of the modern era and the server speaks it. -/
def SpokenModern (server : McpServer S) (request : JsonRpcRequest) (requestMeta : ModernRequestMeta) :
    Prop :=
  ModernRequestMeta.detect (request.getMetadata PROTOCOL_VERSION_HEADER) request.params =
    .modern requestMeta ∧ supportsVersion server.supported requestMeta.protocolVersion = true

/-- The engine has an answer of its own to the request. -/
def Reserved (server : McpServer S) (request : JsonRpcRequest) : Prop :=
  match ModernRequestMeta.detect (request.getMetadata PROTOCOL_VERSION_HEADER) request.params with
  | .legacy =>
    request.method ∈ ["initialize", "tools/list", "tools/call", "server/discover", "ping"] ∨
      request.method = LOGGING_SET_LEVEL ∧ server.capabilities.logging.isSome
  | .modern requestMeta =>
    supportsVersion server.supported requestMeta.protocolVersion = false ∨
      request.method ∈ REMOVED_METHODS ∨
      request.method ∈ ["server/discover", "tools/list", "tools/call"] ∨
      request.method ∈ [TASKS_GET, TASKS_UPDATE, TASKS_CANCEL] ∧ server.taskManager.isSome
  | .malformed _ | .headerMismatch _ => True

theorem processLegacy_reserved (server : McpServer S) (request : JsonRpcRequest) (ctx : CallContext)
    (handler : Option MethodHandler)
    (h : request.method ∈ ["initialize", "tools/list", "tools/call", "server/discover", "ping"] ∨
      request.method = LOGGING_SET_LEVEL ∧ server.capabilities.logging.isSome) :
    { server with methodHandler := handler }.processLegacy crates engine refuse request ctx =
      server.processLegacy crates engine refuse request ctx := by
  unfold processLegacy
  dsimp only
  split
  · rfl
  · rename_i hinit
    split
    · rfl
    · rename_i hlevel
      split
      · rfl
      · rename_i hlist
        split
        · rfl
        · rename_i hcall
          split
          · rfl
          · rename_i hdiscover
            split
            · rfl
            · rename_i hping
              refine absurd h ?_
              rintro (hmem | hlogging)
              · simp only [List.mem_cons, List.not_mem_nil, or_false] at hmem
                rcases hmem with h | h | h | h | h
                exacts [hinit h, hlist h, hcall h, hdiscover h, hping h]
              · exact hlevel hlogging

theorem modernResponse_reserved (server : McpServer S) (request : JsonRpcRequest) (ctx : CallContext)
    (handler : Option MethodHandler)
    (h : request.method ∈ ["server/discover", "tools/list", "tools/call"] ∨
      request.method ∈ [TASKS_GET, TASKS_UPDATE, TASKS_CANCEL] ∧ server.taskManager.isSome) :
    { server with methodHandler := handler }.modernResponse crates engine refuse request ctx =
      server.modernResponse crates engine refuse request ctx := by
  unfold modernResponse
  dsimp only
  split
  · rfl
  · rename_i hdiscover
    split
    · rfl
    · rename_i hlist
      split
      · rfl
      · rename_i hcall
        have task : request.method ∈ [TASKS_GET, TASKS_UPDATE, TASKS_CANCEL] ∧
            server.taskManager.isSome := by
          refine h.resolve_left fun hmem => ?_
          simp only [List.mem_cons, List.not_mem_nil, or_false] at hmem
          rcases hmem with h | h | h
          exacts [hdiscover h, hlist h, hcall h]
        obtain ⟨hmem, manager⟩ := task
        simp only [List.mem_cons, List.not_mem_nil, or_false] at hmem
        rw [if_pos hmem, if_pos hmem]
        obtain ⟨manager, hmanager⟩ := Option.isSome_iff_exists.mp manager
        rw [hmanager]

theorem route_reserved (server : McpServer S) (request : JsonRpcRequest) (ctx : CallContext)
    (handler : Option MethodHandler) (h : server.Reserved request) :
    { server with methodHandler := handler }.route crates engine refuse request ctx =
      server.route crates engine refuse request ctx := by
  unfold Reserved at h
  unfold route Mcp.route
  cases hdetect : ModernRequestMeta.detect (request.getMetadata PROTOCOL_VERSION_HEADER)
      request.params with
  | malformed reason => rfl
  | headerMismatch reason => rfl
  | legacy =>
    rw [hdetect] at h
    exact processLegacy_reserved crates engine refuse server request ctx handler h
  | modern requestMeta =>
    rw [hdetect] at h
    dsimp only
    unfold processModern
    dsimp only
    split
    · rfl
    · rename_i hspoken
      split
      · rfl
      · rename_i hserved
        have rest := (h.resolve_left fun unspoken => hspoken (by rw [unspoken]; rfl)).resolve_left hserved
        rw [modernResponse_reserved crates engine refuse server request _ handler rest]

theorem resultType_iff_hostless (request : JsonRpcRequest) (ctx : CallContext) {kind : String}
    (hkind : kind ≠ "complete") (hhost : server.methodHandler = none) :
    resultType (server.route crates engine refuse request ctx).response = some kind ↔
      request.method = "tools/call" ∧ ∃ requestMeta, server.SpokenModern request requestMeta ∧
        let ctx := { ctx with clientCapabilities := some requestMeta.clientCapabilities }
        ∃ call, server.checked crates request.params ctx true request.headers = .ok call ∧
          server.mark true ctx.supportsTasks (server.callOutcome ctx call) = some kind := by
  have plain {response : JsonRpcResponse} (hplain : Plain response) : resultType response ≠ some kind := by
    rcases hplain with none | complete
    · rw [none]
      exact nofun
    · rw [complete]
      intro same
      exact hkind (Option.some.inj same).symm
  unfold route Mcp.route SpokenModern
  cases hdetect : ModernRequestMeta.detect (request.getMetadata PROTOCOL_VERSION_HEADER)
      request.params with
  | malformed reason =>
    refine iff_of_false (plain (.failure _ _)) ?_
    rintro ⟨_, _, ⟨h, _⟩, _⟩
    cases h
  | headerMismatch reason =>
    refine iff_of_false (plain (.failure _ _)) ?_
    rintro ⟨_, _, ⟨h, _⟩, _⟩
    cases h
  | legacy =>
    refine iff_of_false (plain (processLegacy_plain crates engine refuse request ctx hhost)) ?_
    rintro ⟨_, _, ⟨h, _⟩, _⟩
    cases h
  | modern requestMeta =>
    dsimp only
    unfold processModern
    by_cases hspoken : supportsVersion server.supported requestMeta.protocolVersion = true
    · rw [hspoken, Bool.not_true, if_neg Bool.false_ne_true]
      by_cases hcall : request.method = "tools/call"
      · have served : request.method ∉ REMOVED_METHODS := by
          rw [hcall]
          decide
        have response (ctx : CallContext) : server.modernResponse crates engine refuse request ctx =
            server.handleToolsCall crates refuse request.id request.params ctx true ctx.supportsTasks
              request.headers := by
          unfold modernResponse
          rw [hcall, if_neg (by decide), if_neg (by decide), if_pos rfl]
        rw [if_neg served, response, hcall,
          modernCall_resultType crates refuse server _ _ _ _ _ hkind]
        constructor
        · intro h
          exact ⟨rfl, requestMeta, ⟨rfl, hspoken⟩, h⟩
        · rintro ⟨_, other, ⟨hmeta, _⟩, h⟩
          obtain rfl := ModernMeta.modern.inj hmeta
          exact h
      · refine iff_of_false ?_ fun h => hcall h.1
        split
        · exact plain (.failure _ _)
        · exact plain ((modernResponse_plain crates engine refuse request _ hhost hcall).frame _)
    · have unspoken := Bool.eq_false_of_not_eq_true hspoken
      rw [unspoken, Bool.not_false, if_pos rfl]
      refine iff_of_false (plain (.failureWithData _ _ _)) ?_
      rintro ⟨_, other, ⟨hmeta, hother⟩, _⟩
      obtain rfl := ModernMeta.modern.inj hmeta
      exact hspoken hother

/-- A result is not a final one exactly where it answers a modern call that came to such an outcome:
no other method that the host does not serve, and no client of the other era, is ever given one. -/
theorem resultType_iff (request : JsonRpcRequest) (ctx : CallContext) {kind : String}
    (hkind : kind ≠ "complete") (hhost : server.methodHandler = none ∨ server.Reserved request) :
    resultType (server.route crates engine refuse request ctx).response = some kind ↔
      request.method = "tools/call" ∧ ∃ requestMeta, server.SpokenModern request requestMeta ∧
        let ctx := { ctx with clientCapabilities := some requestMeta.clientCapabilities }
        ∃ call, server.checked crates request.params ctx true request.headers = .ok call ∧
          server.mark true ctx.supportsTasks (server.callOutcome ctx call) = some kind := by
  rcases hhost with hnone | hreserved
  · exact resultType_iff_hostless crates engine refuse request ctx hkind hnone
  · have hnone : { server with methodHandler := none }.methodHandler = none := rfl
    rw [← route_reserved crates engine refuse server request ctx none hreserved]
    exact resultType_iff_hostless crates engine refuse request ctx hkind hnone

theorem route_not_reserved (server : McpServer S) (request : JsonRpcRequest) (ctx : CallContext)
    (h : ¬ server.Reserved request) : ∃ ctx',
    ctx'.caller = ctx.caller ∧
      ((server.route crates engine refuse request ctx).response =
          server.handleUnknownMethod request.method request.id request.params ctx' ∨
        (server.route crates engine refuse request ctx).response = frameModernResult request.method
          (server.handleUnknownMethod request.method request.id request.params ctx')) := by
  unfold Reserved at h
  unfold route Mcp.route
  cases hdetect : ModernRequestMeta.detect (request.getMetadata PROTOCOL_VERSION_HEADER)
      request.params with
  | malformed reason =>
    rw [hdetect] at h
    exact absurd trivial h
  | headerMismatch reason =>
    rw [hdetect] at h
    exact absurd trivial h
  | legacy =>
    rw [hdetect] at h
    obtain ⟨hmem, hlevel⟩ := not_or.mp h
    simp only [List.mem_cons, List.not_mem_nil, or_false, not_or] at hmem
    obtain ⟨hinit, hlist, hcall, hdiscover, hping⟩ := hmem
    refine ⟨ctx, rfl, .inl ?_⟩
    unfold processLegacy
    dsimp only
    rw [if_neg hinit, if_neg hlevel, if_neg hlist, if_neg hcall, if_neg hdiscover, if_neg hping]
  | modern requestMeta =>
    rw [hdetect] at h
    simp only [not_or, List.mem_cons, List.not_mem_nil, or_false] at h
    obtain ⟨hspoken, hserved, ⟨hdiscover, hlist, hcall⟩, htasks⟩ := h
    refine ⟨{ ctx with clientCapabilities := some requestMeta.clientCapabilities }, rfl, .inr ?_⟩
    dsimp only
    unfold processModern modernResponse
    rw [Bool.eq_true_of_not_eq_false hspoken, Bool.not_true, if_neg Bool.false_ne_true,
      if_neg (by simpa using hserved), if_neg hdiscover, if_neg hlist, if_neg hcall]
    split
    · rename_i hmethod
      cases hmanager : server.taskManager with
      | none => rfl
      | some manager => exact absurd ⟨hmethod, by rw [hmanager]; rfl⟩ htasks
    · rfl

/-- What a host serves of its own never changes what the engine answers to a request that is the
engine's, one for a method that the modern era removed least of all; any other request is the host's,
and nobody else's, to answer. -/
theorem host_serves_the_rest (server : McpServer S) (request : JsonRpcRequest) (ctx : CallContext) :
    (server.Reserved request → ∀ handler,
      { server with methodHandler := handler }.route crates engine refuse request ctx =
        server.route crates engine refuse request ctx) ∧
    (¬ server.Reserved request → ∃ ctx', ctx'.caller = ctx.caller ∧
      ((server.route crates engine refuse request ctx).response =
          server.handleUnknownMethod request.method request.id request.params ctx' ∨
        (server.route crates engine refuse request ctx).response = frameModernResult request.method
          (server.handleUnknownMethod request.method request.id request.params ctx'))) :=
  ⟨fun h handler => route_reserved crates engine refuse server request ctx handler h,
    route_not_reserved crates engine refuse server request ctx⟩

/-- A call of the manager for the tasks of this owner. -/
inductive Asks (owner : Tasks.TaskOwner) : Tasks.Call → Prop where
  | get (id : Tasks.TaskId) : Asks owner (.get owner id)
  | applyInput (id : Tasks.TaskId) (responses : Tasks.InputResponses) :
      Asks owner (.applyInput owner id responses)
  | cancel (id : Tasks.TaskId) : Asks owner (.cancel owner id)

theorem handleTaskMethod_congr {manager other : Tasks.Call → Tasks.Outcome} {ctx : CallContext}
    (h : ∀ call, Asks ctx.owner call → manager call = other call) (method : String)
    (id params : Option Json) :
    handleTaskMethod manager method id params ctx = handleTaskMethod other method id params ctx := by
  unfold handleTaskMethod
  split
  · rfl
  · rename_i taskId _
    rw [h _ (.get taskId), h _ (.cancel taskId)]
    split
    · rfl
    · split
      · split
        · rfl
        · rename_i responses _
          rw [h _ (.applyInput taskId responses)]
      · rfl

/-- The request asks for a task, as only a client that says it knows the extension may. -/
def AsksForTask (server : McpServer S) (request : JsonRpcRequest) (ctx : CallContext) : Prop :=
  ∃ requestMeta, server.SpokenModern request requestMeta ∧
    request.method ∈ [TASKS_GET, TASKS_UPDATE, TASKS_CANCEL] ∧
    { ctx with clientCapabilities := some requestMeta.clientCapabilities }.supportsTasks = true

/-- The task manager is asked for the caller's own tasks only, and for those only by a modern request
that declares the extension: managers that agree on these make no difference to any answer. -/
theorem tasks_confined (server : McpServer S) (request : JsonRpcRequest) (ctx : CallContext)
    (manager other : Tasks.Call → Tasks.Outcome)
    (h : server.AsksForTask request ctx → ∀ call, Asks ctx.owner call → manager call = other call) :
    { server with taskManager := some manager }.route crates engine refuse request ctx =
      { server with taskManager := some other }.route crates engine refuse request ctx := by
  unfold route Mcp.route
  cases hdetect : ModernRequestMeta.detect (request.getMetadata PROTOCOL_VERSION_HEADER)
      request.params with
  | malformed reason => rfl
  | headerMismatch reason => rfl
  | legacy => rfl
  | modern requestMeta =>
    dsimp only
    unfold processModern
    dsimp only
    split
    · rfl
    · rename_i hspoken
      split
      · rfl
      · congr 2
        unfold modernResponse
        dsimp only
        split
        · rfl
        · split
          · rfl
          · split
            · rfl
            · split
              · rename_i hmethod
                split
                · rename_i hdeclares
                  refine handleTaskMethod_congr (h ?_) _ _ _
                  refine ⟨requestMeta, ⟨hdetect, ?_⟩, by simpa using hmethod, hdeclares⟩
                  simpa using hspoken
                · rfl
              · rfl

end Methods.McpServer

namespace Methods

/-- A server whose one tool answers with a task. -/
def reportServer : McpServer Unit where
  supported := [PROTOCOL_VERSION_2026_07_28, PROTOCOL_VERSION]
  name := "report"
  version := "1.0"
  capabilities := ⟨none, none, none, none, none, none, none⟩
  instructions := none
  pageSize := none
  tools := .empty
  state := ()
  toolDispatcher := some ⟨fun _ => [], fun _ _ _ => .task (.new "now" ⟨"t"⟩ none none)⟩
  methodHandler := none
  taskManager := some fun _ => .error (.notFound ⟨"t"⟩)

def reportMeta : Json :=
  .object [(meta_keys.PROTOCOL_VERSION, .string PROTOCOL_VERSION_2026_07_28),
    (meta_keys.CLIENT_CAPABILITIES,
      .object [("extensions", .object [(TASKS_EXTENSION_ID, .object [])])])]

def reportCall : JsonRpcRequest :=
  .received JSONRPC_VERSION "tools/call"
    (some (.object [("_meta", reportMeta), ("name", .string "report")])) (some (.string "1"))

def reporter : CallContext := ⟨⟨⟨some "ana", none⟩, false, []⟩, none, none, none, false⟩

theorem resultType_iff_report : resultType (reportServer.route plainCrates Base64.urlSafe
    (fun _ => "") reportCall reporter).response = some "task" := by
  refine (McpServer.resultType_iff plainCrates Base64.urlSafe (fun _ => "") reportCall reporter
    (by decide) (.inl rfl)).mpr ⟨rfl, ?_⟩
  refine ⟨⟨PROTOCOL_VERSION_2026_07_28, none, .object [("extensions",
    .object [(TASKS_EXTENSION_ID, .object [])])], none⟩, ⟨by decide, by decide⟩, ?_⟩
  exact ⟨⟨"report", none, none, none⟩, by decide, by decide⟩

/-- A host that serves prompts of its own, under the id it is given. -/
def promptServer : McpServer Unit :=
  { reportServer with
    methodHandler := some fun method id _ _ =>
      if method = "prompts/list" then some (.success id (.object [("prompts", .array [])])) else none }

theorem route_wellFormed_prompts : WellFormed (some (.string "2")) (promptServer.route plainCrates
    Base64.urlSafe (fun _ => "")
    (.received JSONRPC_VERSION "prompts/list" none (some (.string "2"))) reporter).response := by
  have hosted : promptServer.HostWellFormed := by
    intro handler h method id params ctx response hresponse
    obtain rfl := Option.some.inj h
    dsimp only at hresponse
    split at hresponse
    · rw [← Option.some.inj hresponse]
      exact .success _
    · cases hresponse
  exact McpServer.route_wellFormed plainCrates Base64.urlSafe (fun _ => "") hosted
    (.received JSONRPC_VERSION "prompts/list" none (some (.string "2"))) reporter

def reportGet : JsonRpcRequest :=
  .received JSONRPC_VERSION TASKS_GET
    (some (.object [("_meta", reportMeta), ("taskId", .string "t")])) (some (.string "3"))

/-- What the manager would answer to another owner makes no difference. -/
theorem tasks_confined_report :
    { reportServer with taskManager := some fun _ => .error (.notFound ⟨"t"⟩) }.route plainCrates
        Base64.urlSafe (fun _ => "") reportGet reporter =
      { reportServer with
        taskManager := some fun call =>
          if call = Tasks.Call.get ⟨some "bo", none⟩ ⟨"t"⟩ then .error (.detached ⟨"t"⟩)
          else .error (.notFound ⟨"t"⟩) }.route plainCrates Base64.urlSafe (fun _ => "") reportGet
        reporter := by
  refine McpServer.tasks_confined plainCrates Base64.urlSafe (fun _ => "") reportServer reportGet
    reporter _ _ ?_
  intro _ call hasks
  cases hasks with
  | get id =>
    have other : Tasks.Call.get reporter.owner id ≠ .get ⟨some "bo", none⟩ ⟨"t"⟩ := by
      intro same
      have owners : reporter.owner = ⟨some "bo", none⟩ := (Tasks.Call.get.inj same).1
      revert owners
      decide
    rw [if_neg other]
  | applyInput id responses => rfl
  | cancel id => rfl

end Methods

end Tronc.Mcp
