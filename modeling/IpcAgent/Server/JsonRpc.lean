import IpcAgent.Library.Json
import IpcAgent.Library.Dialogue

/-!
# JSON-RPC between the agent and its clients

The client of `jsonrpc/mod.rs` calling the server of `server/jsonrpc.rs`. What a handler does
is not part of this: it is called with a method and parameters, and answers with a value or
an error. Requests and replies travel as JSON text, over a connection that may fail. The client
does not look at the status of a reply, only at its body, and it does not wait for long.
-/

namespace IpcAgent.Server.JsonRpc
open Library

/-- `JSON_RPC_VERSION`, and `DEFAULT_JSON_RPC_VERSION` of the client. -/
def jsonRpcVersion : String := "2.0"

/-- `DEFAULT_JSON_RPC_ID`. -/
def defaultJsonRpcId : UInt8 := 1

/-- `DEFAULT_REQ_TIMEOUT`, in milliseconds. -/
def defaultReqTimeout : Nat := 30000

/-- The body of an HTTP message: JSON, or a text that is not JSON. -/
inductive Body
  | json (value : Json)
  | text (s : String)

/-- The value that is read from a body. -/
def Body.read (float : UInt64 → UInt64) : Body → Option Json
  | json value => value.fromText float
  | text _ => none

/-- A call of a handler. -/
structure Call where
  method : String
  params : Json

/-- Why a call made with the client fails. -/
inductive RequestError
  /-- "params is not an array nor an object" -/
  | params
  /-- The connection cannot be made, or is lost. -/
  | connection
  /-- The reply is not there in time. -/
  | timeout
  /-- "cannot parse json rpc response: …" -/
  | parse (body : Body)
  /-- "json_rpc id or version not matching." -/
  | mismatch
  /-- "json_rpc error: …" -/
  | jsonRpc (error : Json)
  /-- There is no result, and null is not a value of the expected type. -/
  | noResult

/-- A program that may call handlers. -/
abbrev Rpc := Program Call (Except String Json) Empty RequestError Empty

/-! ## The server -/

structure JSONRPCRequest where
  id : UInt64
  jsonrpc : String
  method : String
  params : Json

/-- `Deserialize for JSONRPCRequest`, as derived. -/
def JSONRPCRequest.ofJson : Json → Option JSONRPCRequest
  | .obj members => do
    let id ← (← Json.required "id" members).asU64
    let jsonrpc ← (← Json.required "jsonrpc" members).asString
    let method ← (← Json.required "method" members).asString
    let params ← Json.required "params" members
    return ⟨id, jsonrpc, method, params⟩
  | .arr [id, jsonrpc, method, params] => do
    return ⟨← id.asU64, ← jsonrpc.asString, ← method.asString, params⟩
  | _ => none

/-- `JSONRPCError` without data, which is the only kind there is. -/
structure JSONRPCError where
  code : Int32
  message : String

/-- `JSONRPCResultResponse::new`. -/
def resultResponse (id : UInt64) (result : Json) : Json :=
  .obj [("id", .int id.toNat), ("jsonrpc", .str jsonRpcVersion), ("result", result)]

/-- `JSONRPCErrorResponse::new`. -/
def errorResponse (id : UInt64) (error : JSONRPCError) : Json :=
  .obj [("id", .int id.toNat), ("jsonrpc", .str jsonRpcVersion),
    ("error", .obj [("code", .int error.code.toInt), ("message", .str error.message),
      ("data", .null)])]

/-- `JSONRPCErrorResponse::invalid_request`. -/
def invalidRequest (id : UInt64) : Json := errorResponse id ⟨-32600, "Invalid Request"⟩

/-- The methods that have a handler. -/
structure Handlers where
  methods : List String

/-- `Handlers::new`. -/
def Handlers.new : Handlers where
  methods := ["ipc_reloadConfig", "ipc_createSubnet", "ipc_leaveSubnet", "ipc_killSubnet",
    "ipc_joinSubnet", "ipc_fund", "ipc_release", "ipc_propagate", "ipc_whitelistPropagator",
    "ipc_sendValue", "ipc_walletNew", "ipc_walletList", "ipc_setValidatorNetAddr",
    "ipc_listChildSubnets", "ipc_listBottomUpCheckpoints", "ipc_lastTopDownCheckpointExecuted",
    "ipc_queryValidatorSet"]

def Handlers.handle (handlers : Handlers) (method : String) (params : Json) :
    Rpc (Except String Json) :=
  if method ∈ handlers.methods then Program.ask ⟨method, params⟩
  else pure (.error "method not supported")

def handleRequest (request : JSONRPCRequest) (handlers : Handlers) : Rpc Json :=
  if request.jsonrpc ≠ jsonRpcVersion then pure (invalidRequest request.id)
  else do
    match ← handlers.handle request.method request.params with
    | .ok response => pure (resultResponse request.id response)
    | .error e => pure (errorResponse request.id ⟨-1, e⟩)

/-- `json_rpc_filter`, with `to_json_rpc_request` and `handle_rejection`. -/
def jsonRpcFilter (float : UInt64 → UInt64) (handlers : Handlers) (body : Body) : Rpc Body :=
  match body.read float >>= JSONRPCRequest.ofJson with
  | none => pure (.text "BAD_REQUEST")
  | some request => do
    let reply ← handleRequest request handlers
    pure (.json reply)

/-! ## The client -/

/-- Whether there are parameters to send; none if they are not acceptable. -/
def hasParams : Json → Option Bool
  | .arr items => some (!items.isEmpty)
  | .obj members => some (!members.isEmpty)
  | .null => some false
  | _ => none

def buildJsonrpcRequest (method : String) (params : Json) : Except RequestError Json :=
  match hasParams params with
  | none => .error .params
  | some true => .ok (.obj [("jsonrpc", .str jsonRpcVersion), ("id", .int defaultJsonRpcId.toNat),
      ("method", .str method), ("params", params)])
  | some false => .ok (.obj [("jsonrpc", .str jsonRpcVersion),
      ("id", .int defaultJsonRpcId.toNat), ("method", .str method)])

structure JsonRpcResponse (τ : Type) where
  id : UInt8
  jsonrpc : String
  result : Option τ
  error : Option Json

section Client

variable {τ : Type} (decode : Json → Option τ)

/-- `Deserialize for JsonRpcResponse<T>`, as derived. -/
def JsonRpcResponse.ofJson : Json → Option (JsonRpcResponse τ)
  | .obj members => do
    let id ← (← Json.required "id" members).asU8
    let jsonrpc ← (← Json.required "jsonrpc" members).asString
    let result ← Json.asOption decode (← Json.field "result" members)
    let error ← Json.asOption some (← Json.field "error" members)
    return ⟨id, jsonrpc, result, error⟩
  | .arr [id, jsonrpc, result, error] => do
    return ⟨← id.asU8, ← jsonrpc.asString, ← Json.asOption decode (some result),
      ← Json.asOption some (some error)⟩
  | _ => none

/-- `From<JsonRpcResponse<T>> for Result<T>`. -/
def JsonRpcResponse.toResult (response : JsonRpcResponse τ) : Except RequestError τ :=
  match response.error, response.result with
  | some error, _ => .error (.jsonRpc error)
  | none, some result => .ok result
  | none, none =>
    match decode .null with
    | some result => .ok result
    | none => .error .noResult

/-- What `JsonRpcClientImpl::request` makes of the body of the reply. -/
def readResponse (float : UInt64 → UInt64) (body : Body) : Except RequestError τ :=
  match body.read float >>= JsonRpcResponse.ofJson decode with
  | none => .error (.parse body)
  | some value =>
    if value.id ≠ defaultJsonRpcId ∨ value.jsonrpc ≠ jsonRpcVersion then .error .mismatch
    else value.toResult decode

def ofExcept {α : Type} : Except RequestError α → Rpc α
  | .ok a => pure a
  | .error e => Program.fail e

/-- What becomes of an HTTP request. -/
inductive Transport
  /-- It does not arrive. -/
  | unsent
  /-- It arrives, and all of the reply would be there after so many milliseconds. -/
  | replied (ms : Nat)
  /-- It arrives, and the connection is lost before the reply is there. -/
  | lost

/-- `send().await?` and `text().await?`, with the timeout of the request. The server is called
when the request arrives, and the client may give up while it is at work. -/
def Transport.send (transport : Transport) (server : Rpc Body) : Rpc Body :=
  match transport with
  | .unsent => Program.fail .connection
  | .replied ms => do
    let body ← server
    if ms < defaultReqTimeout then pure body else Program.fail .timeout
  | .lost => do
    let _ ← server
    Program.fail .connection

/-- `JsonRpcClientImpl::request` to the agent's own server. -/
def request (float : UInt64 → UInt64) (transport : Transport) (handlers : Handlers)
    (method : String) (params : Json) : Rpc τ := do
  let requestBody ← ofExcept (buildJsonrpcRequest method params)
  let responseBody ← transport.send (jsonRpcFilter float handlers (.json requestBody))
  ofExcept (readResponse decode float responseBody)

end Client

/-! ## Messages -/

/-- The value fits into a message and is read from it as it was. -/
def Travels (float : UInt64 → UInt64) (value : Json) : Prop :=
  value.Kept float ∧ value.depth < 127

section Messages

variable {float : UInt64 → UInt64} {τ : Type} {decode : Json → Option τ}

theorem received_iff_travels {value : Json} :
    value.received float = some value ↔ Travels float value :=
  Json.received_eq_some_iff

theorem read_request {method : String} {params : Json} :
    (Body.json (.obj [("jsonrpc", .str jsonRpcVersion), ("id", .int defaultJsonRpcId.toNat),
      ("method", .str method), ("params", params)])).read float >>= JSONRPCRequest.ofJson =
      (params.received float).map fun given => ⟨1, jsonRpcVersion, method, given⟩ := by
  have kept : Json.KeptMembers float [("jsonrpc", .str jsonRpcVersion),
      ("id", .int defaultJsonRpcId.toNat), ("method", .str method)] :=
    ⟨trivial, trivial, trivial, trivial⟩
  have read := Json.fromText_obj _ "params" params kept
    (by simp [Json.depthMembers, Json.depth, Json.int])
  simp only [List.cons_append, List.nil_append] at read
  rw [Body.read, read]
  cases params.received float with
  | none => rfl
  | some given =>
    simp [JSONRPCRequest.ofJson, Json.required, Json.field, Json.int, Json.asU64, Json.asString,
      defaultJsonRpcId]

theorem read_request_of_no_params {method : String} :
    (Body.json (.obj [("jsonrpc", .str jsonRpcVersion), ("id", .int defaultJsonRpcId.toNat),
      ("method", .str method)])).read float >>= JSONRPCRequest.ofJson = none := by
  have kept : Json.KeptMembers float [("jsonrpc", .str jsonRpcVersion),
      ("id", .int defaultJsonRpcId.toNat)] := ⟨trivial, trivial, trivial⟩
  have read := Json.fromText_obj _ "method" (.str method) kept
    (by simp [Json.depthMembers, Json.depth, Json.int])
  simp only [List.cons_append, List.nil_append] at read
  have travels : Travels float (.str method) := ⟨trivial, by simp [Json.depth]⟩
  rw [Body.read, read, received_iff_travels.mpr travels]
  simp [JSONRPCRequest.ofJson, Json.required, Json.field, Json.int, Json.asU64, Json.asString,
    defaultJsonRpcId]

theorem read_resultResponse {id : UInt64} {result : Json} :
    (Body.json (resultResponse id result)).read float =
      (result.received float).map (resultResponse id) :=
  Json.fromText_obj [("id", .int id.toNat), ("jsonrpc", .str jsonRpcVersion)] "result" result
    ⟨trivial, trivial, trivial⟩ (by simp [Json.depthMembers, Json.depth, Json.int])

theorem read_errorResponse {id : UInt64} {error : JSONRPCError} :
    (Body.json (errorResponse id error)).read float = some (errorResponse id error) := by
  refine (Json.fromText_obj [("id", .int id.toNat), ("jsonrpc", .str jsonRpcVersion)] "error" _
    ⟨trivial, trivial, trivial⟩ (by simp [Json.depthMembers, Json.depth, Json.int])).trans ?_
  have travels : Travels float (.obj [("code", .int error.code.toInt),
      ("message", .str error.message), ("data", .null)]) :=
    ⟨⟨trivial, trivial, trivial, trivial⟩, by simp [Json.depthMembers, Json.depth, Json.int]⟩
  rw [received_iff_travels.mpr travels]
  rfl

theorem ofJson_resultResponse {result : Json} :
    JsonRpcResponse.ofJson decode (resultResponse 1 result) =
      (Json.asOption decode (some result)).map (⟨1, jsonRpcVersion, ·, none⟩) := by
  cases h : Json.asOption decode (some result) <;>
    simp [JsonRpcResponse.ofJson, resultResponse, Json.required, Json.field, Json.int, Json.asU8,
      Json.asString, h]

/-- The client decodes the result that it receives, null or not. -/
theorem readResponse_result {result : Json} :
    (readResponse decode float (.json (resultResponse 1 result))).toOption =
      (result.received float).bind decode := by
  rw [readResponse, read_resultResponse]
  cases result.received float with
  | none => rfl
  | some given =>
    rw [Option.map_some, Option.bind_eq_bind, Option.bind_some, ofJson_resultResponse,
      Option.bind_some]
    by_cases null : given = .null
    · rw [null]
      change (JsonRpcResponse.toResult decode ⟨1, jsonRpcVersion, none, none⟩).toOption = _
      rw [JsonRpcResponse.toResult]
      cases decode .null <;> rfl
    · rw [Json.asOption_of_ne_null null]
      cases decode given <;> rfl

theorem readResponse_error {error : JSONRPCError} :
    readResponse decode float (.json (errorResponse 1 error)) =
      .error (.jsonRpc (.obj [("code", .int error.code.toInt), ("message", .str error.message),
        ("data", .null)])) := by
  rw [readResponse, read_errorResponse]
  rfl

/-- The reply to an answer of a handler. -/
def replyTo : Except String Json → Json
  | .ok response => resultResponse 1 response
  | .error e => errorResponse 1 ⟨-1, e⟩

theorem toOption_readResponse {answer : Except String Json} :
    (readResponse decode float (.json (replyTo answer))).toOption =
      answer.toOption.bind fun result => (result.received float).bind decode := by
  cases answer with
  | ok result => exact readResponse_result
  | error e => exact congrArg Except.toOption readResponse_error

end Messages

/-! ## Runs -/

namespace Transport

/-- The server gets the request. -/
def arrives : Transport → Bool
  | unsent => false
  | replied _ | lost => true

/-- The client gets the reply. -/
def returns : Transport → Bool
  | unsent | lost => false
  | replied ms => ms < defaultReqTimeout

end Transport

/-- A call that returns a value, or fails with `e` for want of one. -/
def returning {τ : Type} (e : RequestError) : Option τ → Outcome Call RequestError Empty τ
  | some value => .ret value
  | none => .halt (.fail e)

section Runs

variable {float : UInt64 → UInt64} {transport : Transport} {handlers : Handlers} {τ : Type}
  (decode : Json → Option τ) {method : String} {params given : Json}
  {answers rest : List (Except String Json)} {answer : Except String Json}
  {trace : List (Event Call (Except String Json) Empty)}

theorem run_handleRequest (known : method ∈ handlers.methods) (answer : Except String Json) :
    (handleRequest ⟨1, jsonRpcVersion, method, params⟩ handlers).run [answer] =
      ⟨.ret (replyTo answer), [], [.exchange ⟨method, params⟩ answer]⟩ := by
  rw [handleRequest, if_neg (by simp), Handlers.handle, if_pos known]
  cases answer <;> rfl

theorem run_handleRequest_unknown (unknown : method ∉ handlers.methods)
    (answers : List (Except String Json)) :
    (handleRequest ⟨1, jsonRpcVersion, method, params⟩ handlers).run answers =
      ⟨.ret (replyTo (.error "method not supported")), answers, []⟩ := by
  rw [handleRequest, if_neg (by simp), Handlers.handle, if_neg unknown]
  rfl

theorem run_ofExcept (returned : Except RequestError τ) (answers : List (Except String Json)) :
    ∃ e, (ofExcept returned).run answers = ⟨returning e returned.toOption, answers, []⟩ := by
  cases returned with
  | ok value => exact ⟨.noResult, rfl⟩
  | error e => exact ⟨e, rfl⟩

variable (float) in
/-- What the client makes of the reply of a server, if it gets it. -/
theorem run_send {server : Rpc Body} {body : Body} (arrives : transport.arrives = true)
    (served : server.run answers = ⟨.ret body, rest, trace⟩) :
    ∃ e, (transport.send server >>= fun body =>
        ofExcept (readResponse decode float body)).run answers =
      ⟨returning e (if transport.returns then (readResponse decode float body).toOption else none),
        rest, trace⟩ := by
  cases transport with
  | unsent => cases arrives
  | lost =>
    refine ⟨.connection, ?_⟩
    change Program.andThen (Program.andThen (server.run answers) _) _ = _
    rw [served]
    simp [Program.andThen, Run.after, returning, Transport.returns, Program.fail]
  | replied ms =>
    obtain ⟨e, run⟩ := run_ofExcept (readResponse decode float body) rest
    change ∃ e, Program.andThen (Program.andThen (server.run answers) _) _ = _
    rw [served]
    by_cases inTime : ms < defaultReqTimeout
    · refine ⟨e, ?_⟩
      simp [Program.andThen, Run.after, Transport.returns, inTime, run, pure, Program.ret]
    · refine ⟨.timeout, ?_⟩
      simp [Program.andThen, Run.after, returning, Transport.returns, inTime, Program.fail]

/-- Whatever the handlers do to get there, the client makes of their reply what it should. -/
theorem run_request (sent : hasParams params = some true) (arrives : transport.arrives = true)
    (received : params.received float = some given)
    (handled : (handleRequest ⟨1, jsonRpcVersion, method, given⟩ handlers).run answers =
      ⟨.ret (replyTo answer), rest, trace⟩) :
    ∃ e, (request decode float transport handlers method params).run answers =
      ⟨returning e (if transport.returns then
          answer.toOption.bind fun result => (result.received float).bind decode else none),
        rest, trace⟩ := by
  have served : (jsonRpcFilter float handlers (.json (.obj [("jsonrpc", .str jsonRpcVersion),
      ("id", .int defaultJsonRpcId.toNat), ("method", .str method), ("params", params)]))).run
      answers = ⟨.ret (.json (replyTo answer)), rest, trace⟩ := by
    rw [jsonRpcFilter, read_request, received]
    change Program.andThen (Program.run _ answers) _ = _
    rw [handled]
    simp [Program.andThen, Run.after, pure, Program.ret]
  obtain ⟨e, run⟩ := run_send float decode arrives served
  rw [toOption_readResponse] at run
  refine ⟨e, ?_⟩
  rw [request, buildJsonrpcRequest, sent]
  exact run

/-- The server rejects what it cannot read as a request. -/
theorem run_request_of_unread {body : Json} (built : buildJsonrpcRequest method params = .ok body)
    (unread : (Body.json body).read float >>= JSONRPCRequest.ofJson = none)
    (answers : List (Except String Json)) :
    ∃ e, (request decode float transport handlers method params).run answers =
      ⟨.halt (.fail e), answers, []⟩ := by
  have served : (jsonRpcFilter float handlers (.json body)).run answers =
      ⟨.ret (.text "BAD_REQUEST"), answers, []⟩ := by
    rw [jsonRpcFilter, unread]
    rfl
  rw [request, built]
  cases arrives : transport.arrives with
  | true =>
    obtain ⟨e, run⟩ := run_send float decode arrives served
    refine ⟨e, run.trans ?_⟩
    simp [readResponse, Body.read, Except.toOption, returning]
  | false =>
    cases transport with
    | unsent => exact ⟨.connection, rfl⟩
    | _ => cases arrives

theorem run_request_of_no_params {ms : Nat} (unsent : hasParams params = some false)
    (inTime : ms < defaultReqTimeout) (answers : List (Except String Json)) :
    (request decode float (.replied ms) handlers method params).run answers =
      ⟨.halt (.fail (.parse (.text "BAD_REQUEST"))), answers, []⟩ := by
  rw [request, buildJsonrpcRequest, unsent]
  simp only [ofExcept, pure_bind, Transport.send, jsonRpcFilter, read_request_of_no_params,
    if_pos inTime]
  rfl

/-- All that keeps a request from a handler makes the client fail. -/
theorem run_request_unreached (unreached : method ∈ handlers.methods →
      hasParams params = some true → transport.arrives = true → params.received float = none)
    (answers : List (Except String Json)) :
    ∃ e, (request decode float transport handlers method params).run answers =
      ⟨.halt (.fail e), answers, []⟩ := by
  cases sent : hasParams params with
  | none =>
    refine ⟨.params, ?_⟩
    rw [request, buildJsonrpcRequest, sent]
    rfl
  | some sent' =>
    cases sent' with
    | false =>
      exact run_request_of_unread decode (by rw [buildJsonrpcRequest, sent])
        read_request_of_no_params answers
    | true =>
      cases received : params.received float with
      | none =>
        refine run_request_of_unread decode (by rw [buildJsonrpcRequest, sent]) ?_ answers
        rw [read_request, received]
        rfl
      | some given =>
        cases arrives : transport.arrives with
        | false =>
          rw [request, buildJsonrpcRequest, sent]
          cases transport with
          | unsent => exact ⟨.connection, rfl⟩
          | _ => cases arrives
        | true =>
          have unknown : method ∉ handlers.methods := by
            intro known
            rw [unreached known sent arrives] at received
            cases received
          obtain ⟨e, run⟩ := run_request decode sent arrives received
            (run_handleRequest_unknown unknown answers)
          exact ⟨e, by simpa [Except.toOption, returning] using run⟩

end Runs

/-! ## Agreement -/

/-- What a handler should be given: the parameters, or any empty ones for empty ones. -/
def Delivered (params given : Json) : Prop :=
  if hasParams params = some true then given = params else hasParams given = some false

/-- The handler of the method is called with the parameters, and the client returns its decoded
result or fails, for any type of results. -/
def Agrees (float : UInt64 → UInt64) (transport : Transport) (handlers : Handlers)
    (method : String) (params : Json) (answer : Except String Json) : Prop :=
  ∀ (τ : Type) (decode : Json → Option τ), ∃ e given, Delivered params given ∧
    (request decode float transport handlers method params).run [answer] =
      ⟨returning e (answer.toOption.bind decode), [], [.exchange ⟨method, given⟩ answer]⟩

section Agreement

variable {float : UInt64 → UInt64} {transport : Transport} {handlers : Handlers}
  {method : String} {params : Json} {answer : Except String Json}

theorem run_request_of_travels {τ : Type} (decode : Json → Option τ)
    (known : method ∈ handlers.methods) (sent : hasParams params = some true)
    (travels : Travels float params) (arrives : transport.arrives = true)
    (back : ∀ result, answer = .ok result → Travels float result ∧ transport.returns = true) :
    ∃ e, (request decode float transport handlers method params).run [answer] =
      ⟨returning e (answer.toOption.bind decode), [], [.exchange ⟨method, params⟩ answer]⟩ := by
  obtain ⟨e, run⟩ := run_request decode sent arrives
    (received_iff_travels.mpr travels) (run_handleRequest known answer)
  refine ⟨e, run.trans ?_⟩
  cases answer with
  | ok result =>
    obtain ⟨result', returns⟩ := back result rfl
    simp [returns, Except.toOption, received_iff_travels.mpr result']
  | error e => simp [Except.toOption]

theorem travels_of_agrees (known : method ∈ handlers.methods)
    (agrees : Agrees float transport handlers method params answer) :
    hasParams params = some true ∧ Travels float params ∧ transport.arrives = true ∧
      ∀ result, answer = .ok result → Travels float result ∧ transport.returns = true := by
  obtain ⟨e, given, delivered, run⟩ := agrees Json some
  by_cases reached : hasParams params = some true ∧ transport.arrives = true ∧
      params.received float ≠ none
  · obtain ⟨sent, arrives, given'⟩ := reached
    obtain ⟨given', received⟩ := Option.ne_none_iff_exists'.mp given'
    obtain ⟨e', run'⟩ := run_request some sent arrives received
      (run_handleRequest known answer)
    have same := run.symm.trans run'
    simp only [Run.mk.injEq, List.cons.injEq, Event.exchange.injEq, Call.mk.injEq, true_and,
      and_true] at same
    obtain ⟨outcome, rfl⟩ := same
    rw [Delivered, if_pos sent] at delivered
    subst delivered
    refine ⟨sent, received_iff_travels.mp received, arrives, fun result isResult => ?_⟩
    subst isResult
    cases returns : transport.returns with
    | false => simp [returns, Except.toOption, returning] at outcome
    | true =>
      refine ⟨received_iff_travels.mp ?_, rfl⟩
      cases back : result.received float with
      | none => simp [returns, Except.toOption, returning, back] at outcome
      | some result' =>
        have same : result = result' := by
          simpa [returns, Except.toOption, returning, back] using outcome
        rw [same]
  · obtain ⟨e', run'⟩ := run_request_unreached some (fun _ sent arrives =>
      not_not.mp fun received => reached ⟨sent, arrives, received⟩) [answer]
    exact absurd (congrArg Run.trace (run.symm.trans run')) (List.cons_ne_nil _ _)

end Agreement

/-- A call reaches the handler of its method with the parameters sent, and returns the decoded
result of the handler or fails, just if there are parameters, these and a result survive the JSON
text, the request arrives, and a result is back in time. A method without a handler gives an
error. -/
theorem call_agrees_iff (float : UInt64 → UInt64) (transport : Transport) (handlers : Handlers)
    (method : String) (params : Json) :
    (method ∈ handlers.methods → ∀ answer : Except String Json,
      Agrees float transport handlers method params answer ↔
        hasParams params = some true ∧ Travels float params ∧ transport.arrives = true ∧
          ∀ result, answer = .ok result → Travels float result ∧ transport.returns = true) ∧
    (method ∉ handlers.methods → ∀ (τ : Type) (decode : Json → Option τ) answers,
      ∃ e, (request decode float transport handlers method params).run answers =
        ⟨.halt (.fail e), answers, []⟩) := by
  refine ⟨fun known answer => ⟨travels_of_agrees known, ?_⟩, fun unknown τ decode answers => ?_⟩
  · rintro ⟨sent, travels, arrives, back⟩ τ decode
    obtain ⟨e, run⟩ := run_request_of_travels decode known sent travels arrives back
    exact ⟨e, params, by rw [Delivered, if_pos sent], run⟩
  · exact run_request_unreached decode (fun known => absurd known unknown) answers

/-- `Deserialize for ()`. -/
def asUnit : Json → Option Unit
  | .null => some ()
  | _ => none

/-- A reply that is back just in time. -/
theorem null_result_returned :
    "ipc_killSubnet" ∈ Handlers.new.methods ∧
      Agrees id (.replied 29999) .new "ipc_killSubnet" (.obj [("subnet", .str "/root")])
        (.ok .null) := by
  have known : "ipc_killSubnet" ∈ Handlers.new.methods := by decide
  have travels : Travels id (.obj [("subnet", .str "/root")]) :=
    ⟨⟨trivial, trivial⟩, by simp [Json.depth, Json.depthMembers]⟩
  have null : Travels id .null := ⟨trivial, by simp [Json.depth]⟩
  refine ⟨known, ((call_agrees_iff id (.replied 29999) .new "ipc_killSubnet"
    (.obj [("subnet", .str "/root")])).1 known (.ok .null)).mpr
      ⟨rfl, travels, rfl, fun result same => ?_⟩⟩
  cases same
  exact ⟨null, rfl⟩

/-- Calls without parameters, in each of the three forms, do not come to the handler. -/
theorem empty_params_rejected :
    (request asUnit id (.replied 0) Handlers.new "ipc_killSubnet" .null).run [.ok .null] =
        ⟨.halt (.fail (.parse (.text "BAD_REQUEST"))), [.ok .null], []⟩ ∧
      (request asUnit id (.replied 0) Handlers.new "ipc_killSubnet" (.arr [])).run [.ok .null] =
        ⟨.halt (.fail (.parse (.text "BAD_REQUEST"))), [.ok .null], []⟩ ∧
      (request asUnit id (.replied 0) Handlers.new "ipc_killSubnet" (.obj [])).run [.ok .null] =
        ⟨.halt (.fail (.parse (.text "BAD_REQUEST"))), [.ok .null], []⟩ :=
  have inTime : 0 < defaultReqTimeout := by decide
  ⟨run_request_of_no_params asUnit rfl inTime _, run_request_of_no_params asUnit rfl inTime _,
    run_request_of_no_params asUnit rfl inTime _⟩

end IpcAgent.Server.JsonRpc
