import ProductionStack.ClientSessions
import ProductionStack.Json

namespace ProductionStack.DisaggregatedPrefill

open ClientSessions (Role)

inductive Failure
  | clientResponseError (status : Int) (message : String)
  | other (message : String)

def Failure.status : Failure → Int
  | .clientResponseError status _ => status
  | .other _ => 500

def Failure.message : Failure → String
  | .clientResponseError _ message | .other message => message

/-- What the handler meets: the clients that startup has made, and what the engines do when they are called.
The decode engine sends chunks and comes to an end, or fails. -/
structure Environment where
  uuid4 : String
  openaiApiKey : Option String
  prefillClient : Option String
  decodeClient : Option String
  prefillReply : Except Failure Unit
  decodeChunks : List (List UInt8)
  decodeFailure : Option Failure

structure Request where
  xRequestId : Option String
  json : Dict String Json

structure Post where
  role : Role
  endpoint : String
  payload : Dict String Json
  headers : List (String × String)

inductive Chunk
  | content (bytes : List UInt8)
  | error (document : Json)

inductive Reply
  | json (statusCode : Int) (content : Json) (headers : List (String × String))
  | stream (mediaType : String) (chunks : List Chunk) (headers : List (String × String))
  | raised (e : Exc)

def one : Json := .num (.int 1)

/-- An empty header counts as none. -/
def requestId (env : Environment) (request : Request) : String :=
  match request.xRequestId with
  | none | some "" => env.uuid4
  | some id => id

/-- An environment variable that is not set is formatted as None. -/
def engineHeaders (env : Environment) (id : String) : List (String × String) :=
  [("Authorization", "Bearer " ++ env.openaiApiKey.getD "None"), ("X-Request-Id", id)]

def prefillPayload (reqData : Dict String Json) : Dict String Json :=
  let reqData := reqData.set "max_tokens" one
  if reqData.contains "max_completion_tokens" then reqData.set "max_completion_tokens" one else reqData

def sendRequestToPrefiller (env : Environment) (endpoint : String) (reqData : Dict String Json) (id : String) : Post :=
  ⟨.prefill, endpoint, prefillPayload reqData, engineHeaders env id⟩

def sendRequestToDecode (env : Environment) (endpoint : String) (reqData : Dict String Json) (id : String) : Post :=
  ⟨.decode, endpoint, reqData, engineHeaders env id⟩

def errorDocument (engine type : String) (failure : Failure) : Json :=
  .obj [("error", .obj [("message", .str (engine ++ " error: " ++ failure.message)), ("type", .str type),
    ("code", .num (.int failure.status))])]

def prefillerError (failure : Failure) : Json := errorDocument "Prefiller" "prefiller_error" failure

def decoderError (failure : Failure) : Json := errorDocument "Decoder" "decoder_error" failure

def generateStream (env : Environment) : List Chunk :=
  env.decodeChunks.map .content ++ (env.decodeFailure.map (fun failure => .error (decoderError failure))).toList

/-- Whether the prefill step succeeds. A client that was never made is an AttributeError inside the try. -/
def prefillOutcome (env : Environment) : Except Failure Unit :=
  match env.prefillClient with
  | none => .error (.other "'State' object has no attribute 'prefill_client'")
  | some _ => env.prefillReply

def prefillPosts (env : Environment) (post : Post) : List Post := if env.prefillClient.isSome then [post] else []

/-- The handler with the posts it makes. It changes the object of the client, sends a copy of it, and then
puts the first value back; the client of the decode engine is first looked up for the log, outside any try. -/
def routeDisaggregatedPrefillRequest (env : Environment) (endpoint : String) (request : Request) : List Post × Reply :=
  let id := requestId env request
  let origMaxTokens := request.json.getD "max_tokens" (.num (.int 0))
  let requestJson := request.json.set "max_tokens" one
  let posts := prefillPosts env (sendRequestToPrefiller env endpoint requestJson id)
  match prefillOutcome env with
  | .error failure => (posts, .json failure.status (prefillerError failure) [("X-Request-Id", id)])
  | .ok () =>
    let requestJson := requestJson.set "max_tokens" origMaxTokens
    match env.decodeClient with
    | none => (posts, .raised .attributeError)
    | some _ =>
      (posts ++ [sendRequestToDecode env endpoint requestJson id],
        .stream "application/json" (generateStream env) [("X-Request-Id", id)])

def Preserves (json : Dict String Json) (post : Post) : Prop :=
  match post.role with
  | .decode => post.payload = json
  | .prefill => ∀ key, post.payload.get? key =
      if key = "max_tokens" ∨ key = "max_completion_tokens" ∧ json.contains key = true then some one else json.get? key

theorem get?_prefillPayload (json : Dict String Json) (key : String) :
    (prefillPayload (json.set "max_tokens" one)).get? key =
      if key = "max_tokens" ∨ key = "max_completion_tokens" ∧ json.contains key = true then some one else json.get? key := by
  have hcontains : (json.set "max_tokens" one).contains "max_completion_tokens" = json.contains "max_completion_tokens" := by
    rw [Dict.contains, Dict.get?_set_of_ne _ _ (by decide), Dict.contains]
  simp only [prefillPayload, Dict.set_set, hcontains]
  by_cases hlimit : key = "max_completion_tokens"
  · subst hlimit
    cases h : json.contains "max_completion_tokens" with
    | true => simp
    | false => simp [Dict.get?_set]
  · cases h : json.contains "max_completion_tokens" <;> simp [Dict.get?_set, hlimit]

theorem posts_eq {env : Environment} {request : Request} (hprefill : prefillOutcome env = .ok ())
    (hdecode : env.decodeClient.isSome) (endpoint : String) :
    (routeDisaggregatedPrefillRequest env endpoint request).1 =
      [sendRequestToPrefiller env endpoint (request.json.set "max_tokens" one) (requestId env request),
        sendRequestToDecode env endpoint (request.json.set "max_tokens" (request.json.getD "max_tokens" (.num (.int 0))))
          (requestId env request)] := by
  obtain ⟨decodeUrl, hdecode⟩ := Option.isSome_iff_exists.mp hdecode
  have hclient : env.prefillClient.isSome = true := by
    cases hnone : env.prefillClient with
    | none =>
      rw [prefillOutcome, hnone] at hprefill
      cases hprefill
    | some url => rfl
  simp only [routeDisaggregatedPrefillRequest, hprefill, hdecode, prefillPosts, hclient, if_true, Dict.set_set]
  rfl

theorem restored_iff (json : Dict String Json) :
    json.set "max_tokens" (json.getD "max_tokens" (.num (.int 0))) = json ↔ json.contains "max_tokens" = true := by
  constructor
  · intro h
    rw [← h, Dict.contains, Dict.get?_set_self]
    rfl
  · intro h
    obtain ⟨v, hv⟩ := Option.isSome_iff_exists.mp h
    rw [Dict.getD, hv, Option.getD_some]
    exact Dict.set_of_get? hv

/-- Both engines are called, and what they are sent is right exactly when the client gave a limit. -/
theorem payloads_preserved_iff (env : Environment) (endpoint : String) (request : Request)
    (hprefill : prefillOutcome env = .ok ()) (hdecode : env.decodeClient.isSome) :
    (routeDisaggregatedPrefillRequest env endpoint request).1.map Post.role = [.prefill, .decode] ∧
      ((∀ post ∈ (routeDisaggregatedPrefillRequest env endpoint request).1, Preserves request.json post) ↔
        request.json.contains "max_tokens" = true) := by
  rw [posts_eq hprefill hdecode]
  refine ⟨rfl, ?_⟩
  rw [List.forall_mem_cons, List.forall_mem_singleton, ← restored_iff]
  exact and_iff_right (get?_prefillPayload request.json)

def answering : Environment where
  uuid4 := "r1"
  openaiApiKey := none
  prefillClient := some "http://localhost:8000"
  decodeClient := some "http://localhost:8001"
  prefillReply := .ok ()
  decodeChunks := []
  decodeFailure := none

theorem payloads_preserved_null :
    (routeDisaggregatedPrefillRequest answering "/v1/completions" ⟨none, .ofList [("max_tokens", .null)]⟩).1.map Post.role =
        [.prefill, .decode] ∧
      ∀ post ∈ (routeDisaggregatedPrefillRequest answering "/v1/completions" ⟨none, .ofList [("max_tokens", .null)]⟩).1,
        Preserves (.ofList [("max_tokens", .null)]) post := by
  obtain ⟨hroles, hiff⟩ :=
    payloads_preserved_iff answering "/v1/completions" ⟨none, .ofList [("max_tokens", .null)]⟩ rfl rfl
  exact ⟨hroles, hiff.mpr rfl⟩

/-- Without a limit in the request the decode engine is sent the limit 0. -/
theorem limit_injected :
    ¬ ∀ (env : Environment) (endpoint : String) (request : Request), prefillOutcome env = .ok () →
      ∀ post ∈ (routeDisaggregatedPrefillRequest env endpoint request).1, Preserves request.json post := by
  intro h
  have hdecode := h answering "/v1/completions" ⟨none, .ofList [("prompt", .str "Hello")]⟩ rfl
    (sendRequestToDecode answering "/v1/completions"
      (.ofList [("prompt", .str "Hello"), ("max_tokens", .num (.int 0))]) "r1") (List.mem_cons_of_mem _ List.mem_cons_self)
  have hkeys := congrArg Dict.keys (show _ = _ from hdecode)
  exact absurd hkeys (by decide)

end ProductionStack.DisaggregatedPrefill
