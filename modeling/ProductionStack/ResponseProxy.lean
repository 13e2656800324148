import ProductionStack.Dict
import ProductionStack.Json

namespace ProductionStack.ResponseProxy

abbrev Bytes := List UInt8

abbrev Headers := List (String × String)

/-- Header names are ASCII. -/
def lower (name : String) : String := String.ofList (name.toList.map Char.toLower)

def hopByHopHeaders : List String :=
  ["host", "connection", "keep-alive", "proxy-connection", "transfer-encoding", "content-length", "upgrade", "te",
    "trailer"]

/-- What is handed to aiohttp, which adds headers of its own. -/
structure Forwarded where
  method : String
  url : String
  headers : Dict String String
  body : Bytes

/-- What aiohttp reports of the backend: a head and chunks, after which the connection may be lost. -/
structure Backend where
  headers : Headers
  status : Nat
  chunks : List Bytes
  lost : Bool
  deriving DecidableEq

inductive Exc
  | valueError
  | attributeError
  | unboundLocalError
  | clientError
  | unicodeEncodeError
  deriving DecidableEq, Repr

inductive Notice
  | newRequest
  | requestResponse
  | requestComplete
  deriving DecidableEq, Repr

structure Frame where
  firstToken : Bool := false
  totalLen : Nat := 0
  fullResponse : Bytes := []
  chunk : Option Bytes := none
  notices : List Notice := [.newRequest]
  yielded : List Bytes := []
  stored : Option Bytes := none
  posted : Option Bytes := none
  raised : Option Exc := none
  deriving DecidableEq

structure Request where
  method : String
  headers : Headers
  body : Bytes
  requestId : String

structure App where
  semanticCacheAvailable : Bool
  callbacks : Bool

structure Reply where
  status : Nat
  headers : Headers
  chunks : List Bytes
  aborted : Bool

def relayChunk (f : Frame) (chunk : Bytes) : Frame :=
  { f with
    totalLen := f.totalLen + chunk.length
    firstToken := true
    notices := if f.firstToken then f.notices else f.notices ++ [.requestResponse]
    fullResponse := f.fullResponse ++ chunk
    chunk := some chunk
    yielded := f.yielded ++ [chunk] }

/-- What follows the last chunk. A streaming answer is cached by its last chunk, which need not be bound. -/
def finishRequest (app : App) (isStreaming : Bool) (f : Frame) : Frame :=
  let f := { f with notices := f.notices ++ [.requestComplete] }
  let post (f : Frame) : Frame := if app.callbacks then { f with posted := some f.fullResponse } else f
  if app.semanticCacheAvailable then
    match if isStreaming then f.chunk else some f.fullResponse with
    | some cacheChunk => post { f with stored := some cacheChunk }
    | none => { f with raised := some .unboundLocalError }
  else post f

def streamResponse (app : App) (isStreaming : Bool) (backend : Backend) : Frame :=
  let f := backend.chunks.foldl relayChunk {}
  if backend.lost then { f with raised := some .clientError } else finishRequest app isStreaming f

def forwarded (request : Request) (backendUrl endpoint : String) : Forwarded :=
  { method := request.method
    url := backendUrl ++ endpoint
    headers := .ofList (request.headers.filter (fun h => lower h.1 ∉ hopByHopHeaders))
    body := request.body }

def headersDict (headers : Headers) (requestId : String) : Dict String String :=
  (Dict.ofList headers).set "X-Request-Id" requestId

def latin1 (text : String) : Bool := text.toList.all (fun c => c.toNat < 256)

/-- How starlette makes the headers of a response of this media type, a kind of text:
the names are lowered, and a content type is added if there is none. -/
def initHeaders (headers : Dict String String) (mediaType : String) : Except Exc Headers :=
  let rawHeaders := headers.entries.map (fun h => (lower h.1, h.2))
  if headers.entries.all (fun h => latin1 h.1 && latin1 h.2) then
    if "content-type" ∈ rawHeaders.map Prod.fst then .ok rawHeaders
    else .ok (rawHeaders ++ [("content-type", mediaType ++ "; charset=utf-8")])
  else .error .unicodeEncodeError

/-- The parsed body decides whether the answer is streamed. What json.loads
raises on a body is not caught, for the handler names the JSONDecodeError of
requests, a subclass of the one of json. -/
def readStream : Option Json → Except Exc Bool
  | none => .error .valueError
  | some (.obj fields) => .ok ((fields.lookup "stream").any Json.truthy)
  | some _ => .error .attributeError

/-- The end of route_general_request, with what json.loads makes of a body and
what the backend does with a request, none if it cannot be reached: the reply,
and all that process_request has done. An exception before the head is raised
in the handler. -/
def proxy (loads : Bytes → Option Json) (serve : Forwarded → Option Backend) (app : App) (request : Request)
    (backendUrl endpoint : String) : Except Exc (Reply × Frame) := do
  let isStreaming ← readStream (loads request.body)
  match serve (forwarded request backendUrl endpoint) with
  | none => .error .clientError
  | some backend =>
    let f := streamResponse app isStreaming backend
    let headers ← initHeaders (headersDict backend.headers request.requestId) "text/event-stream"
    return ({ status := backend.status, headers, chunks := f.yielded, aborted := f.raised.isSome }, f)

theorem foldl_relayChunk (chunks : List Bytes) (f : Frame) :
    chunks.foldl relayChunk f = { f with
      totalLen := f.totalLen + chunks.flatten.length
      firstToken := f.firstToken || !chunks.isEmpty
      notices := f.notices ++ if f.firstToken || chunks.isEmpty then [] else [.requestResponse]
      fullResponse := f.fullResponse ++ chunks.flatten
      chunk := chunks.getLast?.or f.chunk
      yielded := f.yielded ++ chunks } := by
  induction chunks generalizing f with
  | nil => simp
  | cons chunk chunks ih =>
    rw [List.foldl_cons, ih]
    cases hfirst : f.firstToken <;> simp [relayChunk, hfirst, Nat.add_assoc, List.getLast?_cons]

def lastValue (headers : Headers) (name : String) : Option String :=
  (headers.filter (·.1 = name)).getLast?.map Prod.snd

theorem get?_forwarded (request : Request) (backendUrl endpoint key : String) :
    (forwarded request backendUrl endpoint).headers.get? key =
      if lower key ∈ hopByHopHeaders then none else lastValue request.headers key := by
  rw [forwarded, Dict.get?_ofList, List.filter_filter]
  split
  next hhop =>
    rw [List.filter_eq_nil_iff.mpr]
    · rfl
    · rintro ⟨name, value⟩ -
      by_cases hname : name = key
      · simp [hname, hhop]
      · simp [hname]
  next hkept =>
    rw [lastValue]
    congr 3
    funext h
    by_cases hname : h.1 = key
    · simp [hname, hkept]
    · simp [hname]

theorem streamResponse_spec (app : App) (isStreaming : Bool) (backend : Backend) :
    let f := streamResponse app isStreaming backend
    let unbound := app.semanticCacheAvailable && isStreaming && backend.chunks.isEmpty
    f.yielded = backend.chunks ∧
      f.notices = [.newRequest] ++ (if backend.chunks = [] then [] else [.requestResponse]) ++
        (if backend.lost then [] else [.requestComplete]) ∧
      f.raised.isSome = (backend.lost || unbound) ∧
      f.stored = (if app.semanticCacheAvailable && !backend.lost then
        if isStreaming then backend.chunks.getLast? else some backend.chunks.flatten else none) ∧
      f.posted = if app.callbacks && !(backend.lost || unbound) then some backend.chunks.flatten else none := by
  obtain ⟨headers, status, chunks, lost⟩ := backend
  simp only [streamResponse, finishRequest, foldl_relayChunk]
  -- without a last chunk there is none
  rcases List.eq_nil_or_concat chunks with rfl | ⟨front, last, rfl⟩
  · cases lost <;> cases hcache : app.semanticCacheAvailable <;> cases isStreaming <;>
      cases hcallbacks : app.callbacks <;> simp
  · cases lost <;> cases hcache : app.semanticCacheAvailable <;> cases isStreaming <;>
      cases hcallbacks : app.callbacks <;> simp

section ReplyHeaders

variable {headers : Headers} {requestId name value : String}

theorem mem_headersDict : (name, value) ∈ (headersDict headers requestId).entries ↔
    (if name = "X-Request-Id" then some requestId else lastValue headers name) = some value := by
  have hget : (headersDict headers requestId).get? name =
      if name = "X-Request-Id" then some requestId else lastValue headers name := by
    rw [headersDict, Dict.get?_set, Dict.get?_ofList]
    rfl
  rw [← hget]
  exact ⟨Dict.get?_of_mem _, Dict.mem_of_get?⟩

theorem mem_of_lastValue (h : lastValue headers name = some value) : (name, value) ∈ headers := by
  obtain ⟨⟨name', value'⟩, hlast, rfl⟩ := Option.map_eq_some_iff.mp h
  obtain ⟨hmem, hname⟩ := List.mem_filter.mp (List.mem_of_getLast? hlast)
  obtain rfl : name' = name := by simpa using hname
  exact hmem

theorem exists_lastValue {h : String × String} (hmem : h ∈ headers) : ∃ value, lastValue headers h.1 = some value := by
  have hne : headers.filter (·.1 = h.1) ≠ [] := List.ne_nil_of_mem (List.mem_filter.mpr ⟨hmem, by simp⟩)
  obtain ⟨last, hlast⟩ := Option.isSome_iff_exists.mp (List.getLast?_isSome.mpr hne)
  exact ⟨last.2, by rw [lastValue, hlast]; rfl⟩

theorem mem_rawHeaders : (name, value) ∈ (headersDict headers requestId).entries.map (fun h => (lower h.1, h.2)) ↔
    ∃ original, lower original = name ∧
      (if original = "X-Request-Id" then some requestId else lastValue headers original) = some value := by
  simp only [List.mem_map, Prod.exists, mem_headersDict, Prod.mk.injEq]
  exact ⟨fun ⟨original, _, hvalue, hname, rfl⟩ => ⟨original, hname, hvalue⟩,
    fun ⟨original, hname, hvalue⟩ => ⟨original, value, hvalue, hname, rfl⟩⟩

theorem contentType_sent_iff :
    "content-type" ∈ ((headersDict headers requestId).entries.map (fun h => (lower h.1, h.2))).map Prod.fst ↔
      ∃ h ∈ headers, lower h.1 = "content-type" := by
  constructor
  · intro hthere
    obtain ⟨⟨name, value⟩, hmem, rfl⟩ := List.mem_map.mp hthere
    obtain ⟨original, hlower, hvalue⟩ := mem_rawHeaders.mp hmem
    rw [if_neg (by rintro rfl; exact absurd hlower (by decide))] at hvalue
    exact ⟨_, mem_of_lastValue hvalue, hlower⟩
  · rintro ⟨h, hmem, hlower⟩
    obtain ⟨value, hvalue⟩ := exists_lastValue hmem
    refine List.mem_map.mpr ⟨("content-type", value), mem_rawHeaders.mpr ⟨h.1, hlower, ?_⟩, rfl⟩
    rw [if_neg (fun hid => absurd (hid ▸ hlower) (by decide)), hvalue]

def Relayed (headers : Headers) (requestId : String) (name value : String) : Prop :=
  (∃ original, lower original = name ∧
    (if original = "X-Request-Id" then some requestId else lastValue headers original) = some value) ∨
  name = "content-type" ∧ value = "text/event-stream; charset=utf-8" ∧ ∀ h ∈ headers, lower h.1 ≠ "content-type"

theorem initHeaders_relays (hlatin : ∀ h ∈ ("X-Request-Id", requestId) :: headers, latin1 h.1 = true ∧ latin1 h.2 = true) :
    ∃ rawHeaders, initHeaders (headersDict headers requestId) "text/event-stream" = .ok rawHeaders ∧
      ∀ name value, (name, value) ∈ rawHeaders ↔ Relayed headers requestId name value := by
  have hencodes : (headersDict headers requestId).entries.all (fun h => latin1 h.1 && latin1 h.2) = true := by
    rw [List.all_eq_true]
    rintro ⟨name, value⟩ hmem
    rw [Bool.and_eq_true]
    have hvalue := mem_headersDict.mp hmem
    split at hvalue
    next hid =>
      cases hvalue
      exact hlatin (name, requestId) (by simp [hid])
    next => exact hlatin _ (List.mem_cons_of_mem _ (mem_of_lastValue hvalue))
  rw [initHeaders, if_pos hencodes]
  split
  next hthere =>
    obtain ⟨h, hmem, hlower⟩ := contentType_sent_iff.mp hthere
    refine ⟨_, rfl, fun name value => mem_rawHeaders.trans ⟨.inl, ?_⟩⟩
    rintro (hrelayed | ⟨-, -, hnone⟩)
    · exact hrelayed
    · exact absurd hlower (hnone h hmem)
  next hmissing =>
    have hnone : ∀ h ∈ headers, lower h.1 ≠ "content-type" :=
      fun h hmem hlower => hmissing (contentType_sent_iff.mpr ⟨h, hmem, hlower⟩)
    refine ⟨_, rfl, fun name value => ?_⟩
    rw [List.mem_append, mem_rawHeaders, List.mem_singleton, Prod.mk.injEq]
    exact or_congr Iff.rfl ⟨fun h => ⟨h.1, h.2, hnone⟩, fun h => ⟨h.1, h.2.1⟩⟩

end ReplyHeaders

/-- aiohttp is given the headers of the request but those of the hop, and the
reply has the head and every chunk of the backend, in order, whether the
connection is lost or not; of a repeated header the last one is passed on. The
statistics hear of the first chunk and of a regular end, the cache and the
callbacks get what the backend sent, and only a streamed answer without any
chunk is aborted although the backend completed it. -/
theorem proxy_passes_answer (loads : Bytes → Option Json) (serve : Forwarded → Option Backend) (app : App) (request : Request)
    (backendUrl endpoint : String) (fields : List (String × Json)) (hbody : loads request.body = some (.obj fields))
    (backend : Backend) (hserve : serve (forwarded request backendUrl endpoint) = some backend)
    (hlatin : ∀ h ∈ ("X-Request-Id", request.requestId) :: backend.headers, latin1 h.1 = true ∧ latin1 h.2 = true) :
    (∀ key, (forwarded request backendUrl endpoint).headers.get? key = if lower key ∈ hopByHopHeaders then none
      else lastValue request.headers key) ∧
    ∃ reply f, proxy loads serve app request backendUrl endpoint = .ok (reply, f) ∧
      reply.status = backend.status ∧ reply.chunks = backend.chunks ∧
      (∀ name value, (name, value) ∈ reply.headers ↔ Relayed backend.headers request.requestId name value) ∧
      f.notices = [.newRequest] ++ (if backend.chunks = [] then [] else [.requestResponse]) ++
        (if backend.lost then [] else [.requestComplete]) ∧
      (let streaming := (fields.lookup "stream").any Json.truthy
       let unbound := app.semanticCacheAvailable && streaming && backend.chunks.isEmpty
       reply.aborted = (backend.lost || unbound) ∧
        f.stored = (if app.semanticCacheAvailable && !backend.lost then
          if streaming then backend.chunks.getLast? else some backend.chunks.flatten else none) ∧
        f.posted = if app.callbacks && !reply.aborted then some backend.chunks.flatten else none) := by
  obtain ⟨hyielded, hnotices, hraised, hstored, hposted⟩ :=
    streamResponse_spec app ((fields.lookup "stream").any Json.truthy) backend
  obtain ⟨rawHeaders, hheaders, hrelayed⟩ := initHeaders_relays hlatin
  have hproxy : proxy loads serve app request backendUrl endpoint =
      .ok (⟨backend.status, rawHeaders, (streamResponse app ((fields.lookup "stream").any Json.truthy) backend).yielded,
        (streamResponse app ((fields.lookup "stream").any Json.truthy) backend).raised.isSome⟩,
        streamResponse app ((fields.lookup "stream").any Json.truthy) backend) := by
    simp only [proxy, hbody, readStream, hserve, hheaders]
    rfl
  refine ⟨get?_forwarded request backendUrl endpoint, _, _, hproxy, rfl, hyielded, hrelayed, hnotices, hraised, hstored, ?_⟩
  rw [hposted, hraised]

def chatRequest : Request := ⟨"POST", [("host", "router"), ("authorization", "Bearer k")], [123, 125], "r1"⟩

def chatAnswer : Backend := ⟨[("Server", "a"), ("Server", "b")], 200, [[100], [101, 102]], false⟩

/-- A streamed answer whose head has no content type. -/
theorem streamed_answer_typed :
    ∃ reply f, proxy (fun _ => some (.obj [("stream", .bool true)])) (fun _ => some chatAnswer) ⟨true, true⟩ chatRequest
        "http://a:8000" "/v1/chat/completions" = .ok (reply, f) ∧ reply.chunks = [[100], [101, 102]] ∧
      ("server", "b") ∈ reply.headers ∧ ("server", "a") ∉ reply.headers ∧
      ("content-type", "text/event-stream; charset=utf-8") ∈ reply.headers ∧ reply.aborted = false ∧
      f.stored = some [101, 102] ∧ f.posted = some [100, 101, 102] := by
  obtain ⟨-, reply, f, heq, -, hchunks, hheaders, -, haborted, hstored, hposted⟩ :=
    proxy_passes_answer (fun _ => some (.obj [("stream", .bool true)])) (fun _ => some chatAnswer) ⟨true, true⟩ chatRequest
      "http://a:8000" "/v1/chat/completions" _ rfl chatAnswer rfl (by decide)
  refine ⟨reply, f, heq, hchunks, (hheaders _ _).mpr (.inl ⟨"Server", by decide, by decide⟩), ?_,
    (hheaders _ _).mpr (.inr ⟨rfl, rfl, by decide⟩), haborted, hstored, ?_⟩
  · rw [hheaders]
    rintro (⟨original, hname, hvalue⟩ | ⟨hname, -⟩)
    · split at hvalue
      next hid => exact absurd hvalue (by decide)
      next =>
        by_cases horiginal : original = "Server"
        · rw [horiginal] at hvalue
          exact absurd hvalue (by decide)
        · simp [lastValue, chatAnswer, Ne.symm horiginal] at hvalue
    · exact absurd hname (by decide)
  · rw [hposted, haborted]
    rfl

end ProductionStack.ResponseProxy
