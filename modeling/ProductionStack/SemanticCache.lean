import ProductionStack.Dict
import ProductionStack.FaissAdapter

namespace ProductionStack.SemanticCache

open Runs FaissAdapter

section Values

/-! Python's operations on what json.loads returns, with what they raise on a value of another kind. -/

def field (fields : List (String × Json)) (key : String) (default : Json) : Json := (fields.lookup key).getD default

def get (key : String) (default : Json) : Json → Except Exc Json
  | .obj fields => .ok (field fields key default)
  | _ => .error .attributeError

def isIn (key : String) : Json → Except Exc Bool
  | .obj fields => .ok (fields.lookup key).isSome
  | .arr items => .ok (items.any (fun item => item.asStr = some key))
  | .str text => .ok (text.toList.tails.any (key.toList.isPrefixOf ·))
  | _ => .error .typeError

def subscript (key : String) : Json → Except Exc Json
  | .obj fields =>
    match fields.lookup key with
    | some value => .ok value
    | none => .error (.keyError key)
  | _ => .error .typeError

def iterate : Json → Except Exc (List Json)
  | .arr items => .ok items
  | .obj fields => .ok (fields.map (fun f => .str f.1))
  | .str text => .ok (text.toList.map (fun c => .str (String.singleton c)))
  | _ => .error .typeError

mutual

/-- What JSONResponse can write: NaN and the infinities are refused. -/
def compliant : Json → Bool
  | .num (.int _) => true
  | .num (.float _) => true
  | .num _ => false
  | .arr items => compliantItems items
  | .obj fields => compliantFields fields
  | _ => true

def compliantItems : List Json → Bool
  | [] => true
  | item :: items => compliant item && compliantItems items

def compliantFields : List (String × Json) → Bool
  | [] => true
  | (_, value) :: fields => compliant value && compliantFields fields

end

end Values

structure Embedder (V : Type) where
  encode : String → Except Exc V
  format : Json → String

variable {V S : Type}

def messageText (e : Embedder V) : Json → Except Exc String
  | .obj fields =>
    .ok (e.format (field fields "role" (.str "user")) ++ ": " ++ e.format (field fields "content" (.str "")))
  | _ => .error .attributeError

def getEmbedding (e : Embedder V) (messages : Json) : Except Exc V := do
  let items ← iterate messages
  let texts ← items.mapM (messageText e)
  e.encode (" ".intercalate texts)

/-- The log lines take a slice of the content, which None does not have. -/
def preview (message : Json) : Except Exc Unit := do
  match ← get "content" (.str "") message with
  | .str _ => return ()
  | .arr _ => return ()
  | _ => throw .typeError

def previewFirst (messages : Json) : Except Exc Unit :=
  if messages.truthy then
    match messages with
    | .arr (first :: _) => preview first
    | .str _ => .error .attributeError
    | .obj _ => .error (.keyError "0")
    | _ => .error .typeError
  else .ok ()

section Store

/-- A body that can be forwarded: an object, with a name that some engine has or an alias stands for. -/
structure ChatRequest where
  fields : List (String × Json)
  model : String
  lookup_model : fields.lookup "model" = some (.str model)

def choiceMessages : List Json → Except Exc (List Json)
  | [] => .ok []
  | choice :: choices => do
      if ← isIn "message" choice then
        let message ← subscript "message" choice
        return message :: (← choiceMessages choices)
      else choiceMessages choices

def responseMessages (responseBody : Json) : Except Exc (List Json) := do
  if ← isIn "choices" responseBody then
    choiceMessages (← iterate (← subscript "choices" responseBody))
  else return []

def noUsage : Json := .obj [("prompt_tokens", .num (.int 0)), ("completion_tokens", .num (.int 0)), ("total_tokens", .num (.int 0))]

/-- An empty text or object embeds like an empty list. -/
def messageList : Json → List Json
  | .arr items => items
  | _ => []

/-- The entry that store_in_semantic_cache makes of a request and its reply, if it comes to that.
The reply is none when it does not parse; every exception is logged. -/
def entry (e : Embedder V) (request : ChatRequest) (reply : Option Json) : Except Exc (Option (V × Metadata)) :=
  if (field request.fields "skip_cache" (.bool false)).truthy then .ok none
  else if (field request.fields "stream" (.bool false)).truthy then .ok none
  else
    match reply with
    | none => .ok none
    | some responseBody => do
        let requestMessages := field request.fields "messages" (.arr [])
        previewFirst requestMessages
        let responses ← responseMessages responseBody
        let usage ← get "usage" noUsage responseBody
        previewFirst (.arr responses)
        let embedding ← getEmbedding e requestMessages
        return some (embedding, ⟨messageList requestMessages, responses, request.model, usage⟩)

def storeInSemanticCache (e : Embedder V) (s : State V) (request : ChatRequest) (reply : Option Json) (save : Save) :
    State V :=
  match entry e request reply with
  | .ok (some (embedding, metadata)) => store s embedding metadata save
  | _ => s

theorem entry_eq_some {e : Embedder V} {request : ChatRequest} {reply : Option Json} {embedding : V}
    {metadata : Metadata} (h : entry e request reply = .ok (some (embedding, metadata))) :
    (field request.fields "skip_cache" (.bool false)).truthy = false ∧
      (field request.fields "stream" (.bool false)).truthy = false ∧
      (∃ fields, reply = some (.obj fields) ∧ responseMessages (.obj fields) = .ok metadata.responseMessages) ∧
      previewFirst (field request.fields "messages" (.arr [])) = .ok () ∧
      previewFirst (.arr metadata.responseMessages) = .ok () ∧
      getEmbedding e (field request.fields "messages" (.arr [])) = .ok embedding ∧
      metadata.model = request.model := by
  unfold entry at h
  split at h
  · cases h
  next hskip =>
    split at h
    · cases h
    next hstream =>
      cases reply with
      | none => cases h
      | some responseBody =>
        obtain ⟨_, hfirst, h⟩ := bind_eq_ok.mp h
        obtain ⟨responses, hresponses, h⟩ := bind_eq_ok.mp h
        obtain ⟨usage, husage, h⟩ := bind_eq_ok.mp h
        obtain ⟨_, hresponse, h⟩ := bind_eq_ok.mp h
        obtain ⟨v, hembedding, h⟩ := bind_eq_ok.mp h
        cases h
        refine ⟨by simpa using hskip, by simpa using hstream, ?_, hfirst, hresponse, hembedding, rfl⟩
        -- Any other value has no get for its usage.
        cases responseBody with
        | obj fields => exact ⟨fields, rfl, hresponses⟩
        | _ => cases husage

end Store

section Check

structure CachedResponse (S : Type) where
  model : Json
  choices : List Json
  usage : Json
  similarityScore : S

structure Cache (V S : Type) where
  embedder : Embedder V
  topOne : TopOne V S
  defaultThreshold : S
  numeric : Json → Option S

def Cache.thresholdOf (c : Cache V S) : Json → Option S
  | .null => some c.defaultThreshold
  | given => c.numeric given

def cachedChoice (response : Json × Nat) : Json :=
  .obj [("index", .num (.int response.2)), ("message", response.1), ("finish_reason", .str "stop")]

def cachedResponse (model : Json) (hit : Hit S) : Except Exc (CachedResponse S) := do
  let response : CachedResponse S :=
    ⟨model, hit.responseMessages.zipIdx.map cachedChoice, hit.usage, hit.similarityScore⟩
  previewFirst (.arr hit.responseMessages)
  if compliant response.model && compliantItems response.choices && compliant response.usage then return response
  else throw (.valueError "Out of range float values are not JSON compliant")

theorem cachedResponse_eq_ok {model : Json} {hit : Hit S} {response : CachedResponse S}
    (h : cachedResponse model hit = .ok response) :
    response = ⟨model, hit.responseMessages.zipIdx.map cachedChoice, hit.usage, hit.similarityScore⟩ := by
  obtain ⟨_, _, h⟩ := bind_eq_ok.mp h
  split at h
  · cases h
    rfl
  · cases h

variable [LE S] [DecidableLE S]

/-- The search of the adapter for a model of any kind: one that is no text equals no stored one. -/
def searchModel (c : Cache V S) (memory : Memory V) (embedding : V) (model : Json) (threshold : S) :
    Except Exc (Option (Hit S)) :=
  match model with
  | .str name => FaissAdapter.search c.topOne memory embedding name threshold
  | _ => (FaissAdapter.search c.topOne memory embedding "" threshold).map (fun _ => none)

/-- A threshold that is no number raises where it is compared. -/
def search (c : Cache V S) (memory : Memory V) (messages model threshold : Json) : Except Exc (Option (Hit S)) := do
  let embedding ← getEmbedding c.embedder messages
  match c.thresholdOf threshold with
  | some similarityThreshold => searchModel c memory embedding model similarityThreshold
  | none =>
    if memory.index = [] then return none
    else if (c.topOne memory.index embedding).isNone then return none
    else throw .typeError

def checkSemanticCache (c : Cache V S) (memory : Memory V) : Json → Except Exc (Option (CachedResponse S))
  | .obj fields =>
    let model := field fields "model" (.str "")
    let messages := field fields "messages" (.arr [])
    if (field fields "skip_cache" (.bool false)).truthy then .ok none
    else if messages.truthy then do
      previewFirst messages
      match ← search c memory messages model (field fields "cache_similarity_threshold" .null) with
      | some hit => (cachedResponse model hit).map some
      | none => return none
    else .ok none
  | _ => .error .attributeError

theorem searchModel_eq_some {c : Cache V S} {memory : Memory V} {embedding : V} {model : Json} {threshold : S}
    {hit : Hit S} (h : searchModel c memory embedding model threshold = .ok (some hit)) :
    ∃ name, model = .str name ∧ FaissAdapter.search c.topOne memory embedding name threshold = .ok (some hit) := by
  cases model with
  | str name => exact ⟨name, rfl, h⟩
  | _ =>
    rw [searchModel] at h
    · cases hsearch : FaissAdapter.search c.topOne memory embedding "" threshold <;> simp [hsearch, Except.map] at h
    · simp

theorem search_eq_some {c : Cache V S} {memory : Memory V} {messages model threshold : Json} {hit : Hit S}
    (h : search c memory messages model threshold = .ok (some hit)) :
    ∃ embedding t name, getEmbedding c.embedder messages = .ok embedding ∧ c.thresholdOf threshold = some t ∧
      model = .str name ∧ FaissAdapter.search c.topOne memory embedding name t = .ok (some hit) := by
  obtain ⟨embedding, hembedding, h⟩ := bind_eq_ok.mp h
  cases ht : c.thresholdOf threshold with
  | none =>
    simp only [ht] at h
    split at h
    · cases h
    · split at h <;> cases h
  | some t =>
    simp only [ht] at h
    obtain ⟨name, hname, hsearch⟩ := searchModel_eq_some h
    exact ⟨embedding, t, name, hembedding, rfl, hname, hsearch⟩

theorem checkSemanticCache_eq_some {c : Cache V S} {memory : Memory V} {body : Json} {response : CachedResponse S}
    (h : checkSemanticCache c memory body = .ok (some response)) :
    ∃ metadata ∈ memory.metadata, response.choices = metadata.responseMessages.zipIdx.map cachedChoice ∧
      response.usage = metadata.usage := by
  cases body with
  | obj fields =>
    rw [checkSemanticCache] at h
    split at h
    · cases h
    split at h
    · obtain ⟨_, _, h⟩ := bind_eq_ok.mp h
      obtain ⟨found, hfound, h⟩ := bind_eq_ok.mp h
      cases found with
      | none => cases h
      | some hit =>
        obtain ⟨embedding, t, name, _, _, _, hsearch⟩ := search_eq_some hfound
        obtain ⟨_, i, distance, metadata, _, _, hmetadata, _, rfl⟩ := search_eq_some_iff.mp hsearch
        cases hresponse : cachedResponse (field fields "model" (.str ""))
          (⟨metadata.responseMessages, distance, metadata.usage⟩ : Hit S) with
        | error e => simp [hresponse, Except.map] at h
        | ok built =>
          simp only [hresponse, Except.map, Except.ok.injEq, Option.some.injEq] at h
          subst h
          rw [cachedResponse_eq_ok hresponse]
          exact ⟨metadata, List.mem_of_getElem? hmetadata, rfl, rfl⟩
    · cases h
  | _ => cases h

end Check

section Replay

/-- What the router sees, in any order that the tasks allow: a lookup, the end of a forwarded request
with the whole reply, and a start of the process. -/
inductive Event
  | check (body : Json)
  | reply (request : ChatRequest) (status : Nat) (body : Option Json) (save : Save)
  | restart (first second : Save)

def hasMessage : Json → Bool
  | .obj choice => (choice.lookup "message").isSome
  | _ => false

def isCompletion : Json → Bool
  | .obj fields =>
    match fields.lookup "choices" with
    | some (.arr choices) => choices.any hasMessage
    | _ => false
  | _ => false

/-- A successful chat completion with at least one message. -/
def Completion (status : Nat) (body : Option Json) : Prop := status / 100 = 2 ∧ body.any isCompletion = true

theorem choiceMessages_ne_nil {choices messages : List Json} (hany : choices.any hasMessage = true)
    (h : choiceMessages choices = .ok messages) : messages ≠ [] := by
  induction choices generalizing messages with
  | nil => cases hany
  | cons choice choices ih =>
    rw [choiceMessages] at h
    obtain ⟨isMessage, hisMessage, h⟩ := bind_eq_ok.mp h
    split at h
    · obtain ⟨_, _, h⟩ := bind_eq_ok.mp h
      obtain ⟨_, _, h⟩ := bind_eq_ok.mp h
      cases h
      exact List.cons_ne_nil _ _
    next hnot =>
      rw [List.any_cons, Bool.or_eq_true] at hany
      refine ih (hany.resolve_left ?_) h
      intro hchoice
      cases choice with
      | obj fields =>
        cases hisMessage
        exact hnot hchoice
      | _ => cases hchoice

theorem responseMessages_ne_nil {fields : List (String × Json)} {messages : List Json}
    (hcompletion : isCompletion (.obj fields) = true) (h : responseMessages (.obj fields) = .ok messages) :
    messages ≠ [] := by
  cases hchoices : fields.lookup "choices" with
  | none => simp [isCompletion, hchoices] at hcompletion
  | some value =>
    cases value with
    | arr choices =>
      have hany : choices.any hasMessage = true := by simpa [isCompletion, hchoices] using hcompletion
      apply choiceMessages_ne_nil hany
      simpa [responseMessages, isIn, subscript, iterate, hchoices, bind, Except.bind] using h
    | _ => simp [isCompletion, hchoices] at hcompletion

variable [LE S] [DecidableLE S]

def step (c : Cache V S) : Component (State V) Event (Except Exc (Option (CachedResponse S))) := fun s event =>
  match event with
  | .check body => (checkSemanticCache c s.memory body, s)
  | .reply request _ body save => (.ok none, storeInSemanticCache c.embedder s request body save)
  | .restart first second => (.ok none, init s.disk first second)

def StoredFrom (c : Cache V S) (events : List Event) (metadata : Metadata) : Prop :=
  ∃ request status reply save embedding, .reply request status reply save ∈ events ∧
    entry c.embedder request reply = .ok (some (embedding, metadata))

theorem step_entries {c : Cache V S} {events : List Event} (s : State V) (event : Event)
    (h : Entries (StoredFrom c events) s) (hmem : event ∈ events) : Entries (StoredFrom c events) (step c s event).2 := by
  cases event with
  | check body => exact h
  | reply request status body save =>
    rw [step]
    dsimp only
    rw [storeInSemanticCache]
    split
    next embedding metadata hentry =>
      exact store_entries h ⟨request, status, body, save, embedding, hmem, hentry⟩
    · exact h
  | restart first second => exact init_entries h

theorem run_entries (c : Cache V S) (events : List Event) : Entries (StoredFrom c events) (final (step c) fresh events) := by
  refine final_invariant step_entries ⟨?_, ?_⟩ (along_of_forall_mem (fun _ hevent => hevent) _)
  · intro metadata hmem
    cases hmem
  · intro entries hentries
    cases hentries

def Replays (c : Cache V S) (events : List Event) (response : CachedResponse S) : Prop :=
  ∃ request status reply save embedding metadata, .reply request status reply save ∈ events ∧
    entry c.embedder request reply = .ok (some (embedding, metadata)) ∧ Completion status reply ∧
    response.choices = metadata.responseMessages.zipIdx.map cachedChoice ∧ response.choices ≠ []

theorem hits_replay_completions (c : Cache V S) (events : List Event)
    (h : ∀ request status fields save, .reply request status (some (.obj fields)) save ∈ events →
      (field request.fields "skip_cache" (.bool false)).truthy = false →
      (field request.fields "stream" (.bool false)).truthy = false → Completion status (some (.obj fields)))
    (body : Json) (response : CachedResponse S)
    (hhit : (step c (final (step c) fresh events) (.check body)).1 = .ok (some response)) :
    Replays c events response := by
  obtain ⟨metadata, hmetadata, hchoices, _⟩ := checkSemanticCache_eq_some hhit
  obtain ⟨request, status, reply, save, embedding, hmem, hentry⟩ := (run_entries c events).memory metadata hmetadata
  obtain ⟨hskip, hstream, ⟨fields, rfl, hmessages⟩, _⟩ := entry_eq_some hentry
  have hcompletion := h request status fields save hmem hskip hstream
  refine ⟨request, status, _, save, embedding, metadata, hmem, hentry, hcompletion, hchoices, ?_⟩
  have hne : metadata.responseMessages ≠ [] := responseMessages_ne_nil hcompletion.2 hmessages
  simpa [hchoices] using hne

def textCache : Cache String Nat where
  embedder := ⟨.ok, fun value => value.asStr.getD ""⟩
  topOne := fun vectors query => (vectors.findIdx? (· = query)).map (·, 1)
  defaultThreshold := 1
  numeric := fun _ => none

def hello : Json := .obj [("role", .str "user"), ("content", .str "hello")]

def helloRequest (model : String) : ChatRequest :=
  ⟨[("model", .str model), ("messages", .arr [hello])], model, rfl⟩

def world : Json := .obj [("role", .str "assistant"), ("content", .str "world")]

def worldReply : Json := .obj [("choices", .arr [.obj [("message", world)]])]

def overloaded : Json := .obj [("error", .obj [("message", .str "overloaded")])]

def helloAnswered : List Event := [.reply (helloRequest "llama") 200 (some worldReply) wholeSave]

theorem hello_replayed : Replays textCache helloAnswered ⟨.str "llama", [cachedChoice (world, 0)], noUsage, 1⟩ := by
  refine hits_replay_completions textCache helloAnswered ?_ (.obj (helloRequest "llama").fields) _ rfl
  intro request status fields save hmem _ _
  cases List.mem_singleton.mp hmem
  exact ⟨rfl, rfl⟩

/-- A reply of status 503 is stored, and the next request of the same text gets no choice at all. -/
theorem error_reply_is_replayed :
    ¬ ∀ (events : List Event) (body : Json) (response : CachedResponse Nat),
      (step textCache (final (step textCache) fresh events) (.check body)).1 = .ok (some response) →
        Replays textCache events response := by
  intro h
  obtain ⟨_, _, _, _, _, _, _, _, _, _, hne⟩ :=
    h [.reply (helloRequest "llama") 503 (some overloaded) wholeSave] (.obj (helloRequest "llama").fields)
      ⟨.str "llama", [], noUsage, 1⟩ rfl
  exact hne rfl

end Replay

section Repeat

def replaceModelInRequestBody (requestJson : List (String × Json)) (model : String) : List (String × Json) :=
  Dict.assign "model" (.str model) requestJson

def routed (aliases : Dict String String) (r : ChatRequest) : ChatRequest :=
  match aliases.get? r.model with
  | some target => ⟨replaceModelInRequestBody r.fields target, target, by simp [replaceModelInRequestBody, Dict.assign_lookup]⟩
  | none => r

theorem routed_model (aliases : Dict String String) (r : ChatRequest) :
    (routed aliases r).model = aliases.getD r.model r.model := by
  rw [routed, Dict.getD]
  cases aliases.get? r.model <;> rfl

theorem field_routed (aliases : Dict String String) (r : ChatRequest) {key : String} (hkey : key ≠ "model")
    (default : Json) : field (routed aliases r).fields key default = field r.fields key default := by
  rw [routed]
  cases aliases.get? r.model with
  | none => rfl
  | some target => simp [field, replaceModelInRequestBody, Dict.assign_lookup, hkey]

/-- A vector of the index is the one nearest to itself; among equal ones the search takes the first. -/
def Nearest (topOne : TopOne V S) (product : V → V → S) : Prop :=
  ∀ vectors v, v ∈ vectors → ∃ i, topOne vectors v = some (i, product v v) ∧ vectors[i]? = some v ∧ v ∉ vectors.take i

theorem Nearest.last {topOne : TopOne V S} {product : V → V → S} (h : Nearest topOne product) (vectors : List V)
    (v : V) : ∃ i, topOne (vectors ++ [v]) v = some (i, product v v) ∧ (i = vectors.length ↔ v ∉ vectors) := by
  obtain ⟨i, htop, hi, hfirst⟩ := h (vectors ++ [v]) v (by simp)
  refine ⟨i, htop, ?_, ?_⟩
  · rintro rfl
    simpa using hfirst
  · intro hnew
    obtain ⟨hlt, hv⟩ := List.getElem?_eq_some_iff.mp hi
    by_contra hne
    have hold : i < vectors.length := by
      rw [List.length_append, List.length_singleton] at hlt
      omega
    rw [List.getElem_append_left hold] at hv
    exact hnew (hv ▸ List.getElem_mem hold)

variable [LE S] [DecidableLE S]

/-- The lookup of a request ends at one vector, and reads at one place the metadata that its answer,
if it can be made, is from. -/
def Finds (c : Cache V S) (memory : Memory V) (r : ChatRequest) (vector place : Nat) : Prop :=
  let messages := field r.fields "messages" (.arr [])
  ∃ embedding distance metadata, getEmbedding c.embedder messages = .ok embedding ∧
    c.topOne memory.index embedding = some (vector, distance) ∧ vector = place ∧
    memory.metadata[place]? = some metadata ∧
    search c memory messages (.str r.model) (field r.fields "cache_similarity_threshold" .null) =
      .ok (some ⟨metadata.responseMessages, distance, metadata.usage⟩) ∧
    checkSemanticCache c memory (.obj r.fields) =
      (cachedResponse (.str r.model) ⟨metadata.responseMessages, distance, metadata.usage⟩).map some

theorem storeInSemanticCache_memory {e : Embedder V} {s : State V} {request : ChatRequest} {reply : Option Json} {save : Save}
    {embedding : V} {metadata : Metadata} (h : entry e request reply = .ok (some (embedding, metadata))) :
    (storeInSemanticCache e s request reply save).memory =
      ⟨s.memory.index ++ [embedding], s.memory.metadata ++ [metadata]⟩ := by
  simp only [storeInSemanticCache, h, store]

theorem checkSemanticCache_of_search {c : Cache V S} {memory : Memory V} {r : ChatRequest} {hit : Hit S}
    (hskip : (field r.fields "skip_cache" (.bool false)).truthy = false)
    (hmessages : (field r.fields "messages" (.arr [])).truthy = true)
    (hpreview : previewFirst (field r.fields "messages" (.arr [])) = .ok ())
    (hsearch : search c memory (field r.fields "messages" (.arr [])) (.str r.model)
      (field r.fields "cache_similarity_threshold" .null) = .ok (some hit)) :
    checkSemanticCache c memory (.obj r.fields) = (cachedResponse (.str r.model) hit).map some := by
  have hmodel : field r.fields "model" (.str "") = .str r.model := by rw [field, r.lookup_model, Option.getD_some]
  rw [checkSemanticCache, hmodel]
  simp [hskip, hmessages, hpreview, hsearch, bind, Except.bind]

/-- The entry of the last store is found by the same request exactly when no alias renamed the model,
no vector of the index was equal to the new one, and the index and the metadata had the same length. -/
theorem repeated_request_finds_iff (c : Cache V S) (product : V → V → S) (hnearest : Nearest c.topOne product)
    (aliases : Dict String String) (r : ChatRequest) (s : State V) (reply : Option Json) (save : Save) {embedding : V}
    {metadata : Metadata} (hentry : entry c.embedder (routed aliases r) reply = .ok (some (embedding, metadata)))
    (hmessages : (field r.fields "messages" (.arr [])).truthy = true) {t : S}
    (ht : c.thresholdOf (field r.fields "cache_similarity_threshold" .null) = some t)
    (hself : t ≤ product embedding embedding) :
    Finds c (storeInSemanticCache c.embedder s (routed aliases r) reply save).memory r
        s.memory.index.length s.memory.metadata.length ↔
      aliases.getD r.model r.model = r.model ∧ embedding ∉ s.memory.index ∧
        s.memory.index.length = s.memory.metadata.length := by
  obtain ⟨hskip, _, _, hpreview, _, hembedding, hmodel⟩ := entry_eq_some hentry
  rw [field_routed aliases r (by decide)] at hskip hpreview hembedding
  rw [routed_model] at hmodel
  rw [storeInSemanticCache_memory hentry]
  obtain ⟨i, htop, hlast⟩ := hnearest.last s.memory.index embedding
  constructor
  · rintro ⟨found, distance, entered, hfound, htop', hplace, hmetadata, hsearch, _⟩
    cases hembedding.symm.trans hfound
    cases htop.symm.trans htop'
    refine ⟨?_, hlast.mp rfl, hplace⟩
    obtain ⟨_, _, name, hfound, _, hname, hsearch⟩ := search_eq_some hsearch
    cases hname
    cases hembedding.symm.trans hfound
    obtain ⟨_, j, _, read, htop', _, hread, hequal, _⟩ := search_eq_some_iff.mp hsearch
    cases htop.symm.trans htop'
    have hnew : (s.memory.metadata ++ [metadata])[s.memory.index.length]? = some metadata := by rw [hplace]; simp
    cases hnew.symm.trans hread
    exact hmodel.symm.trans hequal
  · rintro ⟨hname, hnew, hlength⟩
    obtain rfl := hlast.mpr hnew
    have hread : (s.memory.metadata ++ [metadata])[s.memory.metadata.length]? = some metadata := by simp
    have hsearch : search c ⟨s.memory.index ++ [embedding], s.memory.metadata ++ [metadata]⟩
        (field r.fields "messages" (.arr [])) (.str r.model) (field r.fields "cache_similarity_threshold" .null) =
        .ok (some ⟨metadata.responseMessages, product embedding embedding, metadata.usage⟩) := by
      refine bind_eq_ok.mpr ⟨embedding, hembedding, ?_⟩
      simp only [ht, searchModel]
      refine search_eq_some_iff.mpr ⟨by simp, _, _, metadata, htop, hself, ?_, hmodel.trans hname, rfl⟩
      rw [hlength, hread]
    exact ⟨embedding, _, metadata, hembedding, htop, hlength, hread, hsearch,
      checkSemanticCache_of_search hskip hmessages hpreview hsearch⟩

theorem textCache_nearest : Nearest textCache.topOne (fun _ _ => 1) := by
  intro vectors v hmem
  cases hfind : vectors.findIdx? (· = v) with
  | none =>
    rw [List.findIdx?_eq_none_iff] at hfind
    simpa using hfind v hmem
  | some i =>
    obtain ⟨hi, hv, hbefore⟩ := List.findIdx?_eq_some_iff_getElem.mp hfind
    refine ⟨i, by simp [textCache, hfind], ?_, ?_⟩
    · simpa [hi] using hv
    · intro htake
      obtain ⟨j, hj, heq⟩ := List.mem_take_iff_getElem.mp htake
      exact hbefore j (by omega) (by simpa using heq)

def worldEntry : Metadata := ⟨[hello], [world], "llama", noUsage⟩

theorem hello_found_again :
    Finds textCache (storeInSemanticCache textCache.embedder fresh (routed Dict.empty (helloRequest "llama"))
      (some worldReply) wholeSave).memory (helloRequest "llama") 0 0 :=
  (repeated_request_finds_iff textCache (fun _ _ => 1) textCache_nearest Dict.empty (helloRequest "llama") fresh
    (some worldReply) wholeSave
    (show entry textCache.embedder _ _ = .ok (some ("user: hello", worldEntry)) from rfl) rfl
    (show textCache.thresholdOf _ = some 1 from rfl) (by decide)).mpr ⟨rfl, List.not_mem_nil, rfl⟩

/-- The entry has the name that the alias stands for, and the lookup asks for the alias. -/
theorem aliased_request_misses :
    ¬ ∀ (aliases : Dict String String) (r : ChatRequest) (embedding : String) (metadata : Metadata),
      entry textCache.embedder (routed aliases r) (some worldReply) = .ok (some (embedding, metadata)) →
      (field r.fields "messages" (.arr [])).truthy = true →
      Finds textCache (storeInSemanticCache textCache.embedder fresh (routed aliases r) (some worldReply)
        wholeSave).memory r 0 0 := by
  intro h
  obtain ⟨_, _, _, _, _, _, _, hsearch, _⟩ :=
    h (Dict.ofList [("gpt", "llama")]) (helloRequest "gpt") "user: hello" worldEntry rfl rfl
  cases hsearch

end Repeat

end ProductionStack.SemanticCache
