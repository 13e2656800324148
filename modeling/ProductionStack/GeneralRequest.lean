import ProductionStack.JsonAscii

namespace ProductionStack.GeneralRequest

open JsonText Utf8Text

inductive Raised
  | unicodeDecodeError
  | unicodeEncodeError
  | jsonDecodeError
  | valueError
  | recursionError
  | attributeError
  | typeError
  | router
  deriving DecidableEq, Repr

structure Str where
  text : Text
  isStr : IsStr text

/-- A body is what the client sent, or a str that a rewriter or json.dumps made. -/
inductive Body
  | bytes (content : Bytes)
  | str (content : Str)

/-- What the interpreter adds: its floats, the decoding of a body by the encoding that json.loads
detects, and the text of a value in a message. -/
structure Interpreter (F : Type) where
  fmt : Runtime F
  decode : Bytes → Option Text
  decode_isStr : ∀ content t, decode content = some t → IsStr t
  format : Value F → Text

abbrev RequestRewriter (F : Type) := Body → Value F → Text → Body

structure EndpointInfo where
  url : Text
  Id : Text
  modelNames : List Text
  sleep : Bool

structure Request where
  body : Bytes
  id : Option Text
  endpoint : Text

variable {F : Type}

/-- What the handler uses besides the request. A session is read if there is a session key that is not
among the headers. -/
structure Services (F : Type) where
  rewriter : Option (RequestRewriter F)
  aliases : Option (Dict Text Str)
  endpoints : List EndpointInfo
  hasEverSeenModel : Option (Text → Bool)
  routeRequest : Value F → List EndpointInfo → Except Raised Text
  readsSession : Bool

/-- The Content-Length is the one that was rewritten, if it was. -/
inductive Outcome
  | answered (statusCode : Nat) (error : Text)
  | forwarded (url : Text) (body : Body) (contentLength : Option Text)

section Handler

variable (py : Interpreter F)

def raisedBy : LoadError → Raised
  | .jsonDecodeError => .jsonDecodeError
  | .valueError => .valueError
  | .recursionError => .recursionError

def loadsText (t : Text) : Except Raised (Value F) := (loads py.fmt t).mapError raisedBy

def loadsBody : Body → Except Raised (Value F)
  | .bytes content =>
    match py.decode content with
    | some t => loadsText py t
    | none => .error .unicodeDecodeError
  | .str content => loadsText py content.text

def modelKey : Text := text "model"

def getModel : Value F → Except Raised (Value F)
  | .obj fields => .ok ((fields.lookup modelKey).getD .null)
  | _ => .error .attributeError

def clientJson (body : Bytes) : Except Raised (Value F) :=
  if body.isEmpty then .ok (.obj []) else loadsBody py (.bytes body)

def isMissing : Value F → Bool
  | .null => true
  | _ => false

theorem dumps_isStr (v : Value F) : IsStr (dumps defaultStyle py.fmt.floatstr v) :=
  fun c hc => Nat.lt_trans (dumps_ascii py.fmt v c hc) (by decide)

def replaceModelInRequestBody (requestJson : Value F) (model : Str) : Except Raised (Value F × Str) :=
  match requestJson with
  | .obj fields =>
    let replaced := .obj (Dict.assign modelKey (.str model.text) fields)
    .ok (replaced, ⟨dumps defaultStyle py.fmt.floatstr replaced, dumps_isStr py replaced⟩)
  | _ => .error .typeError

def updateContentLength (requestBody : Str) : Text := decimal requestBody.text.length

/-- A dict or a list cannot be looked up in a dict, whatever is in it; an empty dict of aliases counts as none. -/
def aliasOf (aliases : Option (Dict Text Str)) (model : Value F) : Except Raised (Option Str) :=
  match aliases with
  | none => .ok none
  | some aliases =>
    if aliases.entries.isEmpty then .ok none
    else
      match model with
      | .str s => .ok (aliases.get? s)
      | .arr _ | .obj _ => .error .typeError
      | _ => .ok none

def everSeen (hasEverSeenModel : Option (Text → Bool)) (model : Value F) : Except Raised Bool :=
  match hasEverSeenModel, model with
  | none, _ => .ok false
  | some seen, .str s => .ok (seen s)
  | some _, .arr _ | some _, .obj _ => .error .typeError
  | some _, _ => .ok false

def serves (model : Value F) (e : EndpointInfo) : Bool :=
  match model with
  | .str s => e.modelNames.contains s
  | _ => false

def given (id : Option Text) : Option Text := id.filter (fun i => i ≠ [])

def candidates (endpoints : List EndpointInfo) (model : Value F) (id : Option Text) : List EndpointInfo :=
  endpoints.filter (fun e => serves model e && !e.sleep && ((given id).isNone || given id = some e.Id))

/-- The rewriter is given the client's body; what it returns has to be JSON. The exception that is caught here is that of
requests, of which json.loads raises none. -/
def rewrite (rewriter : Option (RequestRewriter F)) (body : Bytes) (endpoint : Text)
    (requestJson model : Value F) : Except Raised (Body × Value F) :=
  match rewriter with
  | none => .ok (.bytes body, requestJson)
  | some rewriteRequest =>
    let rewrittenBody := rewriteRequest (.bytes body) model endpoint
    (loadsBody py rewrittenBody).map (fun requestJson => (rewrittenBody, requestJson))

structure Prepared (F : Type) where
  body : Body
  requestJson : Value F
  model : Value F
  contentLength : Option Text

def applyAlias (aliases : Option (Dict Text Str)) (body : Body) (requestJson model : Value F) :
    Except Raised (Prepared F) := do
  match ← aliasOf aliases model with
  | none => return ⟨body, requestJson, model, none⟩
  | some target =>
    let (replaced, requestBody) ← replaceModelInRequestBody py requestJson target
    return ⟨.str requestBody, replaced, .str target.text, some (updateContentLength requestBody)⟩

/-- What is left of extract_session_id: only a dict has a session id. -/
def extractSessionId (services : Services F) (requestJson : Value F) : Except Raised Unit :=
  match services.readsSession, requestJson with
  | true, .obj _ => .ok ()
  | true, _ => .error .attributeError
  | false, _ => .ok ()

/-- The payload that aiohttp makes of a body: a str is encoded. -/
def payload : Body → Except Raised Bytes
  | .bytes content => .ok content
  | .str content =>
    match encode content.text with
    | some bytes => .ok bytes
    | none => .error .unicodeEncodeError

/-- process_request up to the call of the backend. -/
def processRequest (body : Body) : Except Raised Unit := do
  match ← loadsBody py body with
  | .obj _ =>
    let _ ← payload body
    return ()
  | _ => throw .attributeError

def missingModel : Text := text "Invalid request: missing 'model' in request body."

def notFound (model : Value F) : Text :=
  text "Model '" ++ py.format model ++ text "' not found. Available models can be listed at /v1/models."

def unavailable (model : Value F) : Text :=
  text "Model '" ++ py.format model ++ text "' is temporarily unavailable. Please try again later."

def chooseUrl (services : Services F) (request : Request) (requestJson : Value F) (endpoints : List EndpointInfo) :
    Except Raised Text :=
  match given request.id, endpoints with
  | some _, e :: _ => .ok e.url
  | _, _ => services.routeRequest requestJson endpoints

def forward (services : Services F) (request : Request) (p : Prepared F) : Except Raised Outcome := do
  let modelEverExisted ← everSeen services.hasEverSeenModel p.model
  let endpoints := candidates services.endpoints p.model request.id
  if endpoints.isEmpty then
    return if modelEverExisted then .answered 503 (unavailable py p.model) else .answered 404 (notFound py p.model)
  else
    let serverUrl ← chooseUrl services request p.requestJson endpoints
    extractSessionId services p.requestJson
    processRequest py p.body
    return .forwarded serverUrl p.body p.contentLength

def routeGeneralRequest (services : Services F) (request : Request) : Except Raised Outcome := do
  let requestJson ← clientJson py request.body
  let model ← getModel requestJson
  if isMissing model then return .answered 400 missingModel
  else
    let (body, requestJson) ← rewrite py services.rewriter request.body request.endpoint requestJson model
    let p ← applyAlias py services.aliases body requestJson model
    forward py services request p

end Handler

section Forwarding

variable {py : Interpreter F} {services : Services F} {request : Request} {rewriter : Option (RequestRewriter F)}
  {aliases : Option (Dict Text Str)} {endpoint : Text} {requestJson model : Value F} {contentLength : Option Text}

/-- A router that returns the URL of one of the endpoints it was given. -/
def Services.Honest (services : Services F) : Prop :=
  ∀ requestJson endpoints url, services.routeRequest requestJson endpoints = .ok url → ∃ e ∈ endpoints, e.url = url

def Served (endpoints : List EndpointInfo) (url : Text) (model : Value F) : Prop :=
  ∃ e ∈ endpoints, e.url = url ∧ e.sleep = false ∧ serves model e = true

/-- What is forwarded has a model that an endpoint with the URL serves. -/
def Sound (py : Interpreter F) (services : Services F) (request : Request) : Prop :=
  ∀ url body contentLength, routeGeneralRequest py services request = .ok (.forwarded url body contentLength) →
    ∃ sent model, loadsBody py body = .ok sent ∧ getModel sent = .ok model ∧ Served services.endpoints url model

theorem loadsText_ok {t : Text} {v : Value F} : loadsText py t = .ok v ↔ loads py.fmt t = .ok v := by
  rw [loadsText]
  cases loads py.fmt t <;> simp [Except.mapError]

variable {body : Body} {rewritten : Body × Value F} {fields : Fields F}

theorem proper_loadsBody {v : Value F} (h : loadsBody py body = .ok v) : Proper py.fmt.limits v ∧ Every IsStr v := by
  cases body with
  | bytes content =>
    rw [loadsBody] at h
    split at h
    next t ht => exact every_loads codePoints (py.decode_isStr content t ht) (loadsText_ok.mp h)
    · cases h
  | str content => exact every_loads codePoints content.isStr (loadsText_ok.mp h)

theorem processRequest_ok : processRequest py body = .ok () ↔
    (∃ fields, loadsBody py body = .ok (.obj fields)) ∧ ∃ bytes, payload body = .ok bytes := by
  rw [processRequest]
  cases loadsBody py body with
  | error e => exact iff_of_false nofun (by simp)
  | ok v =>
    cases v with
    | obj fields =>
      cases payload body with
      | error e => exact iff_of_false nofun (by simp)
      | ok bytes => exact iff_of_true rfl ⟨⟨fields, rfl⟩, bytes, rfl⟩
    | _ => exact iff_of_false nofun (by simp)

structure Forwarded (py : Interpreter F) (services : Services F) (request : Request) (url : Text) (body : Body)
    (contentLength : Option Text) where
  requestJson : Value F
  model : Value F
  rewritten : Body × Value F
  prepared : Prepared F
  read : clientJson py request.body = .ok requestJson
  asked : getModel requestJson = .ok model
  present : isMissing model = false
  rewrote : rewrite py services.rewriter request.body request.endpoint requestJson model = .ok rewritten
  aliased : applyAlias py services.aliases rewritten.1 rewritten.2 model = .ok prepared
  chosen : chooseUrl services request prepared.requestJson (candidates services.endpoints prepared.model request.id) = .ok url
  candidate : candidates services.endpoints prepared.model request.id ≠ []
  sent : processRequest py prepared.body = .ok ()
  body_eq : body = prepared.body
  contentLength_eq : contentLength = prepared.contentLength

theorem forwarded_of_ok {url : Text} (h : routeGeneralRequest py services request = .ok (.forwarded url body contentLength)) :
    Nonempty (Forwarded py services request url body contentLength) := by
  obtain ⟨requestJson, hread, h⟩ := bind_eq_ok.mp h
  obtain ⟨model, hasked, h⟩ := bind_eq_ok.mp h
  split at h
  · cases h
  next hpresent =>
    obtain ⟨rewritten, hrewrote, h⟩ := bind_eq_ok.mp h
    obtain ⟨prepared, haliased, h⟩ := bind_eq_ok.mp h
    obtain ⟨seen, -, h⟩ := bind_eq_ok.mp h
    dsimp only at h
    split at h
    · cases seen <;> cases h
    next hne =>
      obtain ⟨serverUrl, hchosen, h⟩ := bind_eq_ok.mp h
      obtain ⟨-, -, h⟩ := bind_eq_ok.mp h
      obtain ⟨⟨⟩, hsent, h⟩ := bind_eq_ok.mp h
      cases h
      exact ⟨requestJson, model, rewritten, prepared, hread, hasked, Bool.eq_false_iff.mpr hpresent, hrewrote, haliased,
        hchosen, by simpa using hne, hsent, rfl, rfl⟩

theorem mem_candidates {endpoints : List EndpointInfo} {id : Option Text} {e : EndpointInfo}
    (h : e ∈ candidates endpoints model id) : e ∈ endpoints ∧ serves model e = true ∧ e.sleep = false := by
  rw [candidates, List.mem_filter, Bool.and_eq_true, Bool.and_eq_true, Bool.not_eq_true'] at h
  exact ⟨h.1, h.2.1.1, h.2.1.2⟩

theorem served_of_chosen (hhonest : services.Honest)
    {url : Text} (h : chooseUrl services request requestJson (candidates services.endpoints model request.id) = .ok url) :
    Served services.endpoints url model := by
  obtain ⟨e, he, hurl⟩ : ∃ e ∈ candidates services.endpoints model request.id, e.url = url := by
    unfold chooseUrl at h
    split at h
    next e rest hid heq =>
      rw [heq]
      exact ⟨e, List.mem_cons_self, Except.ok.inj h⟩
    · exact hhonest _ _ _ h
  obtain ⟨hmem, hserves, hawake⟩ := mem_candidates he
  exact ⟨e, hmem, hurl, hawake, hserves⟩

theorem rewrite_loads {body : Bytes} (hread : clientJson py body = .ok requestJson)
    (hasked : getModel requestJson = .ok model) (hpresent : isMissing model = false)
    (h : rewrite py rewriter body endpoint requestJson model = .ok rewritten) : loadsBody py rewritten.1 = .ok rewritten.2 := by
  unfold rewrite at h
  split at h
  · cases h
    rw [clientJson] at hread
    split at hread
    · cases hread
      cases hasked
      cases hpresent
    · exact hread
  · obtain ⟨json, hjson, rfl⟩ := map_eq_ok.mp h
    exact hjson

theorem applyAlias_cases {p : Prepared F} (h : applyAlias py aliases body requestJson model = .ok p) :
    (aliasOf aliases model = .ok none ∧ p = ⟨body, requestJson, model, none⟩) ∨
      ∃ target fields requestBody, aliasOf aliases model = .ok (some target) ∧ requestJson = .obj fields ∧
        requestBody.text = dumps defaultStyle py.fmt.floatstr (.obj (Dict.assign modelKey (.str target.text) fields)) ∧
        p = ⟨.str requestBody, .obj (Dict.assign modelKey (.str target.text) fields), .str target.text,
          some (updateContentLength requestBody)⟩ := by
  obtain ⟨target, halias, h⟩ := bind_eq_ok.mp h
  cases target with
  | none =>
    cases h
    exact .inl ⟨halias, rfl⟩
  | some target =>
    obtain ⟨⟨replaced, requestBody⟩, hreplace, h⟩ := bind_eq_ok.mp h
    cases h
    unfold replaceModelInRequestBody at hreplace
    split at hreplace
    · cases hreplace
      exact .inr ⟨target, _, _, halias, rfl, rfl, rfl⟩
    · cases hreplace

theorem loads_replaced (py : Interpreter F) (hproper : Proper py.fmt.limits (.obj fields)) (hstr : Every IsStr (.obj fields))
    (target : Str) : let replaced : Value F := .obj (Dict.assign modelKey (.str target.text) fields)
    loads py.fmt (dumps defaultStyle py.fmt.floatstr replaced) = .ok (reread true replaced) ∧ Proper py.fmt.limits replaced := by
  have hkey : IsStr modelKey := by decide
  have hreplaced : Proper py.fmt.limits (.obj (Dict.assign modelKey (.str target.text) fields) : Value F) :=
    proper_assign trivial hproper
  exact ⟨loads_default py.fmt hreplaced (everyField_assign hkey target.isStr hstr), hreplaced⟩

theorem getModel_replaced (hproper : Proper py.fmt.limits (.obj fields)) (target : Str) :
    getModel (reread true (.obj (Dict.assign modelKey (.str target.text) fields))) = .ok (.str (pairUp target.text)) := by
  let d : Dict Text (Value F) := ⟨fields, hproper.1⟩
  have hset : (Dict.assign modelKey (.str target.text) fields).lookup modelKey = some (.str target.text) := by
    have hget := d.get?_set_self modelKey (.str target.text)
    rwa [Dict.get?_eq_lookup] at hget
  have hlookup := lookup_reread (Dict.assign_nodup modelKey _ fields hproper.1) (by decide) hset
  rw [reread, getModel, hlookup]
  rfl

/-- The forwarded model is the one that endpoints were looked up for: if it is an alias, what the alias
stands for can be written; if it is none, the rewriter has kept it in a body that can be sent. -/
def Kept (py : Interpreter F) (rewriter : Option (RequestRewriter F)) (aliases : Option (Dict Text Str))
    (body : Bytes) (endpoint : Text) : Prop :=
  ∀ requestJson s rewritten fields, clientJson py body = .ok requestJson → getModel requestJson = .ok (.str s) →
    rewrite py rewriter body endpoint requestJson (.str s) = .ok (rewritten, .obj fields) →
      (∀ target, aliasOf aliases (.str s : Value F) = .ok (some target) → Unsplit target.text) ∧
        (aliasOf aliases (.str s : Value F) = .ok none → (∃ bytes, payload rewritten = .ok bytes) →
          fields.lookup modelKey = some (.str s))

theorem serves_str {e : EndpointInfo} (h : serves model e = true) : ∃ s, model = .str s ∧ s ∈ e.modelNames := by
  unfold serves at h
  split at h
  next s => exact ⟨s, rfl, by simpa using h⟩
  · cases h

theorem aliasOf_some {target : Str} (h : aliasOf aliases model = .ok (some target)) : ∃ s, model = .str s := by
  unfold aliasOf at h
  split at h
  · cases h
  · split at h
    · cases h
    · split at h
      next s => exact ⟨s, rfl⟩
      all_goals cases h

theorem sound_of_kept (hhonest : services.Honest)
    (hkept : Kept py services.rewriter services.aliases request.body request.endpoint) : Sound py services request := by
  intro url body contentLength h
  obtain ⟨requestJson, model, ⟨rewritten, json⟩, p, hread, hasked, hpresent, hrewrote, haliased, hchosen, -, hsent, rfl, -⟩ :=
    forwarded_of_ok h
  have hloads : loadsBody py rewritten = .ok json := rewrite_loads hread hasked hpresent hrewrote
  obtain ⟨e, he, hurl, hawake, hserves⟩ := served_of_chosen hhonest hchosen
  obtain ⟨⟨sent, hsent⟩, hpayload⟩ := processRequest_ok.mp hsent
  rcases applyAlias_cases haliased with ⟨halias, rfl⟩ | ⟨target, fields, requestBody, halias, rfl, htext, rfl⟩
  · obtain ⟨s, rfl, -⟩ := serves_str hserves
    obtain rfl : json = .obj sent := Except.ok.inj (hloads.symm.trans hsent)
    have hmodel := (hkept requestJson s rewritten sent hread hasked hrewrote).2 halias hpayload
    exact ⟨.obj sent, .str s, hsent, by rw [getModel, hmodel]; rfl, e, he, hurl, hawake, hserves⟩
  · obtain ⟨s, rfl⟩ := aliasOf_some halias
    obtain ⟨hproper, hstr⟩ := proper_loadsBody hloads
    have hunsplit := (hkept requestJson s rewritten fields hread hasked hrewrote).1 target halias
    have hreread : loadsBody py (.str requestBody) = _ := loadsText_ok.mpr (htext ▸ (loads_replaced py hproper hstr target).1)
    refine ⟨_, .str target.text, hreread, ?_, e, he, hurl, hawake, hserves⟩
    rw [getModel_replaced hproper, hunsplit]

def single (rewriter : Option (RequestRewriter F)) (aliases : Option (Dict Text Str)) (model : Text) : Services F where
  rewriter := rewriter
  aliases := aliases
  endpoints := [⟨[], [], [model], false⟩]
  hasEverSeenModel := none
  routeRequest _ endpoints :=
    match endpoints with
    | e :: _ => .ok e.url
    | [] => .error .router
  readsSession := false

theorem honest_single (rewriter : Option (RequestRewriter F)) (aliases : Option (Dict Text Str)) (model : Text) :
    (single rewriter aliases model).Honest := by
  intro requestJson endpoints url h
  cases endpoints with
  | nil => cases h
  | cons e rest => exact ⟨e, List.mem_cons_self, Except.ok.inj h⟩

theorem forward_single {model : Text} (hid : request.id = none) (hsent : loadsBody py body = .ok (.obj fields))
    (hpayload : ∃ bytes, payload body = .ok bytes) :
    forward py (single rewriter aliases model) request ⟨body, requestJson, .str model, contentLength⟩ =
      .ok (.forwarded [] body contentLength) := by
  have hcandidates : candidates (single rewriter aliases model).endpoints (.str model : Value F) request.id =
      [⟨[], [], [model], false⟩] := by
    simp [candidates, single, serves, given, hid]
  have hprocess : processRequest py body = .ok () := processRequest_ok.mpr ⟨⟨fields, hsent⟩, hpayload⟩
  simp only [forward, everSeen, hcandidates, bind, Except.bind]
  simp [single, chooseUrl, given, hid, extractSessionId, hprocess]
  rfl

theorem payload_dumps (py : Interpreter F) (v : Value F) :
    ∃ bytes, payload (.str ⟨dumps defaultStyle py.fmt.floatstr v, dumps_isStr py v⟩) = .ok bytes := by
  obtain ⟨bytes, hbytes, -⟩ := length_encode_of_ascii (dumps_ascii py.fmt v)
  exact ⟨bytes, by rw [payload, hbytes]⟩

theorem route_eq {p : Prepared F} (hread : clientJson py request.body = .ok requestJson)
    (hasked : getModel requestJson = .ok model) (hpresent : isMissing model = false)
    (hrewrote : rewrite py services.rewriter request.body request.endpoint requestJson model = .ok rewritten)
    (haliased : applyAlias py services.aliases rewritten.1 rewritten.2 model = .ok p) :
    routeGeneralRequest py services request = forward py services request p := by
  simp only [routeGeneralRequest, hread, hasked, hpresent, hrewrote, haliased, bind, Except.bind, Bool.false_eq_true, if_false]

theorem served_single {model : Text} {url : Text} {sent : Value F}
    (h : Served (single rewriter aliases model : Services F).endpoints url sent) : sent = .str model := by
  obtain ⟨e, he, -, -, hserves⟩ := h
  obtain rfl := List.mem_singleton.mp he
  obtain ⟨s, rfl, hs⟩ := serves_str hserves
  rw [List.mem_singleton.mp hs]

theorem lookup_of_getModel {s : Text} (h : getModel (.obj fields) = .ok (.str s)) :
    fields.lookup modelKey = some (.str s) := by
  have hfound : (fields.lookup modelKey).getD .null = .str s := Except.ok.inj h
  cases hlookup : fields.lookup modelKey with
  | none =>
    rw [hlookup] at hfound
    cases hfound
  | some value =>
    rw [hlookup] at hfound
    exact congrArg some hfound

theorem kept_of_sound {body : Bytes}
    (h : ∀ model, Sound py (single rewriter aliases model) ⟨body, none, endpoint⟩) : Kept py rewriter aliases body endpoint := by
  intro requestJson s rewritten fields hread hasked hrewrote
  have hloads : loadsBody py rewritten = .ok (.obj fields) := rewrite_loads hread hasked rfl hrewrote
  refine ⟨fun target halias => ?_, fun halias hpayload => ?_⟩
  · obtain ⟨hproper, hstr⟩ := proper_loadsBody hloads
    let requestBody : Str := ⟨_, dumps_isStr py (.obj (Dict.assign modelKey (.str target.text) fields))⟩
    have haliased : applyAlias py aliases rewritten (.obj fields) (.str s) =
        .ok ⟨.str requestBody, .obj (Dict.assign modelKey (.str target.text) fields), .str target.text,
          some (updateContentLength requestBody)⟩ := by
      simp only [applyAlias, halias, bind, Except.bind, replaceModelInRequestBody]
      rfl
    have hreread : loadsBody py (.str requestBody) = _ := loadsText_ok.mpr (loads_replaced py hproper hstr target).1
    obtain ⟨sent, model, hsent, hmodel, hserved⟩ := h target.text [] (.str requestBody) _
      ((route_eq hread hasked rfl hrewrote haliased).trans (forward_single rfl hreread (payload_dumps py _)))
    obtain rfl := Except.ok.inj (hreread.symm.trans hsent)
    rw [getModel_replaced hproper] at hmodel
    cases hmodel
    exact Value.str.inj (served_single hserved)
  · have haliased : applyAlias py aliases rewritten (.obj fields) (.str s) = .ok ⟨rewritten, .obj fields, .str s, none⟩ := by
      simp only [applyAlias, halias, bind, Except.bind]
      rfl
    obtain ⟨sent, model, hsent, hmodel, hserved⟩ := h s [] rewritten _
      ((route_eq hread hasked rfl hrewrote haliased).trans (forward_single rfl hloads hpayload))
    obtain rfl := Except.ok.inj (hloads.symm.trans hsent)
    rw [served_single hserved] at hmodel
    exact lookup_of_getModel hmodel

/-- A rewriter that leaves this body as it is, or none. -/
def Unwritten (rewriter : Option (RequestRewriter F)) (body : Bytes) (endpoint : Text) (model : Value F) : Prop :=
  ∀ f ∈ rewriter, f (.bytes body) model endpoint = .bytes body

theorem rewrite_unwritten {body : Bytes} (hread : clientJson py body = .ok requestJson)
    (hasked : getModel requestJson = .ok model) (hpresent : isMissing model = false)
    (hunwritten : Unwritten rewriter body endpoint model)
    (h : rewrite py rewriter body endpoint requestJson model = .ok rewritten) : rewritten.2 = requestJson := by
  cases rewriter with
  | none =>
    cases h
    rfl
  | some f =>
    have hloads := rewrite_loads hread hasked hpresent h
    have hbody : rewritten.1 = .bytes body := by
      rw [← hunwritten f rfl]
      obtain ⟨json, -, rfl⟩ := map_eq_ok.mp h
      rfl
    have hnone : rewrite py none body endpoint requestJson model = .ok (.bytes body, requestJson) := rfl
    have hclient := rewrite_loads hread hasked hpresent hnone
    rw [hbody] at hloads
    exact Except.ok.inj (hloads.symm.trans hclient)

theorem forwarded_alias {url : Text} (h : routeGeneralRequest py services request = .ok (.forwarded url body contentLength))
    (hread : clientJson py request.body = .ok requestJson) (hasked : getModel requestJson = .ok model)
    (hunwritten : Unwritten services.rewriter request.body request.endpoint model) {target : Str}
    (halias : aliasOf services.aliases model = .ok (some target)) :
    ∃ fields sent bytes, requestJson = .obj fields ∧ body = .str sent ∧ encode sent.text = some bytes ∧
      contentLength = some (decimal bytes.length) ∧
      (loads py.fmt sent.text = .ok (.obj (Dict.assign modelKey (.str target.text) fields)) ↔
        Every Unsplit (.obj (Dict.assign modelKey (.str target.text) fields) : Value F)) := by
  obtain ⟨requestJson', model', ⟨rewritten, json⟩, p, hread', hasked', hpresent, hrewrote, haliased, -, -, hsent, rfl, rfl⟩ :=
    forwarded_of_ok h
  obtain rfl := Except.ok.inj (hread.symm.trans hread')
  obtain rfl := Except.ok.inj (hasked.symm.trans hasked')
  have hloads : loadsBody py rewritten = .ok json := rewrite_loads hread hasked hpresent hrewrote
  obtain rfl : json = requestJson := rewrite_unwritten hread hasked hpresent hunwritten hrewrote
  rcases applyAlias_cases haliased with ⟨hnone, -⟩ | ⟨target', fields, requestBody, halias', rfl, htext, rfl⟩
  · cases halias.symm.trans hnone
  · obtain rfl := Option.some.inj (Except.ok.inj (halias.symm.trans halias'))
    obtain ⟨hproper, hstr⟩ := proper_loadsBody hloads
    obtain ⟨hreread, hreplaced⟩ := loads_replaced py hproper hstr target
    obtain ⟨bytes, hbytes, hlength⟩ := length_encode_of_ascii (dumps_ascii py.fmt _)
    refine ⟨fields, requestBody, bytes, rfl, rfl, by rw [htext, hbytes], ?_, ?_⟩
    · rw [updateContentLength, htext, hlength]
    · rw [htext, hreread, Except.ok.injEq]
      exact reread_eq_iff hreplaced

/-- Whatever is discovered and whichever endpoint is chosen, the model of the body that is sent is served
there, exactly if the model is kept; and what an alias alone does to the body. -/
theorem forwarded_model_served_iff (py : Interpreter F) (rewriter : Option (RequestRewriter F))
    (aliases : Option (Dict Text Str)) (body : Bytes) (endpoint : Text) :
    ((∀ services : Services F, services.rewriter = rewriter → services.aliases = aliases → services.Honest →
        ∀ id, Sound py services ⟨body, id, endpoint⟩) ↔ Kept py rewriter aliases body endpoint) ∧
      ∀ services : Services F, services.rewriter = rewriter → services.aliases = aliases →
        ∀ id url sentBody contentLength,
          routeGeneralRequest py services ⟨body, id, endpoint⟩ = .ok (.forwarded url sentBody contentLength) →
          ∀ requestJson model target, clientJson py body = .ok requestJson → getModel requestJson = .ok model →
            Unwritten rewriter body endpoint model → aliasOf aliases model = .ok (some target) →
            ∃ fields sent bytes, requestJson = .obj fields ∧ sentBody = .str sent ∧ encode sent.text = some bytes ∧
              contentLength = some (decimal bytes.length) ∧
              (loads py.fmt sent.text = .ok (.obj (Dict.assign modelKey (.str target.text) fields)) ↔
                Every Unsplit (.obj (Dict.assign modelKey (.str target.text) fields) : Value F)) := by
  refine ⟨⟨fun h => kept_of_sound (fun model => ?_), ?_⟩, ?_⟩
  · exact h (single rewriter aliases model) rfl rfl (honest_single rewriter aliases model) none
  · rintro hkept services rfl rfl hhonest id
    exact sound_of_kept hhonest hkept
  · rintro services rfl rfl id url sentBody contentLength h requestJson model target hread hasked hunwritten halias
    exact forwarded_alias h hread hasked hunwritten halias

theorem kept_none (haliases : ∀ s target, aliasOf aliases (.str s : Value F) = .ok (some target) → Unsplit target.text)
    (body : Bytes) (endpoint : Text) : Kept py none aliases body endpoint := by
  intro requestJson s rewritten fields hread hasked hrewrote
  cases hrewrote
  exact ⟨haliases s, fun _ _ => lookup_of_getModel hasked⟩

end Forwarding

section Requests

def utf8 : Interpreter Unit where
  fmt := unitFloats
  decode := decode
  decode_isStr _ _ h := decode_lt h
  format _ := []

def asked (name : Text) : Value Unit := .obj [(modelKey, .str name)]

theorem loadsText_asked (name : Text) (hname : IsStr name) (hunsplit : Unsplit name) :
    loadsText utf8 (dumps defaultStyle unitFloats.floatstr (asked name)) = .ok (asked name) := by
  have hproper : Proper unitFloats.limits (asked name) := ⟨List.nodup_singleton _, by decide, trivial, trivial⟩
  have hkept : reread true (asked name) = asked name := (reread_eq_iff hproper).mpr ⟨by decide, hunsplit, trivial⟩
  have hread := loads_default unitFloats hproper ⟨by decide, hname, trivial⟩
  rw [hkept] at hread
  exact loadsText_ok.mpr hread

theorem clientJson_asked (name : Text) (hname : IsStr name) (hunsplit : Unsplit name) {body : Bytes}
    (hdecode : decode body = some (dumps defaultStyle unitFloats.floatstr (asked name))) :
    clientJson utf8 body = .ok (asked name) := by
  have hbody : body.isEmpty = false := by
    cases body with
    | nil => cases hdecode
    | cons b body => rfl
  have hutf8 : utf8.decode body = decode body := rfl
  simp only [clientJson, hbody, Bool.false_eq_true, if_false, loadsBody, hutf8, hdecode, loadsText_asked name hname hunsplit]

def toLlama : RequestRewriter Unit := fun _ _ _ => .str ⟨text "\x7b\"model\": \"llama\"\x7d", by decide⟩

def chat : Text := text "/v1/chat/completions"

def askOpt : Bytes := (text "\x7b\"model\": \"opt\"\x7d").map UInt8.ofNat

theorem rewritten_model_not_served : ¬Sound utf8 (single (some toLlama) none (text "opt")) ⟨askOpt, none, chat⟩ := by
  intro h
  have hread : clientJson utf8 askOpt = .ok (asked (text "opt")) :=
    clientJson_asked (text "opt") (by decide) (by decide) (by rfl)
  let sentBody := toLlama (.bytes askOpt) (.str (text "opt")) chat
  have hsent : loadsBody utf8 sentBody = .ok (asked (text "llama")) :=
    loadsText_asked (text "llama") (by decide) (by decide)
  have hrewrote : rewrite utf8 (some toLlama) askOpt chat (asked (text "opt")) (.str (text "opt")) =
      .ok (sentBody, asked (text "llama")) := by
    rw [rewrite, hsent]
    rfl
  have haliased : applyAlias utf8 none sentBody (asked (text "llama")) (.str (text "opt")) =
      .ok ⟨sentBody, asked (text "llama"), .str (text "opt"), none⟩ := rfl
  have hroute : routeGeneralRequest utf8 (single (some toLlama) none (text "opt")) ⟨askOpt, none, chat⟩ =
      .ok (.forwarded [] sentBody none) := Eq.trans (route_eq hread rfl rfl hrewrote haliased) (forward_single rfl hsent ⟨_, rfl⟩)
  obtain ⟨sent, model, hloads, hmodel, hserved⟩ := h _ _ _ hroute
  cases hsent.symm.trans hloads
  cases hmodel
  cases served_single hserved

def gpt : Dict Text Str := ⟨[(text "gpt", ⟨text "opt", by decide⟩)], by decide⟩

def askGpt : Bytes := (text "\x7b\"model\": \"gpt\"\x7d").map UInt8.ofNat

def sentOpt : Str := ⟨text "\x7b\"model\": \"opt\"\x7d", by decide⟩

theorem alias_model_served :
    Sound utf8 (single none (some gpt) (text "opt")) ⟨askGpt, none, chat⟩ ∧
      routeGeneralRequest utf8 (single none (some gpt) (text "opt")) ⟨askGpt, none, chat⟩ =
        .ok (.forwarded [] (.str sentOpt) (some (text "16"))) ∧
      loads unitFloats sentOpt.text = .ok (.obj [(modelKey, .str (text "opt"))]) := by
  obtain ⟨hiff, halias⟩ := forwarded_model_served_iff utf8 none (some gpt) askGpt chat
  have hunsplit : ∀ s target, aliasOf (some gpt) (.str s : Value Unit) = .ok (some target) → Unsplit target.text := by
    intro s target h
    have hget : gpt.get? s = some target := Except.ok.inj h
    cases List.mem_singleton.mp (Dict.mem_of_get? hget)
    decide
  have hread : clientJson utf8 askGpt = .ok (asked (text "gpt")) :=
    clientJson_asked (text "gpt") (by decide) (by decide) (by rfl)
  have hsent : loadsBody utf8 (.str sentOpt) = .ok (asked (text "opt")) :=
    loadsText_asked (text "opt") (by decide) (by decide)
  have haliased : applyAlias utf8 (some gpt) (.bytes askGpt) (asked (text "gpt")) (.str (text "gpt")) =
      .ok ⟨.str sentOpt, asked (text "opt"), .str (text "opt"), some (text "16")⟩ := by rfl
  have hroute : routeGeneralRequest utf8 (single none (some gpt) (text "opt")) ⟨askGpt, none, chat⟩ =
      .ok (.forwarded [] (.str sentOpt) (some (text "16"))) :=
    Eq.trans (route_eq hread rfl rfl rfl haliased) (forward_single rfl hsent ⟨_, rfl⟩)
  refine ⟨hiff.mpr (kept_none hunsplit askGpt chat) _ rfl rfl (honest_single _ _ _) none, hroute, ?_⟩
  obtain ⟨fields, sent, bytes, hjson, hbody, -, -, hread⟩ := halias (single none (some gpt) (text "opt")) rfl rfl none [] _ _
    hroute _ (.str (text "gpt")) ⟨text "opt", by decide⟩ hread rfl nofun rfl
  cases hjson
  cases hbody
  have hunsplit : Unsplit modelKey ∧ Unsplit (text "opt") := by decide
  exact hread.mpr ⟨hunsplit.1, hunsplit.2, trivial⟩

end Requests

end ProductionStack.GeneralRequest
