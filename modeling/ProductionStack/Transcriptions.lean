import Mathlib.Data.List.Count
import ProductionStack.GeneralRequest
import ProductionStack.KvAwareRouter
import ProductionStack.PrefixAware
import ProductionStack.RoundRobin

namespace ProductionStack.Transcriptions

open RoundRobin (RoundRobinRouter ListObject refresh sortedByUrl)
open Hashtrie (HashTrie)
open JsonText (Text Value text)

section Handler

structure UploadFile where
  filename : String
  contentType : String
  payload : List UInt8
  deriving DecidableEq, Repr

structure Form where
  file : Option UploadFile := none
  fields : Dict String String := .empty

structure Params where
  file : UploadFile
  model : String
  prompt : Option String
  responseFormat : String
  temperature : Option String
  language : String

/-- A temperature is kept as what str makes of the float. -/
def readForm (float : String → Except Exc String) (form : Form) : Except Exc Params :=
  match form.file, form.fields.get? "model" with
  | none, _ => .error (.keyError "file")
  | some _, none => .error (.keyError "model")
  | some file, some model =>
    let params temperature : Params :=
      { file, model, prompt := form.fields.get? "prompt"
        responseFormat := (form.fields.get? "response_format").getD "json"
        temperature, language := (form.fields.get? "language").getD "en" }
    match form.fields.get? "temperature" with
    | none => .ok (params none)
    | some written =>
      match float written with
      | .ok temperature => .ok (params (some temperature))
      | .error e => .error e

def transcriptionEndpoints (model : String) (endpoints : List EndpointInfo) : List EndpointInfo :=
  endpoints.flatMap (fun ep => ep.modelNames.flatMap (fun name => if model = name ∧ ep.sleep = false then [ep] else []))

inductive Router (H R Tok : Type)
  | roundRobin (r : RoundRobinRouter H)
  | session (hashRing : R)
  | kvaware (r : KvAwareRouter.KvawareRouter R Tok)
  | prefixaware (hashtrie : HashTrie H)

variable {H R Tok : Type} [DecidableEq H]

/-- route_request called with four arguments. That of the other three routers has a fifth parameter, request_json. -/
def routeRequest (hash : List String → H) (router : Router H R Tok) (endpoints : ListObject) :
    Except Exc String × Router H R Tok :=
  match router with
  | .roundRobin r =>
    let called := RoundRobin.routeRequest hash r endpoints
    (called.1, .roundRobin called.2)
  | .session _ | .kvaware _ | .prefixaware _ => (.error .typeError, router)

structure Proxied where
  url : String
  file : UploadFile
  data : List (String × String)

inductive Outcome
  | answered (statusCode : Nat) (error : String)
  | raised (e : Exc)
  | proxied (sent : Proxied)

def data (params : Params) : List (String × String) :=
  [("model", params.model), ("language", params.language)] ++
    (match params.prompt with
      | some prompt => if prompt ≠ "" then [("prompt", prompt)] else []
      | none => []) ++
    (if params.responseFormat ≠ "" then [("response_format", params.responseFormat)] else []) ++
    (match params.temperature with
      | some temperature => [("temperature", temperature)]
      | none => [])

/-- The handler up to its call of the backend. The list that it makes is an object with an id. -/
def routeGeneralTranscriptions (hash : List String → H) (float : String → Except Exc String) (endpoint : String) (listId : Nat)
    (endpoints : List EndpointInfo) (router : Router H R Tok) (form : Form) : Outcome × Router H R Tok :=
  match readForm float form with
  | .error (.keyError key) => (.answered 400 ("Invalid request: missing '" ++ key ++ "' in form data."), router)
  | .error e => (.raised e, router)
  | .ok params =>
    let offered := transcriptionEndpoints params.model endpoints
    if offered = [] then (.answered 404 ("No transcription backend for model " ++ params.model), router)
    else
      match routeRequest hash router ⟨listId, offered⟩ with
      | (.error e, router) => (.raised e, router)
      | (.ok chosenUrl, router) => (.proxied ⟨chosenUrl ++ endpoint, params.file, data params⟩, router)

end Handler

section Copies

variable {α : Type} [DecidableEq α]

theorem count_copies (copies : α → Nat) (a : α) (l : List α) :
    (l.flatMap (fun x => List.replicate (copies x) x)).count a = l.count a * copies a := by
  induction l with
  | nil => simp
  | cons x l ih =>
    rw [List.flatMap_cons, List.count_append, ih, List.count_replicate, List.count_cons]
    by_cases hx : x = a
    · simp [hx, Nat.add_mul, Nat.add_comm]
    · simp [hx]

theorem copies_eq_filter_iff (copies : α → Nat) (p : α → Bool) (l : List α) :
    l.flatMap (fun x => List.replicate (copies x) x) = l.filter p ↔ ∀ x ∈ l, copies x = if p x then 1 else 0 := by
  constructor
  · intro h x hx
    have hcount := count_copies copies x l
    have hpos := List.count_pos_iff.mpr hx
    rw [h] at hcount
    cases hp : p x with
    | true =>
      rw [List.count_filter hp] at hcount
      exact Nat.eq_of_mul_eq_mul_left hpos (hcount.symm.trans (Nat.mul_one _).symm)
    | false =>
      have hnone : (l.filter p).count x = 0 := List.count_eq_zero.mpr (by simp [hp])
      rw [hnone] at hcount
      exact (Nat.mul_eq_zero.mp hcount.symm).resolve_left hpos.ne'
  · intro h
    induction l with
    | nil => rfl
    | cons x l ih =>
      rw [List.forall_mem_cons] at h
      rw [List.flatMap_cons, ih h.2, h.1, List.filter_cons]
      cases p x <;> rfl

end Copies

section Offers

def resolved (aliases : Option (Dict String String)) (model : String) : String :=
  (aliases.bind (fun aliases => aliases.get? model)).getD model

def generalEndpoints (aliases : Option (Dict String String)) (model : String) (endpoints : List EndpointInfo) :
    List EndpointInfo :=
  endpoints.filter (fun e => e.modelNames.contains (resolved aliases model) && !e.sleep)

theorem text_injective : Function.Injective text := by
  intro s t h
  exact String.toList_inj.mp (List.map_injective_iff.mpr (fun _ _ => Char.toNat_inj.mp) h)

def asText (e : EndpointInfo) : GeneralRequest.EndpointInfo :=
  ⟨text e.url, text e.Id, e.modelNames.map text, e.sleep⟩

theorem candidates_asText {F : Type} (aliases : Option (Dict String String)) (model : String) (endpoints : List EndpointInfo) :
    GeneralRequest.candidates (endpoints.map asText) (.str (text (resolved aliases model)) : Value F) none =
      (generalEndpoints aliases model endpoints).map asText := by
  rw [GeneralRequest.candidates, generalEndpoints, List.filter_map]
  congr 1
  refine List.filter_congr (fun e _ => ?_)
  have hserves : GeneralRequest.serves (.str (text (resolved aliases model)) : Value F) (asText e) =
      e.modelNames.contains (resolved aliases model) := by
    rw [GeneralRequest.serves, Bool.eq_iff_iff]
    simp [asText, text_injective.eq_iff]
  rw [Function.comp_apply, hserves]
  simp [asText, GeneralRequest.given]

theorem applyAlias_resolved {F : Type} {py : GeneralRequest.Interpreter F} {aliases : Dict String String}
    {named : Dict Text GeneralRequest.Str}
    (hnamed : ∀ name, (named.get? (text name)).map GeneralRequest.Str.text = (aliases.get? name).map text)
    {body : GeneralRequest.Body} {requestJson : Value F} {model : String} {prepared : GeneralRequest.Prepared F}
    (h : GeneralRequest.applyAlias py (some named) body requestJson (.str (text model)) = .ok prepared) :
    prepared.model = .str (text (resolved (some aliases) model)) := by
  have halias : GeneralRequest.aliasOf (some named) (.str (text model) : Value F) = .ok (named.get? (text model)) := by
    rw [GeneralRequest.aliasOf]
    cases hentries : named.entries with
    | nil => simp [Dict.get?, hentries]
    | cons => rfl
  simp only [GeneralRequest.applyAlias, halias, bind_eq_ok, Except.ok.injEq, exists_eq_left'] at h
  have hname := hnamed model
  cases hget : named.get? (text model) with
  | none =>
    rw [hget] at h hname
    cases h
    have hnone : aliases.get? model = none := Option.map_eq_none_iff.mp hname.symm
    simp [resolved, hnone]
  | some target =>
    rw [hget] at h hname
    obtain ⟨name, hsome, htext⟩ := Option.map_eq_some_iff.mp hname.symm
    obtain ⟨replaced, -, hprepared⟩ := bind_eq_ok.mp h
    cases hprepared
    simp [resolved, hsome, htext]

def copies (model : String) (e : EndpointInfo) : Nat := if e.sleep then 0 else e.modelNames.count model

theorem transcriptionEndpoints_eq (model : String) (endpoints : List EndpointInfo) :
    transcriptionEndpoints model endpoints = endpoints.flatMap (fun e => List.replicate (copies model e) e) := by
  refine List.flatMap_congr (fun e _ => ?_)
  rw [copies]
  cases e.sleep with
  | true => simp
  | false =>
    induction e.modelNames with
    | nil => rfl
    | cons name names ih =>
      rw [List.flatMap_cons, ih, List.count_cons]
      by_cases hname : model = name
      · simp [hname, List.replicate_succ]
      · simp [hname, Ne.symm hname]

theorem offered_eq_iff (aliases : Option (Dict String String)) (model : String) (endpoints : List EndpointInfo) :
    transcriptionEndpoints model endpoints = generalEndpoints aliases model endpoints ↔
      ∀ e ∈ endpoints, e.sleep = false →
        e.modelNames.count model = if resolved aliases model ∈ e.modelNames then 1 else 0 := by
  rw [transcriptionEndpoints_eq, generalEndpoints, copies_eq_filter_iff]
  refine forall₂_congr (fun e _ => ?_)
  rw [copies]
  cases e.sleep <;> simp

end Offers

section Routing

variable {H R Tok : Type} [DecidableEq H] {hash : List String → H}

def PicksLive (hash : List String → H) (r : RoundRobinRouter H) (arg : ListObject) : Prop :=
  (some arg.id ≠ r.lastEndpointsId ∧ some (hash (urls arg.endpoints)) ≠ r.lastEndpointsHash) ∨
    ∃ e, r.sortedEndpoints[r.reqId % r.sortedEndpoints.length]? = some e ∧ e.url ∈ urls arg.endpoints

theorem routeRequest_live_iff (hash : List String → H) (r : RoundRobinRouter H) (arg : ListObject) (hne : arg.endpoints ≠ []) :
    RoundRobin.Live arg (RoundRobin.routeRequest hash r arg).1 ↔ PicksLive hash r arg := by
  by_cases hfresh : some arg.id ≠ r.lastEndpointsId ∧ some (hash (urls arg.endpoints)) ≠ r.lastEndpointsHash
  · refine iff_of_true ?_ (.inl hfresh)
    have hsorted : (refresh hash r arg).sortedEndpoints = sortedByUrl arg.endpoints := by
      simp [refresh, hfresh.1, hfresh.2]
    have hlist : (refresh hash r arg).sortedEndpoints ≠ [] := by
      rw [hsorted]
      intro hnil
      have hperm := RoundRobin.sortedByUrl_urls arg.endpoints
      rw [hnil] at hperm
      exact hne (urls_eq_nil.mp (List.nil_perm.mp hperm))
    obtain ⟨chosen, hmem, -, heq⟩ := RoundRobin.routeRequest_eq hash r arg hlist
    rw [heq]
    rw [hsorted] at hmem
    exact ⟨chosen.url, rfl, (RoundRobin.sortedByUrl_urls _).subset (List.mem_map_of_mem hmem)⟩
  · have hcached : (refresh hash r arg).sortedEndpoints = r.sortedEndpoints ∧ (refresh hash r arg).reqId = r.reqId := by
      rw [refresh]
      by_cases hid : some arg.id = r.lastEndpointsId
      · simp [hid]
      · have hhash : some (hash (urls arg.endpoints)) = r.lastEndpointsHash :=
          not_not.mp (fun hhash => hfresh ⟨hid, hhash⟩)
        simp [hid, hhash]
    rw [PicksLive, or_iff_right hfresh, RoundRobin.Live]
    simp only [RoundRobin.routeRequest, hcached.1, hcached.2]
    cases r.sortedEndpoints[r.reqId % r.sortedEndpoints.length]? with
    | none => simp
    | some chosen => simp

variable (aliases : Option (Dict String String)) (float : String → Except Exc String) (endpoint : String) (listId : Nat)

structure RoutedLikeGeneral (model : String) (endpoints : List EndpointInfo) (outcome : Outcome) : Prop where
  offered : transcriptionEndpoints model endpoints = generalEndpoints aliases model endpoints
  served : generalEndpoints aliases model endpoints ≠ [] →
    ∃ e ∈ generalEndpoints aliases model endpoints, ∃ sent, outcome = .proxied sent ∧ sent.url = e.url ++ endpoint

theorem route_eq (endpoints : List EndpointInfo) (router : Router H R Tok) {form : Form} {params : Params}
    (hform : readForm float form = .ok params) (hne : transcriptionEndpoints params.model endpoints ≠ []) :
    (routeGeneralTranscriptions hash float endpoint listId endpoints router form).1 =
      match (routeRequest hash router ⟨listId, transcriptionEndpoints params.model endpoints⟩).1 with
      | .error e => .raised e
      | .ok chosenUrl => .proxied ⟨chosenUrl ++ endpoint, params.file, data params⟩ := by
  simp only [routeGeneralTranscriptions, hform, if_neg hne]
  rcases routeRequest hash router ⟨listId, transcriptionEndpoints params.model endpoints⟩ with ⟨e | chosenUrl, router⟩
  · rfl
  · rfl

theorem routed_iff (endpoints : List EndpointInfo) (router : Router H R Tok) {form : Form} {params : Params}
    (hform : readForm float form = .ok params) (hne : transcriptionEndpoints params.model endpoints ≠ []) :
    (∃ e ∈ transcriptionEndpoints params.model endpoints, ∃ sent,
        (routeGeneralTranscriptions hash float endpoint listId endpoints router form).1 = .proxied sent ∧
          sent.url = e.url ++ endpoint) ↔
      ∃ r, router = .roundRobin r ∧ PicksLive hash r ⟨listId, transcriptionEndpoints params.model endpoints⟩ := by
  rw [route_eq float endpoint listId endpoints router hform hne]
  cases router with
  | session hashRing => simp [routeRequest]
  | kvaware r => simp [routeRequest]
  | prefixaware hashtrie => simp [routeRequest]
  | roundRobin r =>
    have hlive := routeRequest_live_iff hash r ⟨listId, transcriptionEndpoints params.model endpoints⟩ hne
    simp only [Router.roundRobin.injEq, exists_eq_left', ← hlive, routeRequest, RoundRobin.Live]
    cases (RoundRobin.routeRequest hash r ⟨listId, transcriptionEndpoints params.model endpoints⟩).1 with
    | error e => simp
    | ok url => simp [urls, eq_comm]

/-- A transcription is routed like other requests exactly when the endpoints that are awake name its model as the alias
map would have it and no more than once, and the router is round robin, at an endpoint of the list. -/
theorem transcriptions_routed_iff (hash : List String → H) (endpoints : List EndpointInfo) (router : Router H R Tok) {form : Form}
    {params : Params} (hform : readForm float form = .ok params) :
    RoutedLikeGeneral aliases endpoint params.model endpoints
        (routeGeneralTranscriptions hash float endpoint listId endpoints router form).1 ↔
      (∀ e ∈ endpoints, e.sleep = false →
        e.modelNames.count params.model = if resolved aliases params.model ∈ e.modelNames then 1 else 0) ∧
      (generalEndpoints aliases params.model endpoints = [] ∨
        ∃ r, router = .roundRobin r ∧ PicksLive hash r ⟨listId, generalEndpoints aliases params.model endpoints⟩) := by
  rw [← offered_eq_iff]
  constructor
  · rintro ⟨hoffered, hserved⟩
    refine ⟨hoffered, or_iff_not_imp_left.mpr (fun hne => ?_)⟩
    rw [← hoffered] at hserved hne ⊢
    exact (routed_iff float endpoint listId endpoints router hform hne).mp (hserved hne)
  · rintro ⟨hoffered, hrouter⟩
    refine ⟨hoffered, fun hne => ?_⟩
    have hpicks := hrouter.resolve_left hne
    rw [← hoffered] at hne hpicks ⊢
    exact (routed_iff float endpoint listId endpoints router hform hne).mpr hpicks

def whisperForm : Form := ⟨some ⟨"a.wav", "audio/wav", []⟩, Dict.empty.set "model" "whisper"⟩

def whisperParams : Params := ⟨⟨"a.wav", "audio/wav", []⟩, "whisper", none, "json", none, "en"⟩

def naming (modelNames : List String) : EndpointInfo :=
  ⟨"http://10.0.0.1:8000", modelNames, "e", 0, none, false, none, none, none, []⟩

/-- Two endpoints serve the model, one of them among others, and a third does not. -/
def threeEndpoints : List EndpointInfo :=
  [naming ["llama", "whisper"], { naming ["llama"] with url := "http://10.0.0.2:8000" },
    { naming ["whisper"] with url := "http://10.0.0.3:8000" }]

def transcribed (endpoints : List EndpointInfo) (router : Router (List String) Unit Unit) : Outcome :=
  (routeGeneralTranscriptions id .ok "/v1/audio/transcriptions" 0 endpoints router whisperForm).1

theorem transcriptions_routed_fresh :
    readForm .ok whisperForm = .ok whisperParams ∧
      RoutedLikeGeneral none "/v1/audio/transcriptions" "whisper" threeEndpoints
        (transcribed threeEndpoints (.roundRobin RoundRobin.init)) := by
  have hform : readForm .ok whisperForm = .ok whisperParams := rfl
  refine ⟨hform, (transcriptions_routed_iff none .ok _ 0 id _ _ hform).mpr ⟨?_, .inr ⟨_, rfl, .inl ?_⟩⟩⟩
  · decide
  · decide

/-- A session router cannot be called as the handler calls it, a model that is only an alias has no backend, and an
endpoint that names the model twice is offered twice. -/
theorem transcriptions_misrouted :
    (transcriptionEndpoints "whisper" [naming ["whisper"]] = [naming ["whisper"]] ∧
      transcribed [naming ["whisper"]] (.session ()) = .raised .typeError ∧
      ¬ RoutedLikeGeneral none "/v1/audio/transcriptions" "whisper" [naming ["whisper"]]
        (transcribed [naming ["whisper"]] (.session ()))) ∧
    (generalEndpoints (some (Dict.empty.set "whisper" "whisper-large")) "whisper" [naming ["whisper-large"]] =
        [naming ["whisper-large"]] ∧
      transcribed [naming ["whisper-large"]] (.roundRobin RoundRobin.init) =
        .answered 404 "No transcription backend for model whisper") ∧
    generalEndpoints none "whisper" [naming ["whisper", "whisper"]] = [naming ["whisper", "whisper"]] ∧
      transcriptionEndpoints "whisper" [naming ["whisper", "whisper"]] =
        [naming ["whisper", "whisper"], naming ["whisper", "whisper"]] := by
  have hsession : transcribed [naming ["whisper"]] (.session ()) = .raised .typeError := rfl
  refine ⟨⟨by decide, hsession, ?_⟩, ⟨by decide, rfl⟩, by decide, by decide⟩
  rintro ⟨-, hserved⟩
  obtain ⟨e, -, sent, hsent, -⟩ := hserved (by decide)
  rw [hsession] at hsent
  cases hsent

end Routing

end ProductionStack.Transcriptions
