import Mathlib.Data.Finset.Max
import ProductionStack.Endpoint
import ProductionStack.Hashtrie
import ProductionStack.Json
import ProductionStack.Runs

namespace ProductionStack.PrefixAware

open Runs Hashtrie

variable {H : Type} [DecidableEq H]

def join (sep : String) (parts : List Json) : Except Exc String :=
  match parts.mapM Json.asStr with
  | some texts => .ok (sep.intercalate texts)
  | none => .error .typeError

def textParts : List Json → Except Exc (List Json)
  | [] => .ok []
  | .obj fields :: rest => do
      let texts ← textParts rest
      if Json.isText (fields.lookup "type") then return (fields.lookup "text").getD (.str "") :: texts
      else return texts
  | _ :: _ => .error .attributeError

def messageParts : Json → Except Exc (List Json)
  | .obj fields =>
    match (fields.lookup "content").getD (.str "") with
    | .arr parts => do return [.str (← join " " (← textParts parts))]
    | .null => .ok []
    | content => .ok [content]
  | _ => .error .attributeError

def promptParts : List Json → Except Exc (List Json)
  | [] => .ok []
  | message :: rest => do return (← messageParts message) ++ (← promptParts rest)

/-- The prompt of a request body; that of a completion may be any JSON value. -/
def extractPrompt (requestJson : List (String × Json)) : Except Exc Json :=
  match requestJson.lookup "messages" with
  | some messages =>
    if messages.truthy then
      match messages with
      | .arr items => do return .str (← join "\n" (← promptParts items))
      | .str _ | .obj _ => .error .attributeError
      | _ => .error .typeError
    else .ok (.str "")
  | none =>
    match requestJson.lookup "prompt" with
    | some prompt => .ok prompt
    | none => .error (.keyError "prompt")

/-- What the trie makes of a prompt: only strings can be sliced and hashed,
while an empty list or object has no chunk to hash and acts as an empty string. -/
def asRequest : Json → Except Exc String
  | .str s => .ok s
  | .arr [] | .obj [] => .ok ""
  -- a slice is hashable, so a dict is asked for it as a key
  | .obj (_ :: _) => .error (.keyError "slice(0, 128, None)")
  | _ => .error .typeError

/-- The outcome of random.choice on the list of any non-empty set. -/
structure RandomChoice where
  pick : Finset String → String
  pick_mem : ∀ s, s.Nonempty → pick s ∈ s

structure Call where
  endpoints : List EndpointInfo
  requestJson : List (String × Json)
  random : RandomChoice

def Call.request (call : Call) : Except Exc String := extractPrompt call.requestJson >>= asRequest

def Call.available (call : Call) : Finset String := (urls call.endpoints).toFinset

def routeRequest (chunkHash : String → H) : Component (HashTrie H) Call (Except Exc String) := fun t call =>
  match call.request with
  | .error e => (.error e, t)
  | .ok request =>
    let matched := (t.longestPrefixMatch chunkHash request call.available).2
    if matched = ∅ then (.error .indexError, t)
    else (.ok (call.random.pick matched), t.insert chunkHash request (call.random.pick matched))

def init : HashTrie H := {}

def IsTextPart : Json → Prop
  | .obj fields => Json.isText (fields.lookup "type") → ((fields.lookup "text").getD (.str "")).asStr.isSome
  | _ => False

def IsTextContent : Json → Prop
  | .str _ | .null => True
  | .arr parts => ∀ part ∈ parts, IsTextPart part
  | _ => False

def IsTextMessage : Json → Prop
  | .obj fields => ∀ content, fields.lookup "content" = some content → IsTextContent content
  | _ => False

/-- The body has a list of messages whose contents are texts, or messages that
are false, or no messages and a prompt that is a text or an empty list or object. -/
def HasTextPrompt (requestJson : List (String × Json)) : Prop :=
  match requestJson.lookup "messages" with
  | some (.arr messages) => ∀ message ∈ messages, IsTextMessage message
  | some messages => messages.truthy = false
  | none => ∃ prompt, requestJson.lookup "prompt" = some prompt ∧
      (prompt.asStr.isSome ∨ prompt = .arr [] ∨ prompt = .obj [])

def Call.firstChunk (chunkHash : String → H) (chunkSize : ℕ+) (call : Call) : Option H :=
  match call.request with
  | .ok request => (chunkAndHash chunkHash chunkSize request).head?
  | .error _ => none

/-- The parts of a prompt were collected, and all of them are texts. -/
def AllTexts (parts : Except Exc (List Json)) : Prop :=
  ∃ texts, parts = .ok texts ∧ ∀ text ∈ texts, text.asStr.isSome

theorem join_ok (sep : String) (parts : List Json) :
    (∃ text, join sep parts = .ok text) ↔ ∀ part ∈ parts, part.asStr.isSome := by
  have hsome : (parts.mapM Json.asStr).isSome ↔ ∀ part ∈ parts, part.asStr.isSome := by
    induction parts with
    | nil => simp
    | cons part rest ih =>
      rw [List.forall_mem_cons, ← ih, List.mapM_cons]
      cases part.asStr <;> cases rest.mapM Json.asStr <;> simp
  rw [← hsome, join]
  cases parts.mapM Json.asStr <;> simp

theorem allTexts_iff_join (sep : String) (parts : Except Exc (List Json)) :
    AllTexts parts ↔ ∃ texts, parts = .ok texts ∧ ∃ text, join sep texts = .ok text := by
  simp only [AllTexts, join_ok]

theorem allTexts_textParts (parts : List Json) : AllTexts (textParts parts) ↔ ∀ part ∈ parts, IsTextPart part := by
  induction parts with
  | nil => simp [AllTexts, textParts]
  | cons part rest ih =>
    rw [List.forall_mem_cons, ← ih]
    cases part with
    | obj fields =>
      by_cases htext : Json.isText (fields.lookup "type") = true
      · simp [AllTexts, textParts, IsTextPart, bind_eq_ok, htext, pure, Except.pure]
        grind
      · simp [AllTexts, textParts, IsTextPart, bind_eq_ok, htext, pure, Except.pure]
    | _ => simp [AllTexts, textParts, IsTextPart]

theorem allTexts_messageParts (message : Json) : AllTexts (messageParts message) ↔ IsTextMessage message := by
  cases message with
  | obj fields =>
    rw [messageParts, IsTextMessage]
    cases hc : fields.lookup "content" with
    | none => simp [AllTexts, Json.asStr]
    | some content =>
      cases content with
      | arr parts =>
        simp only [Option.getD_some, Option.some.injEq, forall_eq', IsTextContent]
        rw [← allTexts_textParts, allTexts_iff_join " " (textParts parts)]
        simp [AllTexts, bind_eq_ok, pure, Except.pure, Json.asStr]
      | _ => simp [AllTexts, IsTextContent, Json.asStr]
  | _ => simp [AllTexts, messageParts, IsTextMessage]

theorem allTexts_promptParts (messages : List Json) :
    AllTexts (promptParts messages) ↔ ∀ message ∈ messages, IsTextMessage message := by
  induction messages with
  | nil => simp [AllTexts, promptParts]
  | cons message rest ih =>
    rw [List.forall_mem_cons, ← ih, ← allTexts_messageParts]
    simp only [AllTexts, promptParts, bind_eq_ok, pure, Except.pure, Except.ok.injEq]
    constructor
    · rintro ⟨_, ⟨a, ha, b, hb, rfl⟩, h⟩
      exact ⟨⟨a, ha, fun t ht => h t (List.mem_append_left b ht)⟩, b, hb, fun t ht => h t (List.mem_append_right a ht)⟩
    · rintro ⟨⟨a, ha, hta⟩, b, hb, htb⟩
      exact ⟨a ++ b, ⟨a, ha, b, hb, rfl⟩, fun t ht => (List.mem_append.mp ht).elim (hta t) (htb t)⟩

theorem asRequest_ok (prompt : Json) :
    (∃ request, asRequest prompt = .ok request) ↔ prompt.asStr.isSome ∨ prompt = .arr [] ∨ prompt = .obj [] := by
  fun_cases asRequest prompt <;> simp_all [Json.asStr]

theorem request_ok (call : Call) : (∃ request, call.request = .ok request) ↔ HasTextPrompt call.requestJson := by
  simp only [Call.request, bind_eq_ok]
  rw [exists_comm]
  simp only [exists_and_left]
  rw [extractPrompt, HasTextPrompt]
  cases hm : call.requestJson.lookup "messages" with
  | none => cases hp : call.requestJson.lookup "prompt" <;> simp [asRequest_ok]
  | some messages =>
    cases messages with
    | arr items =>
      dsimp only
      rw [← allTexts_promptParts, allTexts_iff_join "\n"]
      cases items with
      | nil => simp [Json.truthy, asRequest, promptParts, join_ok]
      | cons item rest => simp [Json.truthy, bind_eq_ok, pure, Except.pure, asRequest]
    | _ => grind [asRequest]

theorem available_nonempty {call : Call} (h : call.endpoints ≠ []) : call.available.Nonempty := by
  obtain ⟨e, he⟩ := List.exists_mem_of_ne_nil _ h
  exact ⟨e.url, by simpa [Call.available] using ⟨e, he, rfl⟩⟩

theorem routeRequest_cases (chunkHash : String → H) (t : HashTrie H) {call : Call} (h : call.endpoints ≠ []) :
    (∃ e, call.request = .error e ∧ routeRequest chunkHash t call = (.error e, t)) ∨
    ∃ request url, call.request = .ok request ∧
      url ∈ (t.longestPrefixMatch chunkHash request call.available).2 ∧
      routeRequest chunkHash t call = (.ok url, t.insert chunkHash request url) := by
  cases hr : call.request with
  | error e => exact .inl ⟨e, rfl, by simp only [routeRequest, hr]⟩
  | ok request =>
    have hne : (t.longestPrefixMatch chunkHash request call.available).2.Nonempty :=
      matchNode_nonempty _ _ _ _ (available_nonempty h)
    refine .inr ⟨request, _, rfl, call.random.pick_mem _ hne, ?_⟩
    simp only [routeRequest, hr, if_neg hne.ne_empty]

theorem endpointsAt_insert (chunkHash : String → H) (t : HashTrie H) (request url : String) (c : H) :
    endpointsAt (t.insert chunkHash request url).root [c] =
      if (chunkAndHash chunkHash t.chunkSize request).head? = some c then
        insert url (endpointsAt t.root [c])
      else endpointsAt t.root [c] := by
  have hhead : ∀ chunks : List H, [c] <+: chunks ↔ chunks.head? = some c := by
    intro chunks
    cases chunks <;> simp [eq_comm]
  rw [HashTrie.insert, endpointsAt_insertNode]
  simp only [hhead]

/-- The chunk size stays the default one, and the depth-1 node of c has these owners. -/
def Owned (c : H) (owners : Finset String) (t : HashTrie H) : Prop :=
  t.chunkSize = 128 ∧ endpointsAt t.root [c] = owners

omit [DecidableEq H] in
theorem firstChunk_eq {chunkHash : String → H} {chunkSize : ℕ+} {call : Call} {request : String}
    (h : call.request = .ok request) :
    call.firstChunk chunkHash chunkSize = (chunkAndHash chunkHash chunkSize request).head? := by
  simp only [Call.firstChunk, h]

theorem owned_other (chunkHash : String → H) {c : H} {owners : Finset String} (t : HashTrie H) (call : Call)
    (ht : Owned c owners t) (hcall : call.endpoints ≠ [] ∧ call.firstChunk chunkHash 128 ≠ some c) :
    Owned c owners (routeRequest chunkHash t call).2 := by
  rcases routeRequest_cases chunkHash t hcall.1 with ⟨e, -, heq⟩ | ⟨request, url, hr, -, heq⟩
  · rw [heq]
    exact ht
  · rw [firstChunk_eq hr, ← ht.1] at hcall
    rw [heq]
    exact ⟨ht.1, by rw [endpointsAt_insert, if_neg hcall.2, ht.2]⟩

theorem owned_first (chunkHash : String → H) {c : H} (t : HashTrie H) (call : Call) {e : String} (ht : Owned c ∅ t)
    (hne : call.endpoints ≠ []) (hc : call.firstChunk chunkHash 128 = some c)
    (hout : (routeRequest chunkHash t call).1 = .ok e) : Owned c {e} (routeRequest chunkHash t call).2 := by
  rcases routeRequest_cases chunkHash t hne with ⟨x, -, heq⟩ | ⟨request, url, hr, -, heq⟩
  · rw [heq] at hout
    cases hout
  · rw [heq] at hout ⊢
    cases hout
    rw [firstChunk_eq hr, ← ht.1] at hc
    exact ⟨ht.1, by rw [endpointsAt_insert, if_pos hc, ht.2, insert_empty_eq]⟩

theorem owned_later (chunkHash : String → H) {c : H} {e : String} (t : HashTrie H) (call : Call) (ht : Owned c {e} t)
    (hcall : call.endpoints ≠ [] ∧ (call.firstChunk chunkHash 128 = some c → e ∈ urls call.endpoints)) :
    (call.firstChunk chunkHash 128 = some c → (routeRequest chunkHash t call).1 = .ok e) ∧
      Owned c {e} (routeRequest chunkHash t call).2 := by
  by_cases hc : call.firstChunk chunkHash 128 = some c
  · rcases routeRequest_cases chunkHash t hcall.1 with ⟨x, hr, -⟩ | ⟨request, url, hr, hmem, heq⟩
    · simp [Call.firstChunk, hr] at hc
    · have havail : e ∈ call.available := by simpa [Call.available] using hcall.2 hc
      rw [firstChunk_eq hr, ← ht.1] at hc
      obtain ⟨chunks, hchunks⟩ : ∃ chunks, chunkAndHash chunkHash t.chunkSize request = c :: chunks :=
        List.head?_eq_some_iff.mp hc
      rw [HashTrie.longestPrefixMatch, hchunks, matchNode_sole_owner _ _ _ _ ht.2 havail,
        Finset.mem_singleton] at hmem
      subst hmem
      rw [heq]
      refine ⟨fun _ => rfl, ht.1, ?_⟩
      rw [endpointsAt_insert, if_pos hc, ht.2]
      simp
  · exact ⟨fun h => absurd h hc, owned_other chunkHash t call ht ⟨hcall.1, hc⟩⟩

theorem routes_own_endpoint (chunkHash : String → H) (t : HashTrie H) (call : Call) (hne : call.endpoints ≠ []) :
    (∃ url ∈ urls call.endpoints, (routeRequest chunkHash t call).1 = .ok url) ↔ HasTextPrompt call.requestJson := by
  rw [← request_ok]
  rcases routeRequest_cases chunkHash t hne with ⟨e, he, heq⟩ | ⟨request, url, hr, hmem, heq⟩
  · simp [he, heq]
  · have hsub : url ∈ call.available := matchNode_subset _ _ _ _ _ hmem
    exact ⟨fun _ => ⟨request, hr⟩, fun _ => ⟨url, by simpa [Call.available] using hsub, by rw [heq]⟩⟩

/-- Requests that share their first chunk follow the first of them as long as its endpoint
stays available, and a request goes to one of its endpoints exactly if it has a text prompt. -/
theorem prefix_affinity (chunkHash : String → H) (calls : List Call) (hne : ∀ call ∈ calls, call.endpoints ≠ []) :
    List.Forall₂ (fun call answer =>
        (∃ url ∈ urls call.endpoints, answer = .ok url) ↔ HasTextPrompt call.requestJson)
      calls (outputs (routeRequest chunkHash) init calls) ∧
    ∀ pre first post c e, calls = pre ++ first :: post →
      (∀ call ∈ pre, call.firstChunk chunkHash 128 ≠ some c) → first.firstChunk chunkHash 128 = some c →
      (outputs (routeRequest chunkHash) init calls)[pre.length]? = some (.ok e) →
      (∀ call ∈ post, call.firstChunk chunkHash 128 = some c → e ∈ urls call.endpoints) →
      List.Forall₂ (fun call answer => call.firstChunk chunkHash 128 = some c → answer = .ok e)
        post ((outputs (routeRequest chunkHash) init calls).drop (pre.length + 1)) := by
  constructor
  · have hall : Along (routeRequest chunkHash) (fun _ call => call.endpoints ≠ []) init calls :=
      along_of_forall_mem hne init
    exact outputs_forall₂ (I := fun _ => True)
      (fun t call _ h => ⟨routes_own_endpoint chunkHash t call h, trivial⟩) trivial hall
  · rintro pre first post c e rfl hpre hfirst hout hpost
    simp only [List.mem_append, List.mem_cons] at hne
    rw [outputs_getElem, Option.some.injEq] at hout
    rw [outputs_drop]
    have hbefore : Owned c ∅ (final (routeRequest chunkHash) init pre) :=
      final_invariant (owned_other chunkHash) ⟨rfl, endpointsAt_empty [c]⟩
        (along_of_forall_mem (fun call h => ⟨hne call (.inl h), hpre call h⟩) init)
    have hafter := owned_first chunkHash _ first hbefore (hne first (.inr (.inl rfl))) hfirst hout
    exact outputs_forall₂ (owned_later chunkHash) hafter
      (along_of_forall_mem (fun call h => ⟨hne call (.inr (.inr h)), hpost call h⟩) _)

def chooseLeast : RandomChoice where
  pick s := if h : s.Nonempty then s.min' h else ""
  pick_mem s h := by simpa [h] using s.min'_mem h

def completion (urls : List String) (prompt : String) : Call :=
  ⟨urls.map (fun url => ⟨url, ["llama"], url, 0, none, false, none, none, none, []⟩),
    [("prompt", .str prompt)], chooseLeast⟩

theorem prefix_affinity_after_scale_up :
    List.Forall₂ (fun (call : Call) answer =>
        call.firstChunk (fun chunk => chunk) 128 = some "hello" → answer = .ok "http://b:8000")
      [completion ["http://a:8000", "http://b:8000"] "hello"]
      ((outputs (routeRequest (fun chunk => chunk)) init
        [completion ["http://b:8000", "http://c:8000"] "hello",
          completion ["http://a:8000", "http://b:8000"] "hello"]).drop 1) :=
  (prefix_affinity (fun chunk => chunk) _ (by simp [completion])).2
    [] (completion ["http://b:8000", "http://c:8000"] "hello")
    [completion ["http://a:8000", "http://b:8000"] "hello"] "hello" "http://b:8000" rfl (by simp) rfl rfl
    (by simp [completion])

theorem list_prompt_not_routed :
    outputs (routeRequest (fun chunk => chunk)) init
      [⟨(completion ["http://a:8000"] "").endpoints, [("prompt", .arr [.str "hello", .str "world"])], chooseLeast⟩] =
    [.error .typeError] := rfl

end ProductionStack.PrefixAware
