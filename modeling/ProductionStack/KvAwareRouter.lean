import ProductionStack.SessionRouter

namespace ProductionStack.KvAwareRouter

open Runs ConsistentHash SessionRouter

variable {R Tok Point : Type} [LinearOrder Point]

section Urls

def firstPiece (sep : List Char) : List Char → List Char
  | [] => []
  | c :: cs => if sep.isPrefixOf (c :: cs) then [] else c :: firstPiece sep cs

def afterFirst (sep : List Char) : List Char → Option (List Char)
  | [] => none
  | c :: cs => if sep.isPrefixOf (c :: cs) then some ((c :: cs).drop sep.length) else afterFirst sep cs

def lastPiece (sep : Char) (cs : List Char) : List Char := (cs.reverse.takeWhile (fun c => c ≠ sep)).reverse

/-- The host of a URL: what is between its first "//" and its port. Without a port the text is cut
before its "//", and has no second piece. -/
def queryIp (url : String) : Except Exc String :=
  match afterFirst ['/', '/'] (firstPiece (':' :: lastPiece ':' url.toList) url.toList) with
  | none => .error .indexError
  | some rest => .ok (String.ofList (firstPiece ['/', '/'] rest))

theorem firstPiece_append {c : Char} {sep pre : List Char} (h : c ∉ pre) (rest : List Char) :
    firstPiece (c :: sep) (pre ++ rest) = pre ++ firstPiece (c :: sep) rest := by
  induction pre with
  | nil => rfl
  | cons d pre ih =>
    rw [List.mem_cons, not_or] at h
    rw [List.cons_append, firstPiece, if_neg, ih h.2, List.cons_append]
    simp [List.isPrefixOf, h.1]

theorem lastPiece_append {c : Char} {last : List Char} (h : c ∉ last) (pre : List Char) :
    lastPiece c (pre ++ c :: last) = last := by
  have hall : ∀ d ∈ last.reverse, decide (d ≠ c) = true := by
    intro d hd
    exact decide_eq_true (fun heq => h (heq ▸ List.mem_reverse.mp hd))
  rw [lastPiece, List.reverse_append, List.reverse_cons, List.append_assoc, List.takeWhile_append_of_pos hall]
  simp

theorem afterFirst_append {c : Char} {sep pre : List Char} (h : c ∉ pre) (rest : List Char) :
    afterFirst (c :: sep) (pre ++ rest) = afterFirst (c :: sep) rest := by
  induction pre with
  | nil => rfl
  | cons d ds ih =>
    rw [List.mem_cons, not_or] at h
    rw [List.cons_append, afterFirst, if_neg, ih h.2]
    simp [List.isPrefixOf, h.1]

theorem prefix_of_prefix_append {c : Char} {port a b : List Char} (h : c ∉ port) (hinitial : port <+: a ++ c :: b) :
    port <+: a := by
  have hlong : a ++ [c] <+: a ++ c :: b := by simp
  rcases List.prefix_or_prefix_of_prefix hinitial hlong with hshort | hlonger
  · rcases List.prefix_concat_iff.mp hshort with rfl | hshort
    · simp at h
    · exact hshort
  · exact absurd (hlonger.subset (by simp)) h

theorem firstPiece_pod {ip port : List Char} (h : ':' ∉ port) :
    firstPiece (':' :: port) (ip ++ ':' :: port) = ip ↔ ¬ ':' :: port <:+: ip := by
  induction ip with
  | nil => simp [firstPiece]
  | cons c ip ih =>
    have hiff : (':' :: port).isPrefixOf (c :: (ip ++ ':' :: port)) = true ↔ ':' :: port <+: c :: ip := by
      rw [List.isPrefixOf_iff_prefix, List.cons_prefix_cons, List.cons_prefix_cons]
      refine and_congr_right (fun _ => ⟨prefix_of_prefix_append h, fun hinitial => hinitial.trans (List.prefix_append _ _)⟩)
    rw [List.cons_append, firstPiece, List.infix_cons_iff]
    by_cases hfound : ':' :: port <+: c :: ip
    · rw [if_pos (hiff.mpr hfound)]
      simp [hfound]
    · rw [if_neg (fun hinitial => hfound (hiff.mp hinitial))]
      simp [hfound, ih]

theorem firstPiece_pod_subset {ip port : List Char} : firstPiece (':' :: port) (ip ++ ':' :: port) ⊆ ip := by
  induction ip with
  | nil => simp [firstPiece]
  | cons c ip ih =>
    rw [List.cons_append, firstPiece]
    split
    · exact List.nil_subset _
    · exact List.cons_subset_cons c ih

theorem queryIp_pod {ip port : List Char} (hip : '/' ∉ ip) (hport : ':' ∉ port) (hhead : port.head? ≠ some '/')
    (hne : port ≠ []) :
    queryIp (String.ofList ("http://".toList ++ ip ++ ':' :: port)) =
      .ok (String.ofList (firstPiece (':' :: port) (ip ++ ':' :: port))) := by
  have hlast : lastPiece ':' ("http://".toList ++ ip ++ ':' :: port) = port := lastPiece_append hport _
  have hmiss : ¬ (':' :: port).isPrefixOf (':' :: (['/', '/'] ++ (ip ++ ':' :: port))) = true := by
    cases port with
    | nil => exact absurd rfl hne
    | cons d port =>
      have hd : d ≠ '/' := fun heq => hhead (by rw [heq]; rfl)
      simp [List.isPrefixOf, hd]
  have hslashes : ':' ∉ ['/', '/'] := by decide
  have hscheme : ':' ∉ ['h', 't', 't', 'p'] := by decide
  have hcut : firstPiece (':' :: port) ("http://".toList ++ ip ++ ':' :: port) =
      ['h', 't', 't', 'p'] ++ ':' :: (['/', '/'] ++ firstPiece (':' :: port) (ip ++ ':' :: port)) := by
    have hurl : "http://".toList ++ ip ++ ':' :: port = ['h', 't', 't', 'p'] ++ ':' :: (['/', '/'] ++ (ip ++ ':' :: port)) := by
      simp
    rw [hurl, firstPiece_append hscheme, firstPiece, if_neg hmiss, firstPiece_append hslashes]
  have hwhole : firstPiece ['/', '/'] (firstPiece (':' :: port) (ip ++ ':' :: port)) =
      firstPiece (':' :: port) (ip ++ ':' :: port) := by
    have hsub : '/' ∉ firstPiece (':' :: port) (ip ++ ':' :: port) := fun hmem => hip (firstPiece_pod_subset hmem)
    have happend := @firstPiece_append '/' ['/'] _ hsub []
    rwa [List.append_nil, firstPiece, List.append_nil] at happend
  rw [queryIp, String.toList_ofList, hlast, hcut, afterFirst_append (by decide)]
  simp [afterFirst, List.isPrefixOf, hwhole]

theorem queryIp_of_host (host port : List Char) (hhost : ':' ∉ host) (hslash : '/' ∉ host) (hport : ':' ∉ port)
    (hpath : port.head? ≠ some '/') (hne : port ≠ []) :
    queryIp (String.ofList (['h', 't', 't', 'p'] ++ ':' :: (['/', '/'] ++ host ++ ':' :: port))) = .ok (String.ofList host) := by
  have hurl : ['h', 't', 't', 'p'] ++ ':' :: (['/', '/'] ++ host ++ ':' :: port) = "http://".toList ++ host ++ ':' :: port := by
    simp
  have hwhole : firstPiece (':' :: port) (host ++ ':' :: port) = host :=
    (firstPiece_pod hport).mpr (fun hwithin => hhost (hwithin.subset List.mem_cons_self))
  rw [hurl, queryIp_pod hslash hport hpath hne, hwhole]

end Urls

section Router

/-- The mapping that a lookup returns, from instances to a location and a number of tokens. -/
structure LookupRetMsg where
  layoutInfo : Dict String (String × Int)

/-- A call, with what the tokenizers and the controller reply to it. The queries of a call are
numbered in the order of its endpoints. -/
structure Call (Tok : Type) extends SessionRouter.Call where
  fromPretrained : String → Except Exc Tok
  encode : Tok → Json → Except Exc (List Int)
  remoteTokenize : String → String → Json → Except Exc (List Int)
  lookup : List Int → Option LookupRetMsg
  queryInst : Nat → String → String

structure KvawareRouter (R Tok : Type) where
  instanceIdToIp : Dict String String := .empty
  hashRing : R
  tokenizer : Option Tok := none

def init (ring : HashRing R) : KvawareRouter R Tok := { hashRing := ring.new }

structure Settings where
  sessionKey : Option String
  threshold : Int := 2000

def prompt (call : Call Tok) : Json := (call.requestJson.lookup "prompt").getD (.str "")

def firstEndpoint (call : Call Tok) : Except Exc EndpointInfo :=
  match call.endpoints with
  | [] => .error .indexError
  | e :: _ => .ok e

def firstModel (e : EndpointInfo) : Except Exc String :=
  match e.modelNames with
  | [] => .error .indexError
  | model :: _ => .ok model

def loadTokenizer (tokenizer : Option Tok) (call : Call Tok) : Except Exc Tok :=
  match tokenizer with
  | some tok => .ok tok
  | none => do
      let e ← firstEndpoint call
      let model ← firstModel e
      call.fromPretrained model

def remoteTokens (call : Call Tok) : Except Exc (List Int) := do
  let e ← firstEndpoint call
  let model ← firstModel e
  call.remoteTokenize (e.url ++ "/tokenize") model (prompt call)

def tokenize (tokenizer : Option Tok) (call : Call Tok) : Except Exc (List Int) × Option Tok :=
  match loadTokenizer tokenizer call with
  | .error _ => (remoteTokens call, tokenizer)
  | .ok tok =>
    match call.encode tok (prompt call) with
    | .error _ => (remoteTokens call, some tok)
    | .ok tokenIds => (.ok tokenIds, some tok)

def matchedInstance (threshold : Int) (tokenIds : List Int) (msg : LookupRetMsg) : Option String :=
  match msg.layoutInfo.entries with
  | [] => none
  | (inst, _, matchedTokens) :: _ =>
    if matchedTokens < max (tokenIds.length - threshold) 0 then none else some inst

def fallBack (ring : HashRing R) (sessionKey : Option String) (hashRing : R) (call : SessionRouter.Call) :
    Option String × R :=
  let hashRing := updateHashRing ring call.order hashRing call.endpoints
  match extractSessionId sessionKey call.headers call.requestJson with
  | none => (qpsRouting call.requestStats call.endpoints none none, hashRing)
  | some sessionId => (ring.getNode hashRing sessionId, hashRing)

/-- The loop over the endpoints. What was recorded before an exception stays recorded. -/
def queryInstances (queryInst : Nat → String → String) :
    Nat → List EndpointInfo → Dict String String → Except Exc Unit × Dict String String
  | _, [], instanceIdToIp => (.ok (), instanceIdToIp)
  | i, e :: endpoints, instanceIdToIp =>
    match queryIp e.url with
    | .error err => (.error err, instanceIdToIp)
    | .ok ip => queryInstances queryInst (i + 1) endpoints (instanceIdToIp.set (queryInst i ip) e.url)

inductive Answer
  | noTokens (e : Exc)
  | raised (e : Exc)
  | url (url : Option String)
  deriving DecidableEq, Repr

def resolve (instanceIdToIp : Dict String String) (inst : String) : Answer :=
  match instanceIdToIp.get? inst with
  | none => .raised (.keyError inst)
  | some url => .url (some url)

def routeInstance (call : Call Tok) (inst : String) (instanceIdToIp : Dict String String) : Answer × Dict String String :=
  if instanceIdToIp.contains inst then (resolve instanceIdToIp inst, instanceIdToIp)
  else
    match queryInstances call.queryInst 0 call.endpoints instanceIdToIp with
    | (.error e, instanceIdToIp) => (.raised e, instanceIdToIp)
    | (.ok _, instanceIdToIp) => (resolve instanceIdToIp inst, instanceIdToIp)

/-- The layout of the reply is read before the reply is compared with None. -/
def routeRequest (ring : HashRing R) (cfg : Settings) : Component (KvawareRouter R Tok) (Call Tok) Answer := fun r call =>
  match tokenize r.tokenizer call with
  | (.error e, tokenizer) => (.noTokens e, { r with tokenizer := tokenizer })
  | (.ok tokenIds, tokenizer) =>
    let r := { r with tokenizer := tokenizer }
    match call.lookup tokenIds with
    | none => (.raised .attributeError, r)
    | some msg =>
      match matchedInstance cfg.threshold tokenIds msg with
      | none =>
        let (url, hashRing) := fallBack ring cfg.sessionKey r.hashRing call.toCall
        (.url url, { r with hashRing := hashRing })
      | some inst =>
        let (answer, instanceIdToIp) := routeInstance call inst r.instanceIdToIp
        (answer, { r with instanceIdToIp := instanceIdToIp })

end Router

section Safety

def Safe (call : Call Tok) : Answer → Prop
  | .noTokens _ => True
  | .raised _ => False
  | .url url => ∃ u ∈ urls call.endpoints, url = some u

def instances (queryInst : Nat → String → String) : Nat → List EndpointInfo → List (String × String)
  | _, [] => []
  | i, e :: endpoints =>
    match queryIp e.url with
    | .error _ => instances queryInst (i + 1) endpoints
    | .ok ip => (queryInst i ip, e.url) :: instances queryInst (i + 1) endpoints

/-- All that has to be true of the replies to a call, and of the map that earlier calls have filled:
the lookup is answered; a matching instance that is known is known as a listed URL; and when it is not
known, every URL can be taken apart and some endpoint is said to be that instance. -/
def Answered (cfg : Settings) (r : KvawareRouter R Tok) (call : Call Tok) : Prop :=
  ∀ tokenIds, (tokenize r.tokenizer call).1 = .ok tokenIds → ∃ msg, call.lookup tokenIds = some msg ∧
    ∀ inst, matchedInstance cfg.threshold tokenIds msg = some inst →
      (∀ url, r.instanceIdToIp.get? inst = some url → url ∈ urls call.endpoints) ∧
      (r.instanceIdToIp.get? inst = none → (∀ e ∈ call.endpoints, ∃ ip, queryIp e.url = .ok ip) ∧
        inst ∈ (instances call.queryInst 0 call.endpoints).map Prod.fst)

variable {endpoints : List EndpointInfo} {inst url : String}

theorem mem_instances {queryInst : Nat → String → String} {i : Nat}
    (h : (inst, url) ∈ instances queryInst i endpoints) : url ∈ urls endpoints := by
  induction endpoints generalizing i with
  | nil => cases h
  | cons e endpoints ih =>
    rw [instances] at h
    rw [urls, List.map_cons, List.mem_cons]
    split at h
    · exact .inr (ih h)
    · rcases List.mem_cons.mp h with heq | hrest
      · exact .inl (Prod.mk.inj heq).2
      · exact .inr (ih hrest)

theorem queryInstances_ok (queryInst : Nat → String → String) (i : Nat)
    (h : ∀ e ∈ endpoints, ∃ ip, queryIp e.url = .ok ip) (instanceIdToIp : Dict String String) :
    queryInstances queryInst i endpoints instanceIdToIp =
      (.ok (), (instances queryInst i endpoints).foldl (fun m e => m.set e.1 e.2) instanceIdToIp) := by
  induction endpoints generalizing i instanceIdToIp with
  | nil => rfl
  | cons e endpoints ih =>
    obtain ⟨ip, hip⟩ := h e List.mem_cons_self
    rw [queryInstances, instances, hip]
    exact ih (i + 1) (fun e he => h e (List.mem_cons_of_mem _ he)) _

theorem queryInstances_error (queryInst : Nat → String → String) (i : Nat)
    (h : ¬∀ e ∈ endpoints, ∃ ip, queryIp e.url = .ok ip) (instanceIdToIp : Dict String String) :
    ∃ err, (queryInstances queryInst i endpoints instanceIdToIp).1 = .error err := by
  induction endpoints generalizing i instanceIdToIp with
  | nil => exact absurd (fun e he => nomatch he) h
  | cons e endpoints ih =>
    rw [queryInstances]
    cases hip : queryIp e.url with
    | error err => exact ⟨err, rfl⟩
    | ok ip =>
      refine ih (i + 1) (fun hrest => h ?_) _
      intro e' he'
      rcases List.mem_cons.mp he' with rfl | hmem
      · exact ⟨ip, hip⟩
      · exact hrest e' hmem

theorem resolve_safe_iff {call : Call Tok} {instanceIdToIp : Dict String String} {inst : String} :
    Safe call (resolve instanceIdToIp inst) ↔ ∃ url ∈ urls call.endpoints, instanceIdToIp.get? inst = some url := by
  rw [resolve]
  cases instanceIdToIp.get? inst with
  | none => simp [Safe]
  | some url => simp [Safe]

theorem routeInstance_safe_iff (call : Call Tok) (inst : String) (instanceIdToIp : Dict String String) :
    Safe call (routeInstance call inst instanceIdToIp).1 ↔
      (∀ url, instanceIdToIp.get? inst = some url → url ∈ urls call.endpoints) ∧
      (instanceIdToIp.get? inst = none → (∀ e ∈ call.endpoints, ∃ ip, queryIp e.url = .ok ip) ∧
        inst ∈ (instances call.queryInst 0 call.endpoints).map Prod.fst) := by
  rw [routeInstance, Dict.contains]
  cases hget : instanceIdToIp.get? inst with
  | some url => simp [resolve_safe_iff, hget]
  | none =>
    rw [Option.isSome_none, if_neg Bool.false_ne_true]
    by_cases hparse : ∀ e ∈ call.endpoints, ∃ ip, queryIp e.url = .ok ip
    · rw [queryInstances_ok call.queryInst 0 hparse]
      dsimp only
      rw [resolve_safe_iff]
      constructor
      · rintro ⟨url, -, hurl⟩
        refine ⟨fun _ hnone => absurd hnone (Option.some_ne_none _).symm, fun _ => ⟨hparse, ?_⟩⟩
        by_contra hmem
        rw [Dict.get?_foldl_set_of_notMem _ _ hmem, hget] at hurl
        cases hurl
      · rintro ⟨-, h⟩
        obtain ⟨url, hurl, hknown⟩ := Dict.get?_foldl_set_of_mem _ instanceIdToIp (h rfl).2
        exact ⟨url, mem_instances hurl, hknown⟩
    · obtain ⟨err, herr⟩ := queryInstances_error call.queryInst 0 hparse instanceIdToIp
      refine ⟨fun h => ?_, fun h => absurd (h.2 rfl).1 hparse⟩
      split at h
      · exact h.elim
      next heq =>
        rw [heq] at herr
        cases herr

variable {ring : HashRing R} {P : Placement String Point} {hashi : Json → Point}

theorem fallBack_own_endpoint (hlaw : ring.Lawful P hashi) (sessionKey : Option String) (r : R) {call : SessionRouter.Call}
    (hne : call.endpoints ≠ []) : ∃ url ∈ urls call.endpoints, (fallBack ring sessionKey r call).1 = some url := by
  cases hsid : extractSessionId sessionKey call.headers call.requestJson with
  | none =>
    obtain ⟨url, hmem, heq⟩ := qpsRouting_own call.requestStats hne
    exact ⟨url, hmem, by simp only [fallBack, hsid, heq]⟩
  | some sid =>
    obtain ⟨url, hget, howner⟩ := getNode_updateHashRing hlaw call.order r hne sid
    exact ⟨url, List.mem_toFinset.mp howner.1, by simp only [fallBack, hsid, hget]⟩

theorem routeRequest_safe_iff (hlaw : ring.Lawful P hashi) (cfg : Settings) (r : KvawareRouter R Tok) {call : Call Tok}
    (hne : call.endpoints ≠ []) : Safe call (routeRequest ring cfg r call).1 ↔ Answered cfg r call := by
  rw [routeRequest, Answered]
  rcases tokenize r.tokenizer call with ⟨tokens, tokenizer⟩
  cases tokens with
  | error e =>
    refine ⟨fun _ _ h => ?_, fun _ => trivial⟩
    cases h
  | ok tokenIds =>
    simp only [Except.ok.injEq, forall_eq']
    cases hlookup : call.lookup tokenIds with
    | none => simp [Safe]
    | some msg =>
      simp only [Option.some.injEq, exists_eq_left']
      cases hmatched : matchedInstance cfg.threshold tokenIds msg with
      | none =>
        obtain ⟨url, hurl, hanswer⟩ := fallBack_own_endpoint hlaw cfg.sessionKey r.hashRing hne
        refine ⟨fun _ _ h => ?_, fun _ => ⟨url, hurl, hanswer⟩⟩
        cases h
      | some inst =>
        simp only [Option.some.injEq, forall_eq']
        exact routeInstance_safe_iff call inst r.instanceIdToIp

/-- A history is answered with URLs of the calls' own lists, and without exceptions, exactly when each
of its calls finds the replies and the map as they have to be. -/
theorem kv_routing_safe_iff (hlaw : ring.Lawful P hashi) (cfg : Settings) (calls : List (Call Tok))
    (hne : ∀ call ∈ calls, call.endpoints ≠ []) :
    List.Forall₂ Safe calls (outputs (routeRequest ring cfg) (init ring) calls) ↔
      Along (routeRequest ring cfg) (Answered cfg) (init ring) calls := by
  have hstep : ∀ r : KvawareRouter R Tok, ∀ call ∈ calls,
      Safe call (routeRequest ring cfg r call).1 ↔ Answered cfg r call :=
    fun r call hcall => routeRequest_safe_iff hlaw cfg r (hne call hcall)
  exact outputs_forall₂_iff hstep _

def promptCall (urls : List String) (lookup : Option LookupRetMsg) (inst : String) : Call Unit where
  toCall := { sessionCall urls "s" with headers := fun _ => none }
  fromPretrained _ := .ok ()
  encode _ _ := .ok [1, 2]
  remoteTokenize _ _ _ := .error .connectionError
  lookup _ := lookup
  queryInst _ _ := inst

def foundOn (inst : String) : Option LookupRetMsg := some ⟨.ofList [(inst, "LocalCPUBackend", 2)]⟩

def defaults : Settings := { sessionKey := some "x-user-id" }

theorem first_instance_routed :
    List.Forall₂ Safe [promptCall ["http://10.0.0.1:8000"] (foundOn "engine-0") "engine-0"]
      (outputs (routeRequest nameRing defaults) (init nameRing)
        [promptCall ["http://10.0.0.1:8000"] (foundOn "engine-0") "engine-0"]) := by
  refine (kv_routing_safe_iff nameRing_lawful defaults _ (by decide)).mpr ⟨?_, trivial⟩
  intro tokenIds htokens
  cases htokens
  refine ⟨_, rfl, fun inst hinst => ?_⟩
  obtain rfl : "engine-0" = inst := Option.some.inj hinst
  refine ⟨nofun, fun _ => ⟨fun e he => ?_, by decide⟩⟩
  obtain rfl := List.mem_singleton.mp he
  exact ⟨"10.0.0.1", queryIp_of_host "10.0.0.1".toList "8000".toList (by decide) (by decide) (by decide) (by decide) (by decide)⟩

/-- No reply to the lookup; an instance that is no longer where it was; one that no endpoint is said to
be; and a URL without a port. -/
theorem kv_routing_unsafe :
    outputs (routeRequest nameRing defaults) (init nameRing) [promptCall ["http://10.0.0.1:8000"] none "engine-0"] =
      [.raised .attributeError] ∧
    outputs (routeRequest nameRing defaults) (init nameRing)
        [promptCall ["http://10.0.0.1:8000"] (foundOn "engine-0") "engine-0",
          promptCall ["http://10.0.0.2:8000"] (foundOn "engine-0") "engine-0"] =
      [.url (some "http://10.0.0.1:8000"), .url (some "http://10.0.0.1:8000")] ∧
    outputs (routeRequest nameRing defaults) (init nameRing)
        [promptCall ["http://10.0.0.1:8000"] (foundOn "engine-0") "engine-1"] = [.raised (.keyError "engine-0")] ∧
    outputs (routeRequest nameRing defaults) (init nameRing)
        [promptCall ["http://engine"] (foundOn "engine-0") "engine-0"] = [.raised .indexError] := by
  decide

end Safety

end ProductionStack.KvAwareRouter
