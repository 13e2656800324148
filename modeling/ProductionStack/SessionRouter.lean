import Mathlib.Data.Finset.Sort
import Mathlib.Data.String.Basic
import ProductionStack.ConsistentHash
import ProductionStack.Endpoint
import ProductionStack.Json
import ProductionStack.Runs
import ProductionStack.StatsMonitor

namespace ProductionStack.SessionRouter

open Runs ConsistentHash StatsMonitor

variable {R Point : Type} [LinearOrder Point]

structure HashRing (R : Type) where
  new : R
  addNode : R → String → R
  removeNode : R → String → R
  getNodes : R → Finset String
  getNode : R → Json → Option String

/-- Nodes come and go as in a set, and a key belongs to the owner of the first
point at or after its hash. -/
structure HashRing.Lawful (ring : HashRing R) (P : Placement String Point) (hashi : Json → Point) : Prop where
  getNodes_new : ring.getNodes ring.new = ∅
  getNodes_addNode : ∀ r n, ring.getNodes (ring.addNode r n) = insert n (ring.getNodes r)
  getNodes_removeNode : ∀ r n, ring.getNodes (ring.removeNode r n) = (ring.getNodes r).erase n
  getNode_owner : ∀ r key, (ring.getNodes r).Nonempty →
    ∃ n, ring.getNode r key = some n ∧ FirstOwner P (ring.getNodes r) (hashi key) n

/-- The order in which a loop visits the elements of a set. -/
structure SetOrder where
  visit : Finset String → List String
  mem_visit : ∀ s x, x ∈ visit s ↔ x ∈ s

structure Call where
  endpoints : List EndpointInfo
  requestStats : Dict String RequestStats
  headers : String → Option String
  requestJson : List (String × Json)
  order : SetOrder

/-- The lowest rate starts at infinity, here none. An engine without any
statistics is taken at once. -/
def qpsRouting (requestStats : Dict String RequestStats) :
    List EndpointInfo → Option ℚ → Option String → Option String
  | [], _, ret => ret
  | info :: rest, lowestQps, ret =>
    match requestStats.get? info.url with
    | none => some info.url
    | some stat =>
      if lowestQps.all (fun lowest => stat.qps < lowest) then
        qpsRouting requestStats rest (some stat.qps) (some info.url)
      else qpsRouting requestStats rest lowestQps ret

def updateHashRing (ring : HashRing R) (order : SetOrder) (hashRing : R) (endpoints : List EndpointInfo) : R :=
  let currentNodes := ring.getNodes hashRing
  let newNodes := (urls endpoints).toFinset
  let hashRing := (order.visit (currentNodes \ newNodes)).foldl ring.removeNode hashRing
  (order.visit (newNodes \ currentNodes)).foldl ring.addNode hashRing

def extractSessionId (sessionKey : Option String) (headers : String → Option String)
    (requestJson : List (String × Json)) : Option Json :=
  match sessionKey with
  | none => none
  | some key =>
    match headers key with
    | some val => some (.str val)
    | none =>
      match requestJson.lookup key with
      | none | some .null => none
      | some val => some val

def Call.sessionId (sessionKey : String) (call : Call) : Option Json :=
  extractSessionId (some sessionKey) call.headers call.requestJson

def routeRequest (ring : HashRing R) (sessionKey : String) : Component R Call (Option String) :=
  fun hashRing call =>
    let hashRing := updateHashRing ring call.order hashRing call.endpoints
    match call.sessionId sessionKey with
    | none => (qpsRouting call.requestStats call.endpoints none none, hashRing)
    | some sessionId => (ring.getNode hashRing sessionId, hashRing)

theorem qpsRouting_mem (requestStats : Dict String RequestStats) (endpoints : List EndpointInfo) (lowestQps : Option ℚ)
    (ret : Option String) (hret : endpoints ≠ [] ∧ lowestQps = none ∨ ret.isSome) :
    ∃ url, qpsRouting requestStats endpoints lowestQps ret = some url ∧
      (url ∈ urls endpoints ∨ ret = some url) := by
  induction endpoints generalizing lowestQps ret with
  | nil =>
    obtain ⟨url, hurl⟩ : ∃ url, ret = some url := by
      rcases hret with ⟨h, -⟩ | h
      · exact absurd rfl h
      · exact Option.isSome_iff_exists.mp h
    exact ⟨url, by simp [qpsRouting, hurl], .inr hurl⟩
  | cons info rest ih =>
    rw [qpsRouting]
    cases requestStats.get? info.url with
    | none => exact ⟨info.url, rfl, .inl (by simp)⟩
    | some stat =>
      dsimp only
      split
      · obtain ⟨url, heq, hmem⟩ := ih (some stat.qps) (some info.url) (.inr rfl)
        refine ⟨url, heq, .inl ?_⟩
        rcases hmem with hmem | hmem
        · obtain ⟨e, he, hurl⟩ := mem_urls.mp hmem
          exact mem_urls.mpr ⟨e, List.mem_cons_of_mem _ he, hurl⟩
        · exact mem_urls.mpr ⟨info, List.mem_cons_self, Option.some.inj hmem⟩
      next hlow =>
        have hsome : ret.isSome := by
          rcases hret with ⟨-, h⟩ | h
          · simp [h] at hlow
          · exact h
        obtain ⟨url, heq, hmem⟩ := ih lowestQps ret (.inr hsome)
        refine ⟨url, heq, ?_⟩
        rcases hmem with hmem | hmem
        · obtain ⟨e, he, hurl⟩ := mem_urls.mp hmem
          exact .inl (mem_urls.mpr ⟨e, List.mem_cons_of_mem _ he, hurl⟩)
        · exact .inr hmem

theorem qpsRouting_own (requestStats : Dict String RequestStats) {endpoints : List EndpointInfo} (hne : endpoints ≠ []) :
    ∃ url ∈ urls endpoints, qpsRouting requestStats endpoints none none = some url := by
  obtain ⟨url, heq, hmem⟩ := qpsRouting_mem requestStats endpoints none none (.inl ⟨hne, rfl⟩)
  exact ⟨url, hmem.resolve_right nofun, heq⟩

variable {ring : HashRing R} {P : Placement String Point} {hashi : Json → Point}

theorem getNodes_foldl_removeNode (hlaw : ring.Lawful P hashi) (nodes : List String) (r : R) :
    ring.getNodes (nodes.foldl ring.removeNode r) = ring.getNodes r \ nodes.toFinset := by
  induction nodes generalizing r with
  | nil => simp
  | cons n nodes ih =>
    rw [List.foldl_cons, ih, hlaw.getNodes_removeNode, List.toFinset_cons]
    ext x
    simp only [Finset.mem_sdiff, Finset.mem_erase, Finset.mem_insert, List.mem_toFinset]
    tauto

theorem getNodes_foldl_addNode (hlaw : ring.Lawful P hashi) (nodes : List String) (r : R) :
    ring.getNodes (nodes.foldl ring.addNode r) = ring.getNodes r ∪ nodes.toFinset := by
  induction nodes generalizing r with
  | nil => simp
  | cons n nodes ih =>
    rw [List.foldl_cons, ih, hlaw.getNodes_addNode, List.toFinset_cons]
    ext x
    simp only [Finset.mem_union, Finset.mem_insert, List.mem_toFinset]
    tauto

theorem visit_toFinset (order : SetOrder) (s : Finset String) : (order.visit s).toFinset = s := by
  ext x
  simp [order.mem_visit]

/-- Whatever the ring held and in whatever order the two loops run, it ends up
with the nodes of the current list. -/
theorem getNodes_updateHashRing (hlaw : ring.Lawful P hashi) (order : SetOrder) (r : R) (endpoints : List EndpointInfo) :
    ring.getNodes (updateHashRing ring order r endpoints) = (urls endpoints).toFinset := by
  rw [updateHashRing, getNodes_foldl_addNode hlaw, getNodes_foldl_removeNode hlaw,
    visit_toFinset, visit_toFinset]
  ext x
  simp only [Finset.mem_union, Finset.mem_sdiff]
  tauto

theorem getNodes_routeRequest (hlaw : ring.Lawful P hashi) (sessionKey : String) (r : R) (call : Call) :
    ring.getNodes (routeRequest ring sessionKey r call).2 = (urls call.endpoints).toFinset := by
  rw [routeRequest]
  cases call.sessionId sessionKey <;> exact getNodes_updateHashRing hlaw call.order r call.endpoints

theorem getNode_updateHashRing (hlaw : ring.Lawful P hashi) (order : SetOrder) (r : R) {endpoints : List EndpointInfo}
    (hne : endpoints ≠ []) (sid : Json) :
    ∃ url, ring.getNode (updateHashRing ring order r endpoints) sid = some url ∧
      FirstOwner P (urls endpoints).toFinset (hashi sid) url := by
  have hnodes := getNodes_updateHashRing hlaw order r endpoints
  have hnonempty : (ring.getNodes (updateHashRing ring order r endpoints)).Nonempty := by
    rw [hnodes, List.toFinset_nonempty_iff]
    simpa using hne
  obtain ⟨url, hget, howner⟩ := hlaw.getNode_owner _ sid hnonempty
  rw [hnodes] at howner
  exact ⟨url, hget, howner⟩

theorem routeRequest_session (hlaw : ring.Lawful P hashi) {sessionKey : String} (r : R) {call : Call}
    (hne : call.endpoints ≠ []) {sid : Json} (hsid : call.sessionId sessionKey = some sid) :
    ∃ url, (routeRequest ring sessionKey r call).1 = some url ∧
      FirstOwner P (urls call.endpoints).toFinset (hashi sid) url := by
  obtain ⟨url, hget, howner⟩ := getNode_updateHashRing hlaw call.order r hne sid
  exact ⟨url, by simp only [routeRequest, hsid, hget], howner⟩

theorem routeRequest_own_endpoint (hlaw : ring.Lawful P hashi) (sessionKey : String) (r : R) {call : Call}
    (hne : call.endpoints ≠ []) : ∃ url ∈ urls call.endpoints, (routeRequest ring sessionKey r call).1 = some url := by
  cases hsid : call.sessionId sessionKey with
  | none =>
    obtain ⟨url, hmem, heq⟩ := qpsRouting_own call.requestStats hne
    exact ⟨url, hmem, by simp only [routeRequest, hsid, heq]⟩
  | some sid =>
    obtain ⟨url, heq, howner⟩ := routeRequest_session hlaw r hne hsid
    exact ⟨url, List.mem_toFinset.mp howner.1, heq⟩

def after (ring : HashRing R) (sessionKey : String) (history : List Call) (call : Call) : Option String × R :=
  routeRequest ring sessionKey (final (routeRequest ring sessionKey) ring.new history) call

/-- After every call of every history the ring has exactly the nodes of that
call's list and the answer is one of them. Two calls of the same session, of
any histories, whose answers are available to both have the same answer, so
that in particular the endpoint set and the session determine it. -/
theorem session_routing (hlaw : ring.Lawful P hashi) (sessionKey : String) (history : List Call) (call : Call)
    (hne : call.endpoints ≠ []) :
    ring.getNodes (after ring sessionKey history call).2 = (urls call.endpoints).toFinset ∧
      (∃ url ∈ urls call.endpoints, (after ring sessionKey history call).1 = some url) ∧
      ∀ history' call' sid, call'.endpoints ≠ [] → call.sessionId sessionKey = some sid →
        call'.sessionId sessionKey = some sid → ∀ url url',
        (after ring sessionKey history call).1 = some url →
        (after ring sessionKey history' call').1 = some url' →
          ((urls call.endpoints).toFinset = (urls call'.endpoints).toFinset → url = url') ∧
          (url ∈ urls call'.endpoints → url' ∈ urls call.endpoints → url = url') := by
  refine ⟨getNodes_routeRequest hlaw sessionKey _ call, routeRequest_own_endpoint hlaw sessionKey _ hne, ?_⟩
  intro history' call' sid hne' hsid hsid' url url' hurl hurl'
  obtain ⟨u, hu, howner⟩ := routeRequest_session hlaw
    (final (routeRequest ring sessionKey) ring.new history) hne hsid
  obtain ⟨u', hu', howner'⟩ := routeRequest_session hlaw
    (final (routeRequest ring sessionKey) ring.new history') hne' hsid'
  obtain rfl : u = url := Option.some.inj (hu.symm.trans hurl)
  obtain rfl : u' = url' := Option.some.inj (hu'.symm.trans hurl')
  constructor
  · intro hset
    rw [← hset] at howner'
    exact firstOwner_unique howner howner'
  · intro h h'
    exact firstOwner_mutual howner howner' (List.mem_toFinset.mpr h) (List.mem_toFinset.mpr h')

def nameOf : Json → String
  | .str s => s
  | _ => ""

def nameRing : HashRing (Finset String) where
  new := ∅
  addNode nodes n := insert n nodes
  removeNode nodes n := nodes.erase n
  getNodes nodes := nodes
  getNode nodes key :=
    if h : nodes.Nonempty then
      some (ofLex ((nodes.image (rank (nameOf key))).min' (h.image _))).2
    else none

def namePlacement : Placement String String where
  points n := {n}
  nonempty n := Finset.singleton_nonempty n
  owner_unique _ _ _ hm hn := (Finset.mem_singleton.mp hm).symm.trans (Finset.mem_singleton.mp hn)

theorem nameRing_lawful : nameRing.Lawful namePlacement nameOf where
  getNodes_new := rfl
  getNodes_addNode _ _ := rfl
  getNodes_removeNode _ _ := rfl
  getNode_owner nodes key hne := by
    have hmin := Finset.min'_mem (nodes.image (rank (nameOf key))) (hne.image _)
    obtain ⟨n, hn, hrank⟩ := Finset.mem_image.mp hmin
    refine ⟨n, ?_, hn, n, Finset.mem_singleton_self n, ?_⟩
    · have hne' : nodes.Nonempty := hne
      simp only [nameRing, dif_pos hne', ← hrank]
      rfl
    · intro m hm q hq
      rw [Finset.mem_singleton.mp hq, hrank]
      exact Finset.min'_le _ _ (Finset.mem_image_of_mem _ hm)

def sessionCall (urls : List String) (session : String) : Call :=
  ⟨urls.map (fun url => ⟨url, ["llama"], url, 0, none, false, none, none, none, []⟩), .empty,
    fun key => if key = "x-user-id" then some session else none, [],
    ⟨fun s => s.sort (· ≤ ·), fun _ _ => Finset.mem_sort _⟩⟩

theorem session_routing_scale_down :
    (after nameRing "x-user-id" [sessionCall ["http://a:8000", "http://b:8000"] "s"]
      (sessionCall ["http://b:8000"] "s")).1 = some "http://b:8000" := by
  obtain ⟨-, ⟨url, hmem, hurl⟩, -⟩ := session_routing nameRing_lawful "x-user-id"
    [sessionCall ["http://a:8000", "http://b:8000"] "s"] (sessionCall ["http://b:8000"] "s")
    (by simp [sessionCall])
  have hb : url = "http://b:8000" := by simpa [sessionCall, eq_comm] using hmem
  rw [hurl, hb]

end ProductionStack.SessionRouter
