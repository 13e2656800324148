import Mathlib.Data.List.Sort
import Mathlib.Data.String.Basic
import ProductionStack.Endpoint
import ProductionStack.Runs

namespace ProductionStack.RoundRobin

open Runs

variable {H : Type} [DecidableEq H]

structure RoundRobinRouter (H : Type) where
  reqId : Nat := 0
  sortedEndpoints : List EndpointInfo := []
  lastEndpointsId : Option Nat := none
  lastEndpointsHash : Option H := none

def init : RoundRobinRouter H := {}

/-- The list object a call passes. Its id is unique only among live objects,
so a later list may carry the id of an earlier one that was freed. -/
structure ListObject where
  id : Nat
  endpoints : List EndpointInfo

def sortedByUrl (endpoints : List EndpointInfo) : List EndpointInfo :=
  endpoints.insertionSort (fun a b => a.url ≤ b.url)

def refresh (hash : List String → H) (r : RoundRobinRouter H) (arg : ListObject) : RoundRobinRouter H :=
  if some arg.id ≠ r.lastEndpointsId then
    let currentHash := hash (urls arg.endpoints)
    let r := if some currentHash ≠ r.lastEndpointsHash then
        { r with sortedEndpoints := sortedByUrl arg.endpoints, lastEndpointsHash := some currentHash }
      else r
    { r with lastEndpointsId := some arg.id }
  else r

def routeRequest (hash : List String → H) :
    Component (RoundRobinRouter H) ListObject (Except Exc String) := fun r arg =>
  let r := refresh hash r arg
  match r.sortedEndpoints[r.reqId % r.sortedEndpoints.length]? with
  | none => (.error .zeroDivisionError, r)
  | some chosen => (.ok chosen.url, { r with reqId := r.reqId + 1 })

def Live (arg : ListObject) (answer : Except Exc String) : Prop :=
  ∃ url, answer = .ok url ∧ url ∈ urls arg.endpoints

/-- The list is read anew, or the cached URLs are all among its own. -/
def Current (r : RoundRobinRouter H) (arg : ListObject) : Prop :=
  r.lastEndpointsId = some arg.id → ∀ url ∈ urls r.sortedEndpoints, url ∈ urls arg.endpoints

/-- Either nothing was cached yet, or the cached list sorts the URLs last hashed. -/
def Cached (hash : List String → H) (r : RoundRobinRouter H) : Prop :=
  (r.lastEndpointsId = none ∧ r.lastEndpointsHash = none) ∨
    ∃ us, us ≠ [] ∧ r.lastEndpointsHash = some (hash us) ∧ (urls r.sortedEndpoints).Perm us

theorem sortedByUrl_urls (endpoints : List EndpointInfo) : (urls (sortedByUrl endpoints)).Perm (urls endpoints) :=
  (List.perm_insertionSort _ endpoints).map _

variable {r : RoundRobinRouter H} {arg : ListObject} {hash : List String → H}

theorem refresh_same_id (hash : List String → H) (h : r.lastEndpointsId = some arg.id) : refresh hash r arg = r := by
  simp [refresh, h]

theorem refresh_lastEndpointsId (hash : List String → H) (r : RoundRobinRouter H) (arg : ListObject) :
    (refresh hash r arg).lastEndpointsId = some arg.id := by
  by_cases h : some arg.id = r.lastEndpointsId
  · rw [refresh_same_id hash h.symm, h]
  · simp [refresh, h]

theorem refresh_new_id (hinj : Function.Injective hash) (hr : Cached hash r) (h : some arg.id ≠ r.lastEndpointsId) :
    (urls (refresh hash r arg).sortedEndpoints).Perm (urls arg.endpoints) ∧
      (refresh hash r arg).lastEndpointsHash = some (hash (urls arg.endpoints)) := by
  by_cases hh : some (hash (urls arg.endpoints)) = r.lastEndpointsHash
  · rcases hr with ⟨-, hn⟩ | ⟨us, -, hus, hp⟩
    · simp [hn] at hh
    · rw [hus] at hh
      have hu : urls arg.endpoints = us := hinj (Option.some.inj hh)
      simpa [refresh, h, hus, hu] using hp
  · simpa [refresh, h, hh] using sortedByUrl_urls arg.endpoints

theorem refresh_cached (hinj : Function.Injective hash) (hr : Cached hash r) (harg : arg.endpoints ≠ []) :
    Cached hash (refresh hash r arg) := by
  by_cases h : some arg.id = r.lastEndpointsId
  · rwa [refresh_same_id hash h.symm]
  · obtain ⟨hp, hh⟩ := refresh_new_id hinj hr h
    exact .inr ⟨urls arg.endpoints, by simpa using harg, hh, hp⟩

theorem refresh_subset (hinj : Function.Injective hash) (hr : Cached hash r) (hcur : Current r arg) :
    ∀ url ∈ urls (refresh hash r arg).sortedEndpoints, url ∈ urls arg.endpoints := by
  by_cases h : some arg.id = r.lastEndpointsId
  · rw [refresh_same_id hash h.symm]
    exact hcur h.symm
  · intro url hurl
    exact (refresh_new_id hinj hr h).1.subset hurl

omit [DecidableEq H] in
theorem cached_ne_nil (hr : Cached hash r) (hid : r.lastEndpointsId ≠ none) : r.sortedEndpoints ≠ [] := by
  rcases hr with ⟨hn, -⟩ | ⟨us, hus, -, hp⟩
  · exact absurd hn hid
  · rintro he
    rw [he] at hp
    exact hus (List.nil_perm.mp hp)

theorem routeRequest_eq (hash : List String → H) (r : RoundRobinRouter H) (arg : ListObject)
    (hne : (refresh hash r arg).sortedEndpoints ≠ []) :
    ∃ chosen ∈ (refresh hash r arg).sortedEndpoints,
      (refresh hash r arg).sortedEndpoints[(refresh hash r arg).reqId %
        (refresh hash r arg).sortedEndpoints.length]? = some chosen ∧
      routeRequest hash r arg =
        (.ok chosen.url, { refresh hash r arg with reqId := (refresh hash r arg).reqId + 1 }) := by
  have hlt := Nat.mod_lt (refresh hash r arg).reqId (List.length_pos_iff.mpr hne)
  have hget := List.getElem?_eq_getElem hlt
  exact ⟨_, List.getElem_mem hlt, hget, by simp only [routeRequest, hget]⟩

theorem routeRequest_step (hinj : Function.Injective hash) (r : RoundRobinRouter H) (arg : ListObject) (hr : Cached hash r)
    (h : arg.endpoints ≠ [] ∧ Current r arg) :
    Live arg (routeRequest hash r arg).1 ∧ Cached hash (routeRequest hash r arg).2 := by
  have hc := refresh_cached hinj hr h.1
  have hne := cached_ne_nil hc (by simp [refresh_lastEndpointsId])
  obtain ⟨chosen, hmem, -, heq⟩ := routeRequest_eq hash r arg hne
  rw [heq]
  refine ⟨⟨chosen.url, rfl, ?_⟩, hc⟩
  exact refresh_subset hinj hr h.2 _ (List.mem_map_of_mem hmem)

/-- A run that never passes a list under the id of the list before it, unless
the URLs cached for that id are still among its own, is only answered with
live candidates. -/
theorem routes_only_live {hash : List String → H} (hinj : Function.Injective hash) (calls : List ListObject)
    (hne : ∀ arg ∈ calls, arg.endpoints ≠ []) (hcur : Along (routeRequest hash) Current init calls) :
    List.Forall₂ Live calls (outputs (routeRequest hash) init calls) := by
  have hboth := along_and (along_of_forall_mem hne init) hcur
  exact outputs_forall₂ (routeRequest_step hinj) (.inl ⟨rfl, rfl⟩) hboth

def endpointAt (url : String) : EndpointInfo := ⟨url, ["llama"], url, 0, none, false, none, none, none, []⟩

theorem routes_only_live_grown_list :
    List.Forall₂ Live
      [⟨7, [endpointAt "http://a:8000"]⟩, ⟨7, [endpointAt "http://b:8000", endpointAt "http://a:8000"]⟩]
      (outputs (routeRequest (fun us : List String => us)) init
        [⟨7, [endpointAt "http://a:8000"]⟩, ⟨7, [endpointAt "http://b:8000", endpointAt "http://a:8000"]⟩]) :=
  routes_only_live (fun _ _ h => h) _ (by simp)
    ⟨by simp [Current, init], by
      simp [Current, routeRequest, refresh, init, urls, sortedByUrl, endpointAt], trivial⟩

/-- The list of another model reuses the address of the freed list of the
first one, and is answered with the first model's engine. -/
theorem reused_id_routes_dead :
    ¬ ∀ calls : List ListObject, (∀ arg ∈ calls, arg.endpoints ≠ []) →
      List.Forall₂ Live calls (outputs (routeRequest (fun us : List String => us)) init calls) := by
  intro h
  have hrun := h [⟨7, [endpointAt "http://a:8000"]⟩, ⟨7, [endpointAt "http://b:8000"]⟩] (by simp)
  have hout : outputs (routeRequest (fun us : List String => us)) init
      [⟨7, [endpointAt "http://a:8000"]⟩, ⟨7, [endpointAt "http://b:8000"]⟩] =
      [.ok "http://a:8000", .ok "http://a:8000"] := rfl
  rw [hout] at hrun
  simp [Live, endpointAt] at hrun

theorem routeRequest_same_id (hash : List String → H) (hid : r.lastEndpointsId = some arg.id) {chosen : EndpointInfo}
    (hget : r.sortedEndpoints[r.reqId % r.sortedEndpoints.length]? = some chosen) :
    routeRequest hash r arg = (.ok chosen.url, { r with reqId := r.reqId + 1 }) := by
  simp only [routeRequest, refresh_same_id hash hid, hget]

theorem repeated_call_routes_cached (hash : List String → H) {dead : EndpointInfo} (hdead : dead.url ∉ urls arg.endpoints)
    (i : Nat) (r : RoundRobinRouter H) (hid : r.lastEndpointsId = some arg.id)
    (hget : r.sortedEndpoints[(r.reqId + i) % r.sortedEndpoints.length]? = some dead) :
    ¬ List.Forall₂ Live (List.replicate (i + 1) arg)
      (outputs (routeRequest hash) r (List.replicate (i + 1) arg)) := by
  induction i generalizing r with
  | zero =>
    rw [Nat.add_zero] at hget
    intro h
    rw [List.replicate_succ, outputs_cons, routeRequest_same_id hash hid hget] at h
    obtain ⟨url, hok, hmem⟩ := (List.forall₂_cons.mp h).1
    cases hok
    exact hdead hmem
  | succ i ih =>
    intro h
    have hne : r.sortedEndpoints ≠ [] := by
      intro he
      simp [he] at hget
    have hlt := Nat.mod_lt r.reqId (List.length_pos_iff.mpr hne)
    rw [List.replicate_succ, outputs_cons,
      routeRequest_same_id hash hid (List.getElem?_eq_getElem hlt)] at h
    refine ih { r with reqId := r.reqId + 1 } hid ?_ (List.forall₂_cons.mp h).2
    simpa only [Nat.add_assoc, Nat.add_comm 1 i] using hget

/-- The condition is exact: a router whose cache holds a URL that the list
under the same id does not have serves that URL after enough further calls. -/
theorem not_current_routes_dead (hash : List String → H) (hcur : ¬ Current r arg) :
    ∃ n, ¬ List.Forall₂ Live (List.replicate n arg)
      (outputs (routeRequest hash) r (List.replicate n arg)) := by
  simp only [Current, Classical.not_imp, not_forall] at hcur
  obtain ⟨hid, url, hurl, hdead⟩ := hcur
  obtain ⟨dead, hmem, rfl⟩ := mem_urls.mp hurl
  obtain ⟨p, hp, hget⟩ := List.getElem_of_mem hmem
  -- the counter reaches position p after this many further calls
  let i := p + (r.sortedEndpoints.length - r.reqId % r.sortedEndpoints.length)
  refine ⟨i + 1, repeated_call_routes_cached hash hdead i r hid ?_⟩
  have hi : (r.reqId + i) % r.sortedEndpoints.length = p := by
    have hlt := Nat.mod_lt r.reqId (Nat.zero_lt_of_lt hp)
    have hdm := Nat.div_add_mod r.reqId r.sortedEndpoints.length
    have hsum : r.reqId + i = p + r.sortedEndpoints.length * (r.reqId / r.sortedEndpoints.length + 1) := by
      simp only [i, Nat.mul_add, Nat.mul_one]
      omega
    rw [hsum, Nat.add_mul_mod_self_left, Nat.mod_eq_of_lt hp]
  rw [hi, List.getElem?_eq_getElem hp, hget]

end ProductionStack.RoundRobin
