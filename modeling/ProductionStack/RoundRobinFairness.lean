import Mathlib.Data.List.GetD
import ProductionStack.Rotation
import ProductionStack.RoundRobin

namespace ProductionStack.RoundRobin

open Runs Rotation

variable {H : Type} [DecidableEq H] {r : RoundRobinRouter H} {arg : ListObject}

section Order

def order (us : List String) : List String := us.insertionSort (· ≤ ·)

theorem order_perm (us : List String) : (order us).Perm us := List.perm_insertionSort _ us

theorem order_congr {us us' : List String} (h : us.Perm us') : order us = order us' := by
  have hperm : (order us).Perm (order us') := (order_perm us).trans (h.trans (order_perm us').symm)
  exact List.Perm.eq_of_pairwise (fun a b _ _ hab hba => le_antisymm hab hba)
    (List.pairwise_insertionSort _ us) (List.pairwise_insertionSort _ us') hperm

theorem urls_sortedByUrl (endpoints : List EndpointInfo) : urls (sortedByUrl endpoints) = order (urls endpoints) :=
  List.map_insertionSort _ _ _ _ (fun _ _ _ _ => Iff.rfl)

def turn (us : List String) (n : Nat) : String := us.getD (n % us.length) ""

theorem turn_eq_iff {us : List String} (hnodup : us.Nodup) (n : Nat) {i : Nat} (hi : i < us.length) :
    turn us n = us.getD i "" ↔ n % us.length = i := by
  have hn : n % us.length < us.length := Nat.mod_lt n (Nat.zero_lt_of_lt hi)
  rw [turn, List.getD_eq_getElem us "" hn, List.getD_eq_getElem us "" hi]
  exact hnodup.getElem_inj_iff

theorem exists_index {us : List String} {url : String} (h : url ∈ us) : ∃ i < us.length, us.getD i "" = url := by
  obtain ⟨i, hi, heq⟩ := List.getElem_of_mem h
  exact ⟨i, hi, by rw [List.getD_eq_getElem us "" hi, heq]⟩

theorem refresh_reqId (hash : List String → H) (r : RoundRobinRouter H) (arg : ListObject) :
    (refresh hash r arg).reqId = r.reqId := by
  rw [refresh]
  split
  · dsimp only
    split <;> rfl
  · rfl

theorem refresh_sortedEndpoints (hash : List String → H) (r : RoundRobinRouter H) (arg : ListObject) :
    (refresh hash r arg).sortedEndpoints = r.sortedEndpoints ∨
      (refresh hash r arg).sortedEndpoints = sortedByUrl arg.endpoints := by
  rw [refresh]
  split
  · dsimp only
    split
    · exact .inr rfl
    · exact .inl rfl
  · exact .inl rfl

theorem refresh_fresh (hash : List String → H) (hid : r.lastEndpointsId = none) (hhash : r.lastEndpointsHash = none) :
    (refresh hash r arg).sortedEndpoints = sortedByUrl arg.endpoints := by
  simp [refresh, hid, hhash]

theorem routeRequest_turn {hash : List String → H} {us : List String} (h : urls (refresh hash r arg).sortedEndpoints = us)
    (hne : us ≠ []) :
    routeRequest hash r arg = (.ok (turn us r.reqId), { refresh hash r arg with reqId := r.reqId + 1 }) := by
  have hcached : (refresh hash r arg).sortedEndpoints ≠ [] := by
    intro hnil
    rw [hnil] at h
    exact hne h.symm
  obtain ⟨chosen, -, hget, heq⟩ := routeRequest_eq hash r arg hcached
  have hlength : us.length = (refresh hash r arg).sortedEndpoints.length := by rw [← h, urls, List.length_map]
  rw [refresh_reqId] at hget heq
  rw [heq, turn, List.getD_eq_getElem?_getD, hlength, ← h, urls, List.getElem?_map, hget]
  rfl

end Order

section Stable

variable {us : List String}

/-- Before the first call nothing is cached; after it, the URLs in their order. -/
def Rotating (us : List String) (r : RoundRobinRouter H) : Prop :=
  (r.lastEndpointsId = none ∧ r.lastEndpointsHash = none) ∨ urls r.sortedEndpoints = order us

theorem rotating_refresh (hash : List String → H) (h : Rotating us r) (harg : (urls arg.endpoints).Perm us) :
    urls (refresh hash r arg).sortedEndpoints = order us := by
  have hsorted : urls (sortedByUrl arg.endpoints) = order us := by rw [urls_sortedByUrl, order_congr harg]
  rcases h with ⟨hid, hhash⟩ | hcached
  · rw [refresh_fresh hash hid hhash, hsorted]
  · rcases refresh_sortedEndpoints hash r arg with heq | heq
    · rw [heq, hcached]
    · rw [heq, hsorted]

theorem rotating_outputs (hash : List String → H) (h : Rotating us r) (hne : us ≠ []) (calls : List ListObject)
    (hcalls : ∀ arg ∈ calls, (urls arg.endpoints).Perm us) :
    outputs (routeRequest hash) r calls = (List.range' r.reqId calls.length).map (fun n => .ok (turn (order us) n)) := by
  induction calls generalizing r with
  | nil => rfl
  | cons arg calls ih =>
    have hread := rotating_refresh hash h (hcalls arg List.mem_cons_self)
    have horder : order us ≠ [] := fun hnil => hne (List.nil_perm.mp (hnil ▸ order_perm us))
    have hrest := ih (r := { refresh hash r arg with reqId := r.reqId + 1 }) (.inr hread)
      (fun a ha => hcalls a (List.mem_cons_of_mem _ ha))
    rw [outputs_cons, routeRequest_turn hread horder, hrest, List.length_cons, List.range'_succ, List.map_cons]

/-- On a fixed set of k URLs, listed in any order and in any list objects, every window of n calls
takes each URL n / k times, rounded down or up. -/
theorem stable_windows_fair (hash : List String → H) (us : List String) (hne : us ≠ []) (hnodup : us.Nodup)
    (calls : List ListObject) (hcalls : ∀ arg ∈ calls, (urls arg.endpoints).Perm us)
    (start n : Nat) (hwindow : start + n ≤ calls.length) (url : String) (hurl : url ∈ us) :
    let count := (((outputs (routeRequest hash) init calls).drop start).take n).count (.ok url)
    count = n / us.length ∨ count = (n + us.length - 1) / us.length := by
  have hperm := order_perm us
  obtain ⟨i, hi, rfl⟩ := exists_index (hperm.mem_iff.mpr hurl)
  have hrun := rotating_outputs hash (r := init) (.inl ⟨rfl, rfl⟩) hne calls hcalls
  have hcut : ((outputs (routeRequest hash) init calls).drop start).take n =
      ((turns (order us).length start n).map (fun j => (order us).getD j "")).map Except.ok := by
    rw [hrun, ← List.map_drop, ← List.map_take, List.drop_range', List.take_range'_of_length_ge (by omega), turns,
      List.map_map, List.map_map]
    simp only [init, Nat.zero_add, Nat.mul_one]
    rfl
  have hinj : ∀ j ∈ turns (order us).length start n, (order us).getD j "" = (order us).getD i "" → j = i := by
    intro j hj heq
    have hlt : j < (order us).length := Finset.mem_range.mp (mem_turns_lt (Nat.zero_lt_of_lt hi) hj)
    rw [List.getD_eq_getElem _ "" hlt, List.getD_eq_getElem _ "" hi] at heq
    exact (hperm.nodup_iff.mpr hnodup).getElem_inj_iff.mp heq
  intro count
  have hcount : count = (turns (order us).length start n).count i := by
    simp only [count, hcut]
    rw [count_map (fun _ _ h => Except.ok.inj h), count_map hinj]
  rw [hcount, ← hperm.length_eq]
  exact count_turns start n hi

theorem stable_windows_fair_two_lists :
    let calls : List ListObject := [⟨7, [endpointAt "http://b:8000", endpointAt "http://a:8000"]⟩,
      ⟨9, [endpointAt "http://a:8000", endpointAt "http://b:8000"]⟩,
      ⟨7, [endpointAt "http://a:8000", endpointAt "http://b:8000"]⟩]
    (((outputs (routeRequest (fun us : List String => us)) init calls).drop 1).take 2).count (.ok "http://a:8000") = 1 := by
  have h := stable_windows_fair (fun us : List String => us) ["http://a:8000", "http://b:8000"] (by simp) (by decide)
    [⟨7, [endpointAt "http://b:8000", endpointAt "http://a:8000"]⟩,
      ⟨9, [endpointAt "http://a:8000", endpointAt "http://b:8000"]⟩,
      ⟨7, [endpointAt "http://a:8000", endpointAt "http://b:8000"]⟩]
    (by decide) 1 2 (by decide) "http://a:8000" (by simp)
  simpa using h

end Stable

section Mixed

structure Family (Model : Type) where
  list : Model → ListObject
  nonempty : ∀ m, (list m).endpoints ≠ []
  nodup : ∀ m, (urls (list m).endpoints).Nodup
  disjoint : ∀ m m', ∀ url ∈ urls (list m).endpoints, url ∈ urls (list m').endpoints → m = m'
  id_injective : ∀ m m', (list m).id = (list m').id → m = m'

variable {Model : Type} [DecidableEq Model]

namespace Family

def urls (fam : Family Model) (m : Model) : List String := ProductionStack.urls (fam.list m).endpoints

def sent (fam : Family Model) (hash : List String → H) (calls : List Model) : List (Except Exc String) :=
  outputs (routeRequest hash) init (calls.map fam.list)

/-- After these calls, no endpoint of a model has had two requests more than another one of that model. -/
def Fair (fam : Family Model) (hash : List String → H) (calls : List Model) : Prop :=
  ∀ m, ∀ url ∈ fam.urls m, ∀ url' ∈ fam.urls m,
    (fam.sent hash calls).count (.ok url) ≤ (fam.sent hash calls).count (.ok url') + 1

def callNumbers (m : Model) : Nat → List Model → List Nat
  | _, [] => []
  | start, c :: calls => if c = m then start :: callNumbers m (start + 1) calls else callNumbers m (start + 1) calls

def turnsOf (fam : Family Model) (m : Model) (start : Nat) (calls : List Model) : List Nat :=
  (callNumbers m start calls).map (· % (fam.urls m).length)

theorem callNumbers_take (m : Model) (start n : Nat) (calls : List Model) :
    ∃ n', callNumbers m start (calls.take n) = (callNumbers m start calls).take n' := by
  induction calls generalizing start n with
  | nil => exact ⟨0, by rw [List.take_nil]; rfl⟩
  | cons c calls ih =>
    cases n with
    | zero => exact ⟨0, by rw [List.take_zero, List.take_zero]; rfl⟩
    | succ n =>
      obtain ⟨n', hn⟩ := ih (start + 1) n
      by_cases hc : c = m
      · exact ⟨n' + 1, by simp only [List.take_succ_cons, callNumbers, if_pos hc, hn]⟩
      · exact ⟨n', by simp only [List.take_succ_cons, callNumbers, if_neg hc, hn]⟩

theorem take_callNumbers (m : Model) (start n' : Nat) (calls : List Model) :
    ∃ n, callNumbers m start (calls.take n) = (callNumbers m start calls).take n' := by
  induction calls generalizing start n' with
  | nil => exact ⟨0, by simp [callNumbers]⟩
  | cons c calls ih =>
    by_cases hc : c = m
    · cases n' with
      | zero => exact ⟨0, by rw [List.take_zero, List.take_zero]; rfl⟩
      | succ n' =>
        obtain ⟨n, hn⟩ := ih (start + 1) n'
        exact ⟨n + 1, by simp only [List.take_succ_cons, callNumbers, if_pos hc, hn]⟩
    · obtain ⟨n, hn⟩ := ih (start + 1) n'
      exact ⟨n + 1, by simp only [List.take_succ_cons, callNumbers, if_neg hc, hn]⟩

variable {fam : Family Model} {hash : List String → H}

/-- What the router has cached is the list of one of the models, if anything. -/
def Cached (fam : Family Model) (hash : List String → H) (r : RoundRobinRouter H) : Prop :=
  (r.lastEndpointsId = none ∧ r.lastEndpointsHash = none) ∨
    ∃ m, r.lastEndpointsId = some (fam.list m).id ∧ r.lastEndpointsHash = some (hash (fam.urls m)) ∧
      ProductionStack.urls r.sortedEndpoints = order (fam.urls m)

theorem Cached.read (hsep : ∀ m m', hash (fam.urls m) = hash (fam.urls m') → m = m') (h : fam.Cached hash r) (m : Model) :
    ProductionStack.urls (refresh hash r (fam.list m)).sortedEndpoints = order (fam.urls m) ∧
      (refresh hash r (fam.list m)).lastEndpointsHash = some (hash (fam.urls m)) := by
  have hsorted : ProductionStack.urls (sortedByUrl (fam.list m).endpoints) = order (fam.urls m) := urls_sortedByUrl _
  rcases h with ⟨hid, hhash⟩ | ⟨m', hid, hhash, hcached⟩
  · refine ⟨by rw [refresh_fresh hash hid hhash, hsorted], ?_⟩
    simp [refresh, hid, hhash, Family.urls]
  · by_cases hm : m = m'
    · subst hm
      rw [refresh_same_id hash hid]
      exact ⟨hcached, hhash⟩
    · have hnew : (fam.list m).id ≠ (fam.list m').id := fun heq => hm (fam.id_injective m m' heq)
      have hother : hash (ProductionStack.urls (fam.list m).endpoints) ≠ hash (fam.urls m') :=
        fun heq => hm (hsep m m' heq)
      simp only [refresh, hid, hhash, ne_eq, Option.some.injEq, hnew, hother, not_false_eq_true, if_true]
      exact ⟨hsorted, rfl⟩

theorem Cached.step (hsep : ∀ m m', hash (fam.urls m) = hash (fam.urls m') → m = m') (h : fam.Cached hash r) (m : Model) :
    (routeRequest hash r (fam.list m)).1 = .ok (turn (order (fam.urls m)) r.reqId) ∧
      (routeRequest hash r (fam.list m)).2.reqId = r.reqId + 1 ∧
      fam.Cached hash (routeRequest hash r (fam.list m)).2 := by
  obtain ⟨hread, hhash⟩ := h.read hsep m
  have hne : order (fam.urls m) ≠ [] := by
    intro hnil
    have hperm := order_perm (fam.urls m)
    rw [hnil] at hperm
    exact fam.nonempty m (urls_eq_nil.mp (List.nil_perm.mp hperm))
  rw [routeRequest_turn hread hne]
  exact ⟨rfl, rfl, .inr ⟨m, refresh_lastEndpointsId hash r _, hhash, hread⟩⟩

theorem Cached.count_outputs (hsep : ∀ m m', hash (fam.urls m) = hash (fam.urls m') → m = m') (h : fam.Cached hash r)
    (calls : List Model) (m : Model) {i : Nat} (hi : i < (order (fam.urls m)).length) :
    (outputs (routeRequest hash) r (calls.map fam.list)).count (.ok ((order (fam.urls m)).getD i "")) =
      (fam.turnsOf m r.reqId calls).count i := by
  induction calls generalizing r with
  | nil => rfl
  | cons c calls ih =>
    obtain ⟨hanswer, hnext, hcached⟩ := h.step hsep c
    have hlength : (order (fam.urls m)).length = (fam.urls m).length := (order_perm _).length_eq
    have hrest := ih hcached
    rw [hnext] at hrest
    rw [List.map_cons, outputs_cons, List.count_cons, hrest, hanswer]
    by_cases hc : c = m
    · subst hc
      have hturn := turn_eq_iff ((order_perm (fam.urls c)).nodup_iff.mpr (fam.nodup c)) r.reqId hi
      rw [turnsOf, turnsOf, callNumbers, if_pos rfl, List.map_cons, List.count_cons, ← hlength]
      simp only [beq_iff_eq, Except.ok.injEq, hturn]
    · have hother : turn (order (fam.urls c)) r.reqId ≠ (order (fam.urls m)).getD i "" := by
        intro heq
        have hm : (order (fam.urls m)).getD i "" ∈ fam.urls m := by
          rw [List.getD_eq_getElem _ "" hi, ← (order_perm (fam.urls m)).mem_iff]
          exact List.getElem_mem hi
        have hpos : 0 < (order (fam.urls c)).length := by
          rw [(order_perm _).length_eq, List.length_pos_iff]
          exact fun hnil => fam.nonempty c (urls_eq_nil.mp hnil)
        have hcmem : turn (order (fam.urls c)) r.reqId ∈ fam.urls c := by
          rw [turn, List.getD_eq_getElem _ "" (Nat.mod_lt _ hpos), ← (order_perm (fam.urls c)).mem_iff]
          exact List.getElem_mem _
        rw [heq] at hcmem
        exact hc (fam.disjoint c m _ hcmem hm)
      rw [turnsOf, turnsOf, callNumbers, if_neg hc]
      rw [if_neg (by simpa using hother), Nat.add_zero]

theorem fair_iff_even (hsep : ∀ m m', hash (fam.urls m) = hash (fam.urls m') → m = m') (calls : List Model) :
    fam.Fair hash calls ↔ ∀ m, Even (Finset.range (fam.urls m).length) (fam.turnsOf m 0 calls) := by
  have hcount : ∀ m i, i < (order (fam.urls m)).length →
      (fam.sent hash calls).count (.ok ((order (fam.urls m)).getD i "")) = (fam.turnsOf m 0 calls).count i :=
    fun m i hi => Cached.count_outputs (r := init) hsep (.inl ⟨rfl, rfl⟩) calls m hi
  have hlength : ∀ m, (order (fam.urls m)).length = (fam.urls m).length := fun m => (order_perm _).length_eq
  refine forall_congr' (fun m => ?_)
  constructor
  · intro h i hi j hj
    rw [Finset.mem_range, ← hlength] at hi hj
    have hmem : ∀ k, k < (order (fam.urls m)).length → (order (fam.urls m)).getD k "" ∈ fam.urls m := by
      intro k hk
      rw [List.getD_eq_getElem _ "" hk, ← (order_perm (fam.urls m)).mem_iff]
      exact List.getElem_mem hk
    have hle := h _ (hmem i hi) _ (hmem j hj)
    rwa [hcount m i hi, hcount m j hj] at hle
  · intro h url hurl url' hurl'
    obtain ⟨i, hi, rfl⟩ := exists_index ((order_perm (fam.urls m)).mem_iff.mpr hurl)
    obtain ⟨j, hj, rfl⟩ := exists_index ((order_perm (fam.urls m)).mem_iff.mpr hurl')
    rw [hcount m i hi, hcount m j hj]
    exact h i (Finset.mem_range.mpr (hlength m ▸ hi)) j (Finset.mem_range.mpr (hlength m ▸ hj))

/-- One counter serves all models. Routing stays fair to each of them exactly when, of a model with k
endpoints, the calls of each of its rounds of k come at numbers that are all different modulo k. -/
theorem mixed_traffic_fair_iff (fam : Family Model) (hash : List String → H)
    (hsep : ∀ m m', hash (fam.urls m) = hash (fam.urls m') → m = m') (calls : List Model) :
    (∀ n, fam.Fair hash (calls.take n)) ↔
      ∀ m, Spread (fam.urls m).length ((callNumbers m 0 calls).map (· % (fam.urls m).length)) := by
  have hrounds : ∀ m, (∀ n, Even (Finset.range (fam.urls m).length) (fam.turnsOf m 0 (calls.take n))) ↔
      Spread (fam.urls m).length (fam.turnsOf m 0 calls) := by
    intro m
    have hpos : 0 < (fam.urls m).length :=
      List.length_pos_iff.mpr (fun hnil => fam.nonempty m (urls_eq_nil.mp hnil))
    have hrange : ∀ i ∈ fam.turnsOf m 0 calls, i ∈ Finset.range (fam.urls m).length := by
      intro i hi
      obtain ⟨n, -, rfl⟩ := List.mem_map.mp hi
      exact Finset.mem_range.mpr (Nat.mod_lt n hpos)
    have hspread := even_take_iff_spread hrange
    rw [Finset.card_range] at hspread
    rw [← hspread]
    constructor
    · intro h n'
      obtain ⟨n, hn⟩ := take_callNumbers m 0 n' calls
      have heven := h n
      rwa [turnsOf, hn, List.map_take] at heven
    · intro h n
      obtain ⟨n', hn⟩ := callNumbers_take m 0 n calls
      have heven := h n'
      rwa [turnsOf, ← List.map_take, ← hn] at heven
  constructor
  · intro h m
    exact (hrounds m).mp (fun n => (fair_iff_even hsep _).mp (h n) m)
  · intro h n
    exact (fair_iff_even hsep _).mpr (fun m => (hrounds m).mpr (h m) n)

def twoModels : Family Bool where
  list m := if m then ⟨7, [endpointAt "http://a:8000", endpointAt "http://b:8000"]⟩
    else ⟨9, [endpointAt "http://c:8000", endpointAt "http://d:8000"]⟩
  nonempty := by decide
  nodup := by decide
  disjoint := by decide
  id_injective := by decide

theorem twoModels_in_pairs_fair : twoModels.Fair (fun us : List String => us) [true, true, false, false] := by
  refine (mixed_traffic_fair_iff twoModels (fun us : List String => us) (by decide) [true, true, false, false]).mpr ?_ 4
  intro m
  cases m with
  | false => exact spread_turns 2 2
  | true => exact spread_turns 0 2

/-- Requests for the two models in turn: each model has all of its own sent to one endpoint. -/
theorem twoModels_in_turn_unfair : ¬ twoModels.Fair (fun us : List String => us) [true, false, true] := by
  intro h
  have hle := h true "http://a:8000" (by decide) "http://b:8000" (by decide)
  have hsent : twoModels.sent (fun us : List String => us) [true, false, true] =
      [.ok "http://a:8000", .ok "http://d:8000", .ok "http://a:8000"] := rfl
  rw [hsent] at hle
  exact absurd hle (by decide)

end Family

end Mixed

end ProductionStack.RoundRobin
