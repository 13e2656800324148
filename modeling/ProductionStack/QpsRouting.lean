import Mathlib.Data.List.ReduceOption
import ProductionStack.RequestBookkeeping
import ProductionStack.Rotation
import ProductionStack.SessionRouter
import ProductionStack.StatsWindows

namespace ProductionStack.QpsRouting

open Runs StatsMonitor Rotation
open ProcessRequest (System)
open SessionRouter (HashRing qpsRouting routeRequest)

variable {R : Type}

/-- A request as it reaches the router: the engines that serve its model have
been selected and are not none. The clock is read for the statistics and again
when process_request starts. -/
structure Arrival where
  endpoints : List EndpointInfo
  headers : String → Option String
  requestJson : List (String × Json)
  order : SessionRouter.SetOrder
  requestId : String
  readAt : ℚ
  startAt : ℚ

structure State (R : Type) where
  hashRing : R
  requests : System

inductive Event
  | arrive (a : Arrival)
  | progress (e : ProcessRequest.Event)
  | read (now : ℚ)

def init (ring : HashRing R) (slidingWindowSize : ℚ) : State R := ⟨ring.new, ProcessRequest.init slidingWindowSize⟩

def Arrival.call (a : Arrival) (requestStats : Dict String RequestStats) : SessionRouter.Call :=
  { endpoints := a.endpoints, requestStats, headers := a.headers, requestJson := a.requestJson, order := a.order }

/-- Nothing suspends between the reading of the statistics and the call of
on_new_request, so that an arrival is one step. The statistics are read by
/metrics and by log_stats too. -/
def step (ring : HashRing R) (sessionKey : String) : Component (State R) Event (Option String) := fun s event =>
  match event with
  | .arrive a =>
    let (requestStats, monitor) := s.requests.monitor.getRequestStats a.readAt
    let (url, hashRing) := routeRequest ring sessionKey s.hashRing (a.call requestStats)
    match url with
    | some url =>
      (some url, ⟨hashRing, (ProcessRequest.step { s.requests with monitor } (.start url a.requestId a.startAt)).2⟩)
    | none => (none, ⟨hashRing, { s.requests with monitor }⟩)
  -- a start is always that of an arrival
  | .progress (.start _ _ _) => (none, s)
  | .progress e => (none, ⟨s.hashRing, (ProcessRequest.step s.requests e).2⟩)
  | .read now => (none, ⟨s.hashRing, { s.requests with monitor := (s.requests.monitor.getRequestStats now).2 }⟩)

section Choice

/-- The statistics know the engines that have a load, and their rates are in the proportion of the loads. -/
def Reports (requestStats : Dict String RequestStats) (W : ℚ) (load : String → Nat) (url : String) : Prop :=
  (load url = 0 → requestStats.get? url = none) ∧
    (load url ≠ 0 → ∃ stat, requestStats.get? url = some stat ∧ stat.qps = load url / W)

variable {requestStats : Dict String RequestStats} {W : ℚ} {load : String → Nat}

theorem qpsRouting_none_lower (hW : 0 < W) {url : String} {n : Nat} (hn : n ≠ 0) (back : List EndpointInfo)
    (hback : ∀ info ∈ back, Reports requestStats W load info.url ∧ n ≤ load info.url) :
    qpsRouting requestStats back (some (n / W)) (some url) = some url := by
  induction back with
  | nil => rfl
  | cons info back ih =>
    obtain ⟨⟨-, hknown⟩, hle⟩ := hback info List.mem_cons_self
    obtain ⟨stat, hget, hqps⟩ := hknown (by omega)
    have hnot : ¬ stat.qps < n / W := by
      rw [hqps, not_lt]
      exact (div_le_div_iff_of_pos_right hW).mpr (by exact_mod_cast hle)
    simp only [qpsRouting, hget, Option.all_some, decide_eq_true_eq, if_neg hnot]
    exact ih (fun i hi => hback i (List.mem_cons_of_mem _ hi))

theorem qpsRouting_first_least (hW : 0 < W) (front back : List EndpointInfo) (info : EndpointInfo)
    (hfront : ∀ i ∈ front, Reports requestStats W load i.url ∧ load info.url < load i.url)
    (hinfo : Reports requestStats W load info.url)
    (hback : ∀ i ∈ back, Reports requestStats W load i.url ∧ load info.url ≤ load i.url)
    (lowest : Option ℚ) (hlowest : ∀ q, lowest = some q → load info.url / W < q) (ret : Option String) :
    qpsRouting requestStats (front ++ info :: back) lowest ret = some info.url := by
  induction front generalizing lowest ret with
  | nil =>
    by_cases hzero : load info.url = 0
    · simp [qpsRouting, hinfo.1 hzero]
    · obtain ⟨stat, hget, hqps⟩ := hinfo.2 hzero
      have hall : lowest.all (fun q => stat.qps < q) = true := by
        cases lowest with
        | none => rfl
        | some q =>
          rw [Option.all_some, decide_eq_true_eq, hqps]
          exact hlowest q rfl
      rw [List.nil_append, qpsRouting]
      simp only [hget, if_pos hall]
      rw [hqps]
      exact qpsRouting_none_lower hW hzero back hback
  | cons i front ih =>
    obtain ⟨⟨-, hknown⟩, hlt⟩ := hfront i List.mem_cons_self
    obtain ⟨stat, hget, hqps⟩ := hknown (by omega)
    have hrest := ih (fun j hj => hfront j (List.mem_cons_of_mem _ hj))
    have hbelow : (load info.url : ℚ) / W < stat.qps := by
      rw [hqps]
      exact (div_lt_div_iff_of_pos_right hW).mpr (by exact_mod_cast hlt)
    simp only [List.cons_append, qpsRouting, hget]
    split
    · refine hrest _ ?_ _
      intro q hq
      rwa [← Option.some.inj hq]
    · exact hrest _ hlowest _

end Choice

section Monitor

open RequestStatsMonitor MovingAverageMonitor

structure Counts (W t₀ : ℚ) (load : String → Nat) (m : RequestStatsMonitor) : Prop where
  size : m.slidingWindowSize = W
  idle : ∀ url, load url = 0 → url ∉ m.engines ∧ m.qpsMonitors.get? url = none
  busy : ∀ url, load url ≠ 0 → url ∈ m.engines ∧
    ∃ timestamps, m.qpsMonitors.get? url = some ⟨W, timestamps, List.replicate (load url) 1⟩ ∧ ∀ t ∈ timestamps, t₀ ≤ t

variable {W t₀ : ℚ} {load : String → Nat} {m : RequestStatsMonitor}

theorem counts_init (W t₀ : ℚ) : Counts W t₀ (fun _ => 0) { slidingWindowSize := W } where
  size := rfl
  idle _ _ := ⟨by simp [engines, Dict.keys, Dict.empty], rfl⟩
  busy _ h := absurd rfl h

theorem expire_of_recent {horizon : ℚ} {timestamps : List ℚ} (h : ∀ t ∈ timestamps, horizon ≤ t) (values : List ℚ) :
    expire horizon timestamps values = (timestamps, values) := by
  cases timestamps with
  | nil => rfl
  | cons t rest => rw [expire, if_neg (not_lt.mpr (h t List.mem_cons_self))]

theorem updateNoValue_of_recent {now : ℚ} {timestamps : List ℚ} (hnow : now ≤ t₀ + W) (h : ∀ t ∈ timestamps, t₀ ≤ t)
    (values : List ℚ) : (⟨W, timestamps, values⟩ : MovingAverageMonitor).updateNoValue now = ⟨W, timestamps, values⟩ := by
  rw [updateNoValue, expire_of_recent]
  intro t ht
  exact (sub_le_iff_le_add.mpr hnow).trans (h t ht)

theorem engines_getRequestStats (m : RequestStatsMonitor) (now : ℚ) : (m.getRequestStats now).2.engines = m.engines := by
  rw [getRequestStats_eq]
  rfl

theorem counts_read (h : Counts W t₀ load m) {now : ℚ} (hnow : now ≤ t₀ + W) :
    Counts W t₀ load (m.getRequestStats now).2 := by
  have hget : ∀ url, (m.getRequestStats now).2.qpsMonitors.get? url =
      if url ∈ m.engines then (m.qpsMonitors.get? url).map (fun w => w.updateNoValue now)
      else m.qpsMonitors.get? url := by
    intro url
    rw [getRequestStats_eq]
    exact get?_foldl_expireWindow _ (List.nodup_dedup _) _
  refine ⟨?_, ?_, ?_⟩
  · rw [getRequestStats_eq]
    exact h.size
  · intro url hurl
    obtain ⟨hmem, hnone⟩ := h.idle url hurl
    rw [engines_getRequestStats, hget, if_neg hmem]
    exact ⟨hmem, hnone⟩
  · intro url hurl
    obtain ⟨hmem, timestamps, hsome, hrecent⟩ := h.busy url hurl
    rw [engines_getRequestStats, hget, if_pos hmem, hsome]
    refine ⟨hmem, timestamps, ?_, hrecent⟩
    rw [Option.map_some, updateNoValue_of_recent hnow hrecent]

theorem counts_reports (h : Counts W t₀ load m) {now : ℚ} (hnow : now ≤ t₀ + W) (url : String) :
    Reports (m.getRequestStats now).1 W load url := by
  refine ⟨?_, ?_⟩
  · intro hurl
    rw [get?_getRequestStats, if_neg (h.idle url hurl).1]
  · intro hurl
    obtain ⟨hmem, timestamps, hsome, hrecent⟩ := h.busy url hurl
    refine ⟨_, by rw [get?_getRequestStats, if_pos hmem], ?_⟩
    simp only [engineStats, get?_expireWindow, if_true, hsome, Option.map_some,
      updateNoValue_of_recent hnow hrecent, getSum, h.size, List.sum_replicate, nsmul_eq_mul, mul_one]

theorem mem_engines {url : String} : url ∈ m.engines ↔ url ∈ m.inPrefillRequests.keys ∨ url ∈ m.inDecodingRequests.keys := by
  rw [engines, List.mem_dedup, List.mem_append]

theorem mem_engines_onNewRequest {url other id : String} {t : ℚ} :
    other ∈ (m.onNewRequest url id t).engines ↔ other ∈ m.engines ∨ other = url := by
  simp only [mem_engines, onNewRequest, increment, Dict.mem_keys_set]
  tauto

theorem counts_new (h : Counts W t₀ load m) {t : ℚ} (ht : t₀ ≤ t) (ht' : t ≤ t₀ + W) (url id : String) :
    Counts W t₀ (Function.update load url (load url + 1)) (m.onNewRequest url id t) := by
  refine ⟨h.size, ?_, ?_⟩
  · intro other hother
    have hne : other ≠ url := by
      rintro rfl
      simp at hother
    rw [Function.update_of_ne hne] at hother
    obtain ⟨hmem, hnone⟩ := h.idle other hother
    refine ⟨fun hin => (mem_engines_onNewRequest.mp hin).elim hmem hne, ?_⟩
    rw [onNewRequest, Dict.get?_set_of_ne _ _ hne, hnone]
  · intro other hother
    by_cases hne : other = url
    · subst hne
      have hwindow : ∃ timestamps, m.monitorOf m.qpsMonitors other = ⟨W, timestamps, List.replicate (load other) 1⟩ ∧
          ∀ t ∈ timestamps, t₀ ≤ t := by
        by_cases hzero : load other = 0
        · refine ⟨[], ?_, fun t ht => absurd ht List.not_mem_nil⟩
          simp [monitorOf, Dict.getD, (h.idle other hzero).2, h.size, hzero]
        · obtain ⟨-, timestamps, hsome, hrecent⟩ := h.busy other hzero
          exact ⟨timestamps, by simp [monitorOf, Dict.getD, hsome], hrecent⟩
      obtain ⟨timestamps, heq, hrecent⟩ := hwindow
      have hrecent' : ∀ u ∈ timestamps ++ [t], t₀ ≤ u := by
        intro u hu
        rcases List.mem_append.mp hu with hu | hu
        · exact hrecent u hu
        · rwa [List.mem_singleton.mp hu]
      refine ⟨mem_engines_onNewRequest.mpr (.inr rfl), timestamps ++ [t], ?_, hrecent'⟩
      rw [onNewRequest, Dict.get?_set_self, heq, update, updateNoValue_of_recent ht' hrecent', Function.update_self,
        List.replicate_succ']
    · rw [Function.update_of_ne hne] at hother ⊢
      obtain ⟨hmem, timestamps, hsome, hrecent⟩ := h.busy other hother
      refine ⟨mem_engines_onNewRequest.mpr (.inl hmem), timestamps, ?_, hrecent⟩
      rw [onNewRequest, Dict.get?_set_of_ne _ _ hne, hsome]

theorem counts_congr (h : Counts W t₀ load m) {m' : RequestStatsMonitor} (hsize : m'.slidingWindowSize = m.slidingWindowSize)
    (hqps : m'.qpsMonitors = m.qpsMonitors) (hengines : ∀ url, url ∈ m'.engines ↔ url ∈ m.engines) : Counts W t₀ load m' := by
  refine ⟨hsize.trans h.size, ?_, ?_⟩
  · intro url hurl
    rw [hengines, hqps]
    exact h.idle url hurl
  · intro url hurl
    rw [hengines, hqps]
    exact h.busy url hurl

theorem counts_response (h : Counts W t₀ load m) {url : String} (hurl : load url ≠ 0) (id : String) (now : ℚ) :
    Counts W t₀ load (m.onRequestResponse url id now) := by
  rw [onRequestResponse]
  split
  · exact h
  · refine counts_congr h rfl rfl (fun other => ?_)
    have hknown := (h.busy url hurl).1
    simp only [mem_engines, decrement, increment, Dict.mem_keys_set] at hknown ⊢
    grind

theorem counts_complete (h : Counts W t₀ load m) {url : String} (hurl : load url ≠ 0) (id : String) (now later : ℚ) :
    Counts W t₀ load (m.onRequestComplete url id now later) := by
  refine counts_congr h rfl rfl (fun other => ?_)
  have hknown := (h.busy url hurl).1
  simp only [mem_engines, onRequestComplete, decrement, Dict.mem_keys_set] at hknown ⊢
  grind

end Monitor

section System

open ProcessRequest (Execution Phase moveTo)

variable {W t₀ : ℚ} {chosen : List String} {s : System}

structure Held (W t₀ : ℚ) (chosen : List String) (s : System) : Prop where
  counts : Counts W t₀ (fun url => chosen.count url) s.monitor
  started : ∀ x ∈ s.executions, x.backendUrl ∈ chosen

theorem started_moveTo (h : ∀ x ∈ s.executions, x.backendUrl ∈ chosen) {i : Nat} {x : Execution}
    (hx : s.executions[i]? = some x) (phase : Phase) : ∀ y ∈ s.executions.set i { x with phase }, y.backendUrl ∈ chosen := by
  intro y hy
  rcases List.mem_or_eq_of_mem_set hy with hy | rfl
  · exact h y hy
  · exact h x (List.mem_of_getElem? hx)

theorem Held.load_ne_zero (h : Held W t₀ chosen s) {i : Nat} {x : Execution} (hx : s.executions[i]? = some x) :
    chosen.count x.backendUrl ≠ 0 :=
  (List.count_pos_iff.mpr (h.started x (List.mem_of_getElem? hx))).ne'

theorem held_progress (h : Held W t₀ chosen s) {e : ProcessRequest.Event} (he : e.startedKey = none) :
    Held W t₀ chosen (ProcessRequest.step s e).2 := by
  cases e with
  | start url id now => cases he
  | headers i =>
    rw [ProcessRequest.step]
    split
    next x hx =>
      split
      · exact ⟨h.counts, started_moveTo h.started hx _⟩
      · exact h
    · exact h
  | chunk i now =>
    rw [ProcessRequest.step]
    split
    next x hx =>
      split
      · exact ⟨counts_response h.counts (h.load_ne_zero hx) _ _, started_moveTo h.started hx _⟩
      · exact h
    · exact h
  | finish i now later =>
    rw [ProcessRequest.step]
    split
    next x hx =>
      split
      · exact ⟨counts_complete h.counts (h.load_ne_zero hx) _ _ _, started_moveTo h.started hx _⟩
      · exact h
    · exact h
  | fail i =>
    rw [ProcessRequest.step]
    split
    next x hx =>
      split
      · exact h
      · exact ⟨h.counts, started_moveTo h.started hx _⟩
    · exact h

theorem held_read (h : Held W t₀ chosen s) {now : ℚ} (hnow : now ≤ t₀ + W) :
    Held W t₀ chosen { s with monitor := (s.monitor.getRequestStats now).2 } :=
  ⟨counts_read h.counts hnow, h.started⟩

theorem held_start (h : Held W t₀ chosen s) {t : ℚ} (ht : t₀ ≤ t) (ht' : t ≤ t₀ + W) (url id : String) :
    Held W t₀ (chosen ++ [url]) (ProcessRequest.step s (.start url id t)).2 := by
  refine ⟨?_, ?_⟩
  · have hload : (fun other => (chosen ++ [url]).count other) =
        Function.update (fun other => chosen.count other) url (chosen.count url + 1) := by
      funext other
      by_cases hother : other = url
      · subst hother
        simp
      · simp [Function.update_of_ne hother, Ne.symm hother]
    rw [hload]
    exact counts_new h.counts ht ht' url id
  · intro x hx
    rw [List.mem_append]
    rcases List.mem_append.mp hx with hx | hx
    · exact .inl (h.started x hx)
    · rw [List.mem_singleton.mp hx]
      exact .inr List.mem_cons_self

end System

section Turns

variable {endpoints : List EndpointInfo} {W t₀ : ℚ}

def inTurn (endpoints : List EndpointInfo) (start n : Nat) : List String :=
  (turns endpoints.length start n).filterMap (fun i => (urls endpoints)[i]?)

theorem count_inTurn (hdistinct : (urls endpoints).Nodup) (n : Nat) {i : Nat} {info : EndpointInfo}
    (hi : endpoints[i]? = some info) :
    (inTurn endpoints 0 n).count info.url = n / endpoints.length + if i < n % endpoints.length then 1 else 0 := by
  obtain ⟨hlt, -⟩ := List.getElem?_eq_some_iff.mp hi
  have hurl : (urls endpoints)[i]? = some info.url := by rw [urls, List.getElem?_map, hi, Option.map_some]
  rw [← count_turns_zero n hlt, inTurn, List.count_filterMap, List.count]
  apply List.countP_congr
  intro j _
  rw [beq_iff_eq, beq_iff_eq, ← hurl]
  constructor
  · intro heq
    exact ((List.getElem?_inj (by rwa [urls, List.length_map]) hdistinct).mp heq.symm).symm
  · rintro rfl
    rfl

theorem qpsRouting_inTurn (hW : 0 < W) (hdistinct : (urls endpoints).Nodup) {n : Nat} {info : EndpointInfo}
    (hinfo : endpoints[n % endpoints.length]? = some info) {requestStats : Dict String RequestStats}
    (h : ∀ url, Reports requestStats W (fun url => (inTurn endpoints 0 n).count url) url) :
    qpsRouting requestStats endpoints none none = some info.url := by
  obtain ⟨hlt, hget⟩ := List.getElem?_eq_some_iff.mp hinfo
  have hsplit : endpoints = endpoints.take (n % endpoints.length) ++ info :: endpoints.drop (n % endpoints.length + 1) := by
    rw [← hget, ← List.drop_eq_getElem_cons hlt, List.take_append_drop]
  have hleast := count_inTurn hdistinct n hinfo
  rw [if_neg (Nat.lt_irrefl _), Nat.add_zero] at hleast
  have hchoice := qpsRouting_first_least hW (endpoints.take (n % endpoints.length))
    (endpoints.drop (n % endpoints.length + 1)) info ?_ (h info.url) ?_ none (fun q hq => absurd hq (by simp)) none
  · rwa [← hsplit] at hchoice
  · intro i hi
    obtain ⟨j, hj⟩ := List.mem_iff_getElem?.mp hi
    rw [List.getElem?_take] at hj
    split at hj
    · refine ⟨h i.url, ?_⟩
      rw [hleast, count_inTurn hdistinct n hj, if_pos ‹_›]
      exact Nat.lt_succ_self _
    · cases hj
  · intro i hi
    obtain ⟨j, hj⟩ := List.mem_iff_getElem?.mp hi
    rw [List.getElem?_drop] at hj
    refine ⟨h i.url, ?_⟩
    rw [hleast, count_inTurn hdistinct n hj]
    exact Nat.le_add_right _ _

theorem inTurn_concat {n : Nat} {info : EndpointInfo} (hinfo : endpoints[n % endpoints.length]? = some info) :
    inTurn endpoints 0 (n + 1) = inTurn endpoints 0 n ++ [info.url] := by
  rw [inTurn, turns_concat, List.filterMap_append, Nat.zero_add]
  simp [inTurn, urls, hinfo]

theorem inTurn_succ {start n : Nat} {info : EndpointInfo} (hinfo : endpoints[start % endpoints.length]? = some info) :
    inTurn endpoints start (n + 1) = info.url :: inTurn endpoints (start + 1) n := by
  rw [inTurn, turns_succ]
  simp [inTurn, urls, hinfo]

end Turns

section Run

variable {ring : HashRing R} {sessionKey : String} {endpoints : List EndpointInfo} {W t₀ : ℚ}

/-- Requests without a session for one list of engines, all within a window that starts at t₀. -/
def Within (sessionKey : String) (endpoints : List EndpointInfo) (W t₀ : ℚ) : Event → Prop
  | .arrive a =>
    a.endpoints = endpoints ∧ SessionRouter.extractSessionId (some sessionKey) a.headers a.requestJson = none ∧
      a.readAt ≤ t₀ + W ∧ t₀ ≤ a.startAt ∧ a.startAt ≤ t₀ + W
  | .progress _ => True
  | .read now => now ≤ t₀ + W

def Event.isArrival : Event → Bool
  | .arrive _ => true
  | _ => false

def arrivals (events : List Event) : Nat := events.countP Event.isArrival

theorem step_inTurn (ring : HashRing R) (hW : 0 < W) (hdistinct : (urls endpoints).Nodup) {n : Nat} {info : EndpointInfo}
    (hinfo : endpoints[n % endpoints.length]? = some info) {s : State R}
    (h : Held W t₀ (inTurn endpoints 0 n) s.requests) {event : Event} (he : Within sessionKey endpoints W t₀ event) :
    (event.isArrival = true ∧ (step ring sessionKey s event).1 = some info.url ∧
        Held W t₀ (inTurn endpoints 0 (n + 1)) (step ring sessionKey s event).2.requests) ∨
      (event.isArrival = false ∧ (step ring sessionKey s event).1 = none ∧
        Held W t₀ (inTurn endpoints 0 n) (step ring sessionKey s event).2.requests) := by
  cases event with
  | arrive a =>
    obtain ⟨rfl, hsession, hread, hstart, hstart'⟩ := he
    have hchoice : (routeRequest ring sessionKey s.hashRing
        (a.call (s.requests.monitor.getRequestStats a.readAt).1)).1 = some info.url := by
      rw [routeRequest]
      simp only [SessionRouter.Call.sessionId, Arrival.call, hsession]
      exact qpsRouting_inTurn hW hdistinct hinfo (counts_reports h.counts hread)
    refine .inl ⟨rfl, ?_, ?_⟩
    · simp only [step, hchoice]
    · simp only [step, hchoice]
      rw [inTurn_concat hinfo]
      exact held_start (held_read h hread) hstart hstart' _ _
  | progress e =>
    cases e with
    | start url id now => exact .inr ⟨rfl, rfl, h⟩
    | _ =>
      refine .inr ⟨rfl, rfl, ?_⟩
      simp only [step]
      exact held_progress h rfl
  | read now => exact .inr ⟨rfl, rfl, held_read h he⟩

theorem outputs_inTurn (hW : 0 < W) (hne : endpoints ≠ []) (hdistinct : (urls endpoints).Nodup) (events : List Event)
    (hevents : ∀ e ∈ events, Within sessionKey endpoints W t₀ e) (n : Nat) (s : State R)
    (h : Held W t₀ (inTurn endpoints 0 n) s.requests) :
    (outputs (step ring sessionKey) s events).reduceOption = inTurn endpoints n (arrivals events) := by
  induction events generalizing n s with
  | nil => rfl
  | cons event events ih =>
    have hlt : n % endpoints.length < endpoints.length := Nat.mod_lt _ (List.length_pos_iff.mpr hne)
    have hinfo := List.getElem?_eq_getElem hlt
    have hrest := ih (fun e he => hevents e (List.mem_cons_of_mem _ he))
    rw [outputs_cons, arrivals, List.countP_cons]
    rcases step_inTurn ring hW hdistinct hinfo h (hevents event List.mem_cons_self) with
      ⟨harrival, hout, hheld⟩ | ⟨harrival, hout, hheld⟩
    · rw [hout, if_pos harrival, List.reduceOption_cons_of_some, hrest _ _ hheld, inTurn_succ hinfo, arrivals]
    · rw [hout, if_neg (by simp [harrival]), List.reduceOption_cons_of_none, hrest _ _ hheld, Nat.add_zero, arrivals]

/-- Within one window of the statistics, routing by the lowest rate sends the
requests without a session to the engines in turn, whatever becomes of the
requests meanwhile and however often the statistics are read. -/
theorem sessionless_requests_take_turns (ring : HashRing R) (sessionKey : String) (W t₀ : ℚ) (hW : 0 < W)
    (endpoints : List EndpointInfo) (hne : endpoints ≠ []) (hdistinct : (urls endpoints).Nodup) (events : List Event)
    (hevents : ∀ e ∈ events, Within sessionKey endpoints W t₀ e) :
    (outputs (step ring sessionKey) (init ring W) events).reduceOption = inTurn endpoints 0 (arrivals events) := by
  refine outputs_inTurn hW hne hdistinct events hevents 0 (init ring W) ⟨counts_init W t₀, ?_⟩
  intro x hx
  cases hx

def twoEngines : List EndpointInfo :=
  ["http://a:8000", "http://b:8000"].map (fun url => ⟨url, ["llama"], url, 0, none, false, none, none, none, []⟩)

def request (requestId : String) (now : ℚ) : Event :=
  .arrive ⟨twoEngines, fun _ => none, [], (SessionRouter.sessionCall [] "").order, requestId, now, now⟩

/-- The first engine is asked again although it still works on its first request and the other has answered. -/
theorem sessionless_requests_take_turns_busy :
    (outputs (step SessionRouter.nameRing "x-user-id") (init SessionRouter.nameRing 60)
      [request "r1" 100, request "r2" 101, .progress (.headers 1), .progress (.finish 1 102 102), .read 103,
        request "r3" 104]).reduceOption = ["http://a:8000", "http://b:8000", "http://a:8000"] := by
  refine (sessionless_requests_take_turns SessionRouter.nameRing "x-user-id" 60 100 (by norm_num) twoEngines (by decide)
    (by decide) _ ?_).trans (by decide)
  simp [Within, request, SessionRouter.extractSessionId]
  norm_num

end Run

end ProductionStack.QpsRouting
