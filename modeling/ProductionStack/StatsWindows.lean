import Mathlib.Data.List.Induction
import Mathlib.Tactic.FieldSimp
import Mathlib.Tactic.Linarith
import ProductionStack.Runs
import ProductionStack.SlidingWindow
import ProductionStack.StatsMonitor

namespace ProductionStack.StatsMonitor

open Runs SlidingWindow

namespace MovingAverageMonitor

variable {W : ℚ} {points : List (ℚ × ℚ)}

def ofPoints (W : ℚ) (points : List (ℚ × ℚ)) : MovingAverageMonitor :=
  ⟨W, points.map Prod.fst, points.map Prod.snd⟩

theorem expire_map (horizon : ℚ) (points : List (ℚ × ℚ)) :
    MovingAverageMonitor.expire horizon (points.map Prod.fst) (points.map Prod.snd) =
      ((SlidingWindow.expire horizon points).map Prod.fst, (SlidingWindow.expire horizon points).map Prod.snd) := by
  induction points with
  | nil => rfl
  | cons p points ih =>
    rw [List.map_cons, List.map_cons, MovingAverageMonitor.expire, SlidingWindow.expire]
    by_cases hp : p.1 < horizon
    · rw [if_pos hp, List.dropWhile_cons_of_pos (by simpa using hp)]
      exact ih
    · rw [if_neg hp, List.dropWhile_cons_of_neg (by simpa using hp)]
      rfl

theorem updateNoValue_ofPoints (t : ℚ) :
    (ofPoints W points).updateNoValue t = ofPoints W (SlidingWindow.expire (t - W) points) := by
  simp only [updateNoValue, ofPoints, expire_map]

theorem update_ofPoints (t v : ℚ) :
    (ofPoints W points).update t v = ofPoints W (SlidingWindow.expire (t - W) (points ++ [(t, v)])) := by
  rw [← updateNoValue_ofPoints]
  simp [update, ofPoints]

inductive Call
  | update (timestamp value : ℚ)
  | updateNoValue (timestamp : ℚ)

def Call.timestamp : Call → ℚ
  | .update timestamp _ => timestamp
  | .updateNoValue timestamp => timestamp

def Call.point : Call → Option (ℚ × ℚ)
  | .update timestamp value => some (timestamp, value)
  | .updateNoValue _ => none

def step : Component MovingAverageMonitor Call Unit := fun m call => ((), match call with
  | .update timestamp value => m.update timestamp value
  | .updateNoValue timestamp => m.updateNoValue timestamp)

def Chronological (calls : List Call) : Prop := calls.Pairwise (fun c d => c.timestamp ≤ d.timestamp)

instance (calls : List Call) : Decidable (Chronological calls) :=
  inferInstanceAs (Decidable (calls.Pairwise (fun c d => c.timestamp ≤ d.timestamp)))

def updates (calls : List Call) : List (ℚ × ℚ) := calls.filterMap Call.point

theorem point_fst {call : Call} {p : ℚ × ℚ} (h : call.point = some p) : p.1 = call.timestamp := by
  cases call with
  | update timestamp value => cases h; rfl
  | updateNoValue timestamp => cases h

theorem ordered_updates {calls : List Call} (h : Chronological calls) : Ordered (updates calls) := by
  refine List.Pairwise.filterMap _ ?_ h
  intro c d hcd p hp q hq
  rw [point_fst hp, point_fst hq]
  exact hcd

theorem step_ofPoints {h : ℚ} {call : Call} (hle : h ≤ call.timestamp - W) (hordered : Ordered (points ++ call.point.toList)) :
    (step (ofPoints W (window h points)) call).2 =
      ofPoints W (window (call.timestamp - W) (points ++ call.point.toList)) := by
  cases call with
  | update timestamp value =>
    exact (update_ofPoints timestamp value).trans (congrArg _ (expire_window_append hordered hle))
  | updateNoValue timestamp =>
    rw [Call.point, Option.toList_none, List.append_nil] at hordered ⊢
    exact (updateNoValue_ofPoints timestamp).trans (congrArg _ (expire_window hordered hle))

theorem updates_concat (calls : List Call) (call : Call) :
    updates (calls ++ [call]) = updates calls ++ call.point.toList := by
  cases hp : call.point <;> simp [updates, hp]

/-- By induction from the right: the window the last call but one left is no later than the one it is moved to. -/
theorem final_eq_window (W : ℚ) (calls : List Call) (call : Call) (h : Chronological (calls ++ [call])) :
    final step ⟨W, [], []⟩ (calls ++ [call]) =
      ofPoints W (window (call.timestamp - W) (updates (calls ++ [call]))) := by
  have hordered := ordered_updates h
  rw [updates_concat] at hordered ⊢
  rw [final_append, final_cons, final_nil]
  induction calls using List.reverseRecOn generalizing call with
  | nil =>
    have hstep := step_ofPoints (le_refl (call.timestamp - W)) hordered
    exact hstep
  | append_singleton calls before ih =>
    obtain ⟨hbefore, -, hcross⟩ := List.pairwise_append.mp h
    have hle : before.timestamp ≤ call.timestamp := hcross before (by simp) call (by simp)
    rw [final_append, final_cons, final_nil, ih before hbefore (updates_concat calls before ▸ ordered_updates hbefore),
      ← updates_concat]
    exact step_ofPoints (sub_le_sub_right hle W) hordered

end MovingAverageMonitor

namespace RequestStatsMonitor

/-- A call from the outside. A completion reads the clock a second time, as now. -/
inductive Call
  | newRequest (engineUrl requestId : String) (timestamp : ℚ)
  | response (engineUrl requestId : String) (timestamp : ℚ)
  | complete (engineUrl requestId : String) (timestamp now : ℚ)
  | swapped (engineUrl requestId : String) (timestamp : ℚ)
  | read (currentTime : ℚ)

def Call.timestamp : Call → ℚ
  | .newRequest _ _ timestamp | .response _ _ timestamp | .complete _ _ timestamp _ | .swapped _ _ timestamp => timestamp
  | .read currentTime => currentTime

def Call.isUpdate : Call → Bool
  | .read _ => false
  | _ => true

/-- The entries that an update leaves at the keys it assigns. -/
structure Written where
  startTime : Option ℚ := none
  firstToken : Option ℚ := none
  inPrefill : Option Int := none
  inDecoding : Option Int := none
  finished : Option Int := none
  swapped : Option Int := none
  qps : Option MovingAverageMonitor := none
  ttft : Option MovingAverageMonitor := none
  latency : Option MovingAverageMonitor := none
  firstQueryTime : Option ℚ := none
  deriving DecidableEq

/-- What an update has assigned, read in the state it leaves. A response to a request that is not known
assigns nothing. -/
def written (m : RequestStatsMonitor) : Call → Written
  | .newRequest url id _ =>
    { startTime := m.requestStartTime.get? (url, id), inPrefill := m.inPrefillRequests.get? url
      qps := m.qpsMonitors.get? url, latency := m.latencyMonitors.get? url, firstQueryTime := m.firstQueryTime }
  | .response url id _ =>
    match m.requestStartTime.get? (url, id) with
    | none => {}
    | some _ =>
      { firstToken := m.firstTokenTime.get? (url, id), inPrefill := m.inPrefillRequests.get? url
        inDecoding := m.inDecodingRequests.get? url, ttft := m.ttftMonitors.get? url }
  | .complete url _ _ _ =>
    { inDecoding := m.inDecodingRequests.get? url, finished := m.finishedRequests.get? url
      latency := m.latencyMonitors.get? url }
  | .swapped url _ _ => { swapped := m.swappedRequests.get? url }
  | .read _ => {}

inductive Answer
  | updated (written : Written)
  | stats (stats : Dict String RequestStats)

def apply (m : RequestStatsMonitor) : Call → RequestStatsMonitor
  | .newRequest url id t => m.onNewRequest url id t
  | .response url id t => m.onRequestResponse url id t
  | .complete url id t now => m.onRequestComplete url id t now
  | .swapped url _ _ => m.onRequestSwapped url
  | .read t => (m.getRequestStats t).2

def step : Component RequestStatsMonitor Call Answer := fun m call =>
  (match call with
    | .read t => .stats (m.getRequestStats t).1
    | call => .updated ((m.apply call).written call), m.apply call)

def init (W : ℚ) : RequestStatsMonitor := { slidingWindowSize := W }

def Chronological (calls : List Call) : Prop := calls.Pairwise (fun c d => c.timestamp ≤ d.timestamp)

instance (calls : List Call) : Decidable (Chronological calls) :=
  inferInstanceAs (Decidable (calls.Pairwise (fun c d => c.timestamp ≤ d.timestamp)))

def Until (calls : List Call) (t : ℚ) : Prop := ∀ c ∈ calls, c.timestamp ≤ t

instance (calls : List Call) (t : ℚ) : Decidable (Until calls t) :=
  inferInstanceAs (Decidable (∀ c ∈ calls, c.timestamp ≤ t))

def startOf (calls : List Call) (url id : String) : Option ℚ :=
  calls.foldl (fun start call => match call with
    | .newRequest u i t => if u = url ∧ i = id then some t else start
    | _ => start) none

/-- The points a call gives to a monitor, with what was called before it. -/
abbrev Points := List Call → Call → Option (ℚ × ℚ)

def arrivals (url : String) : Points := fun _ call =>
  match call with
  | .newRequest u _ t => if u = url then some (t, 1) else none
  | _ => none

/-- The time to the first token of a request that was announced. -/
def firstTokens (url : String) : Points := fun past call =>
  match call with
  | .response u id t => if u = url then (startOf past u id).map (fun start => (t, t - start)) else none
  | _ => none

/-- The whole time of a request that was announced, at a time other than 0: the code tests the
recorded time for truth. -/
def latencies (url : String) : Points := fun past call =>
  match call with
  | .complete u id t now =>
    if u = url then ((startOf past u id).filter (· ≠ 0)).map (fun start => (t, now - start)) else none
  | _ => none

def recordedFrom (points : Points) : List Call → List Call → List (ℚ × ℚ)
  | _, [] => []
  | past, call :: calls => (points past call).toList ++ recordedFrom points (past ++ [call]) calls

/-- The points all calls of a run give to a monitor, from its first call on. -/
def recorded (points : Points) (calls : List Call) : List (ℚ × ℚ) := recordedFrom points [] calls

def windowed (W t : ℚ) (points : List (ℚ × ℚ)) : List ℚ :=
  (points.filter (fun p => t - W ≤ p.1 ∧ p.1 ≤ t)).map Prod.snd

def mean (values : List ℚ) : ℚ := if values = [] then -1 else values.sum / values.length

theorem recordedFrom_concat (points : Points) (past calls : List Call) (call : Call) :
    recordedFrom points past (calls ++ [call]) = recordedFrom points past calls ++ (points (past ++ calls) call).toList := by
  induction calls generalizing past with
  | nil => simp [recordedFrom]
  | cons c calls ih => simp [recordedFrom, ih]

theorem recorded_concat (points : Points) (calls : List Call) (call : Call) :
    recorded points (calls ++ [call]) = recorded points calls ++ (points calls call).toList :=
  recordedFrom_concat points [] calls call

def Stamped (points : Points) : Prop := ∀ past call p, points past call = some p → p.1 = call.timestamp

theorem stamped_arrivals (url : String) : Stamped (arrivals url) := by
  intro past call p hp
  cases call with
  | newRequest u id t =>
    obtain ⟨-, hp⟩ := Option.ite_none_right_eq_some.mp hp
    cases hp
    rfl
  | _ => cases hp

theorem stamped_firstTokens (url : String) : Stamped (firstTokens url) := by
  intro past call p hp
  cases call with
  | response u id t =>
    obtain ⟨-, hp⟩ := Option.ite_none_right_eq_some.mp hp
    obtain ⟨start, -, rfl⟩ := Option.map_eq_some_iff.mp hp
    rfl
  | _ => cases hp

theorem stamped_latencies (url : String) : Stamped (latencies url) := by
  intro past call p hp
  cases call with
  | complete u id t now =>
    obtain ⟨-, hp⟩ := Option.ite_none_right_eq_some.mp hp
    obtain ⟨start, -, rfl⟩ := Option.map_eq_some_iff.mp hp
    rfl
  | _ => cases hp

theorem chronological_concat {calls : List Call} {call : Call} :
    Chronological (calls ++ [call]) ↔ Chronological calls ∧ Until calls call.timestamp := by
  simp [Chronological, Until, List.pairwise_append]

section Recorded

variable {points : Points} {calls : List Call} {t : ℚ}

theorem recorded_until (hpoints : Stamped points) (h : Until calls t) : ∀ p ∈ recorded points calls, p.1 ≤ t := by
  induction calls using List.reverseRecOn with
  | nil => exact List.forall_mem_nil _
  | append_singleton calls call ih =>
    intro p hp
    rw [recorded_concat, List.mem_append] at hp
    rcases hp with hp | hp
    · exact ih (fun c hc => h c (List.mem_append_left _ hc)) p hp
    · rw [hpoints calls call p (by simpa using hp)]
      exact h call (by simp)

theorem ordered_recorded (hpoints : Stamped points) (h : Chronological calls) : Ordered (recorded points calls) := by
  induction calls using List.reverseRecOn with
  | nil => exact List.Pairwise.nil
  | append_singleton calls call ih =>
    obtain ⟨hcalls, huntil⟩ := chronological_concat.mp h
    rw [recorded_concat]
    refine List.pairwise_append.mpr ⟨ih hcalls, ?_, ?_⟩
    · cases points calls call <;> simp
    · intro p hp q hq
      rw [hpoints calls call q (by simpa using hq)]
      exact recorded_until hpoints huntil p hp

theorem windowed_eq (hpoints : Stamped points) (h : Until calls t) (W : ℚ) :
    windowed W t (recorded points calls) = (window (t - W) (recorded points calls)).map Prod.snd := by
  rw [windowed, window]
  refine congrArg _ (List.filter_congr ?_)
  intro p hp
  simp [recorded_until hpoints h p hp]

end Recorded

def engines (m : RequestStatsMonitor) : List String := (m.inPrefillRequests.keys ++ m.inDecodingRequests.keys).dedup

section Read

variable {m : RequestStatsMonitor} {url other : String} {t : ℚ}

theorem get?_expireWindow (d : Dict String MovingAverageMonitor) (url other : String) (t : ℚ) :
    (expireWindow d other t).get? url =
      if url = other then (d.get? url).map (fun w => w.updateNoValue t) else d.get? url := by
  by_cases h : url = other
  · subst h
    cases hget : d.get? url <;> simp [expireWindow, hget]
  · cases hget : d.get? other <;> simp [expireWindow, hget, h, Dict.get?_set_of_ne]

theorem get?_foldl_expireWindow (urls : List String) (h : urls.Nodup) (d : Dict String MovingAverageMonitor) :
    (urls.foldl (fun d u => expireWindow d u t) d).get? url =
      if url ∈ urls then (d.get? url).map (fun w => w.updateNoValue t) else d.get? url := by
  induction urls generalizing d with
  | nil => simp
  | cons u urls ih =>
    obtain ⟨hu, hurls⟩ := List.nodup_cons.mp h
    rw [List.foldl_cons, ih hurls, get?_expireWindow]
    by_cases heq : url = u
    · subst heq
      simp [hu]
    · simp [heq]

theorem engineStats_engineStats (h : url ≠ other) :
    ((m.engineStats other t).2.engineStats url t).1 = (m.engineStats url t).1 := by
  simp only [engineStats, get?_expireWindow, if_neg h, if_true]

theorem getRequestStats_eq (m : RequestStatsMonitor) (t : ℚ) :
    m.getRequestStats t =
      (.ofList (m.engines.map (fun url => (url, (m.engineStats url t).1))),
        { m with
          qpsMonitors := m.engines.foldl (fun d u => expireWindow d u t) m.qpsMonitors
          ttftMonitors := m.engines.foldl (fun d u => expireWindow d u t) m.ttftMonitors }) := by
  have hfold : ∀ (urls : List String) (d : Dict String RequestStats) (m : RequestStatsMonitor), urls.Nodup →
      urls.foldl (fun r url => (r.1.set url (r.2.engineStats url t).1, (r.2.engineStats url t).2)) (d, m) =
        ((urls.map (fun url => (url, (m.engineStats url t).1))).foldl (fun d e => d.set e.1 e.2) d,
          { m with
            qpsMonitors := urls.foldl (fun d u => expireWindow d u t) m.qpsMonitors
            ttftMonitors := urls.foldl (fun d u => expireWindow d u t) m.ttftMonitors }) := by
    intro urls
    induction urls with
    | nil => exact fun d m _ => rfl
    | cons u urls ih =>
      intro d m h
      obtain ⟨hu, hurls⟩ := List.nodup_cons.mp h
      have hrest : urls.map (fun url => (url, ((m.engineStats u t).2.engineStats url t).1)) =
          urls.map (fun url => (url, (m.engineStats url t).1)) := by
        apply List.map_congr_left
        intro url hurl
        have hne : url ≠ u := fun heq => hu (heq ▸ hurl)
        rw [engineStats_engineStats hne]
      rw [List.foldl_cons, ih _ _ hurls, hrest]
      rfl
  exact hfold m.engines .empty m (List.nodup_dedup _)

theorem get?_getRequestStats (m : RequestStatsMonitor) (t : ℚ) (url : String) :
    (m.getRequestStats t).1.get? url = if url ∈ m.engines then some (m.engineStats url t).1 else none := by
  rw [getRequestStats_eq]
  exact Dict.get?_ofList_map _ _ _

end Read

def after (W : ℚ) (calls : List Call) : RequestStatsMonitor := final step (init W) calls

section After

theorem after_concat (W : ℚ) (calls : List Call) (call : Call) : after W (calls ++ [call]) = (after W calls).apply call := by
  rw [after, final_append]
  rfl

theorem after_slidingWindowSize (W : ℚ) (calls : List Call) : (after W calls).slidingWindowSize = W := by
  induction calls using List.reverseRecOn with
  | nil => rfl
  | append_singleton calls call ih =>
    rw [after_concat]
    cases call with
    | response url id t =>
      rw [apply, onRequestResponse]
      split <;> exact ih
    | read t =>
      rw [apply, getRequestStats_eq]
      exact ih
    | _ => exact ih

theorem startOf_concat (calls : List Call) (call : Call) (url id : String) :
    startOf (calls ++ [call]) url id = match call with
      | .newRequest u i t => if u = url ∧ i = id then some t else startOf calls url id
      | _ => startOf calls url id := by
  rw [startOf, List.foldl_append]
  rfl

theorem after_requestStartTime (W : ℚ) (calls : List Call) (url id : String) :
    (after W calls).requestStartTime.get? (url, id) = startOf calls url id := by
  induction calls using List.reverseRecOn with
  | nil => rfl
  | append_singleton calls call ih =>
    rw [after_concat, startOf_concat]
    cases call with
    | newRequest u i t =>
      simp only [apply, onNewRequest, Dict.get?_set, Prod.mk.injEq, eq_comm, ih]
    | response u i t =>
      rw [apply, onRequestResponse]
      split <;> exact ih
    | read t =>
      rw [apply, getRequestStats_eq]
      exact ih
    | _ => exact ih

end After

section Windows

variable {W t : ℚ} {w w' : Option MovingAverageMonitor} {samples : List (ℚ × ℚ)}

/-- The monitor holds a window of the samples that is no later than the one that ends at t, and is there
once there is a sample. -/
def Keeps (W t : ℚ) (w : Option MovingAverageMonitor) (samples : List (ℚ × ℚ)) : Prop :=
  (w = none ∧ samples = []) ∨
    samples ≠ [] ∧ ∃ horizon ≤ t - W, w = some (.ofPoints W (window horizon samples))

/-- What one call at time t does to the monitor: it gives it the point, or it leaves it, or it moves its window. -/
def Moved (W t : ℚ) : Option (ℚ × ℚ) → Option MovingAverageMonitor → Option MovingAverageMonitor → Prop
  | some p, w, w' => w' = some ((w.getD ⟨W, [], []⟩).update p.1 p.2)
  | none, w, w' => w' = w ∨ w' = w.map (fun w => w.updateNoValue t)

theorem Keeps.mono {t' : ℚ} (h : Keeps W t w samples) (hle : t ≤ t') : Keeps W t' w samples := by
  rcases h with h | ⟨hne, horizon, hhorizon, hw⟩
  · exact .inl h
  · exact .inr ⟨hne, horizon, le_trans hhorizon (sub_le_sub_right hle W), hw⟩

theorem Keeps.read_eq (h : Keeps W t w samples) (hordered : Ordered samples) :
    w.map (fun w => w.updateNoValue t) = if samples = [] then none else some (.ofPoints W (window (t - W) samples)) := by
  rcases h with ⟨rfl, rfl⟩ | ⟨hne, horizon, hle, rfl⟩
  · rfl
  · rw [Option.map_some, MovingAverageMonitor.updateNoValue_ofPoints, expire_window hordered hle, if_neg hne]

theorem Keeps.read_unique (h : Keeps W t w samples) (h' : Keeps W t w' samples) (hordered : Ordered samples) :
    w.map (fun w => w.updateNoValue t) = w'.map (fun w => w.updateNoValue t) := by
  rw [h.read_eq hordered, h'.read_eq hordered]

theorem Keeps.update_eq {v : ℚ} (h : Keeps W t w samples) (hordered : Ordered (samples ++ [(t, v)])) :
    (w.getD ⟨W, [], []⟩).update t v = .ofPoints W (window (t - W) (samples ++ [(t, v)])) := by
  rcases h with ⟨rfl, rfl⟩ | ⟨-, horizon, hle, rfl⟩
  · have hempty : (MovingAverageMonitor.ofPoints W []).update t v = _ := MovingAverageMonitor.update_ofPoints t v
    exact hempty.trans (congrArg _ (expire_eq_window hordered))
  · exact (MovingAverageMonitor.update_ofPoints t v).trans (congrArg _ (expire_window_append hordered hle))

theorem Keeps.moved {point : Option (ℚ × ℚ)} (h : Keeps W t w samples) (hpoint : ∀ p, point = some p → p.1 = t)
    (hordered : Ordered (samples ++ point.toList)) (hmoved : Moved W t point w w') :
    Keeps W t w' (samples ++ point.toList) := by
  cases point with
  | none =>
    rw [Option.toList_none, List.append_nil] at hordered ⊢
    rcases hmoved with rfl | rfl
    · exact h
    · rw [h.read_eq hordered]
      by_cases hs : samples = []
      · exact .inl ⟨if_pos hs, hs⟩
      · exact .inr ⟨hs, t - W, le_rfl, if_neg hs⟩
  | some p =>
    obtain ⟨t', v⟩ := p
    obtain rfl : t' = t := hpoint (t', v) rfl
    exact .inr ⟨by simp, t' - W, le_rfl, hmoved.trans (congrArg some (h.update_eq hordered))⟩

theorem keeps_final {points : Points} (hpoints : Stamped points) (get : RequestStatsMonitor → Option MovingAverageMonitor)
    (hinit : get (init W) = none)
    (hmoved : ∀ calls call,
      Moved W call.timestamp (points calls call) (get (after W calls)) (get ((after W calls).apply call)))
    {calls : List Call} (hcalls : Chronological calls) (ht : Until calls t) :
    Keeps W t (get (after W calls)) (recorded points calls) := by
  induction calls using List.reverseRecOn generalizing t with
  | nil => exact .inl ⟨hinit, rfl⟩
  | append_singleton calls call ih =>
    have hordered := ordered_recorded hpoints hcalls
    obtain ⟨hbefore, huntil⟩ := chronological_concat.mp hcalls
    rw [recorded_concat] at hordered ⊢
    rw [after_concat]
    exact ((ih hbefore huntil).moved (hpoints calls call) hordered (hmoved calls call)).mono (ht call (by simp))

theorem window_of_given {points : Points} (hpoints : Stamped points) (get : RequestStatsMonitor → Option MovingAverageMonitor)
    (hkeeps : ∀ {calls t}, Chronological calls → Until calls t → Keeps W t (get (after W calls)) (recorded points calls))
    {calls : List Call} {call : Call} {p : ℚ × ℚ} (hp : points calls call = some p)
    (hmoved : Moved W call.timestamp (points calls call) (get (after W calls)) (get ((after W calls).apply call)))
    (hcalls : Chronological (calls ++ [call])) :
    get (after W (calls ++ [call])) =
      some (.ofPoints W (window (call.timestamp - W) (recorded points (calls ++ [call])))) := by
  have hordered := ordered_recorded hpoints hcalls
  obtain ⟨hbefore, huntil⟩ := chronological_concat.mp hcalls
  obtain ⟨t, v⟩ := p
  obtain rfl : t = call.timestamp := hpoints calls call _ hp
  rw [recorded_concat, hp] at hordered ⊢
  rw [hp] at hmoved
  rw [after_concat]
  exact hmoved.trans (congrArg some ((hkeeps hbefore huntil).update_eq hordered))

theorem moved_expireWindow (d : Dict String MovingAverageMonitor) (urls : List String) (h : urls.Nodup) (url : String) :
    Moved W t none (d.get? url) ((urls.foldl (fun d u => expireWindow d u t) d).get? url) := by
  rw [get?_foldl_expireWindow urls h]
  split
  · exact .inr rfl
  · exact .inl rfl

theorem moved_arrivals (W : ℚ) (url : String) (calls : List Call) (call : Call) :
    Moved W call.timestamp (arrivals url calls call) ((after W calls).qpsMonitors.get? url)
      (((after W calls).apply call).qpsMonitors.get? url) := by
  cases call with
  | newRequest u id t =>
    by_cases hu : u = url
    · subst hu
      simp [Moved, arrivals, apply, onNewRequest, monitorOf, after_slidingWindowSize, Dict.getD]
    · simp [Moved, arrivals, apply, onNewRequest, hu, Dict.get?_set_of_ne _ _ (Ne.symm hu)]
  | response u id t =>
    refine .inl ?_
    rw [apply, onRequestResponse]
    split <;> rfl
  | read t =>
    rw [apply, getRequestStats_eq]
    exact moved_expireWindow _ _ (List.nodup_dedup _) url
  | _ => exact .inl rfl

theorem moved_firstTokens (W : ℚ) (url : String) (calls : List Call) (call : Call) :
    Moved W call.timestamp (firstTokens url calls call) ((after W calls).ttftMonitors.get? url)
      (((after W calls).apply call).ttftMonitors.get? url) := by
  cases call with
  | response u id t =>
    rw [apply, onRequestResponse, after_requestStartTime]
    cases hstart : startOf calls u id with
    | none => simp [Moved, firstTokens, hstart]
    | some start =>
      by_cases hu : u = url
      · subst hu
        simp [Moved, firstTokens, hstart, monitorOf, after_slidingWindowSize, Dict.getD]
      · simp [Moved, firstTokens, hu, Dict.get?_set_of_ne _ _ (Ne.symm hu)]
  | read t =>
    rw [apply, getRequestStats_eq]
    exact moved_expireWindow _ _ (List.nodup_dedup _) url
  | _ => exact .inl rfl

theorem keeps_arrivals {calls : List Call} (hcalls : Chronological calls) (ht : Until calls t) (W : ℚ) (url : String) :
    Keeps W t ((after W calls).qpsMonitors.get? url) (recorded (arrivals url) calls) :=
  keeps_final (stamped_arrivals url) (fun m => m.qpsMonitors.get? url) rfl (moved_arrivals W url) hcalls ht

theorem keeps_firstTokens {calls : List Call} (hcalls : Chronological calls) (ht : Until calls t) (W : ℚ) (url : String) :
    Keeps W t ((after W calls).ttftMonitors.get? url) (recorded (firstTokens url) calls) :=
  keeps_final (stamped_firstTokens url) (fun m => m.ttftMonitors.get? url) rfl (moved_firstTokens W url) hcalls ht

/-- The window as it was when the last of the points came in. -/
def latest (W : ℚ) (points : List (ℚ × ℚ)) : List (ℚ × ℚ) :=
  match points.getLast? with
  | none => []
  | some last => window (last.1 - W) points

theorem expire_latest {v : ℚ} (hordered : Ordered (samples ++ [(t, v)])) :
    SlidingWindow.expire (t - W) (latest W samples ++ [(t, v)]) = latest W (samples ++ [(t, v)]) := by
  have hwindow : latest W (samples ++ [(t, v)]) = window (t - W) (samples ++ [(t, v)]) := by simp [latest]
  rw [hwindow]
  cases hlast : samples.getLast? with
  | none =>
    rw [List.getLast?_eq_none_iff.mp hlast] at hordered ⊢
    exact expire_eq_window hordered
  | some last =>
    have hle : last.1 ≤ t :=
      (List.pairwise_append.mp hordered).2.2 last (List.mem_of_getLast? hlast) (t, v) (by simp)
    simp only [latest, hlast]
    exact expire_window_append hordered (sub_le_sub_right hle W)

theorem latencyMonitor_apply (W : ℚ) (url : String) (calls : List Call) (call : Call) :
    (((after W calls).apply call).latencyMonitors.get? url).getD ⟨W, [], []⟩ =
      let w := ((after W calls).latencyMonitors.get? url).getD ⟨W, [], []⟩
      match latencies url calls call with
      | none => w
      | some p => w.update p.1 p.2 := by
  cases call with
  | newRequest u id t =>
    by_cases hu : u = url
    · subst hu
      simp [latencies, apply, onNewRequest, monitorOf, after_slidingWindowSize, Dict.getD]
    · simp [latencies, apply, onNewRequest, Dict.get?_set_of_ne _ _ (Ne.symm hu)]
  | response u id t =>
    rw [apply, onRequestResponse]
    split <;> rfl
  | complete u id t now =>
    rw [apply, onRequestComplete, after_requestStartTime]
    cases hstart : startOf calls u id with
    | none => simp [latencies, hstart]
    | some start =>
      by_cases hzero : start = 0
      · simp [latencies, hstart, hzero, Option.filter_some]
      · by_cases hu : u = url
        · subst hu
          simp [latencies, hstart, hzero, Option.filter_some, monitorOf, after_slidingWindowSize, Dict.getD]
        · simp [latencies, hzero, hu, Dict.get?_set_of_ne _ _ (Ne.symm hu)]
  | read t =>
    rw [apply, getRequestStats_eq]
    rfl
  | swapped u id t => rfl

theorem latencyMonitor_eq {calls : List Call} (hcalls : Chronological calls) (W : ℚ) (url : String) :
    ((after W calls).latencyMonitors.get? url).getD ⟨W, [], []⟩ = .ofPoints W (latest W (recorded (latencies url) calls)) := by
  induction calls using List.reverseRecOn with
  | nil => rfl
  | append_singleton calls call ih =>
    have hordered := ordered_recorded (stamped_latencies url) hcalls
    rw [recorded_concat] at hordered ⊢
    rw [after_concat, latencyMonitor_apply, ih (chronological_concat.mp hcalls).1]
    cases hpoint : latencies url calls call with
    | none => simp
    | some p =>
      rw [hpoint] at hordered
      exact (MovingAverageMonitor.update_ofPoints p.1 p.2).trans (congrArg _ (expire_latest hordered))

end Windows

section Results

variable {W t : ℚ} {calls : List Call} {url : String}

theorem getAverage_ofPoints (W : ℚ) (points : List (ℚ × ℚ)) :
    (MovingAverageMonitor.ofPoints W points).getAverage = mean (points.map Prod.snd) := rfl

theorem ttft_eq (hcalls : Chronological calls) (ht : Until calls t) :
    ((after W calls).engineStats url t).1.ttft = mean (windowed W t (recorded (firstTokens url) calls)) := by
  have hread := (keeps_firstTokens hcalls ht W url).read_eq (ordered_recorded (stamped_firstTokens url) hcalls)
  rw [windowed_eq (stamped_firstTokens url) ht]
  simp only [engineStats, get?_expireWindow, if_true, hread]
  by_cases hs : recorded (firstTokens url) calls = []
  · rw [if_pos hs, hs]
    rfl
  · rw [if_neg hs]
    rfl

theorem avgLatency_eq (hcalls : Chronological calls) :
    ((after W calls).engineStats url t).1.avgLatency =
      mean ((latest W (recorded (latencies url) calls)).map Prod.snd) := by
  have hmonitor := latencyMonitor_eq hcalls W url
  rw [← getAverage_ofPoints W, ← hmonitor]
  simp only [engineStats]
  cases (after W calls).latencyMonitors.get? url <;> rfl

/-- What reads after the window has moved on still average, besides the window that ends at t: the
values from the window the last of the points left. -/
def stale (W t : ℚ) (points : List (ℚ × ℚ)) : List ℚ :=
  match points.getLast? with
  | none => []
  | some last => (points.filter (fun p => last.1 - W ≤ p.1 ∧ p.1 < t - W)).map Prod.snd

theorem latest_eq {points : List (ℚ × ℚ)} (hordered : Ordered points) (ht : ∀ p ∈ points, p.1 ≤ t) (W : ℚ) :
    (latest W points).map Prod.snd = stale W t points ++ (window (t - W) points).map Prod.snd := by
  cases hlast : points.getLast? with
  | none =>
    rw [List.getLast?_eq_none_iff.mp hlast]
    rfl
  | some last =>
    have hle : last.1 - W ≤ t - W := sub_le_sub_right (ht last (List.mem_of_getLast? hlast)) W
    have hstale : (window (last.1 - W) points).filter (fun p => p.1 < t - W) =
        points.filter (fun p => last.1 - W ≤ p.1 ∧ p.1 < t - W) := by
      rw [window, List.filter_filter]
      apply List.filter_congr
      intro p _
      simp [Bool.and_comm]
    simp only [latest, stale, hlast]
    rw [← List.map_append, ← hstale, ← window_window hle, before_append_window (hordered.window _)]

theorem mean_append (a b : List ℚ) : mean (a ++ b) = mean b ↔ a = [] ∨ mean a = mean b := by
  by_cases ha : a = []
  · simp [ha]
  · by_cases hb : b = []
    · simp [ha, hb]
    · have hal : (a.length : ℚ) ≠ 0 := by simpa using ha
      have hbl : (b.length : ℚ) ≠ 0 := by simpa using hb
      have hl : (a.length : ℚ) + b.length ≠ 0 := by
        have hpos : 0 < a.length := List.length_pos_iff.mpr ha
        positivity
      simp only [mean, ha, hb, List.append_eq_nil_iff, and_self, if_false, List.sum_append, List.length_append,
        Nat.cast_add, false_or]
      rw [div_eq_div_iff hl hbl, div_eq_div_iff hal hbl]
      constructor <;> intro h <;> linarith

def Call.announces (url : String) : Call → Bool
  | .newRequest u _ _ => u = url
  | _ => false

def requestsIn (W t : ℚ) (url : String) (calls : List Call) : Nat :=
  calls.countP (fun c => c.announces url && (t - W ≤ c.timestamp ∧ c.timestamp ≤ t))

theorem arrivals_of_announces {call : Call} (h : call.announces url = true) (past : List Call) :
    arrivals url past call = some (call.timestamp, 1) := by
  cases call with
  | newRequest u id t => simpa [arrivals, Call.announces, Call.timestamp] using h
  | _ => cases h

theorem arrivals_of_not_announces {call : Call} (h : call.announces url = false) (past : List Call) :
    arrivals url past call = none := by
  cases call with
  | newRequest u id t => simpa [arrivals, Call.announces] using h
  | _ => rfl

theorem sum_windowed_arrivals (W t : ℚ) (url : String) (calls : List Call) :
    (windowed W t (recorded (arrivals url) calls)).sum = requestsIn W t url calls := by
  induction calls using List.reverseRecOn with
  | nil => rfl
  | append_singleton calls call ih =>
    rw [recorded_concat, windowed, List.filter_append, List.map_append, List.sum_append, requestsIn,
      List.countP_append, Nat.cast_add]
    refine congrArg₂ (· + ·) ih ?_
    cases h : call.announces url with
    | true =>
      rw [arrivals_of_announces h, Option.toList_some, List.filter_singleton, List.countP_singleton, h, Bool.true_and]
      cases decide (t - W ≤ call.timestamp ∧ call.timestamp ≤ t) <;> simp
    | false =>
      rw [arrivals_of_not_announces h]
      simp [h]

theorem recorded_arrivals_eq_nil {url : String} {calls : List Call} :
    recorded (arrivals url) calls = [] ↔ ∀ c ∈ calls, c.announces url = false := by
  induction calls using List.reverseRecOn with
  | nil => simp [recorded, recordedFrom]
  | append_singleton calls call ih =>
    rw [recorded_concat, List.append_eq_nil_iff, ih, List.forall_mem_append, List.forall_mem_singleton]
    refine and_congr_right (fun _ => ?_)
    cases h : call.announces url with
    | true => simp [arrivals_of_announces h]
    | false => simp [arrivals_of_not_announces h]

theorem qps_eq (hcalls : Chronological calls) (ht : Until calls t) :
    ((after W calls).engineStats url t).1.qps =
      if ∀ c ∈ calls, c.announces url = false then -1 else requestsIn W t url calls / W := by
  have hread := (keeps_arrivals hcalls ht W url).read_eq (ordered_recorded (stamped_arrivals url) hcalls)
  simp only [engineStats, get?_expireWindow, if_true, hread, after_slidingWindowSize, recorded_arrivals_eq_nil]
  by_cases hs : ∀ c ∈ calls, c.announces url = false
  · rw [if_pos hs, if_pos hs]
  · rw [if_neg hs, if_neg hs, ← sum_windowed_arrivals, windowed_eq (stamped_arrivals url) ht]
    rfl

/-- The two queues hold the updates of the window, no more and no less. An engine that is reported has
its requests of the window counted if it was ever sent one; one that is known from completions only is
reported with the rate -1. -/
theorem sliding_window_exact (W : ℚ) (hW : 0 < W) :
    (∀ (calls : List MovingAverageMonitor.Call) (call : MovingAverageMonitor.Call),
      MovingAverageMonitor.Chronological (calls ++ [call]) →
      let held := (MovingAverageMonitor.updates (calls ++ [call])).filter (fun p => call.timestamp - W ≤ p.1)
      let m := final MovingAverageMonitor.step ⟨W, [], []⟩ (calls ++ [call])
      m.timestamps = held.map Prod.fst ∧ m.values = held.map Prod.snd) ∧
    (∀ (calls : List Call) (t : ℚ) (url : String) (stats : RequestStats), Chronological calls → Until calls t →
      ((after W calls).getRequestStats t).1.get? url = some stats →
      ((∃ c ∈ calls, c.announces url = true) → stats.qps * W = requestsIn W t url calls) ∧
      ((∀ c ∈ calls, c.announces url = false) → stats.qps = -1)) := by
  constructor
  · intro calls call h
    rw [MovingAverageMonitor.final_eq_window W calls call h]
    exact ⟨rfl, rfl⟩
  · intro calls t url stats hcalls ht hstats
    rw [get?_getRequestStats] at hstats
    obtain ⟨-, hstats⟩ := Option.ite_none_right_eq_some.mp hstats
    cases hstats
    rw [qps_eq hcalls ht]
    constructor
    · rintro ⟨c, hc, hannounces⟩
      rw [if_neg (fun hnone => by simp [hnone c hc] at hannounces), div_mul_cancel₀ _ hW.ne']
    · exact fun hnone => if_pos hnone

theorem sliding_window_exact_sixty :
    (final MovingAverageMonitor.step ⟨60, [], []⟩ [.update 0 5, .update 50 7, .updateNoValue 100]).values = [7] ∧
      ∃ stats, ((after 60 [.newRequest "http://a:8000" "r1" 1, .newRequest "http://a:8000" "r2" 50]).getRequestStats
        70).1.get? "http://a:8000" = some stats ∧ stats.qps * 60 = 1 := by
  obtain ⟨hmonitor, hreported⟩ := sliding_window_exact 60 (by decide)
  constructor
  · exact (hmonitor [.update 0 5, .update 50 7] (.updateNoValue 100) (by decide)).2.trans (by decide +kernel)
  · obtain ⟨stats, hstats⟩ := Option.isSome_iff_exists.mp (show (((after 60 [.newRequest "http://a:8000" "r1" 1,
      .newRequest "http://a:8000" "r2" 50]).getRequestStats 70).1.get? "http://a:8000").isSome = true by decide +kernel)
    refine ⟨stats, hstats, ?_⟩
    exact ((hreported _ 70 "http://a:8000" stats (by decide) (by decide) hstats).1
      ⟨.newRequest "http://a:8000" "r1" 1, by simp, by decide⟩).trans (by decide +kernel)

/-- A completion for an engine that was sent nothing makes it known, with the rate -1. -/
theorem completion_without_request :
    ¬ ∀ (W : ℚ), 0 < W → ∀ (calls : List Call) (t : ℚ) (url : String) (stats : RequestStats),
      Chronological calls → Until calls t → ((after W calls).getRequestStats t).1.get? url = some stats →
      stats.qps * W = requestsIn W t url calls := by
  intro h
  have hqps := h 60 (by decide) [.complete "http://a:8000" "r1" 1 1] 2 "http://a:8000" ⟨-1, -1, 0, 0, 1, 0, -1, -1, -1, 0⟩
    (by decide) (by decide) (by decide +kernel)
  exact absurd hqps (by decide +kernel)

/-- The time to first token is averaged over the window. The latency is exactly when what the window of
the last completion holds from before it is nothing, or averages to the same. -/
theorem averages_windowed_iff (W : ℚ) (calls : List Call) (t : ℚ) (url : String) (stats : RequestStats)
    (hcalls : Chronological calls) (ht : Until calls t) (hstats : ((after W calls).getRequestStats t).1.get? url = some stats) :
    (stats.ttft = mean (windowed W t (recorded (firstTokens url) calls)) ∧
      stats.avgLatency = mean (windowed W t (recorded (latencies url) calls))) ↔
    (stale W t (recorded (latencies url) calls) = [] ∨
      mean (stale W t (recorded (latencies url) calls)) = mean (windowed W t (recorded (latencies url) calls))) := by
  rw [get?_getRequestStats] at hstats
  obtain ⟨-, hstats⟩ := Option.ite_none_right_eq_some.mp hstats
  cases hstats
  have hstamped := stamped_latencies url
  rw [ttft_eq hcalls ht, avgLatency_eq hcalls,
    latest_eq (ordered_recorded hstamped hcalls) (recorded_until hstamped ht), ← windowed_eq hstamped ht, mean_append]
  exact and_iff_right rfl

theorem averages_windowed_recent :
    ∃ stats, ((after 60 [.newRequest "http://a:8000" "r1" 1, .response "http://a:8000" "r1" 2,
        .complete "http://a:8000" "r1" 11 11]).getRequestStats 60).1.get? "http://a:8000" = some stats ∧
      stats.ttft = 1 ∧ stats.avgLatency = 10 := by
  obtain ⟨stats, hstats⟩ := Option.isSome_iff_exists.mp (show (((after 60 [.newRequest "http://a:8000" "r1" 1,
    .response "http://a:8000" "r1" 2, .complete "http://a:8000" "r1" 11 11]).getRequestStats 60).1.get?
      "http://a:8000").isSome = true by decide +kernel)
  obtain ⟨httft, hlatency⟩ :=
    (averages_windowed_iff 60 _ 60 "http://a:8000" stats (by decide) (by decide) hstats).mpr (.inl (by decide +kernel))
  exact ⟨stats, hstats, httft.trans (by decide +kernel), hlatency.trans (by decide +kernel)⟩

/-- An engine that has been idle for longer than the window still shows the latency of its last requests. -/
theorem idle_engine_keeps_latency :
    ¬ ∀ (W : ℚ) (calls : List Call) (t : ℚ) (url : String) (stats : RequestStats),
      Chronological calls → Until calls t → ((after W calls).getRequestStats t).1.get? url = some stats →
      stats.ttft = mean (windowed W t (recorded (firstTokens url) calls)) ∧
        stats.avgLatency = mean (windowed W t (recorded (latencies url) calls)) := by
  intro h
  have hlatency := (h 60 [.newRequest "http://a:8000" "r1" 1, .complete "http://a:8000" "r1" 11 11] 100
    "http://a:8000" ⟨0, -1, 1, 0, 1, 99, -1, 10, -1, 0⟩ (by decide) (by decide) (by decide +kernel)).2
  exact absurd hlatency (by decide +kernel)

end Results

def updatesOf (calls : List Call) : List Call := calls.filter Call.isUpdate

/-- Everything but the two windows that a read moves. -/
def unwindowed (m : RequestStatsMonitor) : RequestStatsMonitor := { m with qpsMonitors := .empty, ttftMonitors := .empty }

section Reads

variable {m m' : RequestStatsMonitor} {W t : ℚ} {calls : List Call} {call : Call}

theorem updatesOf_concat (h : call.isUpdate = true) (calls : List Call) :
    updatesOf (calls ++ [call]) = updatesOf calls ++ [call] := by
  simp [updatesOf, h]

theorem updatesOf_concat_read (calls : List Call) (t : ℚ) : updatesOf (calls ++ [.read t]) = updatesOf calls := by
  simp [updatesOf, Call.isUpdate]

theorem Until.updatesOf (h : Until calls t) : Until (updatesOf calls) t :=
  fun c hc => h c (List.mem_of_mem_filter hc)

theorem Chronological.updatesOf (h : Chronological calls) : Chronological (updatesOf calls) :=
  List.Pairwise.filter _ h

theorem startOf_updatesOf (calls : List Call) (url id : String) : startOf (updatesOf calls) url id = startOf calls url id := by
  induction calls using List.reverseRecOn with
  | nil => rfl
  | append_singleton calls call ih =>
    cases call with
    | read t => rw [updatesOf_concat_read, startOf_concat, ih]
    | _ => rw [updatesOf_concat rfl, startOf_concat, startOf_concat, ih]

theorem recorded_updatesOf {points : Points} (hread : ∀ past t, points past (.read t) = none)
    (hpast : ∀ past call, points (updatesOf past) call = points past call) (calls : List Call) :
    recorded points (updatesOf calls) = recorded points calls := by
  induction calls using List.reverseRecOn with
  | nil => rfl
  | append_singleton calls call ih =>
    cases call with
    | read t => rw [updatesOf_concat_read, recorded_concat, hread, ih, Option.toList_none, List.append_nil]
    | _ => rw [updatesOf_concat rfl, recorded_concat, recorded_concat, hpast, ih]

theorem arrivals_updatesOf (url : String) (calls : List Call) :
    recorded (arrivals url) (updatesOf calls) = recorded (arrivals url) calls :=
  recorded_updatesOf (fun _ _ => rfl) (fun _ _ => rfl) calls

theorem firstTokens_updatesOf (url : String) (calls : List Call) :
    recorded (firstTokens url) (updatesOf calls) = recorded (firstTokens url) calls := by
  refine recorded_updatesOf (fun _ _ => rfl) ?_ calls
  intro past call
  cases call with
  | response u id t => simp only [firstTokens, startOf_updatesOf]
  | _ => rfl

theorem exists_windows (h : m.unwindowed = m'.unwindowed) :
    ∃ qps ttft, m' = { m with qpsMonitors := qps, ttftMonitors := ttft } := by
  refine ⟨m'.qpsMonitors, m'.ttftMonitors, ?_⟩
  obtain ⟨⟩ := m
  obtain ⟨⟩ := m'
  simp only [unwindowed, RequestStatsMonitor.mk.injEq, true_and] at h
  obtain ⟨rfl, rfl, rfl, rfl, rfl, rfl, rfl, rfl, rfl⟩ := h
  rfl

theorem unwindowed_apply (h : m.unwindowed = m'.unwindowed) (call : Call) :
    (m.apply call).unwindowed = if call.isUpdate then (m'.apply call).unwindowed else m'.unwindowed := by
  obtain ⟨qps, ttft, rfl⟩ := exists_windows h
  cases call with
  | response u id t =>
    simp only [apply, onRequestResponse, Call.isUpdate, if_true]
    split <;> rfl
  | read t =>
    rw [apply, getRequestStats_eq]
    rfl
  | _ => rfl

theorem unwindowed_after (W : ℚ) (calls : List Call) :
    (after W calls).unwindowed = (after W (updatesOf calls)).unwindowed := by
  induction calls using List.reverseRecOn with
  | nil => rfl
  | append_singleton calls call ih =>
    rw [after_concat, unwindowed_apply ih]
    cases call with
    | read t => rw [updatesOf_concat_read]; rfl
    | _ => rw [updatesOf_concat rfl, after_concat]; rfl

theorem engineStats_congr {url : String} (h : m.unwindowed = m'.unwindowed)
    (hqps : (m.qpsMonitors.get? url).map (fun w => w.updateNoValue t) =
      (m'.qpsMonitors.get? url).map (fun w => w.updateNoValue t))
    (httft : (m.ttftMonitors.get? url).map (fun w => w.updateNoValue t) =
      (m'.ttftMonitors.get? url).map (fun w => w.updateNoValue t)) :
    (m.engineStats url t).1 = (m'.engineStats url t).1 := by
  simp only [engineStats, get?_expireWindow, if_true, hqps, httft]
  obtain ⟨qps, ttft, rfl⟩ := exists_windows h
  rfl

theorem engines_updatesOf (W : ℚ) (calls : List Call) : (after W (updatesOf calls)).engines = (after W calls).engines :=
  congrArg (fun m => (m.inPrefillRequests.keys ++ m.inDecodingRequests.keys).dedup) (unwindowed_after W calls).symm

theorem engineStats_updatesOf (hcalls : Chronological calls) (ht : Until calls t) (W : ℚ) (url : String) :
    ((after W calls).engineStats url t).1 = ((after W (updatesOf calls)).engineStats url t).1 := by
  apply engineStats_congr (unwindowed_after W calls)
  · have hother := keeps_arrivals hcalls.updatesOf ht.updatesOf W url
    rw [arrivals_updatesOf] at hother
    exact (keeps_arrivals hcalls ht W url).read_unique hother (ordered_recorded (stamped_arrivals url) hcalls)
  · have hother := keeps_firstTokens hcalls.updatesOf ht.updatesOf W url
    rw [firstTokens_updatesOf] at hother
    exact (keeps_firstTokens hcalls ht W url).read_unique hother (ordered_recorded (stamped_firstTokens url) hcalls)

theorem getRequestStats_updatesOf (hcalls : Chronological calls) (ht : Until calls t) (W : ℚ) :
    ((after W calls).getRequestStats t).1 = ((after W (updatesOf calls)).getRequestStats t).1 := by
  rw [getRequestStats_eq, getRequestStats_eq, engines_updatesOf]
  simp only [engineStats_updatesOf hcalls ht]

theorem qps_written {url id : String} (hcalls : Chronological (calls ++ [.newRequest url id t])) (W : ℚ) :
    (after W (calls ++ [.newRequest url id t])).qpsMonitors.get? url =
      some (.ofPoints W (window (t - W) (recorded (arrivals url) (calls ++ [.newRequest url id t])))) :=
  window_of_given (stamped_arrivals url) (fun m => m.qpsMonitors.get? url)
    (fun h ht => keeps_arrivals h ht W url) (if_pos rfl) (moved_arrivals W url calls _) hcalls

theorem ttft_written {url id : String} {start : ℚ} (hstart : startOf calls url id = some start)
    (hcalls : Chronological (calls ++ [.response url id t])) (W : ℚ) :
    (after W (calls ++ [.response url id t])).ttftMonitors.get? url =
      some (.ofPoints W (window (t - W) (recorded (firstTokens url) (calls ++ [.response url id t])))) :=
  have hpoint : firstTokens url calls (.response url id t) = some (t, t - start) := by simp [firstTokens, hstart]
  window_of_given (stamped_firstTokens url) (fun m => m.ttftMonitors.get? url)
    (fun h ht => keeps_firstTokens h ht W url) hpoint (moved_firstTokens W url calls _) hcalls

theorem written_congr (h : m.unwindowed = m'.unwindowed) (call : Call)
    (hqps : ∀ url id t, call = .newRequest url id t → m.qpsMonitors.get? url = m'.qpsMonitors.get? url)
    (httft : ∀ url id t start, call = .response url id t → m.requestStartTime.get? (url, id) = some start →
      m.ttftMonitors.get? url = m'.ttftMonitors.get? url) :
    m.written call = m'.written call := by
  obtain ⟨qps, ttft, rfl⟩ := exists_windows h
  cases call with
  | newRequest url id t => simp only [written, hqps url id t rfl]
  | response url id t =>
    simp only [written]
    split
    · rfl
    next start hstart => rw [httft url id t start rfl hstart]
  | _ => rfl

theorem written_updatesOf (hcalls : Chronological (calls ++ [call])) (h : call.isUpdate = true) (W : ℚ) :
    (after W (calls ++ [call])).written call = (after W (updatesOf calls ++ [call])).written call := by
  have hother := hcalls.updatesOf
  have hsame := unwindowed_after W (calls ++ [call])
  rw [updatesOf_concat h] at hother hsame
  apply written_congr hsame
  · rintro url id t rfl
    rw [qps_written hcalls, qps_written hother, ← updatesOf_concat h, arrivals_updatesOf]
  · rintro url id t start rfl hstart
    rw [after_requestStartTime, startOf_concat] at hstart
    have hstart' := (startOf_updatesOf calls url id).trans hstart
    rw [ttft_written hstart hcalls, ttft_written hstart' hother, ← updatesOf_concat h, firstTokens_updatesOf]

theorem step_update (h : call.isUpdate = true) (m : RequestStatsMonitor) :
    (step m call).1 = .updated ((m.apply call).written call) := by
  cases call with
  | read t => cases h
  | _ => rfl

/-- Every update of a run with reads writes what it writes without them, and a last read answers the same. -/
theorem reads_do_not_disturb (W : ℚ) (calls : List Call) (hcalls : Chronological calls) :
    (calls.zip (outputs step (init W) calls)).filter (fun e => e.1.isUpdate) =
        (updatesOf calls).zip (outputs step (init W) (updatesOf calls)) ∧
      ∀ t, Until calls t →
        (step (final step (init W) calls) (.read t)).1 = (step (final step (init W) (updatesOf calls)) (.read t)).1 := by
  constructor
  · induction calls using List.reverseRecOn with
    | nil => rfl
    | append_singleton calls call ih =>
      rw [zip_outputs_concat, List.filter_append, ih (chronological_concat.mp hcalls).1]
      cases h : call.isUpdate with
      | false =>
        cases call with
        | read t => simp [updatesOf_concat_read, Call.isUpdate]
        | _ => cases h
      | true =>
        have hwritten := written_updatesOf hcalls h W
        rw [after_concat, after_concat] at hwritten
        rw [updatesOf_concat h, zip_outputs_concat, List.filter_singleton, h, step_update h, step_update h]
        exact congrArg (fun w => _ ++ [(call, Answer.updated w)]) hwritten
  · intro t ht
    exact congrArg Answer.stats (getRequestStats_updatesOf hcalls ht W)

theorem reads_do_not_disturb_between :
    (step (after 60 [.newRequest "http://a:8000" "r1" 1, .read 50, .response "http://a:8000" "r1" 61, .read 90])
        (.read 100)).1 =
      (step (after 60 [.newRequest "http://a:8000" "r1" 1, .response "http://a:8000" "r1" 61]) (.read 100)).1 :=
  (reads_do_not_disturb 60 [.newRequest "http://a:8000" "r1" 1, .read 50, .response "http://a:8000" "r1" 61, .read 90]
    (by decide)).2 100 (by decide)

end Reads

end RequestStatsMonitor

end ProductionStack.StatsMonitor
