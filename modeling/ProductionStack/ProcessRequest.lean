import ProductionStack.StatsMonitor
import ProductionStack.Runs
import Mathlib.Data.List.Basic

namespace ProductionStack.ProcessRequest

open Runs StatsMonitor

/-- Where an execution of process_request is suspended, or how it ended. -/
inductive Phase
  | connecting
  | responding
  | streaming
  | completed
  | failed
  deriving DecidableEq, Repr

structure Execution where
  backendUrl : String
  requestId : String
  phase : Phase
  deriving DecidableEq, Repr

structure System where
  monitor : RequestStatsMonitor
  executions : List Execution

/-- What the scheduler lets happen next. The event fail covers every exit by
an exception: a body that is no JSON, a refused or lost connection, and the
GeneratorExit raised at a yield when the client goes away. -/
inductive Event
  | start (backendUrl requestId : String) (now : ℚ)
  | headers (i : Nat)
  | chunk (i : Nat) (now : ℚ)
  | finish (i : Nat) (now later : ℚ)
  | fail (i : Nat)

def init (slidingWindowSize : ℚ) : System := ⟨{ slidingWindowSize }, []⟩

def moveTo (s : System) (i : Nat) (x : Execution) (phase : Phase) : System :=
  { s with executions := s.executions.set i { x with phase } }

/-- One step of the interleaving. An event that does not apply to the phase of
its execution changes nothing, so that every list of events is an interleaving. -/
def step : Component System Event Unit := fun s event => ((), match event with
  | .start url requestId now =>
    ⟨s.monitor.onNewRequest url requestId now, s.executions ++ [⟨url, requestId, .connecting⟩]⟩
  | .headers i =>
    match s.executions[i]? with
    | some x => if x.phase = .connecting then moveTo s i x .responding else s
    | none => s
  | .chunk i now =>
    match s.executions[i]? with
    | some x =>
      if x.phase = .responding then
        { moveTo s i x .streaming with
          monitor := s.monitor.onRequestResponse x.backendUrl x.requestId now }
      else s
    | none => s
  | .finish i now later =>
    match s.executions[i]? with
    | some x =>
      if x.phase = .responding ∨ x.phase = .streaming then
        { moveTo s i x .completed with
          monitor := s.monitor.onRequestComplete x.backendUrl x.requestId now later }
      else s
    | none => s
  | .fail i =>
    match s.executions[i]? with
    | some x => if x.phase = .completed ∨ x.phase = .failed then s else moveTo s i x .failed
    | none => s)

def Phase.inPrefill : Phase → Bool
  | .connecting | .responding => true
  | _ => false

def Phase.inDecoding : Phase → Bool
  | .streaming => true
  | _ => false

def Phase.isCompleted : Phase → Bool
  | .completed => true
  | _ => false

def count (s : System) (url : String) (p : Phase → Bool) : Int :=
  s.executions.countP (fun x => x.backendUrl = url && p x.phase)

structure Accounted (s : System) : Prop where
  prefill : ∀ url, s.monitor.inPrefillRequests.getD url 0 = count s url Phase.inPrefill
  decoding : ∀ url, s.monitor.inDecodingRequests.getD url 0 = count s url Phase.inDecoding
  finished : ∀ url, s.monitor.finishedRequests.getD url 0 = count s url Phase.isCompleted

def Quiescent (s : System) : Prop :=
  ∀ x ∈ s.executions, x.phase.inPrefill = false ∧ x.phase.inDecoding = false

def Conserved (s : System) : Prop :=
  Accounted s ∧ (Quiescent s → ∀ url,
    s.monitor.inPrefillRequests.getD url 0 + s.monitor.inDecodingRequests.getD url 0 = 0)

/-- An execution neither ends by an exception nor ends before its first chunk. -/
def Regular (s : System) : Event → Prop
  | .fail i => ∀ x, s.executions[i]? = some x → x.phase = .completed ∨ x.phase = .failed
  | .finish i _ _ => ∀ x, s.executions[i]? = some x → x.phase ≠ .responding
  | _ => True

def Started (s : System) : Prop :=
  ∀ x ∈ s.executions, ∃ t, s.monitor.requestStartTime.get? (x.backendUrl, x.requestId) = some t

variable {s : System}

theorem count_moveTo {i : Nat} {x : Execution} (hx : s.executions[i]? = some x)
    (phase : Phase) (url : String) (p : Phase → Bool) :
    count (moveTo s i x phase) url p =
      count s url p + if x.backendUrl = url then (p phase).toInt - (p x.phase).toInt else 0 := by
  obtain ⟨hi, hget⟩ := List.getElem?_eq_some_iff.mp hx
  have hle := List.boole_getElem_le_countP (p := fun x : Execution => x.backendUrl = url && p x.phase) hi
  rw [hget] at hle
  simp only [count, moveTo, List.countP_set hi, hget]
  by_cases hu : x.backendUrl = url
  · simp only [hu, decide_true, Bool.true_and, if_true] at hle ⊢
    cases hp : p x.phase <;> cases p phase <;>
      simp only [hp, Bool.toInt_true, Bool.toInt_false, Bool.false_eq_true, if_true, if_false] at hle ⊢ <;>
      omega
  · simp [hu]

theorem count_start (s : System) (monitor : RequestStatsMonitor) (x : Execution) (url : String) (p : Phase → Bool) :
    count ⟨monitor, s.executions ++ [x]⟩ url p =
      count s url p + if x.backendUrl = url then (p x.phase).toInt else 0 := by
  by_cases hu : x.backendUrl = url
  · cases hp : p x.phase <;> simp [count, hu, hp]
  · simp [count, hu]

theorem count_pos {i : Nat} {x : Execution} (hx : s.executions[i]? = some x)
    {p : Phase → Bool} (hp : p x.phase = true) : 0 < count s x.backendUrl p := by
  have hmem := List.mem_of_getElem? hx
  exact Int.natCast_pos.mpr (List.countP_pos_iff.mpr ⟨x, hmem, by simp [hp]⟩)

theorem accounted_start (hs : Accounted s) (url requestId : String) (now : ℚ) :
    Accounted (step s (.start url requestId now)).2 := by
  constructor
  · intro u
    by_cases hu : u = url
    · subst hu
      simp [step, RequestStatsMonitor.onNewRequest, count_start, Phase.inPrefill, hs.prefill]
    · simp [step, RequestStatsMonitor.onNewRequest, count_start, getD_increment_of_ne _ hu, Ne.symm hu, hs.prefill]
  · intro u
    simp [step, RequestStatsMonitor.onNewRequest, count_start, Phase.inDecoding, hs.decoding]
  · intro u
    simp [step, RequestStatsMonitor.onNewRequest, count_start, Phase.isCompleted, hs.finished]

theorem accounted_headers (hs : Accounted s) (i : Nat) : Accounted (step s (.headers i)).2 := by
  cases hx : s.executions[i]? with
  | none => simpa only [step, hx] using hs
  | some x =>
    by_cases hp : x.phase = .connecting
    · simp only [step, hx, hp, if_true]
      constructor <;> intro u <;> rw [count_moveTo hx]
      · simpa [moveTo, hp, Phase.inPrefill] using hs.prefill u
      · simpa [moveTo, hp, Phase.inDecoding] using hs.decoding u
      · simpa [moveTo, hp, Phase.isCompleted] using hs.finished u
    · simpa only [step, hx, if_neg hp] using hs

theorem accounted_chunk (hs : Accounted s) (ht : Started s) (i : Nat) (now : ℚ) : Accounted (step s (.chunk i now)).2 := by
  cases hx : s.executions[i]? with
  | none => simpa only [step, hx] using hs
  | some x =>
    by_cases hp : x.phase = .responding
    · obtain ⟨t, hget⟩ := ht x (List.mem_of_getElem? hx)
      have hpos := count_pos hx (p := Phase.inPrefill) (by rw [hp]; rfl)
      simp only [step, hx, hp, if_true]
      constructor <;> intro u <;> simp only [RequestStatsMonitor.onRequestResponse, hget]
      · change (decrement s.monitor.inPrefillRequests x.backendUrl).getD u 0 =
          count (moveTo s i x .streaming) u Phase.inPrefill
        rw [count_moveTo hx, hp]
        by_cases hu : u = x.backendUrl
        · subst hu
          simp only [getD_decrement_self, hs.prefill, Phase.inPrefill, if_true, Bool.toInt_true, Bool.toInt_false]
          omega
        · simp [getD_decrement_of_ne _ hu, hs.prefill, Ne.symm hu]
      · change (increment s.monitor.inDecodingRequests x.backendUrl).getD u 0 =
          count (moveTo s i x .streaming) u Phase.inDecoding
        rw [count_moveTo hx, hp]
        by_cases hu : u = x.backendUrl
        · subst hu
          simp [hs.decoding, Phase.inDecoding]
        · simp [getD_increment_of_ne _ hu, hs.decoding, Ne.symm hu]
      · change s.monitor.finishedRequests.getD u 0 = count (moveTo s i x .streaming) u Phase.isCompleted
        rw [count_moveTo hx, hp]
        simp [hs.finished, Phase.isCompleted]
    · simpa only [step, hx, if_neg hp] using hs

theorem step_finish {i : Nat} {x : Execution} (hx : s.executions[i]? = some x)
    (hp : x.phase = .responding ∨ x.phase = .streaming) (now later : ℚ) :
    (step s (.finish i now later)).2 =
      { moveTo s i x .completed with
        monitor := s.monitor.onRequestComplete x.backendUrl x.requestId now later } := by
  simp only [step, hx, if_pos hp]

theorem accounted_finish (hs : Accounted s) {i : Nat} {now later : ℚ}
    (hr : Regular s (.finish i now later)) : Accounted (step s (.finish i now later)).2 := by
  cases hx : s.executions[i]? with
  | none => simpa only [step, hx] using hs
  | some x =>
    by_cases hp : x.phase = .streaming
    · have hpos := count_pos hx (p := Phase.inDecoding) (by rw [hp]; rfl)
      rw [step_finish hx (.inr hp)]
      constructor <;> intro u
      · change s.monitor.inPrefillRequests.getD u 0 = count (moveTo s i x .completed) u Phase.inPrefill
        rw [count_moveTo hx, hp]
        simp [hs.prefill, Phase.inPrefill]
      · change (decrement s.monitor.inDecodingRequests x.backendUrl).getD u 0 =
          count (moveTo s i x .completed) u Phase.inDecoding
        rw [count_moveTo hx, hp]
        by_cases hu : u = x.backendUrl
        · subst hu
          simp only [getD_decrement_self, hs.decoding, Phase.inDecoding, if_true, Bool.toInt_true,
            Bool.toInt_false]
          omega
        · simp [getD_decrement_of_ne _ hu, hs.decoding, Ne.symm hu]
      · change (increment s.monitor.finishedRequests x.backendUrl).getD u 0 =
          count (moveTo s i x .completed) u Phase.isCompleted
        rw [count_moveTo hx, hp]
        by_cases hu : u = x.backendUrl
        · subst hu
          simp [hs.finished, Phase.isCompleted]
        · simp [getD_increment_of_ne _ hu, hs.finished, Ne.symm hu]
    · have hno : ¬ (x.phase = .responding ∨ x.phase = .streaming) := by
        rintro (h | h)
        · exact hr x hx h
        · exact hp h
      simpa only [step, hx, if_neg hno] using hs

theorem accounted_fail (hs : Accounted s) {i : Nat} (hr : Regular s (.fail i)) : Accounted (step s (.fail i)).2 := by
  cases hx : s.executions[i]? with
  | none => simpa only [step, hx] using hs
  | some x => simpa only [step, hx, if_pos (hr x hx)] using hs

theorem accounted_step {event : Event} (hs : Accounted s) (ht : Started s)
    (hr : Regular s event) : Accounted (step s event).2 := by
  cases event with
  | start url requestId now => exact accounted_start hs url requestId now
  | headers i => exact accounted_headers hs i
  | chunk i now => exact accounted_chunk hs ht i now
  | finish i now later => exact accounted_finish hs hr
  | fail i => exact accounted_fail hs hr

/-- An execution that leaves the prefill phases while their counter stays, or
the decoding phase while its counter stays, is counted for good. -/
theorem not_accounted_of_irregular {event : Event} (hs : Accounted s)
    (hr : ¬ Regular s event) : ¬ Accounted (step s event).2 := by
  cases event with
  | start url requestId now => exact absurd trivial hr
  | headers i => exact absurd trivial hr
  | chunk i now => exact absurd trivial hr
  | finish i now later =>
    simp only [Regular, ne_eq, not_forall, not_not] at hr
    obtain ⟨x, hx, hp⟩ := hr
    intro hafter
    have h := hafter.prefill x.backendUrl
    rw [step_finish hx (.inl hp)] at h
    change s.monitor.inPrefillRequests.getD x.backendUrl 0 =
      count (moveTo s i x .completed) x.backendUrl Phase.inPrefill at h
    rw [count_moveTo hx, hs.prefill, hp] at h
    simp [Phase.inPrefill] at h
  | fail i =>
    simp only [Regular, not_forall] at hr
    obtain ⟨x, hx, hp⟩ := hr
    intro hafter
    have hpre := hafter.prefill x.backendUrl
    have hdec := hafter.decoding x.backendUrl
    simp only [step, hx, if_neg hp] at hpre hdec
    rw [count_moveTo hx] at hpre hdec
    change s.monitor.inPrefillRequests.getD x.backendUrl 0 = _ at hpre
    change s.monitor.inDecodingRequests.getD x.backendUrl 0 = _ at hdec
    rw [hs.prefill] at hpre
    rw [hs.decoding] at hdec
    cases hph : x.phase <;> simp [hph, Phase.inPrefill, Phase.inDecoding] at hp hpre hdec

theorem started_moveTo (ht : Started s) {i : Nat} {x : Execution} (hx : s.executions[i]? = some x) (phase : Phase)
    (monitor : RequestStatsMonitor) (hm : monitor.requestStartTime = s.monitor.requestStartTime) :
    Started { moveTo s i x phase with monitor } := by
  intro y hy
  change ∃ t, monitor.requestStartTime.get? (y.backendUrl, y.requestId) = some t
  rw [hm]
  rcases List.mem_or_eq_of_mem_set hy with hy | rfl
  · exact ht y hy
  · exact ht x (List.mem_of_getElem? hx)

theorem started_step (ht : Started s) (event : Event) : Started (step s event).2 := by
  cases event with
  | start url requestId now =>
    intro y hy
    simp only [step, RequestStatsMonitor.onNewRequest, Dict.get?_set]
    split
    · exact ⟨now, rfl⟩
    next hne =>
      rcases List.mem_append.mp hy with hy | hy
      · exact ht y hy
      · rw [List.mem_singleton] at hy
        exact absurd (by rw [hy]) hne
  | headers i =>
    cases hx : s.executions[i]? with
    | none => simpa only [step, hx] using ht
    | some x =>
      simp only [step, hx]
      split
      · exact started_moveTo ht hx _ s.monitor rfl
      · exact ht
  | chunk i now =>
    cases hx : s.executions[i]? with
    | none => simpa only [step, hx] using ht
    | some x =>
      simp only [step, hx]
      split
      · apply started_moveTo ht hx
        rw [RequestStatsMonitor.onRequestResponse]
        split <;> rfl
      · exact ht
  | finish i now later =>
    cases hx : s.executions[i]? with
    | none => simpa only [step, hx] using ht
    | some x =>
      simp only [step, hx]
      split
      · exact started_moveTo ht hx _ _ rfl
      · exact ht
  | fail i =>
    cases hx : s.executions[i]? with
    | none => simpa only [step, hx] using ht
    | some x =>
      simp only [step, hx]
      split
      · exact ht
      · exact started_moveTo ht hx _ s.monitor rfl

theorem accounted_step_iff (hs : Accounted s) (ht : Started s) (event : Event) :
    Accounted (step s event).2 ↔ Regular s event := by
  constructor
  · intro hnext
    by_contra hr
    exact not_accounted_of_irregular hs hr hnext
  · exact accounted_step hs ht

theorem count_quiescent (hq : Quiescent s) (url : String) :
    count s url Phase.inPrefill = 0 ∧ count s url Phase.inDecoding = 0 := by
  constructor
  · refine Int.natCast_eq_zero.mpr (List.countP_eq_zero.mpr ?_)
    intro x hx
    simp [(hq x hx).1]
  · refine Int.natCast_eq_zero.mpr (List.countP_eq_zero.mpr ?_)
    intro x hx
    simp [(hq x hx).2]

theorem conserved_iff_accounted (s : System) : Conserved s ↔ Accounted s := by
  constructor
  · exact fun h => h.1
  · intro hs
    refine ⟨hs, fun hq url => ?_⟩
    rw [hs.prefill, hs.decoding, (count_quiescent hq url).1, (count_quiescent hq url).2, add_zero]

theorem accounted_init (slidingWindowSize : ℚ) : Accounted (init slidingWindowSize) :=
  ⟨fun _ => rfl, fun _ => rfl, fun _ => rfl⟩

/-- The counters are right at every point of an interleaving exactly when none
of its executions ends by an exception or before its first chunk. -/
theorem conserved_iff_regular (slidingWindowSize : ℚ) (events : List Event) :
    (∀ pre, pre <+: events → Conserved (final step (init slidingWindowSize) pre)) ↔
      Along step Regular (init slidingWindowSize) events := by
  simp only [conserved_iff_accounted]
  exact forall_prefix_iff_along (I := Started) (P := Accounted) (fun s event ht => started_step ht event)
    (fun s event _ ht hs => accounted_step_iff hs ht event) (fun x hx => by simp [init] at hx)
    (accounted_init slidingWindowSize)

/-- A refused connection leaves its engine with one request in prefill for ever. -/
theorem refused_connection_not_conserved :
    ¬ ∀ (slidingWindowSize : ℚ) (events pre : List Event), pre <+: events →
      Conserved (final step (init slidingWindowSize) pre) := by
  intro h
  have hq := (h 60 [.start "http://a:8000" "r1" 0, .fail 0] _ (List.prefix_refl _)).2
    (by simp [Quiescent, step, init, moveTo, Phase.inPrefill, Phase.inDecoding]) "http://a:8000"
  have hvalue : (final step (init 60) [.start "http://a:8000" "r1" 0, .fail 0]).monitor.inPrefillRequests.getD
      "http://a:8000" 0 + (final step (init 60) [.start "http://a:8000" "r1" 0, .fail 0]).monitor.inDecodingRequests.getD
      "http://a:8000" 0 = 1 := rfl
  rw [hvalue] at hq
  cases hq

end ProductionStack.ProcessRequest
