import Mathlib.Data.List.Induction
import ProductionStack.ProcessRequest

namespace ProductionStack.ProcessRequest

open Runs StatsMonitor

def Execution.key (x : Execution) : String × String := (x.backendUrl, x.requestId)

def Phase.ended : Phase → Bool
  | .completed | .failed => true
  | _ => false

def Event.startedKey : Event → Option (String × String)
  | .start backendUrl requestId _ => some (backendUrl, requestId)
  | _ => none

theorem Event.start_or (event : Event) : (∃ url id now, event = .start url id now) ∨ event.startedKey = none := by
  cases event with
  | start url id now => exact .inl ⟨url, id, now, rfl⟩
  | _ => exact .inr rfl

def startedKeys (events : List Event) : List (String × String) := events.filterMap Event.startedKey

def DistinctIds (events : List Event) : Prop := ((startedKeys events).map Prod.snd).Nodup

instance (events : List Event) : Decidable (DistinctIds events) :=
  inferInstanceAs (Decidable ((startedKeys events).map Prod.snd).Nodup)

/-- Both dictionaries know requests only that have started and not ended. -/
def Bounded (s : System) : Prop :=
  ∀ k, k ∈ s.monitor.requestStartTime.keys ∨ k ∈ s.monitor.firstTokenTime.keys →
    ∃ x ∈ s.executions, x.key = k ∧ x.phase.ended = false

/-- The event ends no execution, neither well nor by an exception. -/
def Unending (s : System) : Event → Prop
  | .finish i _ _ => ∀ x, s.executions[i]? = some x → x.phase ≠ .responding ∧ x.phase ≠ .streaming
  | .fail i => ∀ x, s.executions[i]? = some x → x.phase = .completed ∨ x.phase = .failed
  | _ => True

structure Moves (s s' : System) (i : Nat) (x : Execution) (phase : Phase) : Prop where
  at_index : s.executions[i]? = some x
  live : x.phase.ended = false
  executions : s'.executions = s.executions.set i { x with phase }
  starts : s'.monitor.requestStartTime = s.monitor.requestStartTime
  tokens : ∀ k ∈ s'.monitor.firstTokenTime.keys, k ∈ s.monitor.firstTokenTime.keys ∨ k = x.key

theorem moves_moveTo {s : System} {i : Nat} {x : Execution} (hx : s.executions[i]? = some x) (hlive : x.phase.ended = false)
    (phase : Phase) {monitor : RequestStatsMonitor} (hstarts : monitor.requestStartTime = s.monitor.requestStartTime)
    (htokens : ∀ k ∈ monitor.firstTokenTime.keys, k ∈ s.monitor.firstTokenTime.keys ∨ k = x.key) :
    Moves s { moveTo s i x phase with monitor } i x phase :=
  ⟨hx, hlive, rfl, hstarts, htokens⟩

theorem onRequestResponse_tokens (m : RequestStatsMonitor) (url id : String) (now : ℚ) :
    (m.onRequestResponse url id now).requestStartTime = m.requestStartTime ∧
      ∀ k ∈ (m.onRequestResponse url id now).firstTokenTime.keys, k ∈ m.firstTokenTime.keys ∨ k = (url, id) := by
  rw [RequestStatsMonitor.onRequestResponse]
  split
  · exact ⟨rfl, fun k hk => .inl hk⟩
  · exact ⟨rfl, fun k hk => Dict.mem_keys_set.mp hk⟩

theorem step_cases (s : System) {event : Event} (hstart : event.startedKey = none) :
    ((step s event).2 = s ∧ Unending s event) ∨
      ∃ i x phase, Moves s (step s event).2 i x phase ∧ (phase.ended = false ↔ Unending s event) := by
  cases event with
  | start url id now => cases hstart
  | headers i =>
    cases hx : s.executions[i]? with
    | none => exact .inl ⟨by simp only [step, hx], trivial⟩
    | some x =>
      by_cases hp : x.phase = .connecting
      · refine .inr ⟨i, x, .responding, ?_, iff_of_true rfl trivial⟩
        simp only [step, hx, hp, if_true]
        exact moves_moveTo hx (by rw [hp]; rfl) .responding rfl (fun k hk => .inl hk)
      · exact .inl ⟨by simp only [step, hx, if_neg hp], trivial⟩
  | chunk i now =>
    cases hx : s.executions[i]? with
    | none => exact .inl ⟨by simp only [step, hx], trivial⟩
    | some x =>
      by_cases hp : x.phase = .responding
      · refine .inr ⟨i, x, .streaming, ?_, iff_of_true rfl trivial⟩
        obtain ⟨hstarts, htokens⟩ := onRequestResponse_tokens s.monitor x.backendUrl x.requestId now
        simp only [step, hx, hp, if_true]
        exact moves_moveTo hx (by rw [hp]; rfl) .streaming hstarts htokens
      · exact .inl ⟨by simp only [step, hx, if_neg hp], trivial⟩
  | finish i now later =>
    cases hx : s.executions[i]? with
    | none => exact .inl ⟨by simp only [step, hx], by simp [Unending, hx]⟩
    | some x =>
      by_cases hp : x.phase = .responding ∨ x.phase = .streaming
      · refine .inr ⟨i, x, .completed, ?_, ?_⟩
        · rw [step_finish hx hp]
          refine moves_moveTo hx ?_ .completed rfl (fun k hk => .inl hk)
          rcases hp with hp | hp <;> rw [hp] <;> rfl
        · rcases hp with hp | hp <;> simp [Unending, hx, hp, Phase.ended]
      · refine .inl ⟨by simp only [step, hx, if_neg hp], ?_⟩
        simpa [Unending, hx] using hp
  | fail i =>
    cases hx : s.executions[i]? with
    | none => exact .inl ⟨by simp only [step, hx], by simp [Unending, hx]⟩
    | some x =>
      by_cases hp : x.phase = .completed ∨ x.phase = .failed
      · exact .inl ⟨by simp only [step, hx, if_pos hp], by simpa [Unending, hx] using hp⟩
      · refine .inr ⟨i, x, .failed, ?_, ?_⟩
        · simp only [step, hx, if_neg hp]
          refine moves_moveTo hx ?_ .failed rfl (fun k hk => .inl hk)
          cases hphase : x.phase <;> simp [hphase, Phase.ended] at hp ⊢
        · simpa [Unending, hx, Phase.ended] using hp

theorem Moves.keys {s s' : System} {i : Nat} {x : Execution} {phase : Phase} (h : Moves s s' i x phase) :
    s'.executions.map Execution.key = s.executions.map Execution.key := by
  obtain ⟨hi, hget⟩ := List.getElem?_eq_some_iff.mp h.at_index
  rw [h.executions, List.map_set]
  apply List.ext_getElem (by simp)
  intro j hj hj'
  rw [List.getElem_set]
  split
  next heq =>
    subst heq
    simp [hget, Execution.key]
  next => rfl

theorem step_executions_keys (s : System) (event : Event) :
    (step s event).2.executions.map Execution.key = s.executions.map Execution.key ++ event.startedKey.toList := by
  rcases event.start_or with ⟨url, id, now, rfl⟩ | hkey
  · simp [step, Execution.key, Event.startedKey]
  · rw [hkey, Option.toList_none, List.append_nil]
    rcases step_cases s hkey with ⟨hsame, -⟩ | ⟨i, x, phase, hmoves, -⟩
    · rw [hsame]
    · exact hmoves.keys

theorem step_requestStartTime_keys (s : System) (event : Event) :
    (step s event).2.monitor.requestStartTime.keys = s.monitor.requestStartTime.keys ++
      event.startedKey.toList.filter (· ∉ s.monitor.requestStartTime.keys) := by
  rcases event.start_or with ⟨url, id, now, rfl⟩ | hkey
  · change (s.monitor.requestStartTime.set (url, id) now).keys = _
    rw [Dict.keys_set]
    split
    next hmem => simp [hmem, Event.startedKey]
    next hmem => simp [hmem, Event.startedKey]
  · rw [hkey, Option.toList_none, List.filter_nil, List.append_nil]
    rcases step_cases s hkey with ⟨hsame, -⟩ | ⟨i, x, phase, hmoves, -⟩
    · rw [hsame]
    · rw [hmoves.starts]

theorem step_firstTokenTime_keys {s : System} {event : Event}
    (h : ∀ k ∈ s.monitor.firstTokenTime.keys, k ∈ s.executions.map Execution.key) :
    ∀ k ∈ (step s event).2.monitor.firstTokenTime.keys, k ∈ (step s event).2.executions.map Execution.key := by
  intro k hk
  rw [step_executions_keys, List.mem_append]
  rcases event.start_or with ⟨url, id, now, rfl⟩ | hkey
  · exact .inl (h k hk)
  · rcases step_cases s hkey with ⟨hsame, -⟩ | ⟨i, x, phase, hmoves, -⟩
    · exact .inl (h k (hsame ▸ hk))
    · rcases hmoves.tokens k hk with hk | rfl
      · exact .inl (h k hk)
      · exact .inl (List.mem_map_of_mem (List.mem_of_getElem? hmoves.at_index))

structure Booked (events : List Event) (s : System) : Prop where
  executions : s.executions.map Execution.key = startedKeys events
  starts : s.monitor.requestStartTime.keys = startedKeys events
  tokens : ∀ k ∈ s.monitor.firstTokenTime.keys, k ∈ s.executions.map Execution.key

theorem startedKeys_concat (events : List Event) (event : Event) :
    startedKeys (events ++ [event]) = startedKeys events ++ event.startedKey.toList := by
  cases h : event.startedKey <;> simp [startedKeys, h]

theorem booked_run (slidingWindowSize : ℚ) (events : List Event) (h : (startedKeys events).Nodup) :
    Booked events (final step (init slidingWindowSize) events) := by
  induction events using List.reverseRecOn with
  | nil => exact ⟨rfl, rfl, List.forall_mem_nil _⟩
  | append_singleton events event ih =>
    rw [startedKeys_concat] at h
    obtain ⟨hbefore, -, hfresh⟩ := List.nodup_append.mp h
    have hbooked := ih hbefore
    rw [final_append]
    refine ⟨?_, ?_, step_firstTokenTime_keys hbooked.tokens⟩
    · exact (step_executions_keys _ event).trans (by rw [hbooked.executions, startedKeys_concat])
    · refine (step_requestStartTime_keys _ event).trans ?_
      rw [hbooked.starts, startedKeys_concat, List.filter_eq_self.mpr]
      intro key hkey
      simpa using fun hmem => hfresh key hmem key hkey rfl

def AllLive (s : System) : Prop := ∀ x ∈ s.executions, x.phase.ended = false

theorem bounded_iff_allLive {events : List Event} {s : System} (hids : DistinctIds events) (h : Booked events s) :
    Bounded s ↔ AllLive s := by
  have hnodup : (s.executions.map Execution.key).Nodup := h.executions ▸ hids.of_map
  constructor
  · intro hbounded x hx
    have hkey : x.key ∈ s.executions.map Execution.key := List.mem_map_of_mem hx
    obtain ⟨y, hy, hsame, hlive⟩ := hbounded x.key (.inl (by rw [h.starts, ← h.executions]; exact hkey))
    obtain rfl : y = x := List.inj_on_of_nodup_map hnodup hy hx hsame
    exact hlive
  · intro hlive k hk
    have hmem : k ∈ s.executions.map Execution.key := by
      rcases hk with hk | hk
      · rw [h.executions, ← h.starts]
        exact hk
      · exact h.tokens k hk
    obtain ⟨x, hx, rfl⟩ := List.mem_map.mp hmem
    exact ⟨x, hx, rfl, hlive x hx⟩

theorem allLive_step_iff {s : System} (h : AllLive s) (event : Event) : AllLive (step s event).2 ↔ Unending s event := by
  rcases event.start_or with ⟨url, id, now, rfl⟩ | hkey
  · refine iff_of_true ?_ trivial
    intro x hx
    rcases List.mem_append.mp hx with hx | hx
    · exact h x hx
    · rw [List.mem_singleton.mp hx]
      rfl
  · rcases step_cases s hkey with ⟨hsame, hunending⟩ | ⟨i, x, phase, hmoves, hiff⟩
    · exact iff_of_true (hsame.symm ▸ h) hunending
    · rw [← hiff, AllLive, hmoves.executions]
      have hi := (List.getElem?_eq_some_iff.mp hmoves.at_index).1
      constructor
      · exact fun hlive => hlive _ (List.mem_set hi _)
      · intro hphase y hy
        rcases List.mem_or_eq_of_mem_set hy with hy | rfl
        · exact h y hy
        · exact hphase

theorem DistinctIds.of_isPrefix {events pre : List Event} (h : DistinctIds events) (hpre : pre <+: events) :
    DistinctIds pre :=
  h.sublist ((hpre.sublist.filterMap _).map _)

/-- Nothing ever takes an entry out of the two dictionaries, so that they are bounded by the requests
in flight exactly as long as no request has ended. -/
theorem bookkeeping_bounded_iff (slidingWindowSize : ℚ) (events : List Event) (hids : DistinctIds events) :
    (∀ pre, pre <+: events → Bounded (final step (init slidingWindowSize) pre)) ↔
      Along step Unending (init slidingWindowSize) events := by
  have hlive : AllLive (init slidingWindowSize) := List.forall_mem_nil _
  rw [← forall_prefix_iff_along (I := fun _ => True) (P := AllLive) (fun _ _ _ => trivial)
    (fun s event _ _ hs => allLive_step_iff hs event) trivial hlive]
  refine forall₂_congr (fun pre hpre => ?_)
  have hdistinct := hids.of_isPrefix hpre
  exact bounded_iff_allLive hdistinct (booked_run slidingWindowSize pre hdistinct.of_map)

theorem bookkeeping_bounded_streaming :
    Bounded (final step (init 60) [.start "http://a:8000" "r1" 1, .headers 0, .chunk 0 2]) := by
  apply (bookkeeping_bounded_iff 60 [.start "http://a:8000" "r1" 1, .headers 0, .chunk 0 2] (by decide)).mpr ?_ _
    List.prefix_rfl
  exact ⟨trivial, trivial, trivial, trivial⟩

/-- One request that was answered in full leaves an entry in both dictionaries. -/
theorem completed_request_stays_booked :
    ¬ ∀ (slidingWindowSize : ℚ) (events : List Event), DistinctIds events → ∀ pre, pre <+: events →
      Bounded (final step (init slidingWindowSize) pre) := by
  intro h
  have hbounded := h 60 [.start "http://a:8000" "r1" 1, .headers 0, .chunk 0 2, .finish 0 3 3]
    (by decide) _ List.prefix_rfl
  obtain ⟨x, hx, -, hlive⟩ := hbounded ("http://a:8000", "r1") (.inl (List.mem_singleton.mpr rfl))
  cases List.mem_singleton.mp hx
  cases hlive

end ProductionStack.ProcessRequest
