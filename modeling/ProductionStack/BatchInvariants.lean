import ProductionStack.LocalBatchProcessor

namespace ProductionStack.LocalBatchProcessor

open Runs Batch

/-- No cancel_batch call overlaps the loop's work on the same batch: none reads a batch the
loop has selected and not yet finished, and the loop selects none that a call has read. -/
def Disjoint (s : System) : Event → Prop
  | .cancelRead batchId => s.loop.current ≠ some batchId
  | .select batchId => s.loop = .polling → isOldestPending s.table batchId = true →
      ∀ call ∈ s.cancels, call.batchId ≠ batchId
  | _ => True

/-- A batch somebody is about to write has not reached a terminal status since it was read. -/
structure Exclusive (s : System) : Prop where
  selected : ∀ k, s.loop = .selected k → status s k = some "pending"
  working : ∀ k, s.loop = .working k → status s k = some "running"
  apart : ∀ call ∈ s.cancels, s.loop.current ≠ some call.batchId
  cancels : ∀ call ∈ s.cancels, status s call.batchId = some "pending" ∨
    status s call.batchId = some "running" ∨ status s call.batchId = some "cancelled"

variable {s : System} {k : String}

theorem exclusive_idle (hidle : s.loop.current = none)
    (hcancels : ∀ call ∈ s.cancels, status s call.batchId = some "pending" ∨
      status s call.batchId = some "running" ∨ status s call.batchId = some "cancelled") : Exclusive s where
  selected := by
    intro k hk
    rw [hk] at hidle
    cases hidle
  working := by
    intro k hk
    rw [hk] at hidle
    cases hidle
  apart := by
    intro call hcall
    simp [hidle]
  cancels := hcancels

theorem exclusive_start (table : Table) : Exclusive (start table) :=
  exclusive_idle rfl (by simp [start])

theorem exclusive_create {s s' : System} (h : Exclusive s) (hbefore : status s k = none)
    (hother : ∀ batchId, batchId ≠ k → status s' batchId = status s batchId) (hloop : s'.loop = s.loop)
    (hcancels : s'.cancels = s.cancels) : Exclusive s' := by
  have hkeep : ∀ batchId text, status s batchId = some text → status s' batchId = some text := by
    intro batchId text htext
    rw [hother batchId, htext]
    rintro rfl
    rw [hbefore] at htext
    cases htext
  refine ⟨?_, ?_, ?_, ?_⟩
  · intro j hj
    exact hkeep j _ (h.selected j (hloop ▸ hj))
  · intro j hj
    exact hkeep j _ (h.working j (hloop ▸ hj))
  · intro call hcall
    rw [hloop]
    exact h.apart call (hcancels ▸ hcall)
  · intro call hcall
    exact (h.cancels call (hcancels ▸ hcall)).imp (hkeep _ _) (Or.imp (hkeep _ _) (hkeep _ _))

theorem exclusive_cancelRead {call : Cancel} (h : Exclusive s) (hdisjoint : s.loop.current ≠ some k) (hid : call.batchId = k)
    (hread : status s k = some "pending" ∨ status s k = some "running") :
    Exclusive { s with cancels := s.cancels ++ [call] } := by
  refine ⟨h.selected, h.working, ?_, ?_⟩
  · intro other hother
    rcases List.mem_append.mp hother with hold | hnew
    · exact h.apart other hold
    · rw [List.mem_singleton.mp hnew, hid]
      exact hdisjoint
  · intro other hother
    rcases List.mem_append.mp hother with hold | hnew
    · exact h.cancels other hold
    · rw [List.mem_singleton.mp hnew, hid]
      exact hread.imp_right .inl

theorem exclusive_cancelWrite {s s' : System} {call : Cancel} {i : Nat} (h : Exclusive s)
    (hcall : call ∈ s.cancels) (hwritten : Written s s' call.batchId "cancelled") (hloop : s'.loop = s.loop)
    (hcancels : s'.cancels = s.cancels.eraseIdx i) : Exclusive s' := by
  have hcurrent : ∀ k, s.loop.current = some k → status s' k = status s k := by
    intro k hk
    refine written_other hwritten ?_
    rintro rfl
    exact h.apart call hcall hk
  have hsub : ∀ other ∈ s'.cancels, other ∈ s.cancels := by
    intro other hother
    rw [hcancels] at hother
    exact List.mem_of_mem_eraseIdx hother
  refine ⟨?_, ?_, ?_, ?_⟩
  · intro k hk
    rw [hloop] at hk
    rw [hcurrent k (by rw [hk]; rfl), h.selected k hk]
  · intro k hk
    rw [hloop] at hk
    rw [hcurrent k (by rw [hk]; rfl), h.working k hk]
  · intro other hother
    rw [hloop]
    exact h.apart other (hsub other hother)
  · intro other hother
    have hstatus := h.cancels other (hsub other hother)
    by_cases hsame : other.batchId = call.batchId
    · rw [hsame] at hstatus ⊢
      rcases hstatus with hp | hr | hc
      · exact .inr (.inr (written_self hwritten hp))
      · exact .inr (.inr (written_self hwritten hr))
      · exact .inr (.inr (written_self hwritten hc))
    · rwa [written_other hwritten hsame]

theorem exclusive_select (h : Exclusive s) (hpending : status s k = some "pending")
    (hdisjoint : ∀ call ∈ s.cancels, call.batchId ≠ k) : Exclusive { s with loop := .selected k } where
  selected := by
    intro j hj
    cases hj
    exact hpending
  working := by
    intro j hj
    cases hj
  apart := by
    intro call hcall hsame
    exact hdisjoint call hcall (Option.some.inj hsame).symm
  cancels := h.cancels

theorem exclusive_markRunning {s s' : System} (h : Exclusive s) (hbefore : s.loop = .selected k)
    (hwritten : Written s s' k "running") (hloop : s'.loop = .working k) (hcancels : s'.cancels = s.cancels) :
    Exclusive s' := by
  have hapart : ∀ call ∈ s.cancels, call.batchId ≠ k := by
    intro call hcall hsame
    exact h.apart call hcall (by rw [hbefore, hsame]; rfl)
  refine ⟨?_, ?_, ?_, ?_⟩
  · intro j hj
    rw [hloop] at hj
    cases hj
  · intro j hj
    rw [hloop] at hj
    cases hj
    exact written_self hwritten (h.selected _ hbefore)
  · intro call hcall hsame
    rw [hloop] at hsame
    exact hapart call (hcancels ▸ hcall) (Option.some.inj hsame).symm
  · intro call hcall
    rw [written_other hwritten (hapart call (hcancels ▸ hcall))]
    exact h.cancels call (hcancels ▸ hcall)

theorem exclusive_finish {s s' : System} {k text : String} (h : Exclusive s) (hbefore : s.loop = .working k)
    (hwritten : Written s s' k text) (hloop : s'.loop = .polling) (hcancels : s'.cancels = s.cancels) : Exclusive s' := by
  refine exclusive_idle (by rw [hloop]; rfl) ?_
  intro call hcall
  rw [hcancels] at hcall
  have hne : call.batchId ≠ k := by
    intro hsame
    exact h.apart call hcall (by rw [hbefore, hsame]; rfl)
  rw [written_other hwritten hne]
  exact h.cancels call hcall

theorem exclusive_step (s : System) (event : Event) (h : Exclusive s) (hdisjoint : Disjoint s event) :
    Exclusive (step s event).2 := by
  cases event with
  | create k inputFileId endpoint completionWindow metadata now =>
    rw [step]
    rcases create_cases s k inputFileId endpoint completionWindow metadata now with
      hs | ⟨s', hs, hbefore, -, hother, hloop, hcancels⟩
    · rwa [hs]
    · rw [hs]
      exact exclusive_create h hbefore hother hloop hcancels
  | cancelRead k =>
    rw [step]
    rcases cancelRead_cases s k with hs | ⟨call, hs, hid, hread⟩
    · rwa [hs]
    · rw [hs]
      exact exclusive_cancelRead h hdisjoint hid hread
  | cancelWrite i now =>
    rw [step]
    rcases cancelWrite_cases s i now with ⟨-, hs⟩ | ⟨call, s', hi, hs, hwritten, hloop, hcancels⟩
    · rwa [hs]
    · rw [hs]
      exact exclusive_cancelWrite h (List.mem_of_getElem? hi) hwritten hloop hcancels
  | cancelError i =>
    exact ⟨h.selected, h.working, fun call hcall => h.apart call (List.mem_of_mem_eraseIdx hcall),
      fun call hcall => h.cancels call (List.mem_of_mem_eraseIdx hcall)⟩
  | select k =>
    rw [step]
    rcases select_cases s k with hs | ⟨hpolling, holdest, hs⟩
    · rwa [hs]
    · rw [hs]
      exact exclusive_select h (oldest_pending holdest) (hdisjoint hpolling holdest)
  | markRunning =>
    rcases markRunning_cases s with ⟨-, hs⟩ | ⟨k, hbefore, hwritten, hloop, hcancels⟩
    · rw [step, hs]
      exact h
    · exact exclusive_markRunning h hbefore hwritten hloop hcancels
  | finish outcome now =>
    rcases finish_cases s outcome now with ⟨-, hs⟩ | ⟨k, hbefore, hwritten, hloop, hcancels⟩
    · rw [step, hs]
      exact h
    · exact exclusive_finish h hbefore hwritten hloop hcancels
  | loopError => exact exclusive_idle rfl h.cancels
  | restart => exact exclusive_start s.table

theorem terminal_step (event : Event) (h : Exclusive s) {batchId text : String} (hstatus : status s batchId = some text)
    (hterminal : Terminal text) : status (step s event).2 batchId = some text := by
  cases step_change s event batchId with
  | kept hkept => exact hkept.trans hstatus
  | created hbefore hafter =>
    rw [hbefore] at hstatus
    cases hstatus
  | cancelled i now call hevent hcall hid hafter =>
    have hcancels := h.cancels call (List.mem_of_getElem? hcall)
    rw [hid, hstatus] at hcancels
    rw [hafter, hstatus]
    rcases hcancels with hp | hr | hc
    · cases hp
      simp [Terminal] at hterminal
    · cases hr
      simp [Terminal] at hterminal
    · cases hc
      rfl
  | running hbefore hafter =>
    rw [h.selected _ hbefore] at hstatus
    cases hstatus
    simp [Terminal] at hterminal
  | finished outcome hbefore hafter =>
    rw [h.working _ hbefore] at hstatus
    cases hstatus
    simp [Terminal] at hterminal

theorem terminal_run {events : List Event} (h : Exclusive s) (hdisjoint : Along step Disjoint s events)
    {batchId text : String} (hstatus : status s batchId = some text) (hterminal : Terminal text) :
    status (final step s events) batchId = some text := by
  induction events generalizing s with
  | nil => exact hstatus
  | cons event events ih =>
    exact ih (exclusive_step s event h hdisjoint.1) hdisjoint.2 (terminal_step event h hstatus hterminal)

theorem cancelled_reply {event : Event} {batchId : String} {info : BatchInfo} (h : Exclusive s)
    (hreply : (step s event).1 = .cancelled batchId (.ok info)) (hinfo : info.status = .text "cancelled") :
    status (step s event).2 batchId = some "cancelled" := by
  rcases cancelled_ok hreply with ⟨st, hst⟩ | ⟨i, now, rfl⟩
  · cases hst.symm.trans hinfo
  · rw [step] at hreply ⊢
    rcases cancelWrite_cases s i now with ⟨-, hs⟩ | ⟨call, s', hi, hs, hwritten, -⟩
    · rw [hs] at hreply
      cases hreply
    · rw [hs] at hreply ⊢
      cases hreply
      rcases h.cancels call (List.mem_of_getElem? hi) with hp | hr | hc
      · exact written_self hwritten hp
      · exact written_self hwritten hr
      · exact written_self hwritten hc

structure Absorbed (table : Table) (events later : List Event) : Prop where
  terminal : ∀ batchId text, status (final step (start table) events) batchId = some text → Terminal text →
    status (final step (start table) (events ++ later)) batchId = some text
  cancelled : ∀ batchId info, .cancelled batchId (.ok info) ∈ outputs step (start table) events →
    info.status = .text "cancelled" →
    status (final step (start table) (events ++ later)) batchId ≠ some "completed" ∧
    status (final step (start table) (events ++ later)) batchId ≠ some "failed"

/-- Over any database, as long as no cancel_batch call overlaps the loop's work on its batch. -/
theorem terminal_absorbing (table : Table) (events later : List Event)
    (h : Along step Disjoint (start table) (events ++ later)) : Absorbed table events later := by
  obtain ⟨hevents, hlater⟩ := (along_append step Disjoint _ _ _).mp h
  have hexclusive : ∀ {s : System} {xs : List Event}, Exclusive s → Along step Disjoint s xs →
      Exclusive (final step s xs) := fun hs hxs => final_invariant exclusive_step hs hxs
  constructor
  · intro batchId text hstatus hterminal
    rw [final_append]
    exact terminal_run (hexclusive (exclusive_start table) hevents) hlater hstatus hterminal
  · intro batchId info hreply hinfo
    obtain ⟨pre, event, post, rfl, hgiven⟩ := mem_outputs step hreply
    rw [List.append_assoc, List.cons_append, final_append, final_cons]
    rw [List.append_assoc, List.cons_append, along_append, along_cons] at h
    obtain ⟨hpre, hevent, hpost⟩ := h
    have hbefore := hexclusive (exclusive_start table) hpre
    have hcancelled := terminal_run (exclusive_step _ event hbefore hevent) hpost
      (cancelled_reply hbefore hgiven.symm hinfo) (.inl rfl)
    rw [hcancelled]
    exact ⟨by decide, by decide⟩

def createFirst : Event := .create "batch_1" "file-1" "/v1/completions" "5s" none 100

theorem cancelled_before_selection :
    status (final step (start .empty) [createFirst, .cancelRead "batch_1", .cancelWrite 0 101,
      .select "batch_1", .markRunning]) "batch_1" = some "cancelled" := by
  have hdisjoint : Along step Disjoint (start .empty) [createFirst, .cancelRead "batch_1", .cancelWrite 0 101,
      .select "batch_1", .markRunning] := by
    refine ⟨trivial, ?_, trivial, ?_, trivial, trivial⟩
    · change none ≠ some "batch_1"
      decide
    · intro _ holdest
      cases holdest
  exact (terminal_absorbing .empty [createFirst, .cancelRead "batch_1", .cancelWrite 0 101]
    [.select "batch_1", .markRunning] hdisjoint).terminal "batch_1" "cancelled" rfl (.inl rfl)

/-- The batch is cancelled while the loop works on it, and recorded as completed afterwards. -/
theorem cancelled_batch_completes : ¬ ∀ table events later, Absorbed table events later := by
  intro h
  have hkept := (h .empty [createFirst, .select "batch_1", .markRunning, .cancelRead "batch_1",
    .cancelWrite 0 101] [.finish (.saved (some "file-2")) 102]).terminal "batch_1" "cancelled" rfl (.inl rfl)
  have hcompleted : some "completed" = some "cancelled" := hkept
  exact absurd hcompleted (by decide)

theorem cancelRead_open (h : status s k = some "pending" ∨ status s k = some "running") :
    ∃ call : Cancel, (cancelRead s k).2 = { s with cancels := s.cancels ++ [call] } ∧ call.batchId = k := by
  have hopen : ∃ row st, s.table.get? k = some row ∧ row.status = BatchStatus.value st ∧ st ≠ .completed ∧
      st ≠ .failed := by
    rcases h with hp | hr
    · obtain ⟨row, hrow, hstatus⟩ := row_of_status hp
      exact ⟨row, .pending, hrow, hstatus, by decide, by decide⟩
    · obtain ⟨row, hrow, hstatus⟩ := row_of_status hr
      exact ⟨row, .running, hrow, hstatus, by decide, by decide⟩
  obtain ⟨row, st, hrow, hstatus, hcompleted, hfailed⟩ := hopen
  have hread : retrieveBatch s.table k = .ok (row.info k st) := by
    simp [retrieveBatch, hrow, hstatus, ofValue_value, Except.map]
  refine ⟨⟨k, row.info k st⟩, ?_, rfl⟩
  simp [cancelRead, hread, Row.info, hcompleted, hfailed]

theorem current_completes {k text : String} (hcurrent : s.loop.current = some k) (hstatus : status s k = some text) :
    status (final step s [.markRunning, .finish (.saved none) 0]) k = some "completed" ∧
      (final step s [.markRunning, .finish (.saved none) 0]).cancels = s.cancels := by
  have hworking : ∃ text', (markRunning s).loop = .working k ∧ status (markRunning s) k = some text' ∧
      (markRunning s).cancels = s.cancels := by
    rcases markRunning_cases s with ⟨hnot, hs⟩ | ⟨j, hbefore, hwritten, hloop, hcancels⟩
    · rw [hs]
      cases hloop : s.loop with
      | selected j => exact absurd hloop (hnot j)
      | working j =>
        rw [hloop] at hcurrent
        cases hcurrent
        exact ⟨text, rfl, hstatus, rfl⟩
      | _ =>
        rw [hloop] at hcurrent
        cases hcurrent
    · rw [hbefore] at hcurrent
      cases hcurrent
      exact ⟨_, hloop, written_self hwritten hstatus, hcancels⟩
  obtain ⟨text', hloop, hrunning, hcancels⟩ := hworking
  rcases finish_cases (markRunning s) (.saved none) 0 with ⟨hnot, -⟩ | ⟨j, hbefore, hwritten, -, hsame⟩
  · exact absurd hloop (hnot k)
  · rw [hloop] at hbefore
    cases hbefore
    exact ⟨written_self hwritten hrunning, hsame.trans hcancels⟩

theorem Exclusive.current_open (h : Exclusive s) (hcurrent : s.loop.current = some k) :
    status s k = some "pending" ∨ status s k = some "running" := by
  cases hloop : s.loop with
  | selected j =>
    rw [hloop] at hcurrent
    cases hcurrent
    exact .inl (h.selected k hloop)
  | working j =>
    rw [hloop] at hcurrent
    cases hcurrent
    exact .inr (h.working k hloop)
  | _ =>
    rw [hloop] at hcurrent
    cases hcurrent

def Overwrites (s : System) (event : Event) : Prop :=
  ∃ events later batchId text, Terminal text ∧
    status (final step s (event :: events)) batchId = some text ∧
    status (final step s (event :: (events ++ later))) batchId ≠ some text

theorem cancelRead_overwrites (h : Exclusive s) (hcurrent : s.loop.current = some k) : Overwrites s (.cancelRead k) := by
  have hstatus := h.current_open hcurrent
  obtain ⟨call, hread, rfl⟩ := cancelRead_open hstatus
  have hlast : (s.cancels ++ [call])[s.cancels.length]? = some call := by simp
  rcases cancelWrite_cases { s with cancels := s.cancels ++ [call] } s.cancels.length 0 with
    ⟨hnone, -⟩ | ⟨other, s', hcall, hs, hwritten, hloop, -⟩
  · rw [hlast] at hnone
    cases hnone
  · rw [hlast] at hcall
    cases hcall
    have hcancelled : status s' call.batchId = some "cancelled" :=
      hstatus.elim (fun hp => written_self hwritten hp) (fun hr => written_self hwritten hr)
    have htwo : final step s [.cancelRead call.batchId, .cancelWrite s.cancels.length 0] = s' := by
      simp [step, hread, hs]
    refine ⟨[.cancelWrite s.cancels.length 0], [.markRunning, .finish (.saved none) 0], call.batchId,
      "cancelled", .inl rfl, ?_, ?_⟩
    · rw [htwo, hcancelled]
    · have hdone := (current_completes (hloop ▸ hcurrent) hcancelled).1
      rw [← htwo, ← final_append] at hdone
      change status (final step s ([.cancelRead call.batchId, .cancelWrite s.cancels.length 0] ++
        [.markRunning, .finish (.saved none) 0])) call.batchId ≠ _
      rw [hdone]
      decide

theorem select_overwrites {call : Cancel} (hcall : call ∈ s.cancels) (hpolling : s.loop = .polling)
    (holdest : isOldestPending s.table call.batchId = true) : Overwrites s (.select call.batchId) := by
  have hselect : select s call.batchId = { s with loop := .selected call.batchId } := by
    rw [select, if_pos ⟨hpolling, holdest⟩]
  obtain ⟨i, hi, hget⟩ := List.getElem_of_mem hcall
  have hdone := current_completes (s := { s with loop := .selected call.batchId }) rfl (oldest_pending holdest)
  refine ⟨[.markRunning, .finish (.saved none) 0], [.cancelWrite i 0], call.batchId, "completed",
    .inr (.inl rfl), ?_, ?_⟩
  · rw [final_cons, step, hselect]
    exact hdone.1
  · rw [final_cons, final_append, step, hselect]
    rcases cancelWrite_cases (final step { s with loop := .selected call.batchId }
        [.markRunning, .finish (.saved none) 0]) i 0 with ⟨hnone, -⟩ | ⟨other, s', hsome, hs, hwritten, -⟩
    · rw [hdone.2, List.getElem?_eq_getElem hi] at hnone
      cases hnone
    · rw [hdone.2, List.getElem?_eq_getElem hi, hget] at hsome
      cases hsome
      simp only [final_cons, final_nil, step] at hs ⊢
      rw [hs, written_self hwritten hdone.1]
      decide

/-- An overlap can always end in a terminal status that is overwritten. -/
theorem overlap_overwrites {event : Event} (h : Exclusive s) (hoverlap : ¬ Disjoint s event) : Overwrites s event := by
  cases event with
  | cancelRead k => exact cancelRead_overwrites h (not_not.mp hoverlap)
  | select k =>
    simp only [Disjoint, not_forall, not_not] at hoverlap
    obtain ⟨hpolling, holdest, call, hcall, rfl⟩ := hoverlap
    exact select_overwrites hcall hpolling holdest
  | _ => exact absurd trivial hoverlap

end ProductionStack.LocalBatchProcessor
