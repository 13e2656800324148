import ProductionStack.LocalBatchProcessor

namespace ProductionStack.LocalBatchProcessor

open Runs Batch

def NoCancelWrite (s : System) : Event → Prop
  | .cancelWrite i _ => s.cancels[i]? = none
  | _ => True

def Decodable (s : System) : Prop :=
  ∀ batchId text, status s batchId = some text → ∃ st : BatchStatus, text = st.value

theorem decodable_step (s : System) (event : Event) (h : Decodable s) (hwrite : NoCancelWrite s event) :
    Decodable (step s event).2 := by
  intro batchId text htext
  cases step_change s event batchId with
  | kept hkept => exact h batchId text (hkept ▸ htext)
  | created hbefore hafter =>
    rw [hafter] at htext
    exact ⟨.pending, (Option.some.inj htext).symm⟩
  | cancelled i now call hevent hcall hid hafter =>
    subst hevent
    rw [NoCancelWrite, hcall] at hwrite
    cases hwrite
  | running hbefore hafter =>
    obtain ⟨_, -, rfl⟩ := Option.map_eq_some_iff.mp (hafter ▸ htext)
    exact ⟨.running, rfl⟩
  | finished outcome hbefore hafter =>
    obtain ⟨_, -, rfl⟩ := Option.map_eq_some_iff.mp (hafter ▸ htext)
    exact ⟨outcome.newStatus, rfl⟩

theorem decodable_run {events : List Event} (h : Along step NoCancelWrite init events) : Decodable (final step init events) :=
  final_invariant decodable_step (fun _ _ hstatus => by cases hstatus) h

theorem readable_of_decodable {s : System} (h : Decodable s) {batchId : String} {row : Row}
    (hrow : s.table.get? batchId = some row) : Readable s.table batchId := by
  obtain ⟨st, hst⟩ := h batchId row.status (status_of_row hrow)
  exact readable_of_status hrow hst

/-- The rows of a listing, each with the table in which it is looked up while the run goes on. -/
def rowsOf (pre : List Event) (reads : List (String × List Event)) : List (String × Table) :=
  reads.map (fun read => (read.1, (final step init (pre ++ read.2)).table))

/-- Every stored batch can be read in every state of the run, also by a listing whose
rows are retrieved while the run goes on, and so can what cancel_batch returns. -/
structure ReadBack (events : List Event) : Prop where
  retrieved : ∀ pre post, events = pre ++ post → ∀ batchId row,
    (final step init pre).table.get? batchId = some row → Readable (final step init pre).table batchId
  listed : ∀ greater order limit after pre post (reads : List (String × List Event)), events = pre ++ post →
    reads.map Prod.fst = selectIds greater order limit after (final step init pre).table →
    (∀ read ∈ reads, read.2 <+: post) →
    ∃ infos, retrieveRows (rowsOf pre reads) = .ok infos ∧
      listBatches limit (rowsOf pre reads) = (bindLimit limit).map (fun _ => infos) ∧
      ∀ info ∈ infos, ∃ fields, info.toDict = .ok fields
  returned : ∀ batchId info, .cancelled batchId (.ok info) ∈ outputs step init events →
    ∃ fields, info.toDict = .ok fields

theorem listed_of_decodable {greater : Int → String → Bool} {order : Selection.Sorting byCreation} {limit : Int}
    {after : Option String} {pre : List Event} {reads : List (String × List Event)}
    (hids : reads.map Prod.fst = selectIds greater order limit after (final step init pre).table)
    (hdecodable : ∀ read ∈ reads, Decodable (final step init (pre ++ read.2))) :
    ∃ infos, retrieveRows (rowsOf pre reads) = .ok infos ∧ ∀ info ∈ infos, ∃ fields, info.toDict = .ok fields := by
  apply retrieveRows_ok
  intro r hr
  obtain ⟨read, hread, rfl⟩ := List.mem_map.mp hr
  have hid : read.1 ∈ selectIds greater order limit after (final step init pre).table := by
    rw [← hids]
    exact List.mem_map_of_mem hread
  obtain ⟨row, hrow⟩ := mem_selectIds hid
  obtain ⟨text, htext⟩ := status_persists_run read.2 (status_of_row (Dict.get?_of_mem _ hrow))
  rw [← final_append] at htext
  obtain ⟨row', hrow', -⟩ := row_of_status htext
  exact readable_of_decodable (hdecodable read hread) hrow'

theorem returned_of_noCancelWrite {s : System} {event : Event} {batchId : String} {info : BatchInfo}
    (hwrite : NoCancelWrite s event) (hreply : (step s event).1 = .cancelled batchId (.ok info)) :
    ∃ fields, info.toDict = .ok fields := by
  rcases cancelled_ok hreply with ⟨status, hstatus⟩ | ⟨i, now, rfl⟩
  · exact toDict_member info status hstatus
  · rw [NoCancelWrite] at hwrite
    simp [step, cancelWrite, hwrite] at hreply

theorem cancelWrite_reply {s : System} {i : Nat} {call : Cancel} (h : s.cancels[i]? = some call) (now : Int) :
    ∃ info, (step s (.cancelWrite i now)).1 = .cancelled call.batchId (.ok info) ∧
      ∀ fields, info.toDict ≠ .ok fields := by
  refine ⟨{ call.info with status := .text "cancelled", completedAt := some now }, ?_, ?_⟩
  · simp [step, cancelWrite, h]
  · intro fields hfields
    cases hfields

theorem read_back_iff (events : List Event) : ReadBack events ↔ Along step NoCancelWrite init events := by
  constructor
  · intro h
    apply along_of_forall
    rintro pre event post rfl
    cases event with
    | cancelWrite i now =>
      cases hcall : (final step init pre).cancels[i]? with
      | none => exact hcall
      | some call =>
        obtain ⟨info, hreply, herror⟩ := cancelWrite_reply hcall now
        have hmem := output_mem step init pre post (.cancelWrite i now)
        rw [hreply] at hmem
        obtain ⟨fields, hfields⟩ := h.returned _ _ hmem
        exact absurd hfields (herror fields)
    | _ => trivial
  · intro h
    have hdecodable : ∀ pre post, events = pre ++ post → Decodable (final step init pre) := by
      rintro pre post rfl
      exact decodable_run ((along_append step NoCancelWrite _ _ _).mp h).1
    refine ⟨?_, ?_, ?_⟩
    · intro pre post hsplit batchId row hrow
      exact readable_of_decodable (hdecodable pre post hsplit) hrow
    · intro greater order limit after pre post reads hsplit hids hreads
      have hthere : ∀ read ∈ reads, Decodable (final step init (pre ++ read.2)) := by
        intro read hread
        obtain ⟨rest, rfl⟩ := hreads read hread
        exact hdecodable (pre ++ read.2) rest (by rw [hsplit, List.append_assoc])
      obtain ⟨infos, hinfos, hdicts⟩ := listed_of_decodable hids hthere
      refine ⟨infos, hinfos, ?_, hdicts⟩
      rw [listBatches, hinfos]
      rfl
    · intro batchId info hreply
      obtain ⟨pre, event, post, rfl, hgiven⟩ := mem_outputs step hreply
      have hwrite := ((along_append step NoCancelWrite _ _ _).mp h).2.1
      exact returned_of_noCancelWrite hwrite hgiven.symm

/-- A pending batch is cancelled; neither the answer nor the row can be read. -/
theorem cancelled_batch_unreadable : ¬ ∀ events, ReadBack events := by
  intro h
  have hread := (h [.create "batch_1" "file-1" "/v1/completions" "5s" none 100, .cancelRead "batch_1",
    .cancelWrite 0 101]).retrieved _ [] (List.append_nil _).symm "batch_1" _ rfl
  obtain ⟨row, info, fields, hrow, hretrieve, -⟩ := hread
  cases hretrieve

def Survives (s : System) : Event → Prop
  | .loopError => ∀ batchId, s.loop ≠ .working batchId
  | .restart => ∀ batchId, s.loop ≠ .working batchId
  | _ => True

/-- A running batch is the one the loop works on, so that every batch that is not done is
pending or being processed. -/
structure Attended (s : System) : Prop where
  running : ∀ batchId, status s batchId = some "running" → s.loop = .working batchId
  unfinished : ∀ batchId text, status s batchId = some text → ¬ Terminal text →
    text = "pending" ∨ s.loop = .working batchId

def Known (s : System) : Prop :=
  ∀ batchId text, status s batchId = some text → s.loop = .working batchId ∨ text = "pending" ∨ Terminal text

theorem attended_of_known {s : System} (h : Known s) : Attended s where
  running := by
    intro batchId hrunning
    rcases h batchId _ hrunning with hworking | hpending | hterminal
    · exact hworking
    · exact absurd hpending (by decide)
    · exact absurd hterminal (by simp [Terminal])
  unfinished := by
    intro batchId text htext hopen
    rcases h batchId text htext with hworking | hpending | hterminal
    · exact .inr hworking
    · exact .inl hpending
    · exact absurd hterminal hopen

theorem newStatus_terminal (outcome : Outcome) : Terminal outcome.newStatus.value := by
  cases outcome with
  | saved fileId => exact .inr (.inl rfl)
  | failed => exact .inr (.inr rfl)

theorem known_idle {s s' : System} (h : Known s) (hidle : ∀ batchId, s.loop ≠ .working batchId)
    (htable : s'.table = s.table) : Known s' := by
  intro batchId text htext
  rw [status, htable] at htext
  exact .inr ((h batchId text htext).resolve_left (hidle batchId))

theorem known_written {s s' : System} {k text : String} (h : Known s) (hwritten : Written s s' k text)
    (hk : s'.loop = .working k ∨ text = "pending" ∨ Terminal text)
    (hloop : ∀ batchId, batchId ≠ k → s.loop = .working batchId → s'.loop = .working batchId) : Known s' := by
  intro batchId text' htext
  by_cases hb : batchId = k
  · subst hb
    rw [hwritten batchId, if_pos rfl] at htext
    obtain ⟨_, -, rfl⟩ := Option.map_eq_some_iff.mp htext
    exact hk
  · rw [written_other hwritten hb] at htext
    exact (h batchId text' htext).imp_left (hloop batchId hb)

theorem known_step (s : System) (event : Event) (h : Known s) (hsurvives : Survives s event) : Known (step s event).2 := by
  cases event with
  | create k inputFileId endpoint completionWindow metadata now =>
    rw [step]
    rcases create_cases s k inputFileId endpoint completionWindow metadata now with
      hs | ⟨s', hs, -, hafter, hother, hloop, -⟩
    · rwa [hs]
    · rw [hs]
      intro batchId text htext
      by_cases hb : batchId = k
      · subst hb
        rw [hafter] at htext
        exact .inr (.inl (Option.some.inj htext).symm)
      · rw [hother batchId hb] at htext
        rw [hloop]
        exact h batchId text htext
  | cancelRead k =>
    rw [step]
    rcases cancelRead_cases s k with hs | ⟨call, hs, -⟩
    · rwa [hs]
    · rw [hs]
      exact h
  | cancelWrite i now =>
    rw [step]
    rcases cancelWrite_cases s i now with ⟨-, hs⟩ | ⟨call, s', -, hs, hwritten, hloop, -⟩
    · rwa [hs]
    · rw [hs]
      exact known_written h hwritten (.inr (.inr (.inl rfl))) (fun batchId _ hworking => hloop.trans hworking)
  | cancelError i => exact h
  | select k =>
    rw [step]
    rcases select_cases s k with hs | ⟨hpolling, -, hs⟩
    · rwa [hs]
    · rw [hs]
      refine known_idle h ?_ rfl
      intro batchId hworking
      rw [hpolling] at hworking
      cases hworking
  | markRunning =>
    rcases markRunning_cases s with ⟨-, hs⟩ | ⟨k, hbefore, hwritten, hloop, -⟩
    · rw [step, hs]
      exact h
    · refine known_written h hwritten (.inl hloop) ?_
      intro batchId _ hworking
      rw [hbefore] at hworking
      cases hworking
  | finish outcome now =>
    rcases finish_cases s outcome now with ⟨-, hs⟩ | ⟨k, hbefore, hwritten, hloop, -⟩
    · rw [step, hs]
      exact h
    · refine known_written h hwritten (.inr (.inr (newStatus_terminal outcome))) ?_
      intro batchId hb hworking
      rw [hbefore] at hworking
      exact absurd (Loop.working.inj hworking).symm hb
  | loopError => exact known_idle h hsurvives rfl
  | restart => exact known_idle h hsurvives rfl

/-- As long as nothing stops the loop between its two updates of a batch. -/
theorem no_batch_orphaned (events : List Event) (h : Along step Survives init events) : Attended (final step init events) :=
  attended_of_known (final_invariant known_step (fun _ _ hstatus => by cases hstatus) h)

theorem restart_between_batches :
    Attended (final step init [.create "batch_1" "file-1" "/v1/completions" "5s" none 100, .select "batch_1",
      .restart, .select "batch_1", .markRunning]) := by
  apply no_batch_orphaned
  refine ⟨trivial, trivial, ?_, trivial, trivial, trivial⟩
  intro batchId hworking
  cases hworking

/-- The process dies while it works on the batch; the next one never selects it again. -/
theorem crash_orphans_running : ¬ ∀ events, Attended (final step init events) := by
  intro h
  have hworking := (h [.create "batch_1" "file-1" "/v1/completions" "5s" none 100, .select "batch_1",
    .markRunning, .restart]).running "batch_1" rfl
  cases hworking

theorem stopped_orphans {s : System} {event : Event} {batchId : String} (hrunning : status s batchId = some "running")
    (hstop : ¬ Survives s event) : ¬ Attended (step s event).2 := by
  intro hattended
  cases event with
  | loopError => cases hattended.running batchId hrunning
  | restart => cases hattended.running batchId hrunning
  | _ => exact hstop trivial

end ProductionStack.LocalBatchProcessor
