import ProductionStack.Batch
import ProductionStack.Runs

namespace ProductionStack.LocalBatchProcessor

open Runs Batch

/-- Where the task process_batches is suspended. It ends by an exception of a statement outside its try. -/
inductive Loop
  | polling
  | selected (batchId : String)
  | working (batchId : String)
  | dead
  deriving DecidableEq, Repr

def Loop.current : Loop → Option String
  | .selected batchId => some batchId
  | .working batchId => some batchId
  | _ => none

/-- A cancel_batch call that has read its batch and found it neither completed nor failed. -/
structure Cancel where
  batchId : String
  info : BatchInfo

/-- The table outlives the process, the rest does not. -/
structure System where
  table : Table
  loop : Loop
  cancels : List Cancel

inductive Outcome
  | saved (fileId : Option String)
  | failed

/-- The steps between two awaits. A statement takes effect when it is committed;
restart is a crash of the process and its next start on the same database. -/
inductive Event
  | create (batchId inputFileId endpoint completionWindow : String) (metadata : Option Json) (now : Int)
  | cancelRead (batchId : String)
  | cancelWrite (i : Nat) (now : Int)
  | cancelError (i : Nat)
  | select (batchId : String)
  | markRunning
  | finish (outcome : Outcome) (now : Int)
  | loopError
  | restart

inductive Reply
  | nothing
  | created (info : BatchInfo)
  | integrityError
  | cancelled (batchId : String) (result : Except Exc BatchInfo)

def start (table : Table) : System := ⟨table, .polling, []⟩

def init : System := start .empty

def createdMetadata (metadata : Option Json) : Json :=
  match metadata with
  | some value => if value.truthy then value else .obj []
  | none => .obj []

def createBatch (s : System) (batchId inputFileId endpoint completionWindow : String) (metadata : Option Json)
    (now : Int) : Reply × System :=
  let info : BatchInfo :=
    { id := batchId
      status := .member .pending
      inputFileId := inputFileId
      createdAt := now
      endpoint := endpoint
      completionWindow := completionWindow
      metadata := some (createdMetadata metadata) }
  let row : Row :=
    { status := BatchStatus.pending.value
      inputFileId := inputFileId
      createdAt := now
      endpoint := endpoint
      completionWindow := completionWindow
      outputFileId := none
      completedAt := none
      metadata := some ⟨createdMetadata metadata⟩ }
  if s.table.contains batchId then (.integrityError, s)
  else (.created info, { s with table := s.table.set batchId row })

def cancelRead (s : System) (batchId : String) : Reply × System :=
  match retrieveBatch s.table batchId with
  | .error e => (.cancelled batchId (.error e), s)
  | .ok info =>
    if info.status = .member .completed ∨ info.status = .member .failed then (.cancelled batchId (.ok info), s)
    else (.nothing, { s with cancels := s.cancels ++ [⟨batchId, info⟩] })

def cancelWrite (s : System) (i : Nat) (now : Int) : Reply × System :=
  match s.cancels[i]? with
  | none => (.nothing, s)
  | some call =>
    (.cancelled call.batchId (.ok { call.info with status := .text "cancelled", completedAt := some now }),
      { s with
        table := s.table.modify call.batchId
          (fun row => { row with status := "cancelled", completedAt := some now })
        cancels := s.cancels.eraseIdx i })

/-- The query of the loop may answer with the row: which of several oldest ones it takes is SQLite's choice. -/
def isOldestPending (table : Table) (batchId : String) : Bool :=
  match table.get? batchId with
  | none => false
  | some row => row.status = "pending" &&
      table.values.all (fun other => other.status ≠ "pending" || row.createdAt ≤ other.createdAt)

def select (s : System) (batchId : String) : System :=
  if s.loop = .polling ∧ isOldestPending s.table batchId = true then { s with loop := .selected batchId } else s

def markRunning (s : System) : System :=
  match s.loop with
  | .selected batchId =>
    { s with
      table := s.table.modify batchId (fun row => { row with status := "running" })
      loop := .working batchId }
  | _ => s

def Outcome.newStatus : Outcome → BatchStatus
  | .saved _ => .completed
  | .failed => .failed

def Outcome.outputFileId : Outcome → Option String
  | .saved fileId => some (fileId.getD "output_id")
  | .failed => none

def finish (s : System) (outcome : Outcome) (now : Int) : System :=
  match s.loop with
  | .working batchId =>
    { s with
      table := s.table.modify batchId (fun row =>
        { row with
          status := outcome.newStatus.value
          completedAt := some now
          outputFileId := outcome.outputFileId })
      loop := .polling }
  | _ => s

def step : Component System Event Reply := fun s event =>
  match event with
  | .create batchId inputFileId endpoint completionWindow metadata now =>
    createBatch s batchId inputFileId endpoint completionWindow metadata now
  | .cancelRead batchId => cancelRead s batchId
  | .cancelWrite i now => cancelWrite s i now
  | .cancelError i => (.nothing, { s with cancels := s.cancels.eraseIdx i })
  | .select batchId => (.nothing, select s batchId)
  | .markRunning => (.nothing, markRunning s)
  | .finish outcome now => (.nothing, finish s outcome now)
  | .loopError => (.nothing, { s with loop := .dead })
  | .restart => (.nothing, start s.table)

def status (s : System) (batchId : String) : Option String := (s.table.get? batchId).map (·.status)

def Terminal (text : String) : Prop := text = "cancelled" ∨ text = "completed" ∨ text = "failed"

theorem status_of_row {s : System} {batchId : String} {row : Row} (h : s.table.get? batchId = some row) :
    status s batchId = some row.status := by
  simp [status, h]

theorem row_of_status {s : System} {batchId text : String} (h : status s batchId = some text) :
    ∃ row, s.table.get? batchId = some row ∧ row.status = text := by
  simpa [status] using h

/-- The table is updated at one key, and the new row has the given status. -/
def Written (s s' : System) (k text : String) : Prop :=
  ∀ batchId, status s' batchId = if batchId = k then (status s k).map (fun _ => text) else status s batchId

theorem written_modify {s s' : System} {k : String} {f : Row → Row} {text : String}
    (htable : s'.table = s.table.modify k f) (hf : ∀ row, (f row).status = text) : Written s s' k text := by
  intro batchId
  rw [status, htable, Dict.get?_modify]
  split
  · cases hrow : s.table.get? k with
    | none => simp [status, hrow]
    | some row => simp [status, hrow, hf]
  · rfl

theorem written_other {s s' : System} {k text batchId : String} (h : Written s s' k text) (hb : batchId ≠ k) :
    status s' batchId = status s batchId := by
  rw [h batchId, if_neg hb]

theorem written_self {s s' : System} {k text old : String} (h : Written s s' k text)
    (hold : status s k = some old) : status s' k = some text := by
  rw [h k, if_pos rfl, hold]
  rfl

variable (s : System)

theorem create_cases (k inputFileId endpoint completionWindow : String) (metadata : Option Json) (now : Int) :
    (createBatch s k inputFileId endpoint completionWindow metadata now).2 = s ∨ ∃ s',
      (createBatch s k inputFileId endpoint completionWindow metadata now).2 = s' ∧ status s k = none ∧
      status s' k = some "pending" ∧ (∀ batchId, batchId ≠ k → status s' batchId = status s batchId) ∧
      s'.loop = s.loop ∧ s'.cancels = s.cancels := by
  rw [createBatch]
  by_cases hk : s.table.contains k = true
  · exact .inl (by simp only [if_pos hk])
  · simp only [if_neg hk]
    have hnone : s.table.get? k = none := by simpa [Dict.contains] using hk
    refine .inr ⟨_, rfl, by simp [status, hnone], by simp [status, BatchStatus.value], ?_, rfl, rfl⟩
    intro batchId hb
    simp [status, Dict.get?_set, hb]

theorem cancelRead_cases (k : String) :
    (cancelRead s k).2 = s ∨ ∃ call : Cancel, (cancelRead s k).2 = { s with cancels := s.cancels ++ [call] } ∧
      call.batchId = k ∧ (status s k = some "pending" ∨ status s k = some "running") := by
  rw [cancelRead]
  cases hread : retrieveBatch s.table k with
  | error e => exact .inl rfl
  | ok info =>
    obtain ⟨row, st, hrow, hst, rfl⟩ := retrieveBatch_ok hread
    simp only
    split
    · exact .inl rfl
    next hopen =>
      refine .inr ⟨_, rfl, rfl, ?_⟩
      rw [status_of_row hrow, hst]
      cases st with
      | pending => exact .inl rfl
      | running => exact .inr rfl
      | completed => exact absurd (.inl rfl) hopen
      | failed => exact absurd (.inr rfl) hopen

theorem cancelWrite_cases (i : Nat) (now : Int) :
    s.cancels[i]? = none ∧ cancelWrite s i now = (.nothing, s) ∨ ∃ call s', s.cancels[i]? = some call ∧
      cancelWrite s i now = (.cancelled call.batchId
        (.ok { call.info with status := .text "cancelled", completedAt := some now }), s') ∧
      Written s s' call.batchId "cancelled" ∧ s'.loop = s.loop ∧ s'.cancels = s.cancels.eraseIdx i := by
  rw [cancelWrite]
  cases hi : s.cancels[i]? with
  | none => exact .inl ⟨rfl, rfl⟩
  | some call => exact .inr ⟨call, _, rfl, rfl, written_modify rfl (fun _ => rfl), rfl, rfl⟩

theorem select_cases (k : String) :
    select s k = s ∨ s.loop = .polling ∧ isOldestPending s.table k = true ∧
      select s k = { s with loop := .selected k } := by
  rw [select]
  split
  next h => exact .inr ⟨h.1, h.2, rfl⟩
  · exact .inl rfl

theorem oldest_pending {s : System} {k : String} (h : isOldestPending s.table k = true) : status s k = some "pending" := by
  rw [isOldestPending] at h
  cases hrow : s.table.get? k with
  | none =>
    rw [hrow] at h
    cases h
  | some row =>
    simp only [hrow, Bool.and_eq_true, decide_eq_true_eq] at h
    rw [status_of_row hrow, h.1]

theorem markRunning_cases :
    (∀ k, s.loop ≠ .selected k) ∧ markRunning s = s ∨ ∃ k, s.loop = .selected k ∧
      Written s (markRunning s) k "running" ∧ (markRunning s).loop = .working k ∧
      (markRunning s).cancels = s.cancels := by
  rw [markRunning]
  cases hloop : s.loop with
  | selected k => exact .inr ⟨k, rfl, written_modify rfl (fun _ => rfl), rfl, rfl⟩
  | _ => exact .inl ⟨by simp, rfl⟩

theorem finish_cases (outcome : Outcome) (now : Int) :
    (∀ k, s.loop ≠ .working k) ∧ finish s outcome now = s ∨ ∃ k, s.loop = .working k ∧
      Written s (finish s outcome now) k outcome.newStatus.value ∧ (finish s outcome now).loop = .polling ∧
      (finish s outcome now).cancels = s.cancels := by
  rw [finish]
  cases hloop : s.loop with
  | working k => exact .inr ⟨k, rfl, written_modify rfl (fun _ => rfl), rfl, rfl⟩
  | _ => exact .inl ⟨by simp, rfl⟩

/-- All that a step can do to the status of a batch. -/
inductive Change (s : System) (event : Event) (batchId : String) : System → Prop
  | kept {s'} (h : status s' batchId = status s batchId) : Change s event batchId s'
  | created {s'} (hbefore : status s batchId = none) (hafter : status s' batchId = some "pending") :
      Change s event batchId s'
  | cancelled {s'} (i : Nat) (now : Int) (call : Cancel) (hevent : event = .cancelWrite i now)
      (hcall : s.cancels[i]? = some call) (hid : call.batchId = batchId)
      (hafter : status s' batchId = (status s batchId).map (fun _ => "cancelled")) : Change s event batchId s'
  | running {s'} (hbefore : s.loop = .selected batchId)
      (hafter : status s' batchId = (status s batchId).map (fun _ => "running")) : Change s event batchId s'
  | finished {s'} (outcome : Outcome) (hbefore : s.loop = .working batchId)
      (hafter : status s' batchId = (status s batchId).map (fun _ => outcome.newStatus.value)) :
      Change s event batchId s'

theorem step_change (event : Event) (batchId : String) : Change s event batchId (step s event).2 := by
  cases event with
  | create k inputFileId endpoint completionWindow metadata now =>
    rcases create_cases s k inputFileId endpoint completionWindow metadata now with
      hs | ⟨s', hs, hbefore, hafter, hother, -⟩
    · exact .kept (congrArg (status · batchId) hs)
    · rw [step, hs]
      by_cases hb : batchId = k
      · subst hb
        exact .created hbefore hafter
      · exact .kept (hother batchId hb)
  | cancelRead k =>
    rcases cancelRead_cases s k with hs | ⟨call, hs, -⟩
    · exact .kept (congrArg (status · batchId) hs)
    · rw [step, hs]
      exact .kept rfl
  | cancelWrite i now =>
    rcases cancelWrite_cases s i now with ⟨-, hs⟩ | ⟨call, s', hi, hs, hwritten, -⟩
    · exact .kept (congrArg (status ·.2 batchId) hs)
    · rw [step, hs]
      by_cases hb : batchId = call.batchId
      · subst hb
        exact .cancelled i now call rfl hi rfl ((hwritten _).trans (if_pos rfl))
      · exact .kept (written_other hwritten hb)
  | select k =>
    rcases select_cases s k with hs | ⟨-, -, hs⟩
    · exact .kept (congrArg (status · batchId) hs)
    · rw [step, hs]
      exact .kept rfl
  | markRunning =>
    rcases markRunning_cases s with ⟨-, hs⟩ | ⟨k, hloop, hwritten, -⟩
    · exact .kept (congrArg (status · batchId) hs)
    · by_cases hb : batchId = k
      · subst hb
        exact .running hloop ((hwritten _).trans (if_pos rfl))
      · exact .kept (written_other hwritten hb)
  | finish outcome now =>
    rcases finish_cases s outcome now with ⟨-, hs⟩ | ⟨k, hloop, hwritten, -⟩
    · exact .kept (congrArg (status · batchId) hs)
    · by_cases hb : batchId = k
      · subst hb
        exact .finished outcome hloop ((hwritten _).trans (if_pos rfl))
      · exact .kept (written_other hwritten hb)
  | cancelError | loopError | restart => exact .kept rfl

theorem status_persists (event : Event) {batchId text : String} (h : status s batchId = some text) :
    ∃ text', status (step s event).2 batchId = some text' := by
  cases step_change s event batchId with
  | kept hkept => exact ⟨text, hkept.trans h⟩
  | created hbefore hafter => exact ⟨_, hafter⟩
  | cancelled i now call hevent hcall hid hafter => exact ⟨_, by rw [hafter, h]; rfl⟩
  | running hbefore hafter => exact ⟨_, by rw [hafter, h]; rfl⟩
  | finished outcome hbefore hafter => exact ⟨_, by rw [hafter, h]; rfl⟩

theorem status_persists_run {s : System} (events : List Event) {batchId text : String}
    (h : status s batchId = some text) : ∃ text', status (final step s events) batchId = some text' := by
  induction events generalizing s text with
  | nil => exact ⟨text, h⟩
  | cons event events ih =>
    obtain ⟨text', h'⟩ := status_persists s event h
    exact ih h'

theorem cancelled_ok {s : System} {event : Event} {batchId : String} {info : BatchInfo}
    (h : (step s event).1 = .cancelled batchId (.ok info)) :
    (∃ status, info.status = .member status) ∨ ∃ i now, event = .cancelWrite i now := by
  cases event with
  | cancelRead k =>
    simp only [step, cancelRead] at h
    cases hread : retrieveBatch s.table k with
    | error e =>
      rw [hread] at h
      cases h
    | ok read =>
      obtain ⟨row, status, -, -, rfl⟩ := retrieveBatch_ok hread
      simp only [hread] at h
      split at h
      · cases h
        exact .inl ⟨status, rfl⟩
      · cases h
  | cancelWrite i now => exact .inr ⟨i, now, rfl⟩
  | create k inputFileId endpoint completionWindow metadata now =>
    simp only [step, createBatch] at h
    split at h <;> cases h
  | cancelError | select | markRunning | finish | loopError | restart => cases h

end ProductionStack.LocalBatchProcessor
