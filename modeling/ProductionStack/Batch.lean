import Mathlib.Algebra.Ring.Int.Defs
import ProductionStack.Endpoint
import ProductionStack.Json
import ProductionStack.Selection

namespace ProductionStack.Batch

inductive BatchStatus
  | pending
  | running
  | completed
  | failed
  deriving DecidableEq, Repr

def BatchStatus.value : BatchStatus → String
  | .pending => "pending"
  | .running => "running"
  | .completed => "completed"
  | .failed => "failed"

def BatchStatus.ofValue (text : String) : Except Exc BatchStatus :=
  if text = "pending" then .ok .pending
  else if text = "running" then .ok .running
  else if text = "completed" then .ok .completed
  else if text = "failed" then .ok .failed
  else .error (.valueError ("'" ++ text ++ "' is not a valid BatchStatus"))

/-- The text json.dumps made of a value, which json.loads reads back. -/
structure Dumped where
  value : Json

structure Row where
  status : String
  inputFileId : String
  createdAt : Int
  endpoint : String
  completionWindow : String
  outputFileId : Option String
  completedAt : Option Int
  metadata : Option Dumped

abbrev Table := Dict String Row

/-- The attribute status holds a member of the enum, or the plain text assigned to it. -/
inductive StatusAttr
  | member (status : BatchStatus)
  | text (status : String)
  deriving DecidableEq, Repr

structure BatchInfo where
  id : String
  status : StatusAttr
  inputFileId : String
  createdAt : Int
  endpoint : String
  completionWindow : String
  outputFileId : Option String := none
  errorFileId : Option String := none
  inProgressAt : Option Int := none
  expiresAt : Option Int := none
  finalizingAt : Option Int := none
  completedAt : Option Int := none
  failedAt : Option Int := none
  expiredAt : Option Int := none
  cancellingAt : Option Int := none
  cancelledAt : Option Int := none
  totalRequests : Option Int := none
  completedRequests : Int := 0
  failedRequests : Int := 0
  metadata : Option Json := none

def StatusAttr.value : StatusAttr → Except Exc String
  | .member status => .ok status.value
  | .text _ => .error .attributeError

def optionalText : Option String → Json
  | some text => .str text
  | none => .null

def optionalInt : Option Int → Json
  | some n => .num (.int n)
  | none => .null

def BatchInfo.toDict (info : BatchInfo) : Except Exc (List (String × Json)) := do
  let status ← info.status.value
  return [("id", .str info.id), ("status", .str status), ("input_file_id", .str info.inputFileId),
    ("created_at", .num (.int info.createdAt)), ("endpoint", .str info.endpoint),
    ("completion_window", .str info.completionWindow), ("output_file_id", optionalText info.outputFileId),
    ("error_file_id", optionalText info.errorFileId), ("in_progress_at", optionalInt info.inProgressAt),
    ("expires_at", optionalInt info.expiresAt), ("finalizing_at", optionalInt info.finalizingAt),
    ("completed_at", optionalInt info.completedAt), ("failed_at", optionalInt info.failedAt),
    ("expired_at", optionalInt info.expiredAt), ("cancelling_at", optionalInt info.cancellingAt),
    ("cancelled_at", optionalInt info.cancelledAt), ("total_requests", optionalInt info.totalRequests),
    ("completed_requests", .num (.int info.completedRequests)),
    ("failed_requests", .num (.int info.failedRequests)), ("metadata", info.metadata.getD .null)]

def Row.info (batchId : String) (row : Row) (status : BatchStatus) : BatchInfo where
  id := batchId
  status := .member status
  inputFileId := row.inputFileId
  createdAt := row.createdAt
  endpoint := row.endpoint
  completionWindow := row.completionWindow
  outputFileId := row.outputFileId
  completedAt := row.completedAt
  metadata := some (match row.metadata with
    | some text => text.value
    | none => .obj [])

def retrieveBatch (table : Table) (batchId : String) : Except Exc BatchInfo :=
  match table.get? batchId with
  | none => .error (.valueError ("Batch " ++ batchId ++ " not found"))
  | some row => (BatchStatus.ofValue row.status).map (row.info batchId)

def byCreation (e : String × Row) : ℤᵒᵈ := OrderDual.toDual e.2.createdAt

def selectedRows (greater : Int → String → Bool) (after : Option String) (table : Table) : List (String × Row) :=
  match after with
  | none => table.entries
  | some text => if text = "" then table.entries else table.entries.filter (fun e => greater e.2.createdAt text)

/-- The ids the query of list_batches selects. How SQLite compares the column with the text of the
parameter and orders rows of one time is left open; a negative limit is none. -/
def selectIds (greater : Int → String → Bool) (order : Selection.Sorting byCreation) (limit : Int)
    (after : Option String) (table : Table) : List String :=
  let ids := (order.sort (selectedRows greater after table)).map Prod.fst
  if limit < 0 then ids else ids.take limit.toNat

/-- The rows are retrieved one after the other, each from the table as it is by then. -/
def retrieveRows : List (String × Table) → Except Exc (List BatchInfo)
  | [] => .ok []
  | (batchId, table) :: rest => do
      let info ← retrieveBatch table batchId
      let infos ← retrieveRows rest
      return info :: infos

/-- A parameter is bound as a signed integer of 64 bits. -/
def bindLimit (limit : Int) : Except Exc Unit :=
  if -2 ^ 63 ≤ limit ∧ limit < 2 ^ 63 then .ok () else .error .overflowError

/-- The rows are those of the selected ids, with the tables in which they are looked up. -/
def listBatches (limit : Int) (rows : List (String × Table)) : Except Exc (List BatchInfo) := do
  bindLimit limit
  retrieveRows rows

theorem ofValue_value (status : BatchStatus) : BatchStatus.ofValue status.value = .ok status := by
  cases status <;> rfl

theorem ofValue_ok {text : String} {status : BatchStatus} (h : BatchStatus.ofValue text = .ok status) :
    text = status.value := by
  rw [BatchStatus.ofValue] at h
  split at h
  next htext =>
    cases h
    exact htext
  split at h
  next htext =>
    cases h
    exact htext
  split at h
  next htext =>
    cases h
    exact htext
  split at h
  next htext =>
    cases h
    exact htext
  cases h

theorem toDict_member (info : BatchInfo) (status : BatchStatus) (h : info.status = .member status) :
    ∃ fields, info.toDict = .ok fields := by
  rw [BatchInfo.toDict, h]
  exact ⟨_, rfl⟩

structure Reads (batchId : String) (row : Row) (info : BatchInfo) : Prop where
  id : info.id = batchId
  status : info.status.value = .ok row.status
  inputFileId : info.inputFileId = row.inputFileId
  createdAt : info.createdAt = row.createdAt
  endpoint : info.endpoint = row.endpoint
  completionWindow : info.completionWindow = row.completionWindow
  outputFileId : info.outputFileId = row.outputFileId
  completedAt : info.completedAt = row.completedAt
  metadata : ∀ text, row.metadata = some text → info.metadata = some text.value

def Readable (table : Table) (batchId : String) : Prop :=
  ∃ row info fields, table.get? batchId = some row ∧ retrieveBatch table batchId = .ok info ∧
    Reads batchId row info ∧ info.toDict = .ok fields

theorem info_reads (batchId : String) (row : Row) (status : BatchStatus) (h : row.status = status.value) :
    Reads batchId row (row.info batchId status) where
  id := rfl
  status := congrArg Except.ok h.symm
  inputFileId := rfl
  createdAt := rfl
  endpoint := rfl
  completionWindow := rfl
  outputFileId := rfl
  completedAt := rfl
  metadata := by
    intro text htext
    simp [Row.info, htext]

theorem readable_of_status {table : Table} {batchId : String} {row : Row} {status : BatchStatus}
    (hrow : table.get? batchId = some row) (hstatus : row.status = status.value) : Readable table batchId := by
  have hretrieve : retrieveBatch table batchId = .ok (row.info batchId status) := by
    simp [retrieveBatch, hrow, hstatus, ofValue_value, Except.map]
  obtain ⟨fields, hfields⟩ := toDict_member (row.info batchId status) status rfl
  exact ⟨row, _, fields, hrow, hretrieve, info_reads batchId row status hstatus, hfields⟩

theorem retrieveBatch_ok {table : Table} {batchId : String} {info : BatchInfo} (h : retrieveBatch table batchId = .ok info) :
    ∃ row status, table.get? batchId = some row ∧ row.status = status.value ∧ info = row.info batchId status := by
  rw [retrieveBatch] at h
  cases hrow : table.get? batchId with
  | none =>
    rw [hrow] at h
    cases h
  | some row =>
    simp only [hrow] at h
    cases hstatus : BatchStatus.ofValue row.status with
    | error e =>
      rw [hstatus] at h
      cases h
    | ok status =>
      rw [hstatus] at h
      cases h
      exact ⟨row, status, rfl, ofValue_ok hstatus, rfl⟩

theorem selectedRows_subset (greater : Int → String → Bool) (after : Option String) (table : Table) :
    selectedRows greater after table ⊆ table.entries := by
  cases after with
  | none => exact List.Subset.refl _
  | some text =>
    rw [selectedRows]
    split
    · exact List.Subset.refl _
    · exact List.filter_sublist.subset

theorem mem_selectIds {greater : Int → String → Bool} {order : Selection.Sorting byCreation} {limit : Int}
    {after : Option String} {table : Table} {batchId : String} (h : batchId ∈ selectIds greater order limit after table) :
    ∃ row, (batchId, row) ∈ table.entries := by
  have hids : batchId ∈ (order.sort (selectedRows greater after table)).map Prod.fst := by
    simp only [selectIds] at h
    split at h
    · exact h
    · exact List.mem_of_mem_take h
  obtain ⟨⟨k, row⟩, he, rfl⟩ := List.mem_map.mp hids
  exact ⟨row, selectedRows_subset greater after table ((order.perm _).subset he)⟩

theorem retrieveRows_ok {reads : List (String × Table)} (h : ∀ r ∈ reads, Readable r.2 r.1) :
    ∃ infos, retrieveRows reads = .ok infos ∧ ∀ info ∈ infos, ∃ fields, info.toDict = .ok fields := by
  induction reads with
  | nil => exact ⟨[], rfl, by simp⟩
  | cons r rest ih =>
    obtain ⟨batchId, table⟩ := r
    obtain ⟨row, info, fields, -, hretrieve, -, hfields⟩ := h _ (List.mem_cons_self ..)
    obtain ⟨infos, hinfos, hdicts⟩ := ih (fun r hr => h r (List.mem_cons_of_mem _ hr))
    refine ⟨info :: infos, ?_, ?_⟩
    · exact bind_eq_ok.mpr ⟨info, hretrieve, bind_eq_ok.mpr ⟨infos, hinfos, rfl⟩⟩
    · intro other hother
      rcases List.mem_cons.mp hother with rfl | hrest
      · exact ⟨fields, hfields⟩
      · exact hdicts other hrest

end ProductionStack.Batch
