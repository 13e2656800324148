import Mathlib.Data.List.Basic
import ProductionStack.Endpoint
import ProductionStack.Json
import ProductionStack.Runs

namespace ProductionStack.FaissAdapter

open Runs

variable {V S : Type}

structure Metadata where
  requestMessages : List Json
  responseMessages : List Json
  model : String
  usage : Json

/-- The two containers of the adapter: the vectors of the flat index in order, and the list beside them. -/
structure Memory (V : Type) where
  index : List V
  metadata : List Metadata

/-- A file that was written to its end, or one that was not and cannot be loaded. -/
inductive File (α : Type)
  | complete (content : α)
  | broken

structure Disk (V : Type) where
  index : Option (File (List V)) := none
  metadata : Option (File (List Metadata)) := none

structure State (V : Type) where
  memory : Memory V
  disk : Disk V

/-- What an attempt to write leaves of a file, whether it ends by itself, by an error or by a crash. -/
inductive Write
  | complete
  | kept
  | broken
  deriving DecidableEq, Repr

def Write.leave {α : Type} (write : Write) (content : α) (old : Option (File α)) : Option (File α) :=
  match write with
  | .complete => some (.complete content)
  | .kept => old
  | .broken => some .broken

/-- How far save_index comes. The metadata file is opened only when the index is written. -/
structure Save where
  index : Write
  metadata : Write
  deriving DecidableEq, Repr

def saveIndex (memory : Memory V) (disk : Disk V) (save : Save) : Disk V where
  index := save.index.leave memory.index disk.index
  metadata := if save.index = .complete then save.metadata.leave memory.metadata disk.metadata else disk.metadata

def emptyMemory : Memory V := ⟨[], []⟩

/-- When loading fails, the new empty index is saved before the save that ends every start. -/
def loadIndex (disk : Disk V) (save : Save) : State V :=
  match disk.index, disk.metadata with
  | some (.complete index), some (.complete metadata) => ⟨⟨index, metadata⟩, disk⟩
  | _, _ => ⟨emptyMemory, saveIndex emptyMemory disk save⟩

def loadOrCreate (disk : Disk V) (save : Save) : State V :=
  if disk.index.isSome ∧ disk.metadata.isSome then loadIndex disk save else ⟨emptyMemory, disk⟩

/-- What __init__ does; the first save is that of a failed load. -/
def init (disk : Disk V) (first second : Save) : State V :=
  let loaded := loadOrCreate disk first
  ⟨loaded.memory, saveIndex loaded.memory loaded.disk second⟩

def store (s : State V) (embedding : V) (metadata : Metadata) (save : Save) : State V :=
  let memory := ⟨s.memory.index ++ [embedding], s.memory.metadata ++ [metadata]⟩
  ⟨memory, saveIndex memory s.disk save⟩

structure Hit (S : Type) where
  responseMessages : List Json
  similarityScore : S
  usage : Json

abbrev TopOne (V S : Type) := List V → V → Option (Nat × S)

def search [LE S] [DecidableLE S] (topOne : TopOne V S) (memory : Memory V) (embedding : V) (model : String)
    (similarityThreshold : S) : Except Exc (Option (Hit S)) :=
  if memory.index = [] then .ok none
  else
    match topOne memory.index embedding with
    | none => .ok none
    | some (i, distance) =>
      if similarityThreshold ≤ distance then
        match memory.metadata[i]? with
        | none => .error .indexError
        | some metadata =>
          if metadata.model = model then
            .ok (some ⟨metadata.responseMessages, distance, metadata.usage⟩)
          else .ok none
      else .ok none

/-- A search changes nothing. A crash is seen at the next start, and one inside a save as
how far the save came. -/
inductive Event (V : Type)
  | store (embedding : V) (metadata : Metadata) (save : Save)
  | restart (first second : Save)

def step : Component (State V) (Event V) Unit := fun s event => ((), match event with
  | .store embedding metadata save => store s embedding metadata save
  | .restart first second => init s.disk first second)

def fresh : State V := ⟨emptyMemory, {}⟩

def Together (events : List (Event V)) (embedding : V) (metadata : Metadata) : Prop :=
  ∃ save, .store embedding metadata save ∈ events

section Alignment

variable (T : V → Metadata → Prop)

def Aligned (memory : Memory V) : Prop := List.Forall₂ T memory.index memory.metadata

def Loadable (disk : Disk V) : Prop :=
  ∀ index metadata, disk.index = some (.complete index) → disk.metadata = some (.complete metadata) →
    Aligned T ⟨index, metadata⟩

/-- The save does not end with a new index beside the metadata of another one. -/
def Whole (memory : Memory V) (disk : Disk V) (save : Save) : Prop :=
  save.index = .complete → save.metadata = .kept →
    ∀ metadata, disk.metadata = some (.complete metadata) → metadata = memory.metadata

variable {T}

theorem saveIndex_loadable {memory : Memory V} {disk : Disk V} {save : Save} (hmemory : Aligned T memory)
    (hdisk : Loadable T disk) (hwhole : Whole memory disk save) : Loadable T (saveIndex memory disk save) := by
  intro index metadata hindex hmetadata
  cases hwrite : save.index with
  | broken => simp [saveIndex, hwrite, Write.leave] at hindex
  | kept =>
    simp only [saveIndex, hwrite, Write.leave, reduceCtorEq, if_false] at hindex hmetadata
    exact hdisk index metadata hindex hmetadata
  | complete =>
    simp only [saveIndex, hwrite, Write.leave, if_true, Option.some.injEq, File.complete.injEq] at hindex hmetadata
    subst hindex
    cases hrest : save.metadata with
    | complete =>
      simp only [hrest, Option.some.injEq, File.complete.injEq] at hmetadata
      subst hmetadata
      exact hmemory
    | kept =>
      simp only [hrest] at hmetadata
      rw [hwhole hwrite hrest metadata hmetadata]
      exact hmemory
    | broken => simp [hrest] at hmetadata

theorem emptyMemory_aligned : Aligned T (emptyMemory : Memory V) := .nil

theorem loadIndex_cases (disk : Disk V) (save : Save) :
    (∃ index metadata, disk.index = some (.complete index) ∧ disk.metadata = some (.complete metadata) ∧
      loadIndex disk save = ⟨⟨index, metadata⟩, disk⟩) ∨
    (∀ index metadata, disk.index = some (.complete index) → disk.metadata ≠ some (.complete metadata)) ∧
      loadIndex disk save = ⟨emptyMemory, saveIndex emptyMemory disk save⟩ := by
  rw [loadIndex.eq_def]
  split
  next index metadata hindex hmetadata => exact .inl ⟨index, metadata, hindex, hmetadata, rfl⟩
  next hnot =>
    refine .inr ⟨?_, rfl⟩
    intro index metadata hindex hmetadata
    exact hnot index metadata hindex hmetadata

def LoadFails (disk : Disk V) : Prop :=
  disk.index.isSome ∧ disk.metadata.isSome ∧
    ∀ index metadata, disk.index = some (.complete index) → disk.metadata ≠ some (.complete metadata)

def Careful (s : State V) : Event V → Prop
  | .store embedding metadata save =>
    Whole ⟨s.memory.index ++ [embedding], s.memory.metadata ++ [metadata]⟩ s.disk save
  | .restart first second =>
    (LoadFails s.disk → Whole emptyMemory s.disk first) ∧
      Whole (loadOrCreate s.disk first).memory (loadOrCreate s.disk first).disk second

structure Consistent (T : V → Metadata → Prop) (s : State V) : Prop where
  memory : Aligned T s.memory
  disk : Loadable T s.disk

theorem loadOrCreate_consistent {disk : Disk V} {save : Save} (hdisk : Loadable T disk)
    (hwhole : LoadFails disk → Whole emptyMemory disk save) : Consistent T (loadOrCreate disk save) := by
  by_cases hexist : disk.index.isSome ∧ disk.metadata.isSome
  · rw [loadOrCreate, if_pos hexist]
    rcases loadIndex_cases disk save with ⟨index, metadata, hindex, hmetadata, hload⟩ | ⟨hnot, hload⟩
    · rw [hload]
      exact ⟨hdisk index metadata hindex hmetadata, hdisk⟩
    · rw [hload]
      exact ⟨emptyMemory_aligned,
        saveIndex_loadable emptyMemory_aligned hdisk (hwhole ⟨hexist.1, hexist.2, hnot⟩)⟩
  · rw [loadOrCreate, if_neg hexist]
    exact ⟨emptyMemory_aligned, hdisk⟩

theorem consistent_store {s : State V} {embedding : V} {metadata : Metadata} {save : Save}
    (h : Consistent T s) (htogether : T embedding metadata)
    (hwhole : Whole ⟨s.memory.index ++ [embedding], s.memory.metadata ++ [metadata]⟩ s.disk save) :
    Consistent T (store s embedding metadata save) := by
  have hmemory : Aligned T ⟨s.memory.index ++ [embedding], s.memory.metadata ++ [metadata]⟩ :=
    List.rel_append h.memory (.cons htogether .nil)
  exact ⟨hmemory, saveIndex_loadable hmemory h.disk hwhole⟩

theorem consistent_restart {disk : Disk V} {first second : Save} (hdisk : Loadable T disk)
    (hfirst : LoadFails disk → Whole emptyMemory disk first)
    (hsecond : Whole (loadOrCreate disk first).memory (loadOrCreate disk first).disk second) :
    Consistent T (init disk first second) := by
  have hloaded := loadOrCreate_consistent hdisk hfirst
  exact ⟨hloaded.memory, saveIndex_loadable hloaded.memory hloaded.disk hsecond⟩

theorem consistent_step {events : List (Event V)} (s : State V) (event : Event V) (h : Consistent (Together events) s)
    (hevent : event ∈ events ∧ Careful s event) : Consistent (Together events) (step s event).2 := by
  obtain ⟨hmem, hcareful⟩ := hevent
  cases event with
  | store embedding metadata save => exact consistent_store h ⟨save, hmem⟩ hcareful
  | restart first second => exact consistent_restart h.disk hcareful.1 hcareful.2

theorem consistent_run {events : List (Event V)} (h : Along step Careful (fresh : State V) events) :
    Consistent (Together events) (final step fresh events) := by
  have hmem : Along step (fun _ event => event ∈ events) (fresh : State V) events :=
    along_of_forall_mem (fun _ hevent => hevent) _
  refine final_invariant consistent_step ⟨emptyMemory_aligned, ?_⟩ (along_and hmem h)
  intro index metadata hindex
  cases hindex

end Alignment

section Search

variable [LE S] [DecidableLE S]

def Found (T : V → Metadata → Prop) (topOne : TopOne V S) (memory : Memory V) (embedding : V) (hit : Hit S) : Prop :=
  ∃ i distance vector metadata, topOne memory.index embedding = some (i, distance) ∧
    memory.index[i]? = some vector ∧ T vector metadata ∧
    hit = ⟨metadata.responseMessages, distance, metadata.usage⟩

structure Sound (T : V → Metadata → Prop) (topOne : TopOne V S) (memory : Memory V) : Prop where
  length : memory.index.length = memory.metadata.length
  together : ∀ (i : Nat) vector metadata, memory.index[i]? = some vector → memory.metadata[i]? = some metadata →
    T vector metadata
  search : ∀ embedding model threshold, ∃ answer,
    search topOne memory embedding model threshold = .ok answer ∧
      ∀ hit, answer = some hit → Found T topOne memory embedding hit

theorem search_aligned {T : V → Metadata → Prop} {topOne : TopOne V S} {memory : Memory V}
    (hrange : ∀ vectors query i distance, topOne vectors query = some (i, distance) → i < vectors.length)
    (h : Aligned T memory) (embedding : V) (model : String) (threshold : S) :
    ∃ answer, search topOne memory embedding model threshold = .ok answer ∧
      ∀ hit, answer = some hit → Found T topOne memory embedding hit := by
  rw [search]
  split
  · exact ⟨none, rfl, by simp⟩
  cases htop : topOne memory.index embedding with
  | none => exact ⟨none, rfl, by simp⟩
  | some best =>
    obtain ⟨i, distance⟩ := best
    have hi : i < memory.index.length := hrange _ _ _ _ htop
    have hi' : i < memory.metadata.length := h.length_eq ▸ hi
    simp only [List.getElem?_eq_getElem hi']
    split
    · split
      · refine ⟨_, rfl, ?_⟩
        rintro hit ⟨⟩
        exact ⟨i, distance, memory.index[i], memory.metadata[i], htop, List.getElem?_eq_getElem hi,
          h.get hi hi', rfl⟩
      · exact ⟨none, rfl, by simp⟩
    · exact ⟨none, rfl, by simp⟩

theorem search_eq_some_iff {topOne : TopOne V S} {memory : Memory V} {embedding : V} {model : String}
    {threshold : S} {hit : Hit S} :
    search topOne memory embedding model threshold = .ok (some hit) ↔
      memory.index ≠ [] ∧ ∃ i distance metadata, topOne memory.index embedding = some (i, distance) ∧
        threshold ≤ distance ∧ memory.metadata[i]? = some metadata ∧ metadata.model = model ∧
        hit = ⟨metadata.responseMessages, distance, metadata.usage⟩ := by
  rw [search]
  by_cases hempty : memory.index = []
  · simp [hempty]
  rw [if_neg hempty]
  cases htop : topOne memory.index embedding with
  | none => simp
  | some best =>
    obtain ⟨i, distance⟩ := best
    by_cases hle : threshold ≤ distance
    · cases hmetadata : memory.metadata[i]? with
      | none => simp [hle, hmetadata]
      | some metadata =>
        by_cases hmodel : metadata.model = model
        · simp [hempty, hle, hmetadata, hmodel, eq_comm]
        · simp [hle, hmetadata, hmodel]
    · simp [hle]

theorem sound_of_aligned {T : V → Metadata → Prop} {topOne : TopOne V S} {memory : Memory V}
    (hrange : ∀ vectors query i distance, topOne vectors query = some (i, distance) → i < vectors.length)
    (h : Aligned T memory) : Sound T topOne memory where
  length := h.length_eq
  together := by
    intro i vector metadata hvector hmetadata
    obtain ⟨hi, rfl⟩ := List.getElem?_eq_some_iff.mp hvector
    obtain ⟨hi', rfl⟩ := List.getElem?_eq_some_iff.mp hmetadata
    exact h.get hi hi'
  search := search_aligned hrange h

/-- In every run of stores and restarts whose saves are whole. -/
theorem vectors_stay_aligned (topOne : TopOne V S)
    (hrange : ∀ vectors query i distance, topOne vectors query = some (i, distance) → i < vectors.length)
    (events : List (Event V)) (h : Along step Careful fresh events) :
    Sound (Together events) topOne (final step fresh events).memory :=
  sound_of_aligned hrange (consistent_run h).memory

end Search

theorem interrupted_save_misaligns {T : V → Metadata → Prop} {memory : Memory V} {disk : Disk V} {metadata : List Metadata}
    (hdisk : disk.metadata = some (.complete metadata)) (hlength : metadata.length ≠ memory.index.length)
    (first second : Save) : ¬ Aligned T (init (saveIndex memory disk ⟨.complete, .kept⟩) first second).memory := by
  intro haligned
  have hloaded : (init (saveIndex memory disk ⟨.complete, .kept⟩) first second).memory =
      ⟨memory.index, metadata⟩ := by
    simp [init, loadOrCreate, loadIndex, saveIndex, Write.leave, hdisk]
  rw [hloaded] at haligned
  exact hlength haligned.length_eq.symm

section Entries

variable (P : Metadata → Prop)

/-- Whatever is in memory, or would come back from the disk, has the property. -/
structure Entries (s : State V) : Prop where
  memory : ∀ metadata ∈ s.memory.metadata, P metadata
  disk : ∀ entries, s.disk.metadata = some (.complete entries) → ∀ metadata ∈ entries, P metadata

variable {P}

theorem saveIndex_entries {memory : Memory V} {disk : Disk V} {save : Save} (h : Entries P ⟨memory, disk⟩) :
    Entries P ⟨memory, saveIndex memory disk save⟩ := by
  refine ⟨h.memory, ?_⟩
  intro entries hentries
  rw [saveIndex] at hentries
  dsimp only at hentries
  split at hentries
  · cases hwrite : save.metadata with
    | complete =>
      simp only [hwrite, Write.leave, Option.some.injEq, File.complete.injEq] at hentries
      exact hentries ▸ h.memory
    | kept => exact h.disk entries (by simpa [hwrite, Write.leave] using hentries)
    | broken => simp [hwrite, Write.leave] at hentries
  · exact h.disk entries hentries

theorem store_entries {s : State V} {embedding : V} {metadata : Metadata} {save : Save} (h : Entries P s)
    (hnew : P metadata) : Entries P (store s embedding metadata save) := by
  apply saveIndex_entries
  refine ⟨?_, h.disk⟩
  intro old hold
  rcases List.mem_append.mp hold with hold | hold
  · exact h.memory old hold
  · exact List.mem_singleton.mp hold ▸ hnew

theorem init_entries {s : State V} {first second : Save} (h : Entries P s) : Entries P (init s.disk first second) := by
  have hempty : Entries P ⟨emptyMemory, s.disk⟩ := ⟨fun _ hmem => absurd hmem List.not_mem_nil, h.disk⟩
  apply saveIndex_entries
  by_cases hexist : s.disk.index.isSome ∧ s.disk.metadata.isSome
  · rw [loadOrCreate, if_pos hexist]
    rcases loadIndex_cases s.disk first with ⟨index, metadata, _, hmetadata, hload⟩ | ⟨_, hload⟩
    · rw [hload]
      exact ⟨h.disk metadata hmetadata, h.disk⟩
    · rw [hload]
      exact saveIndex_entries hempty
  · rw [loadOrCreate, if_neg hexist]
    exact hempty

end Entries

def scalarTopOne : TopOne Int Int := fun vectors query =>
  vectors.zipIdx.foldl (fun best e =>
    match best with
    | none => some (e.2, e.1 * query)
    | some (i, distance) => if distance < e.1 * query then some (e.2, e.1 * query) else some (i, distance)) none

theorem scalarTopOne_range (vectors : List Int) (query : Int) (i : Nat) (distance : Int)
    (h : scalarTopOne vectors query = some (i, distance)) : i < vectors.length := by
  have hbest : ∀ found, scalarTopOne vectors query = some found → found.1 < vectors.length := by
    refine List.foldlRecOn (motive := fun best : Option (Nat × Int) => ∀ found, best = some found → found.1 < vectors.length)
      vectors.zipIdx _ ?_ ?_
    · intro found hfound
      cases hfound
    intro best hbest e he found hfound
    have hrange : e.2 < vectors.length := List.snd_lt_of_mem_zipIdx he
    cases best with
    | none =>
      cases hfound
      exact hrange
    | some old =>
      dsimp only at hfound
      split at hfound
      · cases hfound
        exact hrange
      · exact hbest found hfound
  exact hbest (i, distance) h

def answered (model : String) : Metadata := ⟨[], [.str model], model, .null⟩

def wholeSave : Save := ⟨.complete, .complete⟩

theorem stores_stay_aligned :
    Sound (Together [.restart wholeSave wholeSave, .store 2 (answered "a") wholeSave, .restart wholeSave wholeSave])
      scalarTopOne (final step fresh [.restart wholeSave wholeSave, .store 2 (answered "a") wholeSave,
        .restart wholeSave wholeSave]).memory := by
  apply vectors_stay_aligned scalarTopOne scalarTopOne_range
  have hwhole : ∀ (memory : Memory Int) disk, Whole memory disk wholeSave := by
    intro memory disk _ hkept
    cases hkept
  exact ⟨⟨fun _ => hwhole _ _, hwhole _ _⟩, hwhole _ _, ⟨fun _ => hwhole _ _, hwhole _ _⟩, trivial⟩

/-- The process ends between the two files of the second save; the next one loads two vectors and one answer. -/
theorem interrupted_save_shifts :
    ¬ ∀ (events : List (Event Int)), Sound (Together events) scalarTopOne (final step fresh events).memory := by
  intro h
  have hlength := (h [.restart wholeSave wholeSave, .store 2 (answered "a") wholeSave,
    .store 3 (answered "b") ⟨.complete, .kept⟩, .restart wholeSave wholeSave]).length
  cases hlength

end ProductionStack.FaissAdapter
