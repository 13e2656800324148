import Mathlib.Logic.Function.Basic
import ProductionStack.AuditLog
import ProductionStack.Runs

namespace ProductionStack.AuditLog

open JsonText Utf8Text

/-- Where a process stands in its call of append_audit: it has no call, waits for the lock, has it, has
made its line, or has written it. -/
inductive Phase (F : Type)
  | idle
  | waiting (record : Fields F)
  | locked (record : Fields F)
  | ready (record : Fields F) (line : Bytes)
  | wrote (record : Fields F)

/-- The file and its lock, and the records that were written and those whose calls came to an end. -/
structure State (P F : Type) where
  file : Bytes := []
  lock : Option P := none
  phase : P → Phase F := fun _ => .idle
  written : List (Fields F) := []
  completed : List (Fields F) := []

inductive Event (P F : Type)
  | call (p : P) (record : Fields F)
  | acquire (p : P)
  | prepare (p : P)
  | write (p : P)
  | complete (p : P)
  | raise (p : P) (e : Raised)

inductive Outcome
  | running
  | returned
  | raised (e : Raised)
  deriving DecidableEq, Repr

section Steps

variable {F P : Type} [DecidableEq P]

def State.enter (s : State P F) (p : P) (phase : Phase F) : State P F := { s with phase := Function.update s.phase p phase }

/-- The handle is closed, and the lock is given up with it. -/
def State.leave (s : State P F) (p : P) : State P F :=
  { s.enter p .idle with lock := if s.lock = some p then none else s.lock }

variable (fmt : Runtime F) (sha256 : Bytes → Text) (path : Text)

/-- An event that a process is not ready for does nothing. -/
def step : Runs.Component (State P F) (Event P F) Outcome
  | s, .call p record =>
    match s.phase p with
    | .idle => (.running, s.enter p (.waiting record))
    | _ => (.running, s)
  | s, .acquire p =>
    match s.phase p, s.lock with
    | .waiting record, none => (.running, { s.enter p (.locked record) with lock := some p })
    | _, _ => (.running, s)
  | s, .prepare p =>
    match s.phase p with
    | .locked record =>
      match nextEvent fmt sha256 path s.file record with
      | .ok (_, line) => (.running, s.enter p (.ready record line))
      | .error e => (.raised e, s.leave p)
    | _ => (.running, s)
  | s, .write p =>
    match s.phase p with
    | .ready record line =>
      (.running, { s.enter p (.wrote record) with file := s.file ++ line, written := s.written ++ [record] })
    | _ => (.running, s)
  | s, .complete p =>
    match s.phase p with
    | .wrote record => (.returned, { s.leave p with completed := s.completed ++ [record] })
    | _ => (.running, s)
  | s, .raise p e =>
    match s.phase p with
    | .idle => (.running, s)
    | _ => (.raised e, s.leave p)

/-- What an event can do to the state. -/
inductive Moves (s : State P F) : Event P F → State P F → Prop
  | stay (e : Event P F) : Moves s e s
  | call {p : P} {record : Fields F} (h : s.phase p = .idle) : Moves s (.call p record) (s.enter p (.waiting record))
  | acquire {p : P} {record : Fields F} (h : s.phase p = .waiting record) (hlock : s.lock = none) :
      Moves s (.acquire p) { s.enter p (.locked record) with lock := some p }
  | prepare {p : P} {record event : Fields F} {line : Bytes} (h : s.phase p = .locked record)
      (hnext : nextEvent fmt sha256 path s.file record = .ok (event, line)) :
      Moves s (.prepare p) (s.enter p (.ready record line))
  | refuse {p : P} {record : Fields F} (h : s.phase p = .locked record) : Moves s (.prepare p) (s.leave p)
  | write {p : P} {record : Fields F} {line : Bytes} (h : s.phase p = .ready record line) :
      Moves s (.write p) { s.enter p (.wrote record) with file := s.file ++ line, written := s.written ++ [record] }
  | complete {p : P} {record : Fields F} (h : s.phase p = .wrote record) :
      Moves s (.complete p) { s.leave p with completed := s.completed ++ [record] }
  | raise {p : P} (e : Raised) : Moves s (.raise p e) (s.leave p)

variable {fmt sha256 path}

theorem step_moves (s : State P F) (e : Event P F) : Moves fmt sha256 path s e (step fmt sha256 path s e).2 := by
  cases e with
  | call p record =>
    rw [step]
    split
    next h => exact .call h
    next => exact .stay _
  | acquire p =>
    rw [step]
    split
    next h hlock => exact .acquire h hlock
    next => exact .stay _
  | prepare p =>
    rw [step]
    split
    next h =>
      split
      next hnext => exact .prepare h hnext
      next => exact .refuse h
    next => exact .stay _
  | write p =>
    rw [step]
    split
    next h => exact .write h
    next => exact .stay _
  | complete p =>
    rw [step]
    split
    next h => exact .complete h
    next => exact .stay _
  | raise p e =>
    rw [step]
    split
    · exact .stay _
    · exact .raise e

end Steps

section Invariants

variable {F P : Type} [DecidableEq P] {fmt : Runtime F} {sha256 : Bytes → Text} {path : Text}

def Phase.record : Phase F → Option (Fields F)
  | .idle => none
  | .waiting record | .locked record | .ready record _ | .wrote record => some record

def Phase.holding : Phase F → Bool
  | .idle | .waiting _ => false
  | .locked _ | .ready _ _ | .wrote _ => true

variable {s : State P F} {e : Event P F} {Q : Fields F → Prop}

theorem forall_enter {p : P} {phase : Phase F} {R : P → Phase F → Prop} (hp : R p phase)
    (h : ∀ q, q ≠ p → R q (s.phase q)) : ∀ q, R q ((s.enter p phase).phase q) :=
  (Function.forall_update_iff s.phase R).mpr ⟨hp, h⟩

def Exclusive (s : State P F) : Prop := ∀ p, (s.phase p).holding = true → s.lock = some p

theorem Exclusive.enter (h : Exclusive s) {p : P} {phase : Phase F}
    (hphase : phase.holding = true → (s.phase p).holding = true) : Exclusive (s.enter p phase) :=
  forall_enter (R := fun q phase => phase.holding = true → s.lock = some q) (fun hp => h p (hphase hp)) (fun q _ => h q)

theorem Exclusive.leave (h : Exclusive s) (p : P) : Exclusive (s.leave p) := by
  refine forall_enter (R := fun q phase => phase.holding = true → (s.leave p).lock = some q) nofun ?_
  intro q hqp hq
  rw [State.leave, h q hq, if_neg]
  exact fun heq => hqp (Option.some.inj heq)

theorem Exclusive.acquire (h : Exclusive s) (hlock : s.lock = none) (p : P) (record : Fields F) :
    Exclusive { s.enter p (.locked record) with lock := some p } := by
  refine forall_enter (R := fun q phase => phase.holding = true → some p = some q) (fun _ => rfl) ?_
  intro q _ hq
  rw [h q hq] at hlock
  cases hlock

theorem Exclusive.moves {s s' : State P F} (h : Exclusive s) (hmoves : Moves fmt sha256 path s e s') : Exclusive s' := by
  cases hmoves with
  | stay => exact h
  | call _ => exact h.enter nofun
  | acquire _ hlock => exact h.acquire hlock _ _
  | prepare hp _ => exact h.enter (fun _ => by rw [hp]; rfl)
  | refuse _ => exact h.leave _
  | write hp => exact h.enter (fun _ => by rw [hp]; rfl)
  | complete _ => exact h.leave _
  | raise _ => exact h.leave _

omit [DecidableEq P] in
theorem Exclusive.eq (h : Exclusive s) {p q : P} (hp : (s.phase p).holding = true)
    (hq : (s.phase q).holding = true) : p = q :=
  Option.some.inj ((h p hp).symm.trans (h q hq))

variable (fmt sha256 path) in
def Current (s : State P F) : Prop :=
  ∀ p record line, s.phase p = .ready record line → ∃ event, nextEvent fmt sha256 path s.file record = .ok (event, line)

theorem Current.enter (h : Current fmt sha256 path s) {p : P} {phase : Phase F}
    (hphase : ∀ record line, phase = .ready record line →
      ∃ event, nextEvent fmt sha256 path s.file record = .ok (event, line)) : Current fmt sha256 path (s.enter p phase) :=
  forall_enter (R := fun _ phase => ∀ record line, phase = .ready record line →
    ∃ event, nextEvent fmt sha256 path s.file record = .ok (event, line)) hphase (fun q _ => h q)

theorem Current.moves {s s' : State P F} (h : Current fmt sha256 path s) (hexclusive : Exclusive s)
    (hmoves : Moves fmt sha256 path s e s') : Current fmt sha256 path s' := by
  cases hmoves with
  | stay => exact h
  | call _ => exact h.enter nofun
  | acquire _ _ => exact h.enter nofun
  | prepare _ hnext =>
    refine h.enter ?_
    intro record line heq
    cases heq
    exact ⟨_, hnext⟩
  | refuse _ => exact h.enter nofun
  | @write p record line hp =>
    -- No other process can have a line ready, for it would have the lock too.
    refine forall_enter (R := fun _ phase => ∀ record' line', phase = .ready record' line' →
      ∃ event, nextEvent fmt sha256 path (s.file ++ line) record' = .ok (event, line')) nofun ?_
    intro q hqp record' line' hq
    exact absurd (hexclusive.eq (by rw [hq]; rfl) (by rw [hp]; rfl)) hqp
  | complete _ => exact h.enter nofun
  | raise _ => exact h.enter nofun

structure AllRecords (Q : Fields F → Prop) (s : State P F) : Prop where
  running : ∀ p record, (s.phase p).record = some record → Q record
  written : ∀ record ∈ s.written, Q record

theorem running_enter (h : AllRecords Q s) {p : P} {phase : Phase F}
    (hphase : ∀ record, phase.record = some record → Q record) :
    ∀ q record, ((s.enter p phase).phase q).record = some record → Q record :=
  forall_enter (R := fun _ phase => ∀ record, phase.record = some record → Q record) hphase (fun q _ => h.running q)

theorem AllRecords.moves {s s' : State P F} (h : AllRecords Q s)
    (hmoves : Moves fmt sha256 path s e s') (hcall : ∀ p record, e = .call p record → Q record) : AllRecords Q s' := by
  have hkept : ∀ {p : P} {phase phase' : Phase F}, s.phase p = phase → phase'.record = phase.record →
      ∀ record, phase'.record = some record → Q record := by
    intro p phase phase' hp hrecord record hsome
    exact h.running p record (by rw [hp, ← hrecord, hsome])
  cases hmoves with
  | stay => exact h
  | call _ =>
    refine ⟨running_enter h ?_, h.written⟩
    intro record hrecord
    cases hrecord
    exact hcall _ _ rfl
  | acquire hp _ => exact ⟨running_enter h (hkept hp rfl), h.written⟩
  | prepare hp _ => exact ⟨running_enter h (hkept hp rfl), h.written⟩
  | refuse _ => exact ⟨running_enter h nofun, h.written⟩
  | write hp =>
    refine ⟨running_enter h (hkept hp rfl), ?_⟩
    intro record hrecord
    rcases List.mem_append.mp hrecord with hrecord | hrecord
    · exact h.written record hrecord
    · rw [List.mem_singleton.mp hrecord]
      exact h.running _ _ (by rw [hp]; rfl)
  | complete _ => exact ⟨running_enter h nofun, h.written⟩
  | raise _ => exact ⟨running_enter h nofun, h.written⟩

/-- The file is what one process would have made of the records that were written. -/
theorem log_moves {s s' : State P F} (h : Log fmt sha256 path s.written s.file) (hcurrent : Current fmt sha256 path s)
    (hmoves : Moves fmt sha256 path s e s') : Log fmt sha256 path s'.written s'.file := by
  cases hmoves with
  | write hp =>
    obtain ⟨event, hnext⟩ := hcurrent _ _ _ hp
    exact h.append hnext
  | _ => exact h

variable (fmt sha256 path) in
structure Invariant (Q : Fields F → Prop) (s : State P F) : Prop where
  exclusive : Exclusive s
  current : Current fmt sha256 path s
  records : AllRecords Q s
  log : Log fmt sha256 path s.written s.file

theorem Invariant.step (h : Invariant fmt sha256 path Q s)
    (hcall : ∀ p record, e = .call p record → Q record) : Invariant fmt sha256 path Q (step fmt sha256 path s e).2 where
  exclusive := h.exclusive.moves (step_moves s e)
  current := h.current.moves h.exclusive (step_moves s e)
  records := h.records.moves (step_moves s e) hcall
  log := log_moves h.log h.current (step_moves s e)

theorem invariant_run {events : List (Event P F)} (hcall : ∀ p record, Event.call p record ∈ events → Q record) :
    Invariant fmt sha256 path Q (Runs.final (step fmt sha256 path) {} events) := by
  refine Runs.final_invariant (C := fun _ e => ∀ p record, e = Event.call p record → Q record)
    (fun s e hs hc => hs.step hc) ?_ (Runs.along_of_forall_mem ?_ _)
  · exact ⟨nofun, nofun, ⟨nofun, nofun⟩, .empty⟩
  · rintro e he p record rfl
    exact hcall p record he

end Invariants

section Completion

variable {F P : Type} [DecidableEq P] {fmt : Runtime F} {sha256 : Bytes → Text} {path : Text}

def Phase.pending : Phase F → List (Fields F)
  | .wrote record => [record]
  | _ => []

def State.pending (s : State P F) : List (Fields F) := (s.lock.map (fun p => (s.phase p).pending)).getD []

def Durable (s : State P F) : Event P F → Prop
  | .raise p _ => (s.phase p).pending = []
  | _ => True

theorem pending_enter {s : State P F} {p : P} {phase : Phase F} (hold : (s.phase p).pending = []) (hnew : phase.pending = []) :
    (s.enter p phase).pending = s.pending := by
  have hsame : (fun q => ((s.enter p phase).phase q).pending) = fun q => (s.phase q).pending := by
    funext q
    by_cases hqp : q = p
    · simp [State.enter, hqp, hold, hnew]
    · simp [State.enter, hqp]
  rw [State.pending, hsame]
  rfl

theorem pending_leave {s : State P F} {p : P} (hold : (s.phase p).pending = []) : (s.leave p).pending = s.pending := by
  by_cases hlock : s.lock = some p
  · simp [State.pending, State.leave, hlock, hold]
  · have hleft : s.leave p = s.enter p .idle := by
      rw [State.leave, if_neg hlock]
      rfl
    rw [hleft, pending_enter hold rfl]

theorem balanced_moves {s s' : State P F} {e : Event P F} (h : s.written = s.completed ++ s.pending) (hexclusive : Exclusive s)
    (hmoves : Moves fmt sha256 path s e s') (hdurable : Durable s e) : s'.written = s'.completed ++ s'.pending := by
  cases hmoves with
  | stay => exact h
  | call hp => exact h.trans (by rw [pending_enter (by rw [hp]; rfl) rfl]; rfl)
  | acquire hp hlock =>
    have hnone : s.pending = [] := by simp [State.pending, hlock]
    rw [hnone] at h
    simpa [State.pending, State.enter, Phase.pending] using h
  | prepare hp _ => exact h.trans (by rw [pending_enter (by rw [hp]; rfl) rfl]; rfl)
  | refuse hp => exact h.trans (by rw [pending_leave (by rw [hp]; rfl)]; rfl)
  | @write p record line hp =>
    have hlock := hexclusive p (by rw [hp]; rfl)
    have hbefore : s.pending = [] := by simp [State.pending, hlock, hp, Phase.pending]
    rw [hbefore] at h
    simpa [State.pending, State.enter, hlock, Phase.pending] using h
  | @complete p record hp =>
    have hlock := hexclusive p (by rw [hp]; rfl)
    have hbefore : s.pending = [record] := by simp [State.pending, hlock, hp, Phase.pending]
    rw [hbefore] at h
    simpa [State.pending, State.leave, State.enter, hlock] using h
  | raise e => exact h.trans (by rw [pending_leave hdurable]; rfl)

theorem balanced_run {events : List (Event P F)} (h : Runs.Along (step fmt sha256 path) Durable {} events) :
    (Runs.final (step fmt sha256 path) {} events).written =
      (Runs.final (step fmt sha256 path) {} events).completed ++ (Runs.final (step fmt sha256 path) {} events).pending := by
  have hinvariant : Exclusive (Runs.final (step fmt sha256 path) {} events) ∧
      (Runs.final (step fmt sha256 path) {} events).written =
        (Runs.final (step fmt sha256 path) {} events).completed ++ (Runs.final (step fmt sha256 path) {} events).pending := by
    refine Runs.final_invariant (I := fun s : State P F => Exclusive s ∧ s.written = s.completed ++ s.pending) ?_ ⟨nofun, rfl⟩ h
    intro s e hs hdurable
    exact ⟨hs.1.moves (step_moves s e), balanced_moves hs.2 hs.1 (step_moves s e) hdurable⟩
  exact hinvariant.2

end Completion

section Chain

variable {F : Type}

theorem file_moves {P : Type} [DecidableEq P] {fmt : Runtime F} {sha256 : Bytes → Text} {path : Text} {s s' : State P F}
    {e : Event P F} (h : Moves fmt sha256 path s e s') :
    s'.file = s.file ∨ ∃ p record line, e = .write p ∧ s.phase p = .ready record line ∧ s'.file = s.file ++ line := by
  cases h with
  | write h => exact .inr ⟨_, _, _, rfl, h, rfl⟩
  | _ => exact .inl rfl

theorem raised_leaves {P : Type} [DecidableEq P] {fmt : Runtime F} {sha256 : Bytes → Text} {path : Text} {s : State P F}
    {e : Event P F} {error : Raised} (h : (step fmt sha256 path s e).1 = .raised error) :
    ∃ p record, (s.phase p).record = some record ∧ (step fmt sha256 path s e).2 = s.leave p := by
  cases e with
  | prepare p =>
    cases hphase : s.phase p with
    | locked record =>
      cases hnext : nextEvent fmt sha256 path s.file record with
      | ok next => simp [step, hphase, hnext] at h
      | error e => exact ⟨p, record, by rw [hphase]; rfl, by simp only [step, hphase, hnext]⟩
    | _ => simp [step, hphase] at h
  | raise p e =>
    cases hphase : s.phase p with
    | idle => simp [step, hphase] at h
    | _ record => exact ⟨p, record, by rw [hphase]; rfl, by simp only [step, hphase]⟩
  | _ =>
    rw [step] at h
    split at h <;> cases h

/-- Whatever the order in which the processes take their steps, the file has a line for each call that
made its write, the lines are a chain, and other lines that end as they do are no chain unless they have the same
events or two of the texts that were hashed have one hash. A call changes the file by its write alone, and one that
raises only gives up its lock: if it comes to that before its write, it leaves nothing. -/
theorem interleaved_appends_chain {P : Type} [DecidableEq P] (fmt : Runtime F) (sha256 : Bytes → Text) (path : Text)
    (events : List (Event P F)) (hrecords : ∀ p record, Event.call p record ∈ events → find eventHash record = none) :
    let s := Runs.final (step fmt sha256 path) {} events
    let lines := splitLines s.file
    List.Forall₂ (Holds fmt) s.written lines ∧
    (Runs.Along (step fmt sha256 path) Durable {} events → s.written = s.completed ++ s.pending) ∧
    check fmt sha256 lines = true ∧
    (∀ lines', lines'.getLast? = lines.getLast? → check fmt sha256 lines' = true →
      List.Forall₂ (SameEvent fmt) lines lines' ∨
        HashChain.Broken sha256 zeroHash (bodies fmt lines) (bodies fmt lines')) ∧
    (∀ e, (step fmt sha256 path s e).2.file = s.file ∨
      ∃ p record line, e = .write p ∧ s.phase p = .ready record line ∧
        (step fmt sha256 path s e).2.file = s.file ++ line) ∧
    ∀ e error, (step fmt sha256 path s e).1 = .raised error →
      ∃ p record, (s.phase p).record = some record ∧ (step fmt sha256 path s e).2 = s.leave p := by
  intro s lines
  have hinvariant : Invariant fmt sha256 path (fun record => find eventHash record = none) s := invariant_run hrecords
  obtain ⟨hholds, hcheck⟩ := hinvariant.log.check hinvariant.records.written
  refine ⟨hholds, balanced_run, hcheck, ?_, fun e => file_moves (step_moves s e), fun _ _ => raised_leaves⟩
  intro lines' hlast hcheck'
  exact same_events_or_broken hcheck hcheck' hlast.symm

end Chain

section Examples

def namedHash (first second : Bytes × Text) (bytes : Bytes) : Text :=
  if bytes = first.1 then first.2
  else if bytes = second.1 then second.2
  else 'x'.toNat :: bytes.map UInt8.toNat

theorem namedHash_injective {first second : Bytes × Text} (hne : first.2 ≠ second.2) (hfirst : first.2.head? ≠ some 'x'.toNat)
    (hsecond : second.2.head? ≠ some 'x'.toNat) : Function.Injective (namedHash first second) := by
  have hplain : ∀ {name : Text} {bytes : Bytes}, name.head? ≠ some 'x'.toNat → name ≠ 'x'.toNat :: bytes.map UInt8.toNat := by
    rintro name bytes hname rfl
    exact hname rfl
  intro b b' h
  rw [namedHash, namedHash] at h
  split at h
  next hb =>
    split at h
    next hb' => rw [hb, hb']
    next =>
      split at h
      next => exact absurd h hne
      next => exact absurd h (hplain hfirst)
  next =>
    split at h
    next hb =>
      split at h
      next => exact absurd h.symm hne
      next =>
        split at h
        next hb' => rw [hb, hb']
        next => exact absurd h (hplain hsecond)
    next =>
      split at h
      next => exact absurd h.symm (hplain hfirst)
      next =>
        split at h
        next => exact absurd h.symm (hplain hsecond)
        next => exact List.map_injective_iff.mpr (fun _ _ => UInt8.toNat_inj.mp) (List.cons.inj h).2

theorem namedHash_ne_zeroHash {first second : Bytes × Text} (hfirst : first.2 ≠ zeroHash) (hsecond : second.2 ≠ zeroHash)
    (bytes : Bytes) : namedHash first second bytes ≠ zeroHash := by
  rw [namedHash]
  split
  · exact hfirst
  · split
    · exact hsecond
    · exact fun h => absurd (List.cons.inj h).1 (by decide)

def bodyOf (fields : Fields Unit) : Bytes := (encode (canonical unitFloats (.obj fields))).getD []

def callsOf (p : Bool) (record : Fields Unit) : List (Event Bool Unit) :=
  [.call p record, .acquire p, .prepare p, .write p, .complete p]

def linesAfter (sha256 : Bytes → Text) (events : List (Event Bool Unit)) : List Bytes :=
  splitLines (Runs.final (step unitFloats sha256 []) {} events).file

def ownHash : Fields Unit := [(eventHash, .null)]

def secondRecord : Fields Unit := [(text "a", .null)]

def twoCalls : List (Event Bool Unit) := callsOf true [] ++ callsOf false secondRecord

def ownNames : Bytes → Text :=
  namedHash (bodyOf ((previousEventHash, .str zeroHash) :: ownHash), text "a")
    (bodyOf [(previousEventHash, .str zeroHash)], text "b")

def twoNames (first : Text) : Bytes → Text :=
  namedHash (bodyOf [(previousEventHash, .str zeroHash)], first)
    (bodyOf ((previousEventHash, .str first) :: secondRecord), text "b")

theorem twoCalls_chain :
    (∀ p record, Event.call p record ∈ twoCalls → find eventHash record = none) ∧
      check unitFloats (twoNames (text "a")) (linesAfter (twoNames (text "a")) twoCalls) = true := by
  have hrecords : ∀ p record, Event.call p record ∈ twoCalls → find eventHash record = none := by
    intro p record hmem
    have hcases : p = true ∧ record = [] ∨ p = false ∧ record = secondRecord := by simpa [twoCalls, callsOf] using hmem
    rcases hcases with ⟨-, rfl⟩ | ⟨-, rfl⟩
    · rfl
    · decide
  exact ⟨hrecords, (interleaved_appends_chain unitFloats (twoNames (text "a")) [] twoCalls hrecords).2.2.1⟩

def respaced : List Bytes → List Bytes
  | [line, line'] => [32 :: line, line']
  | lines => lines

/-- With hashes that never collide: a line whose record has a hash of its own fails the check; two lines pass it with a space
put before the first of them; a second line passes it alone if the first has the hash of the start; and a call raises with its
line in the file. -/
theorem chain_check_gaps :
    (Function.Injective ownNames ∧ (∀ bytes, ownNames bytes ≠ zeroHash) ∧
      check unitFloats ownNames (linesAfter ownNames (callsOf true ownHash)) = false) ∧
    (Function.Injective (twoNames (text "a")) ∧ (∀ bytes, twoNames (text "a") bytes ≠ zeroHash) ∧
      respaced (linesAfter (twoNames (text "a")) twoCalls) ≠ linesAfter (twoNames (text "a")) twoCalls ∧
      check unitFloats (twoNames (text "a")) (respaced (linesAfter (twoNames (text "a")) twoCalls)) = true) ∧
    (Function.Injective (twoNames zeroHash) ∧ (linesAfter (twoNames zeroHash) twoCalls).length = 2 ∧
      check unitFloats (twoNames zeroHash) (linesAfter (twoNames zeroHash) twoCalls).tail = true) ∧
    (Runs.outputs (step unitFloats ownNames []) {} ((callsOf true []).take 4 ++ [.raise true (.clientError [] 0)])).getLast? =
        some (.raised (.clientError [] 0)) ∧
      linesAfter ownNames ((callsOf true []).take 4 ++ [.raise true (.clientError [] 0)]) ≠ [] := by
  refine ⟨⟨?_, ?_, ?_⟩, ⟨?_, ?_, ?_, ?_⟩, ⟨?_, ?_, ?_⟩, ?_, ?_⟩
  · exact namedHash_injective (by decide) (by decide) (by decide)
  · exact namedHash_ne_zeroHash (by decide) (by decide)
  · decide +kernel
  · exact namedHash_injective (by decide) (by decide) (by decide)
  · exact namedHash_ne_zeroHash (by decide) (by decide)
  · decide +kernel
  · decide +kernel
  · exact namedHash_injective (by decide) (by decide) (by decide)
  · decide +kernel
  · decide +kernel
  · decide +kernel
  · decide +kernel

end Examples

end ProductionStack.AuditLog
