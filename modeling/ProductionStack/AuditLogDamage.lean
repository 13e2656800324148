import Mathlib.Data.List.DropRight
import ProductionStack.JevDecideStages
import ProductionStack.JsonTrailing

namespace ProductionStack.AuditLog

open JsonText Utf8Text

section Lines

def unterminated (file : Bytes) : Bytes := file.rtakeWhile (· ≠ 10)

theorem newline_notMem_unterminated (file : Bytes) : 10 ∉ unterminated file := by
  intro h
  simpa using List.mem_rtakeWhile_imp h

theorem splitLines_eq_nil {file : Bytes} (h : splitLines file = []) : file = [] := by
  cases file with
  | nil => rfl
  | cons b bs =>
    rw [splitLines] at h
    split at h
    · cases h
    · split at h <;> cases h

theorem splitLines_of_ends {file : Bytes} (h : ∀ hne : file ≠ [], file.getLast hne = 10) (rest : Bytes) :
    splitLines (file ++ rest) = splitLines file ++ splitLines rest := by
  induction file with
  | nil => rfl
  | cons b bs ih =>
    rw [List.cons_append, splitLines, splitLines]
    cases bs with
    | nil =>
      have hb : b = 10 := h (List.cons_ne_nil _ _)
      rw [if_pos hb, if_pos hb]
      rfl
    | cons c cs =>
      have hrest := ih (fun hne => by rw [← h (List.cons_ne_nil _ _), List.getLast_cons hne])
      rw [hrest]
      split
      · rfl
      · cases hlines : splitLines (c :: cs) with
        | nil => cases splitLines_eq_nil hlines
        | cons line lines => rfl

theorem ends_rdropWhile (file : Bytes) (hne : file.rdropWhile (· ≠ 10) ≠ []) : (file.rdropWhile (· ≠ 10)).getLast hne = 10 := by
  simpa using List.rdropWhile_last_not _ _ hne

theorem splitLines_unterminated (file rest : Bytes) :
    splitLines (file ++ rest) = splitLines (file.rdropWhile (· ≠ 10)) ++ splitLines (unterminated file ++ rest) := by
  rw [← splitLines_of_ends (ends_rdropWhile file), ← List.append_assoc, unterminated, List.rdropWhile_append_rtakeWhile]

theorem lastLine_eq_of_splitLines {file line : Bytes} {lines : List Bytes} (h : splitLines file = lines ++ [line])
    (hblank : blank line = false) : lastLine file = some line := by
  rw [lastLine, h, List.filter_append]
  simp [hblank]

theorem lastLine_append {file line : Bytes} (h : Terminated line) : lastLine (file ++ line) = some (unterminated file ++ line) := by
  obtain ⟨body, rfl, hbody⟩ := h.ends
  have htail : 10 ∉ unterminated file ++ body := by
    rw [List.mem_append, not_or]
    exact ⟨newline_notMem_unterminated file, hbody⟩
  have hlines : splitLines (file ++ (body ++ [10])) =
      splitLines (file.rdropWhile (· ≠ 10)) ++ [unterminated file ++ (body ++ [10])] := by
    rw [splitLines_unterminated, ← List.append_assoc, splitLines_append htail []]
    rfl
  refine lastLine_eq_of_splitLines hlines ?_
  have hnot := h.notBlank
  rw [blank] at hnot ⊢
  rw [List.all_append, hnot, Bool.and_false]

theorem splitLines_of_notMem {line : Bytes} (h : 10 ∉ line) (hne : line ≠ []) : splitLines line = [line] := by
  induction line with
  | nil => exact absurd rfl hne
  | cons b bs ih =>
    rw [List.mem_cons, not_or] at h
    rw [splitLines, if_neg (Ne.symm h.1)]
    cases bs with
    | nil => rfl
    | cons c cs => rw [ih h.2 (List.cons_ne_nil _ _)]

theorem lastLine_of_unterminated {file : Bytes} (h : blank (unterminated file) = false) :
    lastLine file = some (unterminated file) := by
  have hne : unterminated file ≠ [] := by
    intro hnil
    rw [hnil] at h
    cases h
  have hlines := splitLines_unterminated file []
  rw [List.append_nil, List.append_nil, splitLines_of_notMem (newline_notMem_unterminated file) hne] at hlines
  exact lastLine_eq_of_splitLines hlines h

end Lines

section Endings

variable {F : Type} (fmt : Runtime F)

def Previous (log : Bytes) (previous : Value F) : Prop :=
  (lastLine log = none ∧ previous = .str zeroHash) ∨
    ∃ line event, lastLine log = some line ∧ eventOf fmt line = some event ∧ find eventHash event = some previous

/-- A log whose last line is not UTF-8, not JSON or an object without a hash. -/
def Malformed (log : Bytes) : Prop :=
  ∃ line, lastLine log = some line ∧
    (decode line = none ∨ (∃ t, decode line = some t ∧ loads fmt t = .error .jsonDecodeError) ∨
      ∃ event, eventOf fmt line = some event ∧ find eventHash event = none)

variable {fmt}

theorem previousHash_eq_ok {path : Text} {log : Bytes} {previous : Value F} :
    previousHash fmt path log = .ok previous ↔ Previous fmt log previous := by
  rw [previousHash, Previous]
  cases hline : lastLine log with
  | none => simp [eq_comm]
  | some line =>
    cases hdecode : decode line with
    | none => simp [hdecode, eventOf]
    | some t =>
      cases hloads : loads fmt t with
      | error e => cases e <;> simp [hdecode, hloads, eventOf]
      | ok v =>
        cases v with
        | obj fields => cases hfind : find eventHash fields <;> simp [hdecode, hloads, eventOf, hfind]
        | _ => simp [hdecode, hloads, eventOf]

theorem previousHash_meets (path : Text) (log : Bytes) :
    Meets (previousHash fmt path log) (fun _ => ¬ Malformed fmt log)
      (fun e => (e = malformed path ∧ Malformed fmt log) ∨ (JevDecide.caught e = none ∧ ¬ Malformed fmt log)) := by
  rw [previousHash, Malformed]
  cases hline : lastLine log with
  | none => simp [Meets]
  | some line =>
    cases hdecode : decode line with
    | none => simp [Meets, hdecode]
    | some t =>
      cases hloads : loads fmt t with
      | error e => cases e <;> simp [Meets, JevDecide.caught, hdecode, hloads, eventOf]
      | ok v =>
        cases v with
        | obj fields => cases hfind : find eventHash fields <;> simp [Meets, JevDecide.caught, hdecode, hloads, eventOf, hfind]
        | _ => simp [Meets, JevDecide.caught, hdecode, hloads, eventOf]

end Endings

section Tails

variable {F : Type} {fmt : Runtime F} {log line : Bytes} {event : Fields F}

theorem blank_ascii {bytes : Bytes} (h : blank bytes = true) : ∀ b ∈ bytes, b < 128 := by
  intro b hb
  have hspace := List.all_eq_true.mp h b hb
  simp only [Bool.or_eq_true, Bool.and_eq_true, decide_eq_true_eq, UInt8.le_iff_toNat_le, ← UInt8.toNat_inj] at hspace
  rw [UInt8.lt_iff_toNat_lt]
  simp at hspace ⊢
  omega

theorem space_ascii {tail : Bytes} (h : ∀ b ∈ tail, isSpace b.toNat = true) : ∀ b ∈ tail, b < 128 := by
  intro b hb
  have hspace := h b hb
  simp [isSpace] at hspace
  rw [UInt8.lt_iff_toNat_lt]
  simp
  omega

theorem eventOf_spaces (hproper : Proper fmt.limits (.obj event))
    (hline : encode (canonical fmt (.obj event) ++ ['\n'.toNat]) = some line) {tail : Bytes}
    (h : ∀ b ∈ tail, isSpace b.toNat = true) : eventOf fmt (tail ++ line) = some (sortByKey (sortFields event)) := by
  have hdecode := decode_append (decode_of_ascii (space_ascii h)) (decode_encode hline)
  have hspaces : ∀ c ∈ tail.map UInt8.toNat, isSpace c = true := by simpa using h
  refine eventOf_eq_some.mpr ⟨_, hdecode, ?_⟩
  rw [loads_spaces hspaces]
  exact loads_canonical hproper (by decide)

theorem eventOf_eq_none {bytes : Bytes} {t : Text} (hdecode : decode bytes = some t)
    (h : loads fmt t = .error .jsonDecodeError) : eventOf fmt bytes = none := by
  rw [eventOf, hdecode]
  dsimp only
  rw [h]

theorem loads_blank {tail : Bytes} (hblank : blank tail = true) (h : ∃ b ∈ tail, isSpace b.toNat = false) (x : Text) :
    loads fmt (tail.map UInt8.toNat ++ x) = .error .jsonDecodeError := by
  obtain ⟨b, hb, hspace⟩ := h
  have hne : (tail.map UInt8.toNat).dropWhile isSpace ≠ [] := by
    intro hnil
    have hall := List.dropWhile_eq_nil_iff.mp hnil b.toNat (List.mem_map_of_mem hb)
    rw [hspace] at hall
    cases hall
  obtain ⟨c, rest, hrest⟩ := List.exists_cons_of_ne_nil hne
  have hc : isSpace c = false := by
    have hhead := List.head_dropWhile_not isSpace hne
    simpa [hrest] using hhead
  have hmem : c ∈ tail.map UInt8.toNat := (List.dropWhile_suffix isSpace).subset (hrest ▸ List.mem_cons_self)
  obtain ⟨d, hd, rfl⟩ := List.mem_map.mp hmem
  have hopens : opens d.toNat = false := by
    have hstripped := List.all_eq_true.mp hblank d hd
    simp only [Bool.or_eq_true, Bool.and_eq_true, decide_eq_true_eq, UInt8.le_iff_toNat_le, ← UInt8.toNat_inj] at hstripped
    simp [opens, isDigit, text] at hstripped ⊢
    omega
  have hsplit : tail.map UInt8.toNat = (tail.map UInt8.toNat).takeWhile isSpace ++ d.toNat :: rest := by
    rw [← hrest, List.takeWhile_append_dropWhile]
  rw [hsplit, List.append_assoc, loads_spaces (fun c hc => List.mem_takeWhile_imp hc)]
  exact loads_of_not_opens hc hopens _

theorem eventOf_glued (hline : encode (canonical fmt (.obj event) ++ ['\n'.toNat]) = some line)
    {previous : Value F} (hprevious : Previous fmt log previous) (h : ∃ b ∈ unterminated log, isSpace b.toNat = false) :
    eventOf fmt (unterminated log ++ line) = none := by
  cases hblank : blank (unterminated log) with
  | true =>
    have hdecode := decode_append (decode_of_ascii (blank_ascii hblank)) (decode_encode hline)
    exact eventOf_eq_none hdecode (loads_blank hblank h _)
  | false =>
    have hlast := lastLine_of_unterminated hblank
    rcases hprevious with ⟨hnone, -⟩ | ⟨_, event', hsome, hevent, -⟩
    · rw [hlast] at hnone
      cases hnone
    · rw [hlast] at hsome
      cases hsome
      obtain ⟨t, ht, hloads⟩ := eventOf_eq_some.mp hevent
      exact eventOf_eq_none (decode_append ht (decode_encode hline)) (loads_trailing hloads rfl rfl _)

end Tails

end ProductionStack.AuditLog

namespace ProductionStack.JevDecide

open JsonText Utf8Text AuditLog

structure Disk.Accessible (disk : Disk) : Prop where
  calls : ∀ call ∈ [SysCall.exists, .mkdir, .open, .fstat, .fchmod, .flock, .read], disk.fails call = none
  parent : if disk.parentExisted then disk.fails .stat = none ∧ disk.parentMode &&& 0o077 = 0 else disk.fails .chmod = none
  regular : disk.regular = true

section Opening

variable {disk : Disk} {path : Text}

theorem sys_eq_ok {call : SysCall} {u : Unit} : sys disk call = .ok u ↔ disk.fails call = none := by
  rw [sys]
  cases disk.fails call with
  | none => simp
  | some message => simp

theorem checkParent_eq_ok {u : Unit} : checkParent disk = .ok u ↔
    if disk.parentExisted then disk.fails .stat = none ∧ disk.parentMode &&& 0o077 = 0 else disk.fails .chmod = none := by
  rw [checkParent]
  split
  · rw [bind_eq_ok]
    simp [sys_eq_ok, refuseIf]
  · exact sys_eq_ok

theorem checkRegular_eq_ok {u : Unit} : checkRegular disk path = .ok u ↔ disk.regular = true := by
  rw [checkRegular]
  split
  next h => simp [h]
  next h =>
    refine iff_of_false ?_ h
    rw [bind_eq_ok]
    rintro ⟨_, _, ⟨⟩⟩

theorem accessible_iff : disk.Accessible ↔
    openLog disk path = .ok () ∧ disk.fails .flock = none ∧ disk.fails .read = none := by
  simp only [openLog, bind_eq_ok, sys_eq_ok, checkParent_eq_ok, checkRegular_eq_ok, exists_const]
  constructor
  · intro h
    have hcalls := h.calls
    simp only [List.forall_mem_cons] at hcalls
    obtain ⟨hexists, hmkdir, hopen, hfstat, hfchmod, hflock, hread, -⟩ := hcalls
    exact ⟨⟨hexists, hmkdir, h.parent, hopen, hfstat, h.regular, hfchmod⟩, hflock, hread⟩
  · rintro ⟨⟨hexists, hmkdir, hparent, hopen, hfstat, hregular, hfchmod⟩, hflock, hread⟩
    refine ⟨?_, hparent, hregular⟩
    simp [hexists, hmkdir, hopen, hfstat, hfchmod, hflock, hread]

def BecomesClientError (path : Text) (e : Raised) : Prop := ∃ message n, cannotWrite path e = .clientError message n

theorem becomes_osError (path message : Text) : BecomesClientError path (.osError message) := ⟨_, _, rfl⟩

theorem cannotWrite_uncaught {e : Raised} (h : caught e = none) (path : Text) : cannotWrite path e = e := by
  cases e with
  | osError message => cases h
  | _ => rfl

theorem sys_becomes (call : SysCall) : Meets (sys disk call) (fun _ => True) (BecomesClientError path) := by
  rw [sys]
  split
  · exact becomes_osError path _
  · trivial

variable (disk path) in
theorem openLog_becomes : Meets (openLog disk path) (fun _ => True) (BecomesClientError path) := by
  have hparent : Meets (checkParent disk) (fun _ => True) (BecomesClientError path) := by
    rw [checkParent]
    split
    · refine (sys_becomes .stat).bind (fun _ _ => ?_)
      rw [refuseIf]
      split
      · exact ⟨_, _, rfl⟩
      · trivial
    · exact sys_becomes .chmod
  have hregular : Meets (checkRegular disk path) (fun _ => True) (BecomesClientError path) := by
    rw [checkRegular]
    split
    · trivial
    · exact (sys_becomes .close).bind (fun _ _ => ⟨_, _, rfl⟩)
  refine (sys_becomes .exists).bind (fun _ _ => ?_)
  refine (sys_becomes .mkdir).bind (fun _ _ => ?_)
  refine hparent.bind (fun _ _ => ?_)
  refine (sys_becomes .open).bind (fun _ _ => ?_)
  refine (sys_becomes .fstat).bind (fun _ _ => ?_)
  exact hregular.bind (fun _ _ => sys_becomes .fchmod)

end Opening

section Events

variable {F : Type} {fmt : Runtime F} {sha256 : Bytes → Text} {path : Text} {log : Bytes} {record : Fields F}

variable (fmt) in
/-- The log has a hash to go on from, and the record can be written with it. -/
def Writable (log : Bytes) (record : Fields F) : Prop :=
  ∃ previous, Previous fmt log previous ∧ Sound fmt.limits (.obj (Dict.assign previousEventHash previous record))

theorem nextEvent_of_sound (hsha : ∀ bytes, Scalar (sha256 bytes)) {previous : Value F}
    (hprevious : previousHash fmt path log = .ok previous)
    (hbase : Sound fmt.limits (.obj (Dict.assign previousEventHash previous record))) :
    ∃ hash line, nextEvent fmt sha256 path log record =
      .ok (Dict.assign eventHash (.str hash) (Dict.assign previousEventHash previous record), line) := by
  obtain ⟨bytes, hbytes⟩ := encode_of_scalar (scalar_canonical fmt hbase.clean)
  have hhash := sha256Json_eq_ok.mpr ⟨hbase.proper, bytes, hbytes, Eq.refl (sha256 bytes)⟩
  have hkey : Scalar eventHash := by decide
  have hevent := sound_assign hkey (sound_str (hsha bytes)) hbase
  obtain ⟨line, hline⟩ := encode_of_scalar ((scalar_canonical fmt hevent.clean).append
    (show Scalar ['\n'.toNat] by decide))
  refine ⟨sha256 bytes, line, bind_eq_ok.mpr ⟨previous, hprevious, bind_eq_ok.mpr ⟨_, hhash, ?_⟩⟩⟩
  refine bind_eq_ok.mpr ⟨_, canonicalJson_eq_ok.mpr ⟨hevent.proper, rfl⟩, ?_⟩
  exact bind_eq_ok.mpr ⟨line, encodeText_eq_ok.mpr hline, rfl⟩

theorem exists_nextEvent_ok (hsha : ∀ bytes, Scalar (sha256 bytes)) :
    (∃ r, nextEvent fmt sha256 path log record = .ok r) ↔ Writable fmt log record := by
  constructor
  · rintro ⟨⟨event, line⟩, h⟩
    obtain ⟨previous, hash, hprevious, hhash, -, -, -⟩ := nextEvent_eq_ok h
    obtain ⟨hproper, bytes, hbytes, -⟩ := sha256Json_eq_ok.mp hhash
    exact ⟨previous, previousHash_eq_ok.mp hprevious, hproper, clean_of_encode hbytes⟩
  · rintro ⟨previous, hprevious, hsound⟩
    obtain ⟨hash, line, h⟩ := nextEvent_of_sound hsha (previousHash_eq_ok.mpr hprevious) hsound
    exact ⟨_, h⟩

theorem terminated_of_nextEvent {event : Fields F} {line : Bytes} (h : nextEvent fmt sha256 path log record = .ok (event, line)) :
    Terminated line := by
  obtain ⟨_, _, -, -, -, -, hline⟩ := nextEvent_eq_ok h
  exact terminated_line hline

theorem find_nextEvent {event : Fields F} {line : Bytes} (h : nextEvent fmt sha256 path log record = .ok (event, line))
    {key : Text} (hprev : key ≠ previousEventHash) (hhash : key ≠ eventHash) : find key event = find key record := by
  obtain ⟨_, _, -, -, rfl, -, -⟩ := nextEvent_eq_ok h
  rw [find_assign, if_neg hhash, find_assign, if_neg hprev]

variable (fmt sha256 path log record) in
theorem nextEvent_meets :
    Meets (nextEvent fmt sha256 path log record) (fun _ => ¬ Malformed fmt log)
      (fun e => (e = malformed path ∧ Malformed fmt log) ∨ (caught e = none ∧ ¬ Malformed fmt log)) := by
  rw [nextEvent]
  refine (previousHash_meets path log).bind (fun previous hlog => ?_)
  have hcanonical : ∀ v : Value F, Meets (canonicalJson fmt v) (fun _ => True)
      (fun e => (e = malformed path ∧ Malformed fmt log) ∨ (caught e = none ∧ ¬ Malformed fmt log)) := by
    intro v
    rw [canonicalJson]
    split
    · trivial
    · exact .inr ⟨getD_fault_uncaught _ _, hlog⟩
  have hencode : ∀ t, Meets (encodeText t) (fun _ => True)
      (fun e => (e = malformed path ∧ Malformed fmt log) ∨ (caught e = none ∧ ¬ Malformed fmt log)) := by
    intro t
    rw [encodeText]
    split
    · trivial
    · exact .inr ⟨rfl, hlog⟩
  have hhash : Meets (sha256Json fmt sha256 (.obj (Dict.assign previousEventHash previous record))) (fun _ => True) _ :=
    (hcanonical _).bind (fun _ _ => (hencode _).bind (fun _ _ => trivial))
  refine hhash.bind (fun hash _ => ?_)
  refine (hcanonical _).bind (fun t _ => ?_)
  exact (hencode _).bind (fun line _ => hlog)

theorem Writable.not_malformed (h : Writable fmt log record) : ¬Malformed fmt log := by
  obtain ⟨previous, hprevious, -⟩ := h
  have hread : previousHash fmt [] log = .ok previous := previousHash_eq_ok.mpr hprevious
  have hmeets : Meets (previousHash fmt [] log) _ _ := previousHash_meets [] log
  rwa [hread] at hmeets

end Events

section Endings

variable {F : Type} (host : Host F)

/-- The log stays as it is, and a ClientError is raised. -/
def Refuses (disk : Disk) (log : Bytes) (record : Fields F) : Prop :=
  ¬disk.Accessible ∨ Malformed host.fmt log ∨
    (Writable host.fmt log record ∧ disk.fails .write ≠ none) ∨
    (¬Writable host.fmt log record ∧ disk.fails .closeHandle ≠ none)

/-- The log stays as it is, and an exception is raised that neither append_audit nor main catches. -/
structure Breaks (disk : Disk) (log : Bytes) (record : Fields F) : Prop where
  accessible : disk.Accessible
  notMalformed : ¬Malformed host.fmt log
  notWritable : ¬Writable host.fmt log record
  closes : disk.fails .closeHandle = none

structure Writes (disk : Disk) (log : Bytes) (record : Fields F) : Prop where
  accessible : disk.Accessible
  writable : Writable host.fmt log record
  writes : disk.fails .write = none

/-- How a call of append_audit ends. -/
inductive Ending (disk : Disk) (record : Fields F) (s : Run F) : Except Raised (Text × Fields F) → Run F → Prop
  | lost {e : Raised} (hpath : disk.path = .error e) : Ending disk record s (.error e) s
  | refused {path message : Text} {n : Nat} (hpath : disk.path = .ok path) (h : Refuses host disk s.log record) :
      Ending disk record s (.error (.clientError message n)) s
  | broken {path : Text} {e : Raised} (hpath : disk.path = .ok path) (h : Breaks host disk s.log record)
      (he : caught e = none) : Ending disk record s (.error e) s
  | unsure {path message : Text} {n : Nat} {event : Fields F} {line : Bytes} (hpath : disk.path = .ok path)
      (h : Writes host disk s.log record) (hnext : nextEvent host.fmt host.sha256 path s.log record = .ok (event, line))
      (hfails : disk.fails .fsync ≠ none ∨ disk.fails .closeHandle ≠ none) :
      Ending disk record s (.error (.clientError message n)) (s.wrote event (disk.takes line))
  | done {path : Text} {event : Fields F} {line : Bytes} (hpath : disk.path = .ok path)
      (h : Writes host disk s.log record) (hnext : nextEvent host.fmt host.sha256 path s.log record = .ok (event, line))
      (hsync : disk.fails .fsync = none) (hclose : disk.fails .closeHandle = none) :
      Ending disk record s (.ok (path, event)) (s.wrote event (disk.takes line))

variable {host} {disk : Disk} {record : Fields F}

theorem Refuses.not_writes {log : Bytes} (h : Refuses host disk log record) : ¬Writes host disk log record := by
  intro hwrites
  rcases h with hnot | hmalformed | ⟨-, hfails⟩ | ⟨hnot, -⟩
  · exact hnot hwrites.accessible
  · exact hwrites.writable.not_malformed hmalformed
  · exact hfails hwrites.writes
  · exact hnot hwrites.writable

theorem Breaks.not_refuses {log : Bytes} (h : Breaks host disk log record) : ¬Refuses host disk log record := by
  rintro (hnot | hmalformed | ⟨hwritable, -⟩ | ⟨-, hfails⟩)
  · exact hnot h.accessible
  · exact h.notMalformed hmalformed
  · exact h.notWritable hwritable
  · exact hfails h.closes

theorem closing_apply {α : Type} (block : Command (Run F) Raised α) (s : Run F) :
    closing disk block s =
      match disk.fails .closeHandle with
      | some message => (.error (.osError message), (block s).2)
      | none => block s := by
  simp only [closing, Command.bind_apply, Command.attempt, Command.ofExcept, sys]
  cases disk.fails .closeHandle <;> rfl

theorem appendAudit_apply {path : Text} (hpath : disk.path = .ok path) (s : Run F) :
    appendAudit host disk record s =
      match openLog disk path with
      | .error e => (.error (cannotWrite path e), s)
      | .ok _ => (((closing disk (appendLine host disk path record) s).1.map (fun event => (path, event))).mapError
          (cannotWrite path), (closing disk (appendLine host disk path record) s).2) := by
  simp only [appendAudit, hpath, Command.bind_apply, Command.ofExcept, Command.mapError]
  cases openLog disk path with
  | error e => rfl
  | ok u =>
    dsimp only
    rcases closing disk (appendLine host disk path record) s with ⟨e | event, s'⟩ <;> rfl

theorem sys_of_none {call : SysCall} (h : disk.fails call = none) : sys disk call = .ok () := sys_eq_ok.mpr h

theorem sys_eq_error {call : SysCall} {message : Text} (h : disk.fails call = some message) :
    sys disk call = .error (.osError message) := by
  rw [sys, h]

theorem appendLine_cases {path : Text} (hopen : openLog disk path = .ok ()) (s : Run F) :
    (∃ e, appendLine host disk path record s = (.error e, s) ∧
      ((BecomesClientError path e ∧
          (¬disk.Accessible ∨ Malformed host.fmt s.log ∨ (Writable host.fmt s.log record ∧ disk.fails .write ≠ none))) ∨
        (caught e = none ∧ disk.Accessible ∧ ¬Malformed host.fmt s.log ∧ ¬Writable host.fmt s.log record))) ∨
    ∃ event line ended, appendLine host disk path record s = (ended, s.wrote event (disk.takes line)) ∧
      Writes host disk s.log record ∧ nextEvent host.fmt host.sha256 path s.log record = .ok (event, line) ∧
      ((ended = .ok event ∧ disk.fails .fsync = none) ∨
        ∃ message, ended = .error (.osError message) ∧ disk.fails .fsync ≠ none) := by
  have hsha := fun bytes => scalar_of_ascii (host.sha256_ascii bytes)
  have haccess : disk.Accessible ↔ openLog disk path = .ok () ∧ disk.fails .flock = none ∧ disk.fails .read = none :=
    accessible_iff
  simp only [hopen, true_and] at haccess
  simp only [appendLine, Command.bind_apply, Command.ofExcept, Command.state, Command.modify]
  cases hflock : disk.fails .flock with
  | some message =>
    rw [sys_eq_error hflock]
    refine .inl ⟨_, rfl, .inl ⟨becomes_osError path message, .inl ?_⟩⟩
    simp [haccess, hflock]
  | none =>
    rw [sys_of_none hflock]
    cases hread : disk.fails .read with
    | some message =>
      rw [sys_eq_error hread]
      refine .inl ⟨_, rfl, .inl ⟨becomes_osError path message, .inl ?_⟩⟩
      simp [haccess, hread]
    | none =>
      have haccessible : disk.Accessible := haccess.mpr ⟨hflock, hread⟩
      have hmeets := nextEvent_meets host.fmt host.sha256 path s.log record
      rw [sys_of_none hread]
      dsimp only
      cases hnext : nextEvent host.fmt host.sha256 path s.log record with
      | error e =>
        rw [hnext] at hmeets
        refine .inl ⟨e, rfl, ?_⟩
        rcases hmeets with ⟨rfl, hmalformed⟩ | ⟨huncaught, hnot⟩
        · exact .inl ⟨⟨_, _, rfl⟩, .inr (.inl hmalformed)⟩
        · refine .inr ⟨huncaught, haccessible, hnot, fun hwritable => ?_⟩
          obtain ⟨r, hr⟩ := (exists_nextEvent_ok hsha).mpr hwritable
          rw [hr] at hnext
          cases hnext
      | ok found =>
        have hwritable : Writable host.fmt s.log record := (exists_nextEvent_ok hsha).mp ⟨found, hnext⟩
        cases hwrite : disk.fails .write with
        | some message =>
          rw [sys_eq_error hwrite]
          refine .inl ⟨_, rfl, .inl ⟨becomes_osError path message, .inr (.inr ⟨hwritable, ?_⟩)⟩⟩
          simp
        | none =>
          rw [sys_of_none hwrite]
          have hwrites : Writes host disk s.log record := ⟨haccessible, hwritable, hwrite⟩
          cases hsync : disk.fails .fsync with
          | some message =>
            rw [sys_eq_error hsync]
            exact .inr ⟨_, _, _, rfl, hwrites, rfl, .inr ⟨message, rfl, Option.some_ne_none message⟩⟩
          | none =>
            rw [sys_of_none hsync]
            exact .inr ⟨_, _, _, rfl, hwrites, rfl, .inl ⟨rfl, rfl⟩⟩

/-- By the steps of the call: what close raises hides what the block has raised. -/
theorem appendAudit_ending (s : Run F) :
    Ending host disk record s (appendAudit host disk record s).1 (appendAudit host disk record s).2 := by
  cases hpath : disk.path with
  | error e =>
    have hrun : appendAudit host disk record s = (.error e, s) := by
      simp only [appendAudit, hpath, Command.bind_apply, Command.ofExcept]
    rw [hrun]
    exact .lost hpath
  | ok path =>
    rw [appendAudit_apply hpath]
    cases hopen : openLog disk path with
    | error e =>
      have hbecomes := openLog_becomes disk path
      rw [hopen] at hbecomes
      obtain ⟨message, n, hmessage⟩ := hbecomes
      dsimp only
      rw [hmessage]
      refine .refused hpath (.inl (fun haccessible => ?_))
      have hok : openLog disk path = .ok () := (accessible_iff.mp haccessible).1
      rw [hopen] at hok
      cases hok
    | ok u =>
      dsimp only
      rw [closing_apply]
      cases hclose : disk.fails .closeHandle with
      | some message =>
        have hfails : disk.fails .closeHandle ≠ none := by simp [hclose]
        rcases appendLine_cases hopen s with ⟨e, hline, hkept⟩ | ⟨event, line, ended, hline, hwrites, hnext, -⟩
        · rw [hline]
          refine .refused hpath ?_
          rcases hkept with ⟨-, hnot | hmalformed | hwrite⟩ | ⟨-, -, -, hnot⟩
          · exact .inl hnot
          · exact .inr (.inl hmalformed)
          · exact .inr (.inr (.inl hwrite))
          · exact .inr (.inr (.inr ⟨hnot, hfails⟩))
        · rw [hline]
          exact .unsure hpath hwrites hnext (.inr hfails)
      | none =>
        rcases appendLine_cases hopen s with ⟨e, hline, hkept⟩ | ⟨event, line, ended, hline, hwrites, hnext, hended⟩
        · rw [hline]
          rcases hkept with ⟨⟨message, n, hmessage⟩, hrefuses⟩ | ⟨he, haccessible, hlog, hnot⟩
          · change Ending host disk record s (.error (cannotWrite path e)) s
            rw [hmessage]
            exact .refused hpath (hrefuses.imp_right (Or.imp_right .inl))
          · change Ending host disk record s (.error (cannotWrite path e)) s
            rw [cannotWrite_uncaught he]
            exact .broken hpath ⟨haccessible, hlog, hnot, hclose⟩ he
        · rw [hline]
          rcases hended with ⟨rfl, hsync⟩ | ⟨message, rfl, hsync⟩
          · exact .done hpath hwrites hnext hsync hclose
          · exact .unsure hpath hwrites hnext (.inl hsync)

end Endings

section Appending

variable {F : Type} (host : Host F)

/-- A ClientError and the log as it was, or one more line, with which the log ends and which is an object with the hash of
the event that is returned. -/
def SafelyAppended (log : Bytes) (outcome : Except Raised (Text × Fields F) × Run F) : Prop :=
  (∃ message n, outcome.1 = .error (.clientError message n) ∧ outcome.2.log = log) ∨
    ∃ path event line last fields hash, outcome.1 = .ok (path, event) ∧ outcome.2.log = log ++ line ∧ Terminated line ∧
      lastLine outcome.2.log = some last ∧ eventOf host.fmt last = some fields ∧
      find eventHash fields = some (.str hash) ∧ find eventHash event = some (.str hash)

/-- The disk, the log and the record for which an append is safe: it is refused, or the line is written whole, after nothing
but spaces, and neither fsync nor close fails. -/
def Appendable (disk : Disk) (log : Bytes) (record : Fields F) : Prop :=
  Refuses host disk log record ∨
    (Writes host disk log record ∧ disk.cut = 0 ∧ disk.fails .fsync = none ∧ disk.fails .closeHandle = none ∧
      ∀ b ∈ unterminated log, isSpace b.toNat = true)

variable {host} {disk : Disk} {path : Text} {record event : Fields F} {line : Bytes} {s : Run F}

theorem takes_ne_nil (h : Terminated line) : disk.takes line ≠ [] := by
  obtain ⟨body, rfl, -⟩ := h.ends
  cases body <;> simp [Disk.takes]

theorem takes_eq_self (h : disk.cut = 0) : disk.takes line = line := by
  rw [Disk.takes, h, Nat.sub_zero]
  exact List.take_of_length_le (le_max_right _ _)

theorem newline_notMem_takes (h : Terminated line) (hcut : disk.cut ≠ 0) : 10 ∉ disk.takes line := by
  obtain ⟨body, rfl, hbody⟩ := h.ends
  have hne : body ≠ [] := by
    rintro rfl
    exact absurd h.notBlank (by decide)
  have hpos : 0 < body.length := List.length_pos_iff.mpr hne
  have hshort : max 1 ((body ++ [10]).length - disk.cut) ≤ body.length := by
    rw [List.length_append, List.length_singleton]
    omega
  rw [Disk.takes, List.take_append_of_le_length hshort]
  exact fun hmem => hbody (List.mem_of_mem_take hmem)

theorem safelyAppended_iff (h : nextEvent host.fmt host.sha256 path s.log record = .ok (event, line)) :
    SafelyAppended host s.log (.ok (path, event), s.wrote event line) ↔ ∀ b ∈ unterminated s.log, isSpace b.toNat = true := by
  obtain ⟨previous, hash, hprevious, -, hevent, hproper, hline⟩ := nextEvent_eq_ok h
  have hterminated := terminated_of_nextEvent h
  have hlast : lastLine (s.wrote event line).log = some (unterminated s.log ++ line) := lastLine_append hterminated
  constructor
  · rintro (⟨_, _, ⟨⟩, _⟩ | ⟨_, _, _, last, fields, _, -, -, -, hread, hfields, -⟩)
    by_contra hspaces
    have hglued : ∃ b ∈ unterminated s.log, isSpace b.toNat = false := by simpa using hspaces
    rw [hlast] at hread
    cases hread
    rw [eventOf_glued hline (previousHash_eq_ok.mp hprevious) hglued] at hfields
    cases hfields
  · intro hspaces
    have hfind : find eventHash event = some (.str hash) := by rw [hevent, find_assign, if_pos rfl]
    refine .inr ⟨path, event, line, _, _, hash, rfl, rfl, hterminated, hlast, eventOf_spaces hproper hline hspaces, ?_, hfind⟩
    rw [find_sortByKey hproper.1, hfind]
    rfl

theorem not_safelyAppended_of_cut (h : Terminated line) (hcut : disk.cut ≠ 0) :
    ¬SafelyAppended host s.log (.ok (path, event), s.wrote event (disk.takes line)) := by
  rintro (⟨_, _, ⟨⟩, _⟩ | ⟨_, _, line', _, _, _, -, hlog, hterminated, -⟩)
  have hsame : disk.takes line = line' := List.append_cancel_left hlog
  obtain ⟨body, rfl, -⟩ := hterminated.ends
  exact newline_notMem_takes h hcut (by simp [hsame])

theorem not_safelyAppended_of_error {e : Raised} (h : Terminated line) :
    ¬SafelyAppended host s.log (.error e, s.wrote event (disk.takes line)) := by
  rintro (⟨_, _, -, hlog⟩ | ⟨_, _, _, _, _, _, ⟨⟩, _⟩)
  exact takes_ne_nil h (List.append_right_eq_self.mp hlog)

/-- An append is safe where it is refused, and where the line is written whole after nothing but spaces. -/
theorem appendAudit_safe_iff {disk : Disk} {path : Text} (hpath : disk.path = .ok path) (record : Fields F) (s : Run F) :
    SafelyAppended host s.log (appendAudit host disk record s) ↔ Appendable host disk s.log record := by
  have hending : Ending host disk record s _ _ := appendAudit_ending s
  generalize appendAudit host disk record s = outcome at hending ⊢
  obtain ⟨result, s'⟩ := outcome
  rw [Appendable]
  cases hending with
  | lost herror =>
    rw [hpath] at herror
    cases herror
  | refused _ hrefuses => exact iff_of_true (.inl ⟨_, _, rfl, rfl⟩) (.inl hrefuses)
  | broken _ hbreaks he =>
    refine iff_of_false ?_ ?_
    · rintro (⟨_, _, herror, -⟩ | ⟨_, _, _, _, _, _, ⟨⟩, _⟩)
      cases Except.error.inj herror
      cases he
    · rintro (hrefuses | ⟨hwrites, -⟩)
      · exact hbreaks.not_refuses hrefuses
      · exact hbreaks.notWritable hwrites.writable
  | unsure _ hwrites hnext hfails =>
    refine iff_of_false (not_safelyAppended_of_error (terminated_of_nextEvent hnext)) ?_
    rintro (hrefuses | ⟨-, -, hsync, hclose, -⟩)
    · exact hrefuses.not_writes hwrites
    · exact hfails.elim (fun h => h hsync) (fun h => h hclose)
  | done _ hwrites hnext hsync hclose =>
    rw [or_iff_right (fun hrefuses : Refuses host disk s.log record => hrefuses.not_writes hwrites)]
    by_cases hcut : disk.cut = 0
    · rw [takes_eq_self hcut]
      refine (safelyAppended_iff hnext).trans ?_
      simp [hwrites, hcut, hsync, hclose]
    · exact iff_of_false (not_safelyAppended_of_cut (terminated_of_nextEvent hnext) hcut) (fun h => hcut h.2.1)

end Appending

section Examples

def errorOf {ε α : Type} : Except ε α → Option ε
  | .error e => some e
  | .ok _ => none

theorem errorOf_eq_some {ε α : Type} {x : Except ε α} {e : ε} : errorOf x = some e ↔ x = .error e := by
  cases x <;> simp [errorOf]

def bytesOf (s : String) : Bytes := (text s).map UInt8.ofNat

theorem demoDisk_accessible : demoDisk.Accessible := ⟨fun _ _ => rfl, ⟨rfl, rfl⟩, rfl⟩

def smallRecord : Fields Unit := [(text "schema_version", .int 1), (text "outcome", .str (text "success"))]

def hashedEvent : Fields Unit := [(eventHash, .str (text "x"))]

/-- The event of the last line, and a log in which it stands behind a line that is no event and before spaces; a log whose
last line broke off; one that ends with the document 1; and one whose last event has lost its line break. -/
def hashedLine : Bytes := bytesOf "\x7b\"event_hash\":\"x\"\x7d"

def mendedLog : Bytes := bytesOf "oops\n" ++ (hashedLine ++ [10]) ++ bytesOf "  "

def brokenLog : Bytes := hashedLine ++ 10 :: bytesOf "\x7b\"event_"

def numberLog : Bytes := bytesOf "1\n"

theorem smallRecord_sound :
    Sound demoHost.fmt.limits (.obj (Dict.assign previousEventHash (.str (text "x")) smallRecord)) := by
  obtain ⟨bytes, hbytes⟩ : ∃ bytes, encode (canonical demoHost.fmt
      (.obj (Dict.assign previousEventHash (.str (text "x")) smallRecord))) = some bytes :=
    Option.isSome_iff_exists.mp (by decide +kernel)
  exact ⟨by decide +kernel, clean_of_encode hbytes⟩

theorem eventOf_hashedLine (spaces : Text) (hspaces : ∀ c ∈ spaces, isSpace c = true) (bytes : Bytes)
    (h : decode bytes = some (canonical demoHost.fmt (.obj hashedEvent) ++ spaces)) :
    eventOf demoHost.fmt bytes = some hashedEvent := by
  have hproper : Proper demoHost.fmt.limits (.obj hashedEvent) := by decide +kernel
  exact eventOf_eq_some.mpr ⟨_, h, loads_canonical hproper hspaces⟩

theorem writes_of_line {log line : Bytes} (hlast : lastLine log = some line)
    (hevent : eventOf demoHost.fmt line = some hashedEvent) : Writes demoHost demoDisk log smallRecord :=
  ⟨demoDisk_accessible, ⟨_, .inr ⟨line, hashedEvent, hlast, hevent, rfl⟩, smallRecord_sound⟩, rfl⟩

theorem mendedLog_writes : Writes demoHost demoDisk mendedLog smallRecord := by
  have hlast : lastLine mendedLog = some (hashedLine ++ [10]) := by decide +kernel
  exact writes_of_line hlast (eventOf_hashedLine ['\n'.toNat] (by decide) _ (by decide +kernel))

theorem hashedLine_writes : Writes demoHost demoDisk hashedLine smallRecord := by
  have hlast : lastLine hashedLine = some hashedLine := by decide +kernel
  exact writes_of_line hlast (eventOf_hashedLine [] nofun _ (by decide +kernel))

theorem brokenLog_malformed : Malformed demoHost.fmt brokenLog := by
  have hlast : lastLine brokenLog = some (bytesOf "\x7b\"event_") := by decide +kernel
  have hloads : loads demoHost.fmt (text "\x7b\"event_") = .error .jsonDecodeError :=
    errorOf_eq_some.mp (by decide +kernel)
  exact ⟨_, hlast, .inr (.inl ⟨_, by decide +kernel, hloads⟩)⟩

theorem mendedLog_appended :
    demoDisk.path = .ok (text "audit.jsonl") ∧
      SafelyAppended demoHost mendedLog (appendAudit demoHost demoDisk smallRecord { log := mendedLog }) ∧
      SafelyAppended demoHost brokenLog (appendAudit demoHost demoDisk smallRecord { log := brokenLog }) := by
  refine ⟨rfl, ?_, ?_⟩
  · refine (appendAudit_safe_iff rfl smallRecord { log := mendedLog }).mpr (.inr ⟨mendedLog_writes, rfl, rfl, rfl, ?_⟩)
    decide +kernel
  · exact (appendAudit_safe_iff rfl smallRecord { log := brokenLog }).mpr (.inl (.inr (.inl brokenLog_malformed)))

def deepLog : Bytes := List.replicate 1001 91 ++ [10]

theorem not_safelyAppended_of_uncaught {log : Bytes} {e : Raised} (he : caught e = none)
    {outcome : Except Raised (Text × Fields Unit) × Run Unit} (h : outcome.1 = .error e) :
    ¬SafelyAppended demoHost log outcome := by
  rintro (⟨_, _, herror, -⟩ | ⟨_, _, _, _, _, _, hok, -⟩)
  · rw [h] at herror
    cases Except.error.inj herror
    cases he
  · rw [h] at hok
    cases hok

/-- A log that ends with the document 1, of which the subscript raises TypeError; one that ends with more brackets than can be
open at once; and one whose last line has no break, so that the event is written on the same line. -/
theorem appendAudit_damaged :
    (appendAudit demoHost demoDisk smallRecord { log := numberLog }).1 = .error .typeError ∧
      ¬ SafelyAppended demoHost numberLog (appendAudit demoHost demoDisk smallRecord { log := numberLog }) ∧
      (appendAudit demoHost demoDisk smallRecord { log := deepLog }).1 = .error .recursionError ∧
      ¬ SafelyAppended demoHost deepLog (appendAudit demoHost demoDisk smallRecord { log := deepLog }) ∧
      ¬ SafelyAppended demoHost hashedLine (appendAudit demoHost demoDisk smallRecord { log := hashedLine }) := by
  have hnumber : (appendAudit demoHost demoDisk smallRecord { log := numberLog }).1 = .error .typeError :=
    errorOf_eq_some.mp (by decide +kernel)
  have hdeep : (appendAudit demoHost demoDisk smallRecord { log := deepLog }).1 = .error .recursionError :=
    errorOf_eq_some.mp (by decide +kernel)
  refine ⟨hnumber, not_safelyAppended_of_uncaught rfl hnumber, hdeep, not_safelyAppended_of_uncaught rfl hdeep, ?_⟩
  have hending : Ending demoHost demoDisk smallRecord { log := hashedLine } _ _ := appendAudit_ending { log := hashedLine }
  generalize appendAudit demoHost demoDisk smallRecord { log := hashedLine } = outcome at hending ⊢
  obtain ⟨result, s'⟩ := outcome
  cases hending with
  | lost hpath => cases hpath
  | refused _ hrefuses => exact absurd hashedLine_writes hrefuses.not_writes
  | broken _ hbreaks _ => exact absurd hashedLine_writes.writable hbreaks.notWritable
  | unsure _ _ _ hfails => exact hfails.elim (fun h => absurd rfl h) (fun h => absurd rfl h)
  | done _ _ hnext _ _ =>
    rw [takes_eq_self rfl]
    refine (safelyAppended_iff hnext).not.mpr ?_
    decide +kernel

end Examples

end ProductionStack.JevDecide
