import ProductionStack.HashChain
import ProductionStack.JsonCanonical
import ProductionStack.Utf8Text

namespace ProductionStack.AuditLog

open JsonText Utf8Text

/-- What the client can raise. Its main function catches the first two. -/
inductive Raised
  | clientError (message : Text) (attempts : Nat)
  | osError (message : Text)
  | unicodeEncodeError
  | unicodeDecodeError
  | valueError
  | recursionError
  | typeError
  | overflowError
  | runtimeError
  | assertionError
  | httpException
  deriving DecidableEq, Repr

section Lines

/-- The lines a binary file is read as, each of them with its line break. -/
def splitLines : Bytes → List Bytes
  | [] => []
  | b :: bs =>
    if b = 10 then [b] :: splitLines bs
    else
      match splitLines bs with
      | [] => [[b]]
      | line :: lines => (b :: line) :: lines

/-- bytes.strip leaves nothing. -/
def blank (line : Bytes) : Bool := line.all (fun b => b = 32 || (9 ≤ b && b ≤ 13))

def lastLine (file : Bytes) : Option Bytes := ((splitLines file).filter (fun line => !blank line)).getLast?

/-- A line as the log has it: one line break, at its end, and something before it. -/
structure Terminated (line : Bytes) : Prop where
  ends : ∃ body, line = body ++ [10] ∧ 10 ∉ body
  notBlank : blank line = false

theorem splitLines_append {body : Bytes} (h : 10 ∉ body) (rest : Bytes) :
    splitLines (body ++ 10 :: rest) = (body ++ [10]) :: splitLines rest := by
  induction body with
  | nil => rfl
  | cons b body ih =>
    rw [List.mem_cons, not_or] at h
    rw [List.cons_append, splitLines, if_neg (Ne.symm h.1), ih h.2]
    rfl

theorem splitLines_flatten {lines : List Bytes} (h : ∀ line ∈ lines, Terminated line) : splitLines lines.flatten = lines := by
  induction lines with
  | nil => rfl
  | cons line lines ih =>
    obtain ⟨body, rfl, hbody⟩ := (h line List.mem_cons_self).ends
    have hrest := ih (fun l hl => h l (List.mem_cons_of_mem _ hl))
    rw [List.flatten_cons, List.append_assoc, List.singleton_append, splitLines_append hbody, hrest]

theorem lastLine_flatten {lines : List Bytes} (h : ∀ line ∈ lines, Terminated line) :
    lastLine lines.flatten = lines.getLast? := by
  have hall : lines.filter (fun line => !blank line) = lines := by
    rw [List.filter_eq_self]
    intro line hline
    rw [(h line hline).notBlank]
    rfl
  rw [lastLine, splitLines_flatten h, hall]

end Lines

section Append

def zeroHash : Text := List.replicate 64 '0'.toNat

def eventHash : Text := text "event_hash"

def previousEventHash : Text := text "previous_event_hash"

mutual

def decideProper {F : Type} : (limits : Limits) → (v : Value F) → Decidable (Proper limits v)
  | limits, .int n => inferInstanceAs (Decidable ((decimal n.natAbs).length ≤ limits.digits))
  | limits, .arr items => @instDecidableAnd _ _ inferInstance (decideItems limits.deeper items)
  | limits, .obj fields =>
    @instDecidableAnd _ _ inferInstance (@instDecidableAnd _ _ inferInstance (decideFields limits.deeper fields))
  | _, .null | _, .bool _ | _, .float _ | _, .str _ => .isTrue trivial

def decideItems {F : Type} : (limits : Limits) → (items : List (Value F)) → Decidable (ProperItems limits items)
  | _, [] => .isTrue trivial
  | limits, item :: items => @instDecidableAnd _ _ (decideProper limits item) (decideItems limits items)

def decideFields {F : Type} : (limits : Limits) → (fields : Fields F) → Decidable (ProperFields limits fields)
  | _, [] => .isTrue trivial
  | limits, (_, value) :: fields => @instDecidableAnd _ _ (decideProper limits value) (decideFields limits fields)

end

instance {F : Type} (limits : Limits) : DecidablePred (Proper (F := F) limits) := decideProper limits

mutual

/-- What the encoder meets first that it cannot write. -/
def fault {F : Type} : Limits → Value F → Option Raised
  | limits, .int n => if (decimal n.natAbs).length ≤ limits.digits then none else some .valueError
  | limits, .arr items => if limits.depth = 0 then some .recursionError else faultItems limits.deeper items
  | limits, .obj fields => if limits.depth = 0 then some .recursionError else faultFields limits.deeper fields
  | _, _ => none

def faultItems {F : Type} : Limits → List (Value F) → Option Raised
  | _, [] => none
  | limits, item :: items => (fault limits item).or (faultItems limits items)

def faultFields {F : Type} : Limits → Fields F → Option Raised
  | _, [] => none
  | limits, (_, value) :: fields => (fault limits value).or (faultFields limits fields)

end

variable {F : Type} (fmt : Runtime F) (sha256 : Bytes → Text)

/-- No dict has a key twice. -/
def canonicalJson (v : Value F) : Except Raised Text :=
  if Proper fmt.limits v then .ok (canonical fmt v) else .error ((fault fmt.limits (sortKeys v)).getD .valueError)

def encodeText (t : Text) : Except Raised Bytes :=
  match encode t with
  | some bytes => .ok bytes
  | none => .error .unicodeEncodeError

def sha256Json (v : Value F) : Except Raised Text := do
  let t ← canonicalJson fmt v
  let bytes ← encodeText t
  return sha256 bytes

def malformed (path : Text) : Raised := .clientError (text "audit log is malformed and was not appended: " ++ path) 0

def previousHash (path : Text) (file : Bytes) : Except Raised (Value F) :=
  match lastLine file with
  | none => .ok (.str zeroHash)
  | some line =>
    match decode line with
    | none => .error (malformed path)
    | some t =>
      match loads fmt t with
      | .error .jsonDecodeError => .error (malformed path)
      | .error .valueError => .error .valueError
      | .error .recursionError => .error .recursionError
      | .ok (.obj fields) =>
        match find eventHash fields with
        | some hash => .ok hash
        | none => .error (malformed path)
      | .ok _ => .error .typeError

def nextEvent (path : Text) (file : Bytes) (record : Fields F) : Except Raised (Fields F × Bytes) := do
  let previous ← previousHash fmt path file
  let event := Dict.assign previousEventHash previous record
  let hash ← sha256Json fmt sha256 (.obj event)
  let event := Dict.assign eventHash (.str hash) event
  let t ← canonicalJson fmt (.obj event)
  let line ← encodeText (t ++ ['\n'.toNat])
  return (event, line)

variable {fmt sha256}

theorem canonicalJson_eq_ok {v : Value F} {t : Text} :
    canonicalJson fmt v = .ok t ↔ Proper fmt.limits v ∧ canonical fmt v = t := by
  rw [canonicalJson]
  split
  next h => simp [h]
  next h => simp [h]

theorem encodeText_eq_ok {t : Text} {bytes : Bytes} : encodeText t = .ok bytes ↔ encode t = some bytes := by
  rw [encodeText]
  cases encode t with
  | none => simp
  | some b => simp

theorem sha256Json_eq_ok {v : Value F} {hash : Text} :
    sha256Json fmt sha256 v = .ok hash ↔
      Proper fmt.limits v ∧ ∃ bytes, encode (canonical fmt v) = some bytes ∧ sha256 bytes = hash := by
  constructor
  · intro h
    obtain ⟨t, ht, h⟩ := bind_eq_ok.mp h
    obtain ⟨bytes, hbytes, hhash⟩ := bind_eq_ok.mp h
    obtain ⟨hproper, rfl⟩ := canonicalJson_eq_ok.mp ht
    exact ⟨hproper, bytes, encodeText_eq_ok.mp hbytes, Except.ok.inj hhash⟩
  · rintro ⟨hproper, bytes, hbytes, rfl⟩
    exact bind_eq_ok.mpr ⟨_, canonicalJson_eq_ok.mpr ⟨hproper, rfl⟩,
      bind_eq_ok.mpr ⟨bytes, encodeText_eq_ok.mpr hbytes, rfl⟩⟩

theorem nextEvent_eq_ok {path : Text} {file : Bytes} {record event : Fields F} {line : Bytes}
    (h : nextEvent fmt sha256 path file record = .ok (event, line)) :
    ∃ previous hash, previousHash fmt path file = .ok previous ∧
      sha256Json fmt sha256 (.obj (Dict.assign previousEventHash previous record)) = .ok hash ∧
      event = Dict.assign eventHash (.str hash) (Dict.assign previousEventHash previous record) ∧
      Proper fmt.limits (.obj event) ∧ encode (canonical fmt (.obj event) ++ ['\n'.toNat]) = some line := by
  obtain ⟨previous, hprevious, h⟩ := bind_eq_ok.mp h
  obtain ⟨hash, hhash, h⟩ := bind_eq_ok.mp h
  obtain ⟨t, ht, h⟩ := bind_eq_ok.mp h
  obtain ⟨bytes, hbytes, hline⟩ := bind_eq_ok.mp h
  obtain ⟨hproper, rfl⟩ := canonicalJson_eq_ok.mp ht
  cases Except.ok.inj hline
  exact ⟨previous, hash, hprevious, hhash, rfl, hproper, encodeText_eq_ok.mp hbytes⟩

end Append

section Check

variable {F : Type} (fmt : Runtime F) (sha256 : Bytes → Text)

def eventOf (line : Bytes) : Option (Fields F) :=
  match decode line with
  | none => none
  | some t =>
    match loads fmt t with
    | .ok (.obj fields) => some fields
    | _ => none

def stringAt (key : Text) (fields : Fields F) : Option Text :=
  match find key fields with
  | some (.str s) => some s
  | _ => none

/-- What a line says of the line before it and of itself, and what its hash has to be taken of. -/
def entryOf (line : Bytes) : Option (HashChain.Entry Bytes Text) := do
  let event ← eventOf fmt line
  let previous ← stringAt previousEventHash event
  let hash ← stringAt eventHash event
  let body ← encode (canonical fmt (.obj (without eventHash event)))
  return ⟨previous, hash, body⟩

def checkFrom (previous : Text) : List Bytes → Bool
  | [] => true
  | line :: lines =>
    match entryOf fmt line with
    | none => false
    | some e => decide (e.previous = previous) && decide (e.digest = sha256 e.body) && checkFrom e.digest lines

def check (lines : List Bytes) : Bool := checkFrom fmt sha256 zeroHash lines

def bodies (lines : List Bytes) : List Bytes := lines.filterMap (fun line => (entryOf fmt line).map HashChain.Entry.body)

/-- The two lines are written in different ways at most. -/
def SameEvent (line line' : Bytes) : Prop :=
  ∃ event event', eventOf fmt line = some event ∧ eventOf fmt line' = some event' ∧
    sortKeys (.obj event) = sortKeys (.obj event')

variable {fmt sha256}

theorem eventOf_eq_some {line : Bytes} {event : Fields F} :
    eventOf fmt line = some event ↔ ∃ t, decode line = some t ∧ loads fmt t = .ok (.obj event) := by
  rw [eventOf]
  cases decode line with
  | none => simp
  | some t =>
    dsimp only
    cases hloads : loads fmt t with
    | error e => simp [hloads]
    | ok v => cases v <;> simp [hloads]

theorem stringAt_eq_some {key s : Text} {fields : Fields F} : stringAt key fields = some s ↔ find key fields = some (.str s) := by
  rw [stringAt]
  cases find key fields with
  | none => simp
  | some v => cases v <;> simp

theorem proper_eventOf {line : Bytes} {event : Fields F} (h : eventOf fmt line = some event) :
    Proper fmt.limits (.obj event) := by
  obtain ⟨t, -, ht⟩ := eventOf_eq_some.mp h
  exact proper_loads ht

theorem proper_without {limits : Limits} {key : Text} {fields : Fields F} (h : Proper limits (.obj fields)) :
    Proper limits (.obj (without key fields)) :=
  ⟨without_nodup h.1, h.2.1, properFields_iff.mpr (fun f hf => properFields_iff.mp h.2.2 f (List.mem_of_mem_filter hf))⟩

theorem entryOf_eq_some {line : Bytes} {e : HashChain.Entry Bytes Text} :
    entryOf fmt line = some e ↔ ∃ event, eventOf fmt line = some event ∧
      find previousEventHash event = some (.str e.previous) ∧ find eventHash event = some (.str e.digest) ∧
      encode (canonical fmt (.obj (without eventHash event))) = some e.body := by
  simp only [entryOf, Option.bind_eq_bind, Option.bind_eq_some_iff, stringAt_eq_some]
  constructor
  · rintro ⟨event, hevent, previous, hprevious, hash, hhash, body, hbody, he⟩
    cases he
    exact ⟨event, hevent, hprevious, hhash, hbody⟩
  · rintro ⟨event, hevent, hprevious, hhash, hbody⟩
    exact ⟨event, hevent, _, hprevious, _, hhash, _, hbody, rfl⟩

theorem checkFrom_iff {previous : Text} {lines : List Bytes} :
    checkFrom fmt sha256 previous lines = true ↔
      ∃ es, List.Forall₂ (fun line e => entryOf fmt line = some e) lines es ∧ HashChain.ValidFrom sha256 previous es := by
  induction lines generalizing previous with
  | nil =>
    refine ⟨fun _ => ⟨[], .nil, trivial⟩, fun _ => rfl⟩
  | cons line lines ih =>
    rw [checkFrom]
    constructor
    · intro h
      split at h
      · cases h
      next e he =>
        simp only [Bool.and_eq_true, decide_eq_true_eq] at h
        obtain ⟨es, hes, hvalid⟩ := ih.mp h.2
        exact ⟨e :: es, .cons he hes, h.1.1, h.1.2, hvalid⟩
    · rintro ⟨es, hes, hvalid⟩
      cases hes with
      | cons he hes =>
        rw [he]
        simp only [Bool.and_eq_true, decide_eq_true_eq]
        exact ⟨⟨hvalid.1, hvalid.2.1⟩, ih.mpr ⟨_, hes, hvalid.2.2⟩⟩

theorem map_entryOf {lines : List Bytes} {es : List (HashChain.Entry Bytes Text)}
    (h : List.Forall₂ (fun line e => entryOf fmt line = some e) lines es) : lines.map (entryOf fmt) = es.map some := by
  induction h with
  | nil => rfl
  | cons he _ ih => rw [List.map_cons, List.map_cons, he, ih]

theorem bodies_eq {lines : List Bytes} {es : List (HashChain.Entry Bytes Text)}
    (h : List.Forall₂ (fun line e => entryOf fmt line = some e) lines es) : bodies fmt lines = es.map HashChain.Entry.body := by
  have hmap : bodies fmt lines = (lines.map (entryOf fmt)).filterMap (Option.map HashChain.Entry.body) := by
    rw [bodies, List.filterMap_map]
    rfl
  rw [hmap, map_entryOf h, List.filterMap_map]
  exact congrFun List.filterMap_eq_map es

end Check

section Tampering

variable {F : Type} {fmt : Runtime F} {sha256 : Bytes → Text}

theorem sortKeys_without_eq {event event' : Fields F} {body : Bytes} (h : Proper fmt.limits (.obj event))
    (h' : Proper fmt.limits (.obj event')) (hbody : encode (canonical fmt (.obj (without eventHash event))) = some body)
    (hbody' : encode (canonical fmt (.obj (without eventHash event'))) = some body) :
    sortKeys (.obj (without eventHash event)) = sortKeys (.obj (without eventHash event')) :=
  canonical_inj (proper_without h) (proper_without h') (encode_inj hbody hbody')

theorem find_eq_of_sortKeys {fields fields' : Fields F} (h : (fields.map Prod.fst).Nodup) (h' : (fields'.map Prod.fst).Nodup)
    (hsorted : sortKeys (.obj fields) = sortKeys (.obj fields')) (key : Text) {s s' : Text}
    (hs : find key fields = some (.str s)) (hs' : find key fields' = some (.str s')) : s = s' := by
  have hfind := find_sortByKey h key
  have hobj : sortByKey (sortFields fields) = sortByKey (sortFields fields') := Value.obj.inj hsorted
  rw [hobj, find_sortByKey h' key, hs, hs'] at hfind
  simpa [sortKeys] using hfind.symm

theorem previous_eq_of_body {line line' : Bytes} {e e' : HashChain.Entry Bytes Text} (he : entryOf fmt line = some e)
    (he' : entryOf fmt line' = some e') (hbody : e.body = e'.body) : e.previous = e'.previous := by
  obtain ⟨event, hevent, hprevious, -, hbytes⟩ := entryOf_eq_some.mp he
  obtain ⟨event', hevent', hprevious', -, hbytes'⟩ := entryOf_eq_some.mp he'
  have hproper := proper_eventOf hevent
  have hproper' := proper_eventOf hevent'
  rw [hbody] at hbytes
  have hne : previousEventHash ≠ eventHash := by decide
  refine find_eq_of_sortKeys (without_nodup hproper.1) (without_nodup hproper'.1)
    (sortKeys_without_eq hproper hproper' hbytes hbytes') previousEventHash ?_ ?_
  · rw [find_without, if_neg hne, hprevious]
  · rw [find_without, if_neg hne, hprevious']

theorem sameEvent_of_body {line line' : Bytes} {e e' : HashChain.Entry Bytes Text} (he : entryOf fmt line = some e)
    (he' : entryOf fmt line' = some e') (hbody : e.body = e'.body) (hdigest : e.digest = e'.digest) :
    SameEvent fmt line line' := by
  obtain ⟨event, hevent, -, hhash, hbytes⟩ := entryOf_eq_some.mp he
  obtain ⟨event', hevent', -, hhash', hbytes'⟩ := entryOf_eq_some.mp he'
  have hproper := proper_eventOf hevent
  have hproper' := proper_eventOf hevent'
  rw [hbody] at hbytes
  rw [hdigest] at hhash
  exact ⟨event, event', hevent, hevent', sortKeys_eq_of_without hproper.1 hproper'.1 hhash hhash'
    (sortKeys_without_eq hproper hproper' hbytes hbytes')⟩

theorem forall₂_sameEvent {lines lines' : List Bytes} {es es' : List (HashChain.Entry Bytes Text)} {start start' : Text}
    (h : List.Forall₂ (fun line e => entryOf fmt line = some e) lines es)
    (h' : List.Forall₂ (fun line e => entryOf fmt line = some e) lines' es') (hvalid : HashChain.ValidFrom sha256 start es)
    (hvalid' : HashChain.ValidFrom sha256 start' es') (hbodies : es.map HashChain.Entry.body = es'.map HashChain.Entry.body) :
    List.Forall₂ (SameEvent fmt) lines lines' := by
  induction h generalizing lines' es' start start' with
  | nil =>
    cases h' with
    | nil => exact .nil
    | cons _ _ => cases hbodies
  | cons he _ ih =>
    cases h' with
    | nil => cases hbodies
    | cons he' hrest' =>
      obtain ⟨hbody, hbodies⟩ := List.cons.inj hbodies
      obtain ⟨-, hdigest, hvalid⟩ := hvalid
      obtain ⟨-, hdigest', hvalid'⟩ := hvalid'
      have hsame := sameEvent_of_body he he' hbody (by rw [hdigest, hdigest', hbody])
      exact .cons hsame (ih hrest' hvalid hvalid' hbodies)

/-- Lines that end as those of a log and pass the check too have the events of the log, unless two of the
texts that are hashed have one hash or one has the hash of the start. -/
theorem same_events_or_broken {lines lines' : List Bytes} (hcheck : check fmt sha256 lines = true)
    (hcheck' : check fmt sha256 lines' = true) (hlast : lines.getLast? = lines'.getLast?) :
    List.Forall₂ (SameEvent fmt) lines lines' ∨ HashChain.Broken sha256 zeroHash (bodies fmt lines) (bodies fmt lines') := by
  obtain ⟨es, hes, hvalid⟩ := checkFrom_iff.mp hcheck
  obtain ⟨es', hes', hvalid'⟩ := checkFrom_iff.mp hcheck'
  rw [bodies_eq hes, bodies_eq hes']
  have hprevious : ∀ e ∈ es, ∀ e' ∈ es', e.body = e'.body → e.previous = e'.previous := by
    intro e he e' he' hbody
    have hmem : some e ∈ lines.map (entryOf fmt) := by
      rw [map_entryOf hes]
      exact List.mem_map_of_mem he
    have hmem' : some e' ∈ lines'.map (entryOf fmt) := by
      rw [map_entryOf hes']
      exact List.mem_map_of_mem he'
    obtain ⟨line, -, hline⟩ := List.mem_map.mp hmem
    obtain ⟨line', -, hline'⟩ := List.mem_map.mp hmem'
    exact previous_eq_of_body hline hline' hbody
  have hends : (es.map some).getLast? = (es'.map some).getLast? := by
    rw [← map_entryOf hes, ← map_entryOf hes', List.getLast?_map, List.getLast?_map, hlast]
  have hbodies : (es.map HashChain.Entry.body).getLast? = (es'.map HashChain.Entry.body).getLast? := by
    rw [List.getLast?_map, List.getLast?_map] at hends
    rw [List.getLast?_map, List.getLast?_map, Option.map_injective (Option.some_injective _) hends]
  refine (HashChain.bodies_eq_or_broken hprevious hvalid hvalid' hbodies).imp_left ?_
  exact forall₂_sameEvent hes hes' hvalid hvalid'

end Tampering

section Chain

variable {F : Type} {fmt : Runtime F} {sha256 : Bytes → Text}

theorem terminated_line {v : Fields F} {line : Bytes} (h : encode (canonical fmt (.obj v) ++ ['\n'.toNat]) = some line) :
    Terminated line := by
  obtain ⟨body, newline, hbody, hnewline, rfl⟩ := encode_of_append h
  cases hnewline
  have hquiet : '\n'.toNat ∉ canonical fmt (.obj v) := by
    intro hmem
    exact absurd (mem_dumps fmt printable_compact _ _ hmem).1 (by decide)
  refine ⟨⟨body, rfl, newline_notMem hbody hquiet⟩, ?_⟩
  -- The first byte is the brace that opens the event.
  obtain ⟨b, rest, hb, -, rfl⟩ := encode_of_append (t := ['\x7b'.toNat]) hbody
  cases hb
  rfl

theorem eventOf_line {event : Fields F} {line : Bytes} (hproper : Proper fmt.limits (.obj event))
    (hline : encode (canonical fmt (.obj event) ++ ['\n'.toNat]) = some line) :
    eventOf fmt line = some (sortByKey (sortFields event)) :=
  eventOf_eq_some.mpr ⟨_, decode_encode hline, loads_canonical hproper (by decide)⟩

theorem entryOf_line {previous hash : Text} {record event : Fields F} {line : Bytes} (hkey : find eventHash record = none)
    (hhash : sha256Json fmt sha256 (.obj (Dict.assign previousEventHash (.str previous) record)) = .ok hash)
    (hevent : event = Dict.assign eventHash (.str hash) (Dict.assign previousEventHash (.str previous) record))
    (hproper : Proper fmt.limits (.obj event)) (hline : encode (canonical fmt (.obj event) ++ ['\n'.toNat]) = some line) :
    ∃ body, entryOf fmt line = some ⟨previous, hash, body⟩ ∧ sha256 body = hash := by
  obtain ⟨-, body, hbody, hsha⟩ := sha256Json_eq_ok.mp hhash
  refine ⟨body, entryOf_eq_some.mpr ⟨_, eventOf_line hproper hline, ?_, ?_, ?_⟩, hsha⟩
  · rw [find_sortByKey hproper.1, hevent, find_assign, if_neg (by decide), find_assign, if_pos rfl]
    rfl
  · rw [find_sortByKey hproper.1, hevent, find_assign, if_pos rfl]
    rfl
  · have hnew : find eventHash (Dict.assign previousEventHash (.str previous) record) = none := by
      rw [find_assign, if_neg (by decide), hkey]
    have hrest : without eventHash event = Dict.assign previousEventHash (.str previous) record := by
      rw [hevent, without_assign hnew]
    rw [canonical, sortKeys_without_sorted hproper.1, hrest]
    exact hbody

variable (fmt sha256)

/-- The line has the event of the record: what the record has, and two hashes. -/
def Holds (record : Fields F) (line : Bytes) : Prop :=
  ∃ event, eventOf fmt line = some event ∧
    ∀ key, key ≠ previousEventHash → key ≠ eventHash → find key event = (find key record).map sortKeys

/-- The file after the records were appended, one after the other. -/
inductive Log (path : Text) : List (Fields F) → Bytes → Prop
  | empty : Log path [] []
  | append {records : List (Fields F)} {file : Bytes} {record event : Fields F} {line : Bytes}
      (h : Log path records file) (hnext : nextEvent fmt sha256 path file record = .ok (event, line)) :
      Log path (records ++ [record]) (file ++ line)

structure Chained (records : List (Fields F)) (lines : List Bytes) (es : List (HashChain.Entry Bytes Text)) : Prop where
  terminated : ∀ line ∈ lines, Terminated line
  entries : List.Forall₂ (fun line e => entryOf fmt line = some e) lines es
  valid : HashChain.ValidFrom sha256 zeroHash es
  holds : List.Forall₂ (Holds fmt) records lines

variable {fmt sha256}

theorem Chained.previousHash {records : List (Fields F)} {lines : List Bytes} {es : List (HashChain.Entry Bytes Text)}
    (h : Chained fmt sha256 records lines es) (path : Text) :
    previousHash fmt path lines.flatten = .ok (.str (HashChain.lastDigest zeroHash es)) := by
  have hends : es.getLast?.map some = lines.getLast?.map (entryOf fmt) := by
    rw [← List.getLast?_map, ← List.getLast?_map, map_entryOf h.entries]
  rw [AuditLog.previousHash, lastLine_flatten h.terminated, HashChain.lastDigest]
  cases hline : lines.getLast? with
  | none =>
    rw [hline, Option.map_none, Option.map_eq_none_iff] at hends
    rw [hends]
    rfl
  | some line =>
    rw [hline, Option.map_some, Option.map_eq_some_iff] at hends
    obtain ⟨e, he, hentry⟩ := hends
    obtain ⟨event, hevent, -, hhash, -⟩ := entryOf_eq_some.mp hentry.symm
    obtain ⟨t, ht, hloads⟩ := eventOf_eq_some.mp hevent
    simp only [ht, hloads, hhash, he]
    rfl

theorem Chained.append {path : Text} {records : List (Fields F)} {lines : List Bytes}
    {es : List (HashChain.Entry Bytes Text)} (h : Chained fmt sha256 records lines es) {record event : Fields F} {line : Bytes}
    (hkey : find eventHash record = none) (hnext : nextEvent fmt sha256 path lines.flatten record = .ok (event, line)) :
    ∃ e, Chained fmt sha256 (records ++ [record]) (lines ++ [line]) (es ++ [e]) := by
  obtain ⟨previous, hash, hprevious, hhash, hevent, hproper, hline⟩ := nextEvent_eq_ok hnext
  rw [h.previousHash path] at hprevious
  cases hprevious
  obtain ⟨body, hentry, hsha⟩ := entryOf_line hkey hhash hevent hproper hline
  refine ⟨_, ⟨?_, List.rel_append h.entries (.cons hentry .nil), ?_, List.rel_append h.holds (.cons ?_ .nil)⟩⟩
  · intro l hl
    rcases List.mem_append.mp hl with hl | hl
    · exact h.terminated l hl
    · rw [List.mem_singleton.mp hl]
      exact terminated_line hline
  · exact HashChain.validFrom_concat.mpr ⟨h.valid, rfl, hsha.symm⟩
  · refine ⟨_, eventOf_line hproper hline, ?_⟩
    intro key hprev hhashkey
    rw [find_sortByKey hproper.1, hevent, find_assign, if_neg hhashkey, find_assign, if_neg hprev]

/-- Appending one record after the other makes a chain with a line for each of them. -/
theorem Log.chained {path : Text} {records : List (Fields F)} {file : Bytes} (h : Log fmt sha256 path records file)
    (hkeys : ∀ record ∈ records, find eventHash record = none) :
    ∃ lines es, file = lines.flatten ∧ Chained fmt sha256 records lines es := by
  induction h with
  | empty => exact ⟨[], [], rfl, by simp, .nil, trivial, .nil⟩
  | append _ hnext ih =>
    obtain ⟨lines, es, rfl, hchained⟩ := ih (fun r hr => hkeys r (List.mem_append_left _ hr))
    obtain ⟨e, hchained⟩ := hchained.append (hkeys _ (by simp)) hnext
    exact ⟨_, _, by simp, hchained⟩

theorem Log.check {path : Text} {records : List (Fields F)} {file : Bytes} (h : Log fmt sha256 path records file)
    (hkeys : ∀ record ∈ records, find eventHash record = none) :
    List.Forall₂ (Holds fmt) records (splitLines file) ∧ check fmt sha256 (splitLines file) = true := by
  obtain ⟨lines, es, rfl, hchained⟩ := h.chained hkeys
  rw [splitLines_flatten hchained.terminated]
  exact ⟨hchained.holds, checkFrom_iff.mpr ⟨es, hchained.entries, hchained.valid⟩⟩

end Chain

end ProductionStack.AuditLog
