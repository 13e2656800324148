import ProductionStack.AuditLogDamage

namespace ProductionStack.JevDecide

open JsonText Utf8Text AuditLog Command

variable {F : Type} (host : Host F)

inductive Outcome
  | body (raw : Bytes)
  | httpError (code : Nat) (detail : Text)
  | connectionError (reason : Text)

namespace Outcome

def toAttempt : Outcome → Attempt
  | body raw => .response raw
  | httpError code detail => .httpError code (.ok detail)
  | connectionError reason => .failed reason

def retryable : Outcome → Bool
  | body _ => false
  | httpError code _ => code ∈ retryableHttpStatuses
  | connectionError _ => true

/-- A body whose text is JSON and says an object, whatever room it takes to read it. -/
def IsJsonObject (o : Outcome) : Prop :=
  ∃ raw t limits fields, o = body raw ∧ host.decodeDetected raw = some t ∧ loadsWithin host.fmt limits t = .ok (.obj fields)

/-- A body with an integer or a nesting that is too much for json.loads. -/
def IsBeyond (o : Outcome) : Prop := ∃ raw t, o = body raw ∧ host.decodeDetected raw = some t ∧ Beyond host t

theorem retried_toAttempt {o : Outcome} : Retried o.toAttempt ↔ o.retryable = true := by
  cases o with
  | body raw => exact iff_of_false id Bool.false_ne_true
  | httpError code detail => exact ⟨fun h => decide_eq_true h, of_decide_eq_true⟩
  | connectionError reason => exact iff_of_true trivial rfl

end Outcome

/-- The place, counted from one, of the first outcome that is no reason to try again. -/
structure FirstFinal (outcomes : Nat → Outcome) (k : Nat) : Prop where
  positive : 0 < k
  final : (outcomes (k - 1)).retryable = false
  before : ∀ i, i + 1 < k → (outcomes i).retryable = true

/-- A loop that has made `n` more requests from the index it stood at: it went on after each outcome but the last, and it
ends with that one. -/
structure Ended (outcomes : Nat → Outcome) (request : HttpRequest) (backoff : F) (remaining retryIndex n : Nat)
    (before after : Wire) (result : Except Raised (Fields F × Nat)) : Prop where
  positive : 0 < n
  bounded : n ≤ remaining + 1
  retried : ∀ i, i + 1 < n → (outcomes (retryIndex + i)).retryable = true
  stopped : n = remaining + 1 ∨ (outcomes (retryIndex + n - 1)).retryable = false
  sent : after.sent = before.sent ++ List.replicate n request
  slept : after.slept = before.slept ++
    if host.nonzero backoff then (List.range (n - 1)).map (fun i => min (host.seconds backoff * 2 ^ (retryIndex + i)) 10)
    else []
  result_eq : result = conclude host (outcomes (retryIndex + n - 1)).toAttempt (retryIndex + n)

variable {host}

section Loop

variable {outcomes : Nat → Outcome} {request : HttpRequest} {backoff : F} {retryIndex : Nat} {wire : Wire}

theorem Ended.once {remaining : Nat} (h : remaining = 0 ∨ (outcomes retryIndex).retryable = false) :
    Ended host outcomes request backoff remaining retryIndex 1 wire { wire with sent := wire.sent ++ [request] }
      (conclude host (outcomes retryIndex).toAttempt (retryIndex + 1)) where
  positive := Nat.one_pos
  bounded := by omega
  retried := fun i hi => by omega
  stopped := h.imp (fun hzero => by omega) (fun hfinal => hfinal)
  sent := rfl
  slept := by simp
  result_eq := rfl

theorem Ended.retry {remaining n : Nat} {after : Wire} {result : Except Raised (Fields F × Nat)}
    (hretryable : (outcomes retryIndex).retryable = true)
    (h : Ended host outcomes request backoff remaining (retryIndex + 1) n
      (pause host backoff retryIndex { wire with sent := wire.sent ++ [request] }).2 after result) :
    Ended host outcomes request backoff (remaining + 1) retryIndex (n + 1) wire after result where
  positive := Nat.succ_pos n
  bounded := Nat.succ_le_succ h.bounded
  retried := by
    intro i hi
    cases i with
    | zero => exact hretryable
    | succ i =>
      have hrest := h.retried i (by omega)
      rwa [Nat.add_right_comm] at hrest
  stopped := by
    have hindex : retryIndex + 1 + n - 1 = retryIndex + (n + 1) - 1 := by omega
    rw [← hindex]
    exact h.stopped.imp_left (congrArg (· + 1))
  sent := by
    rw [h.sent, List.replicate_succ]
    unfold pause Command.modify
    split <;> simp
  slept := by
    obtain ⟨m, rfl⟩ : ∃ m, n = m + 1 := ⟨n - 1, by have := h.positive; omega⟩
    rw [h.slept]
    unfold pause Command.modify
    split
    · simp [List.range_succ_eq_map, Nat.add_assoc, Nat.add_comm 1]
    · rfl
  result_eq := by
    have hindex : retryIndex + 1 + n - 1 = retryIndex + (n + 1) - 1 := by omega
    rw [h.result_eq, hindex, Nat.add_assoc, Nat.add_comm 1]

variable (host outcomes request backoff) in
/-- By induction on the attempts that are left: either this is the last one, or it is put before those of the rest. -/
theorem retryLoop_ended (remaining retryIndex : Nat) (wire : Wire) :
    ∃ n, Ended host outcomes request backoff remaining retryIndex n wire
      (retryLoop host (fun n => (outcomes n).toAttempt) request backoff remaining retryIndex wire).2
      (retryLoop host (fun n => (outcomes n).toAttempt) request backoff remaining retryIndex wire).1 := by
  induction remaining generalizing retryIndex wire with
  | zero =>
    rw [retryLoop_conclude (.inl rfl)]
    exact ⟨1, Ended.once (.inl rfl)⟩
  | succ remaining ih =>
    cases hretryable : (outcomes retryIndex).retryable with
    | false =>
      have hfinal : ¬Retried (outcomes retryIndex).toAttempt := by simp [Outcome.retried_toAttempt, hretryable]
      rw [retryLoop_conclude (.inr hfinal)]
      exact ⟨1, Ended.once (.inr hretryable)⟩
    | true =>
      rw [retryLoop_retry (Outcome.retried_toAttempt.mpr hretryable)]
      obtain ⟨n, hn⟩ := ih (retryIndex + 1) (pause host backoff retryIndex { wire with sent := wire.sent ++ [request] }).2
      exact ⟨n + 1, hn.retry hretryable⟩

end Loop

section Counts

variable {outcomes : Nat → Outcome} {request : HttpRequest} {backoff : F} {remaining n : Nat} {wire : Wire}
  {result : Except Raised (Fields F × Nat)}

theorem readResponse_ok_iff {raw : Bytes} {attempts : Nat} {found : Fields F × Nat} :
    readResponse host raw attempts = .ok found ↔
      found.2 = attempts ∧ ∃ t, host.decodeDetected raw = some t ∧ loads host.fmt t = .ok (.obj found.1) := by
  obtain ⟨fields, m⟩ := found
  cases hdecode : host.decodeDetected raw with
  | none => simp [readResponse, hdecode]
  | some t =>
    cases hloads : loads host.fmt t with
    | error e => cases e <;> simp [readResponse, hdecode, hloads]
    | ok v => cases v <;> simp [readResponse, hdecode, hloads, eq_comm, and_comm]

theorem Outcome.conclude_ok_iff {o : Outcome} {attempts : Nat} :
    (∃ found, conclude host o.toAttempt attempts = .ok found) ↔ o.IsJsonObject host ∧ ¬o.IsBeyond host := by
  cases o with
  | body raw =>
    constructor
    · rintro ⟨found, hfound⟩
      obtain ⟨-, t, ht, hloads⟩ := readResponse_ok_iff.mp hfound
      refine ⟨⟨raw, t, host.fmt.limits, found.1, rfl, ht, hloads⟩, ?_⟩
      rintro ⟨_, t', ⟨⟩, ht', hbeyond⟩
      obtain rfl : t = t' := Option.some.inj (ht.symm.trans ht')
      simp [Beyond, hloads] at hbeyond
    · rintro ⟨⟨_, t, limits, fields, ⟨⟩, ht, hloads⟩, hwithin⟩
      have hread : loads host.fmt t = .ok (.obj fields) :=
        (loads_limited hloads).resolve_right (fun hbeyond => hwithin ⟨raw, t, rfl, ht, hbeyond⟩)
      exact ⟨(fields, attempts), readResponse_ok_iff.mpr ⟨rfl, t, ht, hread⟩⟩
  | httpError code detail =>
    constructor
    · rintro ⟨_, ⟨⟩⟩
    · rintro ⟨⟨_, _, _, _, ⟨⟩, _⟩, _⟩
  | connectionError reason =>
    constructor
    · rintro ⟨_, ⟨⟩⟩
    · rintro ⟨⟨_, _, _, _, ⟨⟩, _⟩, _⟩

variable (host) in
theorem Outcome.conclude_meets (o : Outcome) (attempts : Nat) :
    Meets (conclude host o.toAttempt attempts) (fun found => found.2 = attempts)
      (fun e => e ≠ .assertionError ∧ ∀ message m, e = .clientError message m → m = attempts) := by
  cases o with
  | body raw =>
    show Meets (readResponse host raw attempts) _ _
    unfold readResponse
    split
    · exact ⟨by simp, by simp⟩
    · split <;> simp [Meets, eq_comm]
  | httpError code detail => exact ⟨by simp, by simp [eq_comm]⟩
  | connectionError reason => exact ⟨by simp, by simp [eq_comm]⟩

theorem Ended.count_eq (h : Ended host outcomes request backoff remaining 0 n {} wire result) {k : Nat}
    (hk : FirstFinal outcomes k) : n = min k (remaining + 1) := by
  have hpositive := h.positive
  have hbounded := h.bounded
  have hle : n ≤ k := by
    by_contra hlt
    have hretried := h.retried (k - 1) (by have := hk.positive; omega)
    rw [Nat.zero_add, hk.final] at hretried
    cases hretried
  rcases h.stopped with hlast | hfinal
  · omega
  · have hge : k ≤ n := by
      by_contra hlt
      have hbefore := hk.before (n - 1) (by omega)
      rw [Nat.zero_add, hbefore] at hfinal
      cases hfinal
    omega

theorem Ended.count_of_retryable (h : Ended host outcomes request backoff remaining 0 n {} wire result)
    (hall : ∀ i, (outcomes i).retryable = true) : n = remaining + 1 := by
  refine h.stopped.resolve_right (fun hfinal => ?_)
  rw [hall] at hfinal
  cases hfinal

end Counts

variable (host) in
structure Configured (env : Env) (body : Option (Fields F)) (retries : Nat) (backoff : F) : Prop
    extends Settings host env retries backoff where
  data : ∃ data, requestData host body = .ok data

variable (host) in
/-- What a call has sent, waited and returned, over the outcomes of its requests. -/
structure Counted (outcomes : Nat → Outcome) (retries : Nat) (backoff : F) (wire : Wire)
    (result : Except Raised (Fields F × Nat)) : Prop where
  sent : ∀ k, FirstFinal outcomes k → wire.sent.length = min k (retries + 1)
  sent_of_retryable : (∀ i, (outcomes i).retryable = true) → wire.sent.length = retries + 1
  attempts : ∀ fields m, result = .ok (fields, m) → m = wire.sent.length
  attempts_of_error : ∀ message m, result = .error (.clientError message m) → m = wire.sent.length
  sleeps : host.nonzero backoff = true → wire.slept.length + 1 = wire.sent.length
  sleep_le : ∀ wait ∈ wire.slept, wait ≤ 10
  not_assertionError : result ≠ .error .assertionError

theorem Ended.result {outcomes : Nat → Outcome} {request : HttpRequest} {backoff : F} {retries n : Nat} {wire : Wire}
    {result : Except Raised (Fields F × Nat)} (h : Ended host outcomes request backoff retries 0 n {} wire result) :
    result = conclude host (outcomes (n - 1)).toAttempt n := by
  have heq := h.result_eq
  rwa [Nat.zero_add] at heq

theorem Ended.counted {outcomes : Nat → Outcome} {request : HttpRequest} {backoff : F} {retries n : Nat} {wire : Wire}
    {result : Except Raised (Fields F × Nat)} (h : Ended host outcomes request backoff retries 0 n {} wire result) :
    Counted host outcomes retries backoff wire result := by
  have hsent : wire.sent.length = n := by simp [h.sent]
  have hresult := h.result
  have hmeets := (outcomes (n - 1)).conclude_meets host n
  refine ⟨?_, ?_, ?_, ?_, ?_, ?_, ?_⟩
  · intro k hk
    rw [hsent, h.count_eq hk]
  · intro hall
    rw [hsent, h.count_of_retryable hall]
  · rintro fields m hok
    rw [hresult] at hok
    rw [hok] at hmeets
    rw [hsent]
    exact hmeets
  · rintro message m herror
    rw [hresult] at herror
    rw [herror] at hmeets
    rw [hsent]
    exact hmeets.2 message m rfl
  · intro hnonzero
    have hpositive := h.positive
    rw [hsent, h.slept, if_pos hnonzero]
    simp
    omega
  · intro wait hwait
    rw [h.slept] at hwait
    split at hwait
    · obtain ⟨i, -, rfl⟩ := List.mem_map.mp hwait
      exact min_le_right _ _
    · cases hwait
  · intro herror
    rw [hresult] at herror
    rw [herror] at hmeets
    exact hmeets.1 rfl

theorem requestJson_eq_retryLoop {env : Env} {body : Option (Fields F)} {retries : Nat} {backoff : F}
    (h : Configured host env body retries backoff) (upstream : Nat → Attempt) (url method : Text) :
    ∃ request, requestJson host env upstream url method body = retryLoop host upstream request backoff retries 0 := by
  obtain ⟨timeout, htimeout⟩ := h.timeout
  obtain ⟨data, hdata⟩ := h.data
  let headers := requestHeaders env ++ if body.isSome then [(text "Content-Type", text "application/json")] else []
  refine ⟨⟨url, method, headers, data⟩, ?_⟩
  rw [requestJson, htimeout, h.maxRetries, h.backoff, hdata]
  rfl

theorem requestJson_ended {env : Env} {body : Option (Fields F)} {retries : Nat} {backoff : F}
    (h : Configured host env body retries backoff) (outcomes : Nat → Outcome) (url method : Text) :
    ∃ request n, Ended host outcomes request backoff retries 0 n {}
      (requestJson host env (fun n => (outcomes n).toAttempt) url method body {}).2
      (requestJson host env (fun n => (outcomes n).toAttempt) url method body {}).1 := by
  obtain ⟨request, hrequest⟩ := requestJson_eq_retryLoop h (fun n => (outcomes n).toAttempt) url method
  rw [hrequest]
  exact ⟨request, retryLoop_ended host outcomes request backoff retries 0 {}⟩

variable (host) in
def Succeeds (outcomes : Nat → Outcome) (wire : Wire) (result : Except Raised (Fields F × Nat)) : Prop :=
  (∃ found, result = .ok found) ↔ (outcomes (wire.sent.length - 1)).IsJsonObject host

theorem Ended.succeeds_iff {outcomes : Nat → Outcome} {request : HttpRequest} {backoff : F} {retries n : Nat} {wire : Wire}
    {result : Except Raised (Fields F × Nat)} (h : Ended host outcomes request backoff retries 0 n {} wire result) :
    Succeeds host outcomes wire result ↔ ((outcomes (wire.sent.length - 1)).IsJsonObject host →
      ¬(outcomes (wire.sent.length - 1)).IsBeyond host) := by
  have hsent : wire.sent.length = n := by simp [h.sent]
  rw [Succeeds, h.result, hsent, Outcome.conclude_ok_iff, and_iff_left_iff_imp]

section Examples

def waitingHost : Host Unit := { demoHost with nonzero := fun _ => true, seconds := fun _ => 1 }

theorem demo_configured : Configured waitingHost {} none 2 () := ⟨⟨⟨(), rfl⟩, rfl, rfl⟩, ⟨none, rfl⟩⟩

def demoCall (outcomes : Nat → Outcome) : Except Raised (Fields Unit × Nat) × Wire :=
  requestJson waitingHost {} (fun n => (outcomes n).toAttempt) (text "h") (text "GET") none {}

def objectBody (fields : Fields Unit) : Outcome := .body ((encode (dumps compact unitFloats.floatstr (.obj fields))).getD [])

theorem decode_objectBody {fields : Fields Unit} (h : Clean (.obj fields)) :
    decode ((encode (dumps compact unitFloats.floatstr (.obj fields))).getD []) =
      some (dumps compact unitFloats.floatstr (.obj fields)) := by
  have hscalar : Scalar (dumps compact unitFloats.floatstr (.obj fields)) := by
    intro c hc
    rcases (mem_dumps unitFloats printable_compact _ c hc).2 with hascii | ⟨-, hspelt⟩
    · simp [scalar]
      omega
    · exact h c hspelt
  obtain ⟨bytes, hbytes⟩ := encode_of_scalar hscalar
  rw [hbytes]
  exact decode_encode hbytes

theorem objectBody_isJsonObject {fields : Fields Unit} {limits : Limits} (h : Sound limits (.obj fields)) :
    (objectBody fields).IsJsonObject waitingHost := by
  have hread := loadsWithin_dumps unitFloats h.proper (List.forall_mem_nil (fun c => isSpace c = true))
  rw [List.append_nil] at hread
  exact ⟨_, _, limits, fields, rfl, decode_objectBody h.clean, hread⟩

def demoOutcomes : Nat → Outcome
  | 0 => .httpError 503 []
  | _ => objectBody []

theorem demo_firstFinal : FirstFinal demoOutcomes 2 where
  positive := by decide
  final := rfl
  before := by
    intro i hi
    obtain rfl : i = 0 := by omega
    rfl

theorem sound_empty : Sound waitingHost.fmt.limits (.obj [] : Value Unit) :=
  ⟨⟨List.nodup_nil, by decide, trivial⟩, clean_obj.mpr nofun⟩

theorem demoOutcomes_within : ¬(demoOutcomes 1).IsBeyond waitingHost := by
  rintro ⟨_, t, ⟨⟩, ht, hbeyond⟩
  have hdecode := decode_objectBody sound_empty.clean
  obtain rfl : _ = t := Option.some.inj (hdecode.symm.trans ht)
  have hread := loadsWithin_dumps waitingHost.fmt sound_empty.proper (List.forall_mem_nil (fun c => isSpace c = true))
  rw [List.append_nil] at hread
  rcases hbeyond with hbeyond | hbeyond
  · cases hread.symm.trans hbeyond
  · cases hread.symm.trans hbeyond

/-- An object with an integer of 4301 digits, and one in which 1001 brackets are open at once. -/
def tenTo (n : Nat) : Nat := 10 ^ n

def longFields : Fields Unit := [(text "n", .int (tenTo 4300))]

def nested : Nat → Value Unit
  | 0 => .arr []
  | n + 1 => .arr [nested n]

def deepFields : Fields Unit := [(text "n", nested 999)]

theorem proper_nested (digits n : Nat) : Proper ⟨digits, n + 1⟩ (nested n) ∧ ¬Proper ⟨digits, n⟩ (nested n) := by
  induction n with
  | zero => exact ⟨⟨Nat.one_ne_zero, trivial⟩, fun h => h.1 rfl⟩
  | succ n ih => exact ⟨⟨Nat.succ_ne_zero _, ih.1, trivial⟩, fun h => ih.2 h.2.1⟩

theorem clean_nested (n : Nat) : Clean (nested n) := by
  induction n with
  | zero =>
    rintro c ⟨⟩
    contradiction
  | succ n ih =>
    intro c hc
    cases hc with
    | item hmem h => exact ih c (List.mem_singleton.mp hmem ▸ h)

theorem length_tenTo (n : Nat) {k : Nat} (hk : 0 < k) : (decimal (tenTo n)).length ≤ k ↔ n < k := by
  rw [decimal, List.length_map, Nat.length_toDigits_le_iff (by decide) hk]
  exact Nat.pow_lt_pow_iff_right (by decide)

theorem longFields_sound : Sound ⟨4301, 1⟩ (.obj longFields) ∧ ¬Proper waitingHost.fmt.limits (.obj longFields) := by
  refine ⟨⟨⟨by decide, by decide, ?_, trivial⟩, ?_⟩, ?_⟩
  · exact (length_tenTo 4300 (by decide)).mpr (by decide)
  · refine clean_obj.mpr (List.forall_mem_singleton.mpr ⟨by decide, ?_⟩)
    rintro c ⟨⟩
  · rintro ⟨-, -, hlong, -⟩
    exact Nat.lt_irrefl _ ((length_tenTo 4300 (by decide)).mp hlong)

theorem deepFields_sound : Sound ⟨0, 1001⟩ (.obj deepFields) ∧ ¬Proper waitingHost.fmt.limits (.obj deepFields) := by
  refine ⟨⟨⟨by decide, by decide, (proper_nested 0 999).1, trivial⟩, ?_⟩, ?_⟩
  · exact clean_obj.mpr (List.forall_mem_singleton.mpr ⟨by decide, clean_nested 999⟩)
  · rintro ⟨-, -, hdeep, -⟩
    exact (proper_nested 4300 999).2 hdeep

theorem not_succeeds_of_beyond {fields : Fields Unit} {limits : Limits} (h : Sound limits (.obj fields))
    (hbeyond : ¬Proper waitingHost.fmt.limits (.obj fields)) :
    ¬Succeeds waitingHost (fun _ => objectBody fields) (demoCall (fun _ => objectBody fields)).2
      (demoCall (fun _ => objectBody fields)).1 := by
  obtain ⟨request, n, hended⟩ := requestJson_ended demo_configured (fun _ => objectBody fields) (text "h") (text "GET")
  refine hended.succeeds_iff.not.mpr (fun hwithin => hwithin (objectBody_isJsonObject h) ?_)
  exact ⟨_, _, rfl, decode_objectBody h.clean, loads_dumps_beyond h.proper hbeyond⟩

end Examples

end ProductionStack.JevDecide
