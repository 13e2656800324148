import ProductionStack.JevDecide

namespace ProductionStack.JevDecide

open JsonText Utf8Text AuditLog Command

variable {F : Type} (host : Host F)

/-- The same run with another API key in its environment, or none. What comes of each request is what
it was: the key is one that the HTTP library takes for a header, and the answers are given. -/
def World.withKey (world : World) (key : Option Text) : World :=
  { world with env := { world.env with apiKey := key } }

/-- Two runs in which all is the same but the requests, whose headers have the key. -/
structure Alike (s s' : Run F) : Prop where
  log : s.log = s'.log
  writes : s.writes = s'.writes
  url : s.url = s'.url
  requestBody : s.requestBody = s'.requestBody
  responseBody : s.responseBody = s'.responseBody
  evidence : s.evidence = s'.evidence
  attempts : s.attempts = s'.attempts
  stdout : s.stdout = s'.stdout
  stderr : s.stderr = s'.stderr

theorem Alike.refl (s : Run F) : Alike s s := ⟨rfl, rfl, rfl, rfl, rfl, rfl, rfl, rfl, rfl⟩

variable {host} {s s' : Run F}

theorem hashes_alike (h : Alike s s') : hashes host s = hashes host s' := by
  rw [hashes, hashes, h.requestBody, h.responseBody]

theorem auditFields_alike (h : Alike s s') (world : World) (timestamp : Text) (hs : Hashes F) (error : Option Text) :
    auditFields world timestamp s hs error = auditFields world timestamp s' hs error := by
  rw [auditFields, auditFields, h.url, h.requestBody, h.responseBody, h.evidence, h.attempts]

section Wire

variable {wire wire' : Wire}

theorem tryOnce_agree (upstream : Nat → Attempt) (request request' : HttpRequest) (last : Bool) (retryIndex : Nat) :
    AgreeAt (fun _ _ => True) (tryOnce host upstream request last retryIndex)
      (tryOnce host upstream request' last retryIndex) wire wire' := by
  refine agreeAt_bind (agreeAt_modify trivial) (fun _ _ _ _ => ?_)
  cases upstream retryIndex with
  | response raw => exact agreeAt_ofExcept trivial _
  | httpError code detail =>
    refine agreeAt_bind (agreeAt_ofExcept trivial _) (fun detail _ _ _ => ?_)
    split
    · exact agreeAt_fail trivial _
    · exact agreeAt_pure trivial _
  | failed reason =>
    dsimp only
    split
    · exact agreeAt_fail trivial _
    · exact agreeAt_pure trivial _
  | raised e => exact agreeAt_fail trivial _

theorem retryLoop_agree (upstream : Nat → Attempt) (request request' : HttpRequest) (backoff : F) (remaining retryIndex : Nat) :
    AgreeAt (fun _ _ => True) (retryLoop host upstream request backoff remaining retryIndex)
      (retryLoop host upstream request' backoff remaining retryIndex) wire wire' := by
  induction remaining generalizing retryIndex wire wire' with
  | zero =>
    refine agreeAt_bind (tryOnce_agree upstream request request' true retryIndex) (fun found _ _ _ => ?_)
    cases found with
    | some found => exact agreeAt_pure trivial _
    | none => exact agreeAt_bind (agreeAt_modify trivial) (fun _ _ _ _ => agreeAt_fail trivial _)
  | succ remaining ih =>
    refine agreeAt_bind (tryOnce_agree upstream request request' false retryIndex) (fun found _ _ _ => ?_)
    cases found with
    | some found => exact agreeAt_pure trivial _
    | none => exact agreeAt_bind (agreeAt_modify trivial) (fun _ _ _ _ => ih (retryIndex + 1))

theorem requestJson_agree (env : Env) (key : Option Text) (upstream : Nat → Attempt) (url method : Text)
    (body : Option (Fields F)) :
    AgreeAt (fun _ _ => True) (requestJson host env upstream url method body)
      (requestJson host { env with apiKey := key } upstream url method body) wire wire' := by
  refine agreeAt_bind (agreeAt_ofExcept trivial _) (fun _ _ _ _ => ?_)
  refine agreeAt_bind (agreeAt_ofExcept trivial _) (fun retries _ _ _ => ?_)
  refine agreeAt_bind (agreeAt_ofExcept trivial _) (fun backoff _ _ _ => ?_)
  refine agreeAt_bind (agreeAt_ofExcept trivial _) (fun data _ _ _ => ?_)
  exact retryLoop_agree upstream _ _ backoff retries.toNat 0

end Wire

section Runs

variable (world : World) (key : Option Text)

theorem request_agree (h : Alike s s') (url method : Text) (body : Option (Fields F)) :
    AgreeAt Alike (request host world url method body) (request host (world.withKey key) url method body) s s' := by
  have hurl : Alike { s with url := some url } { s' with url := some url } := { h with url := rfl }
  refine agreeAt_bind (agreeAt_modify hurl) (fun _ t t' h => ?_)
  refine agreeAt_bind (agreeAt_focus (requestJson_agree world.env key world.upstream url method body) ?_) ?_
  · exact fun _ _ _ => { h with }
  · rintro ⟨response, attempts⟩ t t' h
    exact agreeAt_modify { h with responseBody := rfl, attempts := rfl }

theorem addEvidence_withKey (names : List Text) (evidence : List (Fields F)) :
    addEvidence host (world.withKey key) names evidence = addEvidence host world names evidence := by
  induction names generalizing evidence with
  | nil => rfl
  | cons name names ih =>
    rw [addEvidence, addEvidence]
    simp only [ih]
    rfl

theorem buildBody_withKey : buildBody host (world.withKey key) = buildBody host world := by
  rw [buildBody, buildBody]
  simp only [addEvidence_withKey]
  rfl

theorem perform_agree (h : Alike s s') : AgreeAt Alike (perform host world) (perform host (world.withKey key)) s s' := by
  unfold perform
  change AgreeAt Alike _ (if world.args.info then _ else _) s s'
  split
  · change AgreeAt Alike _ (if hasDecisionInputs world.args then _ else _) s s'
    split
    · exact agreeAt_fail h _
    · exact agreeAt_bind (agreeAt_ofExcept h _) (fun url _ _ h => request_agree world key h url _ none)
  · rw [buildBody_withKey]
    refine agreeAt_bind (agreeAt_ofExcept h _) ?_
    rintro ⟨body, evidence⟩ t t' h
    refine agreeAt_bind (agreeAt_modify { h with requestBody := rfl, evidence := rfl }) (fun _ _ _ h => ?_)
    exact agreeAt_bind (agreeAt_ofExcept h _) (fun url _ _ h => request_agree world key h url _ (some body))

theorem appendLine_agree (h : Alike s s') (disk : Disk) (path : Text) (record : Fields F) :
    AgreeAt Alike (appendLine host disk path record) (appendLine host disk path record) s s' := by
  refine agreeAt_bind (agreeAt_ofExcept h _) (fun _ _ _ h => agreeAt_bind (agreeAt_ofExcept h _) (fun _ t t' h => ?_))
  refine agreeAt_state_bind ?_
  rw [h.log]
  refine agreeAt_bind (agreeAt_ofExcept h _) ?_
  rintro ⟨event, line⟩ t t' h
  refine agreeAt_bind (agreeAt_ofExcept h _) (fun _ t t' h => ?_)
  refine agreeAt_bind (agreeAt_modify ?_) (fun _ _ _ h => ?_)
  · exact { h with log := congrArg (· ++ _) h.log, writes := congrArg (· ++ _) h.writes }
  · exact agreeAt_bind (agreeAt_ofExcept h _) (fun _ _ _ h => agreeAt_pure h _)

theorem appendAudit_agree (h : Alike s s') (disk : Disk) (record : Fields F) :
    AgreeAt Alike (appendAudit host disk record) (appendAudit host disk record) s s' := by
  refine agreeAt_bind (agreeAt_ofExcept h _) (fun path t t' h => agreeAt_mapError ?_ _)
  refine agreeAt_bind (agreeAt_ofExcept h _) (fun _ t t' h => agreeAt_bind ?_ (fun _ _ _ h => agreeAt_pure h _))
  refine agreeAt_bind (agreeAt_attempt (appendLine_agree h disk path record)) (fun ended t t' h => ?_)
  exact agreeAt_bind (agreeAt_ofExcept h _) (fun _ _ _ h => agreeAt_ofExcept h ended)

theorem tryMain_agree (h : Alike s s') : AgreeAt Alike (tryMain host world) (tryMain host (world.withKey key)) s s' := by
  refine agreeAt_bind (perform_agree world key h) (fun _ t t' h => agreeAt_state_bind ?_)
  rw [hashes_alike h]
  refine agreeAt_bind (agreeAt_ofExcept h _) (fun hs u u' hu => ?_)
  have hrecord : auditFields (world.withKey key) (world.withKey key).timestamp t' hs none =
      auditFields world world.timestamp t hs none := (auditFields_alike h world world.timestamp hs none).symm
  rw [hrecord, ← h.attempts, ← h.responseBody]
  refine agreeAt_bind (appendAudit_agree hu _ _) ?_
  rintro ⟨path, event⟩ v v' hv
  exact agreeAt_bind (agreeAt_ofExcept hv _) (fun _ _ _ hv => agreeAt_modify { hv with stdout := rfl })

theorem handleError_agree (h : Alike s s') (message : Text) (attempts : Nat) :
    AgreeAt Alike (handleError host world message attempts) (handleError host (world.withKey key) message attempts) s s' := by
  have hattempts : Alike { s with attempts := max s.attempts attempts } { s' with attempts := max s'.attempts attempts } :=
    { h with attempts := congrArg (max · attempts) h.attempts }
  refine agreeAt_bind (agreeAt_modify hattempts) (fun _ t t' h => agreeAt_state_bind ?_)
  rw [hashes_alike h]
  refine agreeAt_bind (agreeAt_ofExcept h _) (fun hs u u' hu => ?_)
  have hrecord : auditFields (world.withKey key) (world.withKey key).handlerTimestamp t' hs (some message) =
      auditFields world world.handlerTimestamp t hs (some message) :=
    (auditFields_alike h world world.handlerTimestamp hs (some message)).symm
  rw [hrecord]
  refine agreeAt_bind (agreeAt_attempt (appendAudit_agree hu _ _)) (fun appended v v' hv => ?_)
  refine agreeAt_bind (agreeAt_ofExcept hv _) ?_
  rintro ⟨path, message⟩ w w' hw
  rw [← h.attempts]
  exact agreeAt_bind (agreeAt_ofExcept hw _) (fun _ _ _ hw => agreeAt_modify { hw with stderr := rfl })

theorem main_agree (h : Alike s s') : AgreeAt Alike (main host world) (main host (world.withKey key)) s s' := by
  refine agreeAt_bind (agreeAt_attempt (tryMain_agree world key h)) (fun ended t t' h => ?_)
  cases ended with
  | ok _ => exact agreeAt_pure h 0
  | error e =>
    cases e with
    | clientError message attempts =>
      exact agreeAt_bind (handleError_agree world key h message attempts) (fun _ _ _ h => agreeAt_pure h 2)
    | osError message =>
      exact agreeAt_bind (handleError_agree world key h message 0) (fun _ _ _ h => agreeAt_pure h 2)
    | _ => exact agreeAt_fail h _

end Runs

/-- Two runs that differ in the API key alone end in the same way, with the same log and the same output. -/
theorem api_key_not_recorded (host : Host F) (world : World) (key key' : Option Text) (log : Bytes) :
    let run := main host (world.withKey key) { log := log }
    let run' := main host (world.withKey key') { log := log }
    run.1 = run'.1 ∧ run.2.log = run'.2.log ∧ run.2.stdout = run'.2.stdout ∧ run.2.stderr = run'.2.stderr := by
  have hagree : AgreeAt Alike (main host (world.withKey key)) (main host (world.withKey key')) { log := log } { log := log } :=
    main_agree (world.withKey key) key' (Alike.refl _)
  obtain ⟨hresult, halike⟩ := hagree
  exact ⟨hresult, halike.log, halike.stdout, halike.stderr⟩

end ProductionStack.JevDecide
