import ProductionStack.AuditLogDamage

namespace ProductionStack.JevDecide

open JsonText Utf8Text AuditLog

section Performing

variable {F : Type} (host : Host F) (world : World)

/-- main comes to ask the upstream, without a body or with that of a decision. -/
def Asks : Option (Fields F) → Prop
  | none => world.args.info = true ∧ hasDecisionInputs world.args = false
  | some body => world.args.info = false ∧ ∃ evidence, buildBody host world = .ok (body, evidence)

/-- The endpoint and the requests to it raise nothing but what main catches. -/
structure AskTame (body : Option (Fields F)) : Prop where
  url : world.env.baseUrl.getD [] ≠ [] → Contained (host.urlsplit (world.env.baseUrl.getD []))
  request : ∀ url, endpoint host (world.env.baseUrl.getD []) world.args.info = .ok url →
    RequestTame host world.upstream world.env body

/-- The work of a run does not, each part of it where the run comes to it. -/
structure PerformTame : Prop where
  body : world.args.info = false → BodyTame host world
  ask : ∀ body, Asks host world body → AskTame host world body

def ask (method : Text) (body : Option (Fields F)) : Command (Run F) Raised Unit := do
  let url ← Command.ofExcept (endpoint host (world.env.baseUrl.getD []) world.args.info)
  request host world url method body

variable {host world}

theorem request_contained {url method : Text} {body : Option (Fields F)} {s : Run F} :
    Contained (request host world url method body s).1 ↔ RequestTame host world.upstream world.env body := by
  have hrequest : Contained (requestJson host world.env world.upstream url method body s.wire).1 ↔ _ := requestJson_contained
  rw [← hrequest]
  simp only [request, Command.bind_apply, Command.modify, onWire, Command.focus]
  cases (requestJson host world.env world.upstream url method body s.wire).1 with
  | error e => exact Iff.rfl
  | ok found => exact Iff.rfl

theorem ask_contained {method : Text} {body : Option (Fields F)} {s : Run F} :
    Contained (ask host world method body s).1 ↔ AskTame host world body := by
  rw [ask, contained_ofExcept_bind, endpoint_contained]
  simp only [request_contained]
  exact ⟨fun h => ⟨h.1, h.2⟩, fun h => ⟨h.url, h.request⟩⟩

variable (host world) in
theorem perform_cases (s : Run F) :
    (∃ e, perform host world s = (.error e, s) ∧ (∀ body, ¬Asks host world body) ∧
      (Contained (.error e : Except Raised Unit) ↔ (world.args.info = false → BodyTame host world))) ∨
    ∃ method body t, perform host world s = ask host world method body t ∧ t.log = s.log ∧ t.writes = s.writes ∧
      (∀ body', Asks host world body' ↔ body' = body) ∧ (world.args.info = false → BodyTame host world) := by
  cases hinfo : world.args.info with
  | true =>
    cases hinputs : hasDecisionInputs world.args with
    | true =>
      refine .inl ⟨_, by rw [perform, hinfo, hinputs]; rfl, ?_, iff_of_true (contained_clientError _ _) (by simp)⟩
      intro body hasks
      cases body <;> simp [Asks, hinfo, hinputs] at hasks
    | false =>
      refine .inr ⟨text "GET", none, s, by rw [perform, ask, hinfo, hinputs]; rfl, rfl, rfl, ?_, by simp⟩
      intro body
      cases body <;> simp [Asks, hinfo, hinputs]
  | false =>
    have hbody : Contained (buildBody host world) ↔ BodyTame host world := buildBody_contained
    cases hbuilt : buildBody host world with
    | error e =>
      rw [hbuilt] at hbody
      refine .inl ⟨e, by rw [perform, hinfo, hbuilt]; rfl, ?_, hbody.trans (by simp)⟩
      intro body hasks
      cases body <;> simp [Asks, hinfo, hbuilt] at hasks
    | ok built =>
      obtain ⟨fields, evidence⟩ := built
      rw [hbuilt] at hbody
      refine .inr ⟨text "POST", some fields, { s with requestBody := some fields, evidence := evidence }, ?_, rfl, rfl, ?_,
        fun _ => hbody.mp trivial⟩
      · rw [perform, ask, hinfo, hbuilt]
        rfl
      · intro body
        cases body with
        | none => simp [Asks, hinfo]
        | some body => simpa [Asks, hinfo, hbuilt] using eq_comm

theorem perform_contained {s : Run F} : Contained (perform host world s).1 ↔ PerformTame host world := by
  rcases perform_cases host world s with ⟨e, hrun, hnot, hbody⟩ | ⟨method, body, t, hrun, -, -, hasks, hbody⟩
  · rw [hrun]
    refine hbody.trans ⟨fun h => ⟨h, fun body hasked => absurd hasked (hnot body)⟩, fun h => h.body⟩
  · rw [hrun, ask_contained]
    refine ⟨fun h => ⟨hbody, fun body' hasked => (hasks body').mp hasked ▸ h⟩, fun h => h.ask body ((hasks body).mpr rfl)⟩

/-- What the work of a run leaves alone. -/
structure Kept (s s' : Run F) : Prop where
  log : s'.log = s.log
  writes : s'.writes = s.writes

variable (host world) in
theorem ask_keeps (method : Text) (body : Option (Fields F)) (s : Run F) : Kept s (ask host world method body s).2 := by
  rw [ask, Command.bind_apply, Command.ofExcept]
  cases endpoint host (world.env.baseUrl.getD []) world.args.info with
  | error e => exact ⟨rfl, rfl⟩
  | ok url =>
    simp only [request, Command.bind_apply, Command.modify, onWire, Command.focus]
    cases (requestJson host world.env world.upstream url method body s.wire).1 with
    | error e => exact ⟨rfl, rfl⟩
    | ok found => exact ⟨rfl, rfl⟩

theorem perform_keeps (s : Run F) : Kept s (perform host world s).2 := by
  rcases perform_cases host world s with ⟨e, hrun, -⟩ | ⟨method, body, t, hrun, hlog, hwrites, -⟩
  · rw [hrun]
    exact ⟨rfl, rfl⟩
  · have hkept := ask_keeps host world method body t
    rw [hrun]
    exact ⟨hkept.log.trans hlog, hkept.writes.trans hwrites⟩

end Performing

section Hashes

variable {F : Type} {host : Host F}

variable (host) in
structure BodiesSound (s : Run F) : Prop where
  request : ∀ body, s.requestBody = some body → Sound host.fmt.limits (.obj body)
  response : ∀ body, s.responseBody = some body → Sound host.fmt.limits (.obj body)

theorem sound_or_uncaught {α : Type} {x : Except Raised α} {p : Prop}
    (h : ∀ E : Raised → Prop, (∀ e, E e → caught e ≠ none) → (Meets x (fun _ => True) E ↔ p)) :
    (p ∧ ∃ a, x = .ok a) ∨ ¬p ∧ ∃ e, x = .error e ∧ caught e = none := by
  have hok := h (fun _ => False) (fun _ hfalse => hfalse.elim)
  have hcaught := h (fun e => caught e ≠ none) (fun _ he => he)
  cases x with
  | ok a => exact .inl ⟨hok.mp trivial, a, rfl⟩
  | error e =>
    refine .inr ⟨hok.mpr, e, rfl, ?_⟩
    by_contra he
    exact hok.mpr (hcaught.mp he)

variable (host) in
theorem hashOf_cases (body : Option (Fields F)) :
    ((∀ fields, body = some fields → Sound host.fmt.limits (.obj fields)) ∧ ∃ hash, hashOf host body = .ok hash) ∨
      (¬∀ fields, body = some fields → Sound host.fmt.limits (.obj fields)) ∧
        ∃ e, hashOf host body = .error e ∧ caught e = none := by
  refine sound_or_uncaught (fun E hE => ?_)
  cases body with
  | none => exact iff_of_true trivial nofun
  | some fields =>
    have hencoded : Meets (sha256Json host.fmt host.sha256 (.obj fields)) (fun _ => True) E ↔ _ :=
      meets_encoded hE (f := fun bytes => .ok (host.sha256 bytes))
    have hmap : Meets (hashOf host (some fields)) (fun _ => True) E ↔
        Meets (sha256Json host.fmt host.sha256 (.obj fields)) (fun _ => True) E := by
      rw [hashOf]
      cases sha256Json host.fmt host.sha256 (.obj fields) <;> exact Iff.rfl
    rw [hmap, hencoded]
    constructor
    · rintro ⟨hsound, -⟩ _ ⟨⟩
      exact hsound
    · exact fun h => ⟨h fields rfl, fun _ _ => trivial⟩

variable (host) in
theorem hashes_cases (s : Run F) :
    (BodiesSound host s ∧ ∃ hs, hashes host s = .ok hs) ∨
      ¬BodiesSound host s ∧ ∃ e, hashes host s = .error e ∧ caught e = none := by
  rw [hashes]
  rcases hashOf_cases host s.requestBody with ⟨hrequest, request, hok⟩ | ⟨hnot, e, herror, he⟩
  · rcases hashOf_cases host s.responseBody with ⟨hresponse, response, hok'⟩ | ⟨hnot, e, herror, he⟩
    · exact .inl ⟨⟨hrequest, hresponse⟩, ⟨request, response⟩, by rw [hok, hok']; rfl⟩
    · exact .inr ⟨fun h => hnot h.response, e, by rw [hok, herror]; rfl, he⟩
  · exact .inr ⟨fun h => hnot h.request, e, by rw [herror]; rfl, he⟩

end Hashes

section Outcomes

variable {F : Type} (host : Host F) (world : World)

/-- The run has written to the log once, one event of the given outcome and its line break. -/
def Appended (outcome : Text) (log : Bytes) (s : Run F) : Prop :=
  ∃ event line, s.writes = [(event, line)] ∧ s.log = log ++ line ∧
    encode (canonical host.fmt (.obj event) ++ ['\n'.toNat]) = some line ∧
    find (text "outcome") event = some (.str outcome)

def Reported (message : Text) (s : Run F) : Prop :=
  ∃ fields, s.stderr = some fields ∧ find (text "error") fields = some (.str message)

/-- A run returns 0 with an event of success, or 2 with an event of error and an error object, or 2 with an error object that
says that there is no event. -/
def Audited (log : Bytes) (status : Nat) (s : Run F) : Prop :=
  (status = 0 ∧ Appended host (text "success") log s) ∨
  (status = 2 ∧ Appended host (text "error") log s ∧ ∃ message, Reported message s) ∨
  (status = 2 ∧ s.writes = [] ∧ s.log = log ∧ ∃ message reason, Reported (message ++ alsoFailed ++ reason) s)

def EndsAudited (log : Bytes) (run : Except Raised Nat × Run F) : Prop :=
  ∃ status, run.1 = .ok status ∧ Audited host log status run.2

def successRecord (s : Run F) (hs : Hashes F) : Fields F := auditFields world world.timestamp s hs none

def answer (s : Run F) (hs : Hashes F) (path : Text) : Fields F :=
  Dict.assign (text "_jev_client") (.obj (publicMetadata world hs s.attempts path)) (s.responseBody.getD [])

def errorRecord (message : Text) (s : Run F) (hs : Hashes F) : Fields F :=
  auditFields world world.handlerTimestamp s hs (some message)

def errorObject (s : Run F) (hs : Hashes F) (path message : Text) : Fields F :=
  [(text "error", .str message), (text "_jev_client", .obj (publicMetadata world hs s.attempts path))]

def Run.counted (s : Run F) (attempts : Nat) : Run F := { s with attempts := max s.attempts attempts }

/-- The append of a run whose work is done. The event of success, once it is written, has to stay the only one: nothing
after it may fail. -/
structure AnswerTame (s : Run F) (hs : Hashes F) : Prop where
  path : Contained world.disk.path
  recorded : ∀ path, world.disk.path = .ok path → ¬Breaks host world.disk s.log (successRecord world s hs)
  written : ∀ path, world.disk.path = .ok path → Writes host world.disk s.log (successRecord world s hs) →
    world.disk.cut = 0 ∧ world.disk.fails .fsync = none ∧ world.disk.fails .closeHandle = none ∧
      report host world.stdout (answer world s hs path) = .ok ()

/-- The append of the handler, which catches no more than its ClientError. -/
structure HandlerTame (message : Text) (s : Run F) (hs : Hashes F) (appended : Except Raised (Text × Fields F)) : Prop where
  path : ∃ path, world.handlerDisk.path = .ok path
  recorded : ¬Breaks host world.handlerDisk s.log (errorRecord world message s hs)
  written : Writes host world.handlerDisk s.log (errorRecord world message s hs) → world.handlerDisk.cut = 0 ∧ message ≠ []
  stderr : ∀ path said, handlerMessage world message appended = .ok (path, said) →
    report host world.stderr (errorObject world s hs path said) = .ok ()

def SuccessTame (s : Run F) : Prop := BodiesSound host s ∧ ∀ hs, hashes host s = .ok hs → AnswerTame host world s hs

def FailureTame (message : Text) (s : Run F) : Prop :=
  BodiesSound host s ∧ ∀ hs, hashes host s = .ok hs → HandlerTame host world message s hs
    (appendAudit host world.handlerDisk (errorRecord world message s hs) s).1

/-- The runs that leave one event, or none and say so. -/
structure Tame (log : Bytes) : Prop where
  perform : PerformTame host world
  success : ∀ s, JevDecide.perform host world { log := log } = (.ok (), s) → SuccessTame host world s
  failure : ∀ e s message attempts, tryMain host world { log := log } = (.error e, s) → caught e = some (message, attempts) →
    FailureTame host world message (s.counted attempts)

end Outcomes

section Handler

variable {F : Type} {host : Host F} {world : World} {log : Bytes} {message : Text} {attempts : Nat} {s : Run F}

theorem takes_eq_iff {disk : Disk} {line : Bytes} (h : Terminated line) : disk.takes line = line ↔ disk.cut = 0 := by
  refine ⟨fun htakes => ?_, takes_eq_self⟩
  by_contra hcut
  obtain ⟨body, rfl, -⟩ := h.ends
  refine newline_notMem_takes h hcut ?_
  rw [htakes]
  simp

theorem writes_wrote (h : s.writes = []) (event : Fields F) (bytes : Bytes) :
    (s.wrote event bytes).writes = [(event, bytes)] := by
  rw [Run.wrote, h, List.nil_append]

theorem appended_wrote_iff {disk : Disk} {path outcome : Text} {record event : Fields F} {line : Bytes}
    (hwrites : s.writes = []) (hnext : nextEvent host.fmt host.sha256 path s.log record = .ok (event, line)) {s' : Run F}
    (hkept : Kept (s.wrote event (disk.takes line)) s') :
    Appended host outcome s.log s' ↔ disk.cut = 0 ∧ find (text "outcome") record = some (.str outcome) := by
  have hterminated := terminated_of_nextEvent hnext
  obtain ⟨_, _, -, -, -, -, hline⟩ := nextEvent_eq_ok hnext
  have hfind : find (text "outcome") event = find (text "outcome") record := find_nextEvent hnext (by decide) (by decide)
  have hone : s'.writes = [(event, disk.takes line)] := hkept.writes.trans (writes_wrote hwrites _ _)
  rw [← takes_eq_iff hterminated, ← hfind]
  constructor
  · rintro ⟨event', line', hwrote, -, hencode, houtcome⟩
    rw [hone] at hwrote
    cases hwrote
    rw [hline] at hencode
    exact ⟨(Option.some.inj hencode).symm, houtcome⟩
  · rintro ⟨htakes, houtcome⟩
    rw [htakes] at hone
    refine ⟨event, line, hone, ?_, hline, houtcome⟩
    rw [hkept.log, Run.wrote, htakes]

variable (host world) in
def handled (message : Text) (attempts : Nat) : Command (Run F) Raised Nat := do
  handleError host world message attempts
  return 2

theorem handled_of_uncaught {e : Raised} (hhashes : hashes host (s.counted attempts) = .error e) :
    (handled host world message attempts s).1 = .error e := by
  rw [Run.counted] at hhashes
  simp only [handled, handleError, Command.bind_apply, Command.modify, Command.state, Command.ofExcept, hhashes]

variable (host world) in
def handledWith (message : Text) (hs : Hashes F) (s : Run F) (appended : Except Raised (Text × Fields F)) (s' : Run F) :
    Except Raised Nat × Run F :=
  match handlerMessage world message appended with
  | .error e => (.error e, s')
  | .ok (path, said) =>
    match report host world.stderr (errorObject world s hs path said) with
    | .error e => (.error e, s')
    | .ok _ => (.ok 2, { s' with stderr := some (errorObject world s hs path said) })

variable {hs : Hashes F} {appended : Except Raised (Text × Fields F)}

theorem handled_of_hashes (hhashes : hashes host (s.counted attempts) = .ok hs) :
    handled host world message attempts s =
      handledWith host world message hs (s.counted attempts)
        (appendAudit host world.handlerDisk (errorRecord world message (s.counted attempts) hs)
          (s.counted attempts)).1
        (appendAudit host world.handlerDisk (errorRecord world message (s.counted attempts) hs)
          (s.counted attempts)).2 := by
  rw [Run.counted] at hhashes ⊢
  simp only [handled, handleError, handledWith, Command.bind_apply, Command.modify, Command.state, Command.ofExcept, hhashes,
    Command.attempt, errorRecord]
  cases handlerMessage world message _ with
  | error e => rfl
  | ok said =>
    simp only [errorObject]
    cases report host world.stderr _ <;> rfl

theorem not_endsAudited_error {e : Raised} : ¬EndsAudited host log (.error e, s) := by
  rintro ⟨_, ⟨⟩, _⟩

variable (world message s) in
theorem find_outcome_errorRecord (hs : Hashes F) :
    find (text "outcome") (errorRecord world message s hs) = some (.str (text "error")) ↔ message ≠ [] := by
  have hfind : find (text "outcome") (errorRecord world message s hs) =
      some (.str (if truthy (some message) then text "error" else text "success")) := rfl
  have hne : text "success" ≠ text "error" := by decide
  rw [hfind]
  by_cases hmessage : message = []
  · simp [truthy, hmessage, hne]
  · simp [truthy, hmessage]

theorem endsAudited_written_iff {disk : Disk} {path said : Text} {event : Fields F} {line : Bytes} (hwrites : s.writes = [])
    (hnext : nextEvent host.fmt host.sha256 path s.log (errorRecord world message s hs) = .ok (event, line)) :
    EndsAudited host s.log
      (.ok 2, { s.wrote event (disk.takes line) with stderr := some (errorObject world s hs path said) }) ↔
      disk.cut = 0 ∧ message ≠ [] := by
  have happended : Appended host (text "error") s.log
      { s.wrote event (disk.takes line) with stderr := some (errorObject world s hs path said) } ↔ _ :=
    appended_wrote_iff hwrites hnext ⟨rfl, rfl⟩
  rw [← find_outcome_errorRecord world message s hs, ← happended]
  constructor
  · rintro ⟨_, ⟨⟩, ⟨hstatus, -⟩ | ⟨-, happended, -⟩ | ⟨-, hnone, -⟩⟩
    · cases hstatus
    · exact happended
    · simp [Run.wrote] at hnone
  · exact fun happended => ⟨2, rfl, .inr (.inl ⟨rfl, happended, said, _, rfl, rfl⟩)⟩

variable (F message) in
theorem handlerMessage_clientError {path : Text} (hpath : world.handlerDisk.path = .ok path) (reason : Text) (n : Nat) :
    handlerMessage world message (.error (.clientError reason n) : Except Raised (Text × Fields F)) =
      .ok (path, message ++ alsoFailed ++ reason) := by
  rw [handlerMessage, hpath]
  rfl

theorem handlerMessage_error {e : Raised} (h : caught e = none ∨ world.handlerDisk.path = .error e) :
    handlerMessage world message (.error e : Except Raised (Text × Fields F)) = .error e := by
  cases e with
  | clientError reason n =>
    rw [handlerMessage, h.resolve_left (Option.some_ne_none _)]
    rfl
  | _ => rfl

theorem handledWith_of_said {path said : Text} {s' : Run F} (hsaid : handlerMessage world message appended = .ok (path, said)) :
    EndsAudited host log (handledWith host world message hs s appended s') ↔
      report host world.stderr (errorObject world s hs path said) = .ok () ∧
        EndsAudited host log (.ok 2, { s' with stderr := some (errorObject world s hs path said) }) := by
  rw [handledWith, hsaid]
  dsimp only
  cases report host world.stderr (errorObject world s hs path said) with
  | error e => exact iff_of_false not_endsAudited_error nofun
  | ok u => exact ⟨fun h => ⟨rfl, h⟩, fun h => h.2⟩

theorem handledWith_written {path said : Text} {event : Fields F}
    {line : Bytes} (hwrites : s.writes = []) (hpath : world.handlerDisk.path = .ok path)
    (hwritten : Writes host world.handlerDisk s.log (errorRecord world message s hs))
    (hnext : nextEvent host.fmt host.sha256 path s.log (errorRecord world message s hs) = .ok (event, line))
    (hsaid : handlerMessage world message appended = .ok (path, said)) :
    EndsAudited host s.log (handledWith host world message hs s appended (s.wrote event (world.handlerDisk.takes line))) ↔
      HandlerTame host world message s hs appended := by
  rw [handledWith_of_said hsaid, endsAudited_written_iff hwrites hnext]
  constructor
  · rintro ⟨hreport, hone⟩
    refine ⟨⟨path, hpath⟩, fun h => h.notWritable hwritten.writable, fun _ => hone, ?_⟩
    intro path' said' hsaid'
    cases hsaid.symm.trans hsaid'
    exact hreport
  · exact fun h => ⟨h.stderr path said hsaid, h.written hwritten⟩

theorem handledWith_iff {s' : Run F} (hwrites : s.writes = [])
    (hending : Ending host world.handlerDisk (errorRecord world message s hs) s appended s') :
    EndsAudited host s.log (handledWith host world message hs s appended s') ↔
      HandlerTame host world message s hs appended := by
  cases hending with
  | lost hpath =>
    refine iff_of_false ?_ (fun h => ?_)
    · rw [handledWith, handlerMessage_error (.inr hpath)]
      exact not_endsAudited_error
    · obtain ⟨path, hok⟩ := h.path
      cases hpath.symm.trans hok
  | @refused path reason n hpath hrefuses =>
    have hsaid := handlerMessage_clientError F message hpath reason n
    rw [handledWith_of_said hsaid]
    constructor
    · rintro ⟨hreport, -⟩
      refine ⟨⟨path, hpath⟩, fun h => h.not_refuses hrefuses, fun h => absurd h hrefuses.not_writes, ?_⟩
      intro path' said' hsaid'
      cases hsaid.symm.trans hsaid'
      exact hreport
    · exact fun h => ⟨h.stderr _ _ hsaid, 2, rfl, .inr (.inr ⟨rfl, hwrites, rfl, message, reason, _, rfl, rfl⟩)⟩
  | broken hpath hbreaks he =>
    refine iff_of_false ?_ (fun h => h.recorded hbreaks)
    rw [handledWith, handlerMessage_error (.inl he)]
    exact not_endsAudited_error
  | unsure hpath hwritten hnext hfails =>
    exact handledWith_written hwrites hpath hwritten hnext (handlerMessage_clientError F message hpath _ _)
  | done hpath hwritten hnext hsync hclose => exact handledWith_written hwrites hpath hwritten hnext rfl

theorem handled_iff (hwrites : s.writes = []) :
    EndsAudited host s.log (handled host world message attempts s) ↔
      FailureTame host world message (s.counted attempts) := by
  rcases hashes_cases host (s.counted attempts) with ⟨hsound, hs, hhashes⟩ | ⟨hnot, e, hhashes, -⟩
  · have hwrites' : (s.counted attempts).writes = [] := hwrites
    rw [handled_of_hashes hhashes]
    refine (handledWith_iff hwrites' (appendAudit_ending _)).trans ⟨fun h => ⟨hsound, ?_⟩, fun h => h.2 hs hhashes⟩
    intro hs' hok
    cases hhashes.symm.trans hok
    exact h
  · refine iff_of_false ?_ (fun h => hnot h.1)
    rintro ⟨status, hstatus, -⟩
    rw [handled_of_uncaught hhashes] at hstatus
    cases hstatus

theorem Ending.writes {disk : Disk} {record : Fields F} {result : Except Raised (Text × Fields F)} {s' : Run F}
    (h : Ending host disk record s result s') : ∃ more, s'.writes = s.writes ++ more := by
  cases h with
  | lost _ => exact ⟨[], (List.append_nil _).symm⟩
  | refused _ _ => exact ⟨[], (List.append_nil _).symm⟩
  | broken _ _ _ => exact ⟨[], (List.append_nil _).symm⟩
  | unsure _ _ _ _ => exact ⟨_, rfl⟩
  | done _ _ _ _ _ => exact ⟨_, rfl⟩

/-- Once an event of success is written there is no way back: the handler can neither take it back nor say so. -/
theorem not_endsAudited_handled {event : Fields F} {bytes : Bytes} (hwrites : s.writes = [(event, bytes)])
    (houtcome : find (text "outcome") event = some (.str (text "success"))) :
    ¬EndsAudited host log (handled host world message attempts s) := by
  rcases hashes_cases host (s.counted attempts) with ⟨-, hs, hhashes⟩ | ⟨-, e, hhashes, -⟩
  · rw [handled_of_hashes hhashes]
    have hending : Ending host world.handlerDisk (errorRecord world message (s.counted attempts) hs) (s.counted attempts) _ _ :=
      appendAudit_ending _
    obtain ⟨more, hmore⟩ := hending.writes
    have hwrites' : (s.counted attempts).writes = [(event, bytes)] := hwrites
    cases hsaid : handlerMessage world message _ with
    | error e =>
      rw [handledWith, hsaid]
      exact not_endsAudited_error
    | ok said =>
      obtain ⟨path, said⟩ := said
      rw [handledWith_of_said hsaid]
      rintro ⟨-, _, ⟨⟩, ⟨hstatus, -⟩ | ⟨-, ⟨event', line, hone, -, -, herror⟩, -⟩ | ⟨-, hnone, -⟩⟩
      · cases hstatus
      · change _ = [(event', line)] at hone
        rw [hmore, hwrites', List.singleton_append] at hone
        cases hone
        have hsame : text "success" = text "error" := Value.str.inj (Option.some.inj (houtcome.symm.trans herror))
        exact absurd hsame (by decide)
      · change _ = [] at hnone
        rw [hmore, hwrites'] at hnone
        cases hnone
  · rintro ⟨status, hstatus, -⟩
    rw [handled_of_uncaught hhashes] at hstatus
    cases hstatus

end Handler

section Runs

variable {F : Type} {host : Host F} {world : World} {log : Bytes} {s s' : Run F} {e : Raised}

theorem main_of_ok (h : tryMain host world s = (.ok (), s')) : main host world s = (.ok 0, s') := by
  simp only [main, Command.bind_apply, Command.attempt, h]
  rfl

theorem main_of_caught {message : Text} {attempts : Nat} (h : tryMain host world s = (.error e, s'))
    (he : caught e = some (message, attempts)) : main host world s = handled host world message attempts s' := by
  simp only [main, Command.bind_apply, Command.attempt, h]
  cases e with
  | clientError m n =>
    cases he
    rfl
  | osError m =>
    cases he
    rfl
  | _ => cases he

theorem main_of_uncaught (h : tryMain host world s = (.error e, s')) (he : caught e = none) :
    main host world s = (.error e, s') := by
  simp only [main, Command.bind_apply, Command.attempt, h]
  cases e with
  | clientError m n => cases he
  | osError m => cases he
  | _ => rfl

/-- A run whose work has failed, or whose event of success was refused, ends with its handler. -/
theorem endsAudited_of_failed (htry : tryMain host world { log := log } = (.error e, s)) (hkept : Kept { log := log } s)
    (hperform : Contained (.error e : Except Raised Unit) → PerformTame host world)
    (hsuccess : Contained (.error e : Except Raised Unit) → ∀ t, perform host world { log := log } = (.ok (), t) →
      SuccessTame host world t)
    (htame : Tame host world log → Contained (.error e : Except Raised Unit)) :
    EndsAudited host log (main host world { log := log }) ↔ Tame host world log := by
  cases hcaught : caught e with
  | none =>
    rw [main_of_uncaught htry hcaught]
    exact iff_of_false not_endsAudited_error (fun h => htame h hcaught)
  | some found =>
    obtain ⟨message, attempts⟩ := found
    have hcontained : Contained (.error e : Except Raised Unit) := by
      change caught e ≠ none
      simp [hcaught]
    have hlog : s.log = log := hkept.log
    rw [main_of_caught htry hcaught, ← hlog, handled_iff hkept.writes, hlog]
    constructor
    · intro h
      refine ⟨hperform hcontained, hsuccess hcontained, ?_⟩
      intro e' s' message' attempts' htry' hcaught'
      rw [htry] at htry'
      cases htry'
      rw [hcaught] at hcaught'
      cases hcaught'
      exact h
    · exact fun h => h.failure e s message attempts htry hcaught

theorem tryMain_of_error (h : perform host world s = (.error e, s')) : tryMain host world s = (.error e, s') := by
  rw [tryMain, Command.bind_apply, h]

theorem tryMain_of_hashes_error (h : perform host world s = (.ok (), s')) (hhashes : hashes host s' = .error e) :
    tryMain host world s = (.error e, s') := by
  simp only [tryMain, Command.bind_apply, h, Command.state, Command.ofExcept, hhashes]

variable (host world) in
def concluded (hs : Hashes F) (s : Run F) : Except Raised (Text × Fields F) → Run F → Except Raised Unit × Run F
  | .error e, s' => (.error e, s')
  | .ok (path, _), s' =>
    match report host world.stdout (answer world s hs path) with
    | .error e => (.error e, s')
    | .ok _ => (.ok (), { s' with stdout := some (answer world s hs path) })

theorem tryMain_of_hashes {hs : Hashes F} (h : perform host world s = (.ok (), s')) (hhashes : hashes host s' = .ok hs) :
    tryMain host world s = concluded host world hs s' (appendAudit host world.disk (successRecord world s' hs) s').1
      (appendAudit host world.disk (successRecord world s' hs) s').2 := by
  simp only [tryMain, Command.bind_apply, h, Command.state, Command.ofExcept, hhashes, successRecord]
  rcases appendAudit host world.disk (auditFields world world.timestamp s' hs none) s' with ⟨e | ⟨path, event⟩, t⟩
  · rfl
  · simp only [concluded, answer]
    cases report host world.stdout _ <;> rfl

theorem find_outcome_nextEvent {path : Text} {hs : Hashes F} {event : Fields F} {line : Bytes}
    (h : nextEvent host.fmt host.sha256 path log (successRecord world s hs) = .ok (event, line)) :
    find (text "outcome") event = some (.str (text "success")) := by
  rw [find_nextEvent h (by decide) (by decide)]
  rfl

theorem not_endsAudited_of_written {event : Fields F} {bytes : Bytes} (htry : tryMain host world s = (.error e, s'))
    (hwrites : s'.writes = [(event, bytes)]) (houtcome : find (text "outcome") event = some (.str (text "success"))) :
    ¬EndsAudited host log (main host world s) := by
  cases hcaught : caught e with
  | none =>
    rw [main_of_uncaught htry hcaught]
    exact not_endsAudited_error
  | some found =>
    rw [main_of_caught htry hcaught]
    exact not_endsAudited_handled hwrites houtcome

section Performed

variable {hs : Hashes F} (hperform : perform host world { log := log } = (.ok (), s)) (hkept : Kept { log := log } s)
  (htame : PerformTame host world) (hsound : BodiesSound host s) (hhashes : hashes host s = .ok hs)

include hperform hsound hhashes

theorem successTame_of_answer (h : AnswerTame host world s hs) (t : Run F)
    (ht : perform host world { log := log } = (.ok (), t)) : SuccessTame host world t := by
  cases hperform.symm.trans ht
  refine ⟨hsound, fun hs' hok => ?_⟩
  cases hhashes.symm.trans hok
  exact h

include hkept htame

/-- The line is written and the answer printed: all that is left is whether the write was whole. -/
theorem reported_iff {path : Text} {event : Fields F} {line : Bytes} (hpath : world.disk.path = .ok path)
    (hwrites : Writes host world.disk s.log (successRecord world s hs))
    (hnext : nextEvent host.fmt host.sha256 path s.log (successRecord world s hs) = .ok (event, line))
    (hsync : world.disk.fails .fsync = none) (hclose : world.disk.fails .closeHandle = none)
    (hreport : report host world.stdout (answer world s hs path) = .ok ())
    (hdone : tryMain host world { log := log } =
      (.ok (), { s.wrote event (world.disk.takes line) with stdout := some (answer world s hs path) })) :
    EndsAudited host log (main host world { log := log }) ↔ Tame host world log := by
  have houtcome : find (text "outcome") (successRecord world s hs) = some (.str (text "success")) := rfl
  have happended : Appended host (text "success") s.log
      { s.wrote event (world.disk.takes line) with stdout := some (answer world s hs path) } ↔ world.disk.cut = 0 :=
    (appended_wrote_iff hkept.writes hnext ⟨rfl, rfl⟩).trans (and_iff_left houtcome)
  rw [hkept.log] at happended
  rw [main_of_ok hdone]
  constructor
  · rintro ⟨_, ⟨⟩, ⟨-, hone⟩ | ⟨hstatus, -⟩ | ⟨hstatus, -⟩⟩
    · refine ⟨htame, successTame_of_answer hperform hsound hhashes ⟨?_, ?_, ?_⟩, fun _ _ _ _ h => nomatch hdone.symm.trans h⟩
      · rw [hpath]
        exact contained_ok path
      · exact fun _ _ hbreaks => hbreaks.notWritable hwrites.writable
      · intro path' hok _
        cases hpath.symm.trans hok
        exact ⟨happended.mp hone, hsync, hclose, hreport⟩
    · cases hstatus
    · cases hstatus
  · intro h
    exact ⟨0, rfl, .inl ⟨rfl, happended.mpr (((h.success s hperform).2 hs hhashes).written path hpath hwrites).1⟩⟩

theorem performed_iff {appended : Except Raised (Text × Fields F)}
    (hending : Ending host world.disk (successRecord world s hs) s appended s')
    (htry : tryMain host world { log := log } = concluded host world hs s appended s') :
    EndsAudited host log (main host world { log := log }) ↔ Tame host world log := by
  have hsuccess : AnswerTame host world s hs → ∀ t, perform host world { log := log } = (.ok (), t) →
      SuccessTame host world t := successTame_of_answer hperform hsound hhashes
  have hanswer : Tame host world log → AnswerTame host world s hs := fun h => (h.success s hperform).2 hs hhashes
  have hnone : s.writes = [] := hkept.writes
  cases hending with
  | lost hpath =>
    refine endsAudited_of_failed htry hkept (fun _ => htame) (fun hcaught => hsuccess ⟨?_, ?_, ?_⟩) (fun h => ?_)
    · rw [hpath]
      exact hcaught
    · exact fun path hok => nomatch hpath.symm.trans hok
    · exact fun path hok => nomatch hpath.symm.trans hok
    · have hcontained := (hanswer h).path
      rw [hpath] at hcontained
      exact hcontained
  | refused hpath hrefuses =>
    refine endsAudited_of_failed htry hkept (fun _ => htame) (fun _ => hsuccess ⟨?_, ?_, ?_⟩)
      (fun _ => contained_clientError _ _)
    · rw [hpath]
      exact contained_ok _
    · exact fun _ _ hbreaks => hbreaks.not_refuses hrefuses
    · exact fun _ _ hwrites => absurd hwrites hrefuses.not_writes
  | broken hpath hbreaks he =>
    rw [main_of_uncaught htry he]
    exact iff_of_false not_endsAudited_error (fun h => (hanswer h).recorded _ hpath hbreaks)
  | unsure hpath hwrites hnext hfails =>
    refine iff_of_false (not_endsAudited_of_written htry (writes_wrote hnone _ _) (find_outcome_nextEvent hnext)) (fun h => ?_)
    obtain ⟨-, hsync, hclose, -⟩ := (hanswer h).written _ hpath hwrites
    exact hfails.elim (fun hnot => hnot hsync) (fun hnot => hnot hclose)
  | @done path event line hpath hwrites hnext hsync hclose =>
    cases hreport : report host world.stdout (answer world s hs path) with
    | error e =>
      have hraised : tryMain host world { log := log } = (.error e, s.wrote event (world.disk.takes line)) := by
        simp only [htry, concluded, hreport]
      refine iff_of_false (not_endsAudited_of_written hraised (writes_wrote hnone _ _) (find_outcome_nextEvent hnext)) ?_
      exact fun h => nomatch hreport.symm.trans ((hanswer h).written _ hpath hwrites).2.2.2
    | ok u =>
      exact reported_iff hperform hkept htame hsound hhashes hpath hwrites hnext hsync hclose hreport
        (by simp only [htry, concluded, hreport])

end Performed

end Runs

section Examples

def demoWorld : World where
  args := { requestFile := some (text "r") }
  argv := [text "--request-file", text "r"]
  env := { baseUrl := some (text "h") }
  auditId := text "1"
  timestamp := text "2"
  handlerTimestamp := text "3"
  stdin := []
  resolve := .ok
  readBytes := fun _ => .ok (bytesOf "\x7b\"kind\":\"noul\",\"question\":\"q\"\x7d")
  upstream := fun _ => .response (bytesOf "\x7b\x7d")
  disk := demoDisk
  handlerDisk := demoDisk
  stdout := fun _ => none
  stderr := fun _ => none

example : (errorOf (main demoHost demoWorld { log := [] }).1 = none) ∧
    (main demoHost demoWorld { log := [] }).2.writes.length = 1 := by decide +kernel

def surrogateWorld : World :=
  { demoWorld with readBytes := fun _ => .ok (bytesOf "\x7b\"kind\":\"noul\",\"question\":\"\\ud800\"\x7d") }

def listWorld : World := { demoWorld with readBytes := fun _ => .ok (bytesOf "\x7b\"kind\":[],\"question\":\"q\"\x7d") }

def truncatedWorld : World := { demoWorld with upstream := fun _ => .raised .httpException }

def nestedWorld : World := { demoWorld with upstream := fun _ => .response (List.replicate 1001 91) }

def unsyncedWorld : World :=
  { demoWorld with disk := { demoDisk with fails := fun call => if call = .fsync then some (text "I/O error") else none } }

theorem not_endsAudited_of_raised {world : World} {e : Raised} (h : errorOf (main demoHost world { log := [] }).1 = some e) :
    ¬EndsAudited demoHost [] (main demoHost world { log := [] }) := by
  rintro ⟨status, hstatus, -⟩
  rw [errorOf_eq_some.mp h] at hstatus
  cases hstatus

theorem Audited.writes_le {F : Type} {host : Host F} {log : Bytes} {status : Nat} {s : Run F}
    (h : Audited host log status s) : s.writes.length ≤ 1 := by
  rcases h with ⟨-, _, _, hwrites, -⟩ | ⟨-, ⟨_, _, hwrites, -⟩, -⟩ | ⟨-, hwrites, -⟩
  · rw [hwrites, List.length_singleton]
  · rw [hwrites, List.length_singleton]
  · rw [hwrites]
    exact Nat.zero_le 1

end Examples

end ProductionStack.JevDecide
