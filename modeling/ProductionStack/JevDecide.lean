import Mathlib.Algebra.Order.Ring.Unbundled.Rat
import ProductionStack.AuditLog
import ProductionStack.Command

namespace ProductionStack.JevDecide

open JsonText Utf8Text AuditLog

def clientError (message : Text) : Raised := .clientError message 0

def refuseIf (c : Prop) [Decidable c] (message : Text) : Except Raised Unit :=
  if c then .error (clientError message) else .ok ()

def truthy (t : Option Text) : Bool := t.any (fun t => t ≠ [])

section Inputs

inductive Kind
  | choice
  | noul
  | score
  deriving DecidableEq, Repr

inductive Strategy
  | auto
  | single
  | tournament
  | permute
  deriving DecidableEq, Repr

inductive Thinking
  | default
  | off
  | auto
  | on
  deriving DecidableEq, Repr

def Kind.text : Kind → Text
  | .choice => JsonText.text "choice"
  | .noul => JsonText.text "noul"
  | .score => JsonText.text "score"

def Strategy.text : Strategy → Text
  | .auto => JsonText.text "auto"
  | .single => JsonText.text "single"
  | .tournament => JsonText.text "tournament"
  | .permute => JsonText.text "permute"

def Thinking.text : Thinking → Text
  | .default => JsonText.text "default"
  | .off => JsonText.text "off"
  | .auto => JsonText.text "auto"
  | .on => JsonText.text "on"

structure Args where
  info : Bool := false
  requestFile : Option Text := none
  kind : Option Kind := none
  question : Option Text := none
  stateJson : Option Text := none
  stateFile : Option Text := none
  evidenceFile : List Text := []
  options : Option (List Text) := none
  strategy : Option Strategy := none
  thinking : Option Thinking := none

structure Env where
  baseUrl : Option Text := none
  apiKey : Option Text := none
  timeoutSeconds : Option Text := none
  maxRetries : Option Text := none
  retryBackoffSeconds : Option Text := none

structure SplitResult where
  scheme : Text
  netloc : Text
  path : Text
  query : Text
  fragment : Text
  username : Option Text
  password : Option Text

/-- The interpreter and its libraries. A hash is a text of digits. The bounds of a float are given in thousandths. -/
structure Host (F : Type) where
  fmt : Runtime F
  /-- json.dump has its own encoder, in Python, with a recursion of its own. -/
  printDepth : Nat
  sha256 : Bytes → Text
  sha256_ascii : ∀ bytes, ∀ c ∈ sha256 bytes, c < 128
  float : Text → Option F
  int : Text → Option Int
  isFinite : F → Bool
  atLeast : F → Nat → Bool
  atMost : F → Nat → Bool
  nonzero : F → Bool
  /-- The number that a finite float stands for. -/
  seconds : F → ℚ
  /-- What str.strip removes. -/
  whitespace : Nat → Bool
  urlsplit : Text → Except Raised SplitResult
  urlunsplit : Text → Text → Text → Text → Text → Text
  /-- The text of the bytes that json.loads is given, in the encoding it detects. -/
  decodeDetected : Bytes → Option Text
  /-- What a JSONDecodeError says of a text. -/
  decodeMessage : Text → Text

/-- What comes of one request: a body, an HTTP error with its text or what reading it raises, a failed connection, or
anything else that is raised while the request is sent or its body read. -/
inductive Attempt
  | response (raw : Bytes)
  | httpError (code : Nat) (detail : Except Raised Text)
  | failed (reason : Text)
  | raised (e : Raised)

inductive SysCall
  | exists
  | mkdir
  | chmod
  | stat
  | open
  | fstat
  | close
  | fchmod
  | flock
  | read
  | write
  | fsync
  | closeHandle
  deriving DecidableEq, Repr

/-- What a call of append_audit finds: the path of the log, the system calls that fail, and how many bytes a raw write leaves
off; it takes one at least. -/
structure Disk where
  path : Except Raised Text
  parent : Text
  fails : SysCall → Option Text
  cut : Nat
  parentExisted : Bool
  parentMode : Nat
  regular : Bool

/-- All that a run depends on. Its second disk is that of the handler, and a stream may refuse a text. -/
structure World where
  args : Args
  argv : List Text
  env : Env
  auditId : Text
  timestamp : Text
  handlerTimestamp : Text
  stdin : Bytes
  resolve : Text → Except Raised Text
  readBytes : Text → Except Text Bytes
  upstream : Nat → Attempt
  disk : Disk
  handlerDisk : Disk
  stdout : Text → Option Raised
  stderr : Text → Option Raised

end Inputs

variable {F : Type} (host : Host F)

section Requests

def httpSchemes : List Text := [text "http", text "https"]

def rstrip (c : Nat) (t : Text) : Text := (t.reverse.dropWhile (fun d => d = c)).reverse

def stripSuffix (suffix t : Text) : Text := t.take (t.length - suffix.length)

def endpointPath (path : Text) : Text :=
  if (text "/v1/decide").isSuffixOf path then stripSuffix (text "/v1/decide") path
  else if (text "/v1").isSuffixOf path then stripSuffix (text "/v1") path
  else path

def endpoint (base : Text) (info : Bool) : Except Raised Text := do
  refuseIf (base = []) (text "JEV_BASE_URL is required")
  let parsed ← host.urlsplit base
  refuseIf (parsed.scheme ∉ httpSchemes ∨ parsed.netloc = []) (text "JEV_BASE_URL must be an absolute http(s) URL")
  refuseIf (truthy parsed.username ∨ truthy parsed.password ∨ parsed.query ≠ [] ∨ parsed.fragment ≠ [])
    (text "JEV_BASE_URL must not contain credentials, query, or fragment")
  let suffix := if info then text "/v1/decide/info" else text "/v1/decide"
  return host.urlunsplit parsed.scheme parsed.netloc (endpointPath (rstrip '/'.toNat parsed.path) ++ suffix) [] []

def loadJson (t source : Text) : Except Raised (Value F) :=
  match loads host.fmt t with
  | .ok v => .ok v
  | .error .jsonDecodeError => .error (clientError (source ++ text " is not valid JSON: " ++ host.decodeMessage t))
  | .error .valueError => .error .valueError
  | .error .recursionError => .error .recursionError

def requestFields : List Text :=
  [text "kind", text "state", text "question", text "options", text "strategy", text "thinking", text "threshold",
    text "think_budget", text "reasoning_effort", text "chat_template_kwargs", text "return_reasoning", text "debug",
    text "system2_only"]

def kinds : List Text := [Kind.choice.text, Kind.noul.text, Kind.score.text]

def join (separator : Text) : List Text → Text
  | [] => []
  | [t] => t
  | t :: ts => t ++ separator ++ join separator ts

def unknownFields (fields : Fields F) : List Text :=
  ((fields.map Prod.fst).filter (fun key => key ∉ requestFields)).insertionSort (· ≤ ·)

/-- Membership in a set: a list and a dict have no hash. -/
def checkKind : Option (Value F) → Except Raised Text
  | some (.str kind) => if kind ∈ kinds then .ok kind else .error (clientError (text "kind must be choice, noul, or score"))
  | some (.arr _) | some (.obj _) => .error .typeError
  | _ => .error (clientError (text "kind must be choice, noul, or score"))

def questionOk : Option (Value F) → Bool
  | some (.str question) => !question.all host.whitespace
  | _ => false

def optionOk : Value F → Bool
  | .str option => option ≠ []
  | _ => false

def optionsOk : Option (Value F) → Bool
  | some (.arr options) => 2 ≤ options.length && options.length ≤ 256 && options.all optionOk
  | _ => false

def isNone : Option (Value F) → Bool
  | none | some .null => true
  | _ => false

/-- An integer that rounds to no float. -/
def tooLarge (n : Int) : Bool := 2 ^ 1024 - 2 ^ 970 ≤ n.natAbs

def checkThreshold : Option (Value F) → Except Raised Unit
  | none | some .null => .ok ()
  | some (.int n) => if tooLarge n then .error .overflowError else .ok ()
  | some (.float x) =>
    if host.isFinite x then .ok () else .error (clientError (text "threshold must be a finite number or null"))
  | some _ => .error (clientError (text "threshold must be a finite number or null"))

def checkOptions (kind : Text) (options : Option (Value F)) : Except Raised Unit :=
  if kind = Kind.choice.text then
    refuseIf (optionsOk options = false) (text "choice requires 2-256 non-empty string options")
  else refuseIf (isNone options = false) (text "options is valid only for choice")

def validate : Value F → Except Raised (Fields F)
  | .obj fields => do
      refuseIf (unknownFields fields ≠ []) (text "unknown request fields: " ++ join (text ", ") (unknownFields fields))
      let kind ← checkKind (find (text "kind") fields)
      refuseIf (questionOk host (find (text "question") fields) = false) (text "question must be a non-empty string")
      checkOptions kind (find (text "options") fields)
      checkThreshold host (find (text "threshold") fields)
      return fields
  | _ => .error (clientError (text "request must be a JSON object"))

/-- A number of the environment, its parser and its range with the text that names it. -/
def envNumber {N : Type} (parse : Text → Option N) (isFinite inRange : N → Bool) (name range raw : Text) : Except Raised N :=
  match parse raw with
  | none => .error (clientError (name ++ text " must be numeric"))
  | some value =>
    if !isFinite value then .error (clientError (name ++ text " must be finite"))
    else if !inRange value then .error (clientError (name ++ text " must be between " ++ range))
    else .ok value

def timeoutSeconds (env : Env) : Except Raised F :=
  envNumber host.float host.isFinite (fun x => host.atLeast x 1 && host.atMost x 3600000) (text "JEV_TIMEOUT_SECONDS")
    (text "0.001 and 3600") (env.timeoutSeconds.getD (text "60"))

def maxRetries (env : Env) : Except Raised Int :=
  envNumber host.int (fun _ => true) (fun n => 0 ≤ n && n ≤ 5) (text "JEV_MAX_RETRIES") (text "0 and 5")
    (env.maxRetries.getD (text "2"))

def retryBackoffSeconds (env : Env) : Except Raised F :=
  envNumber host.float host.isFinite (fun x => host.atLeast x 0 && host.atMost x 10000) (text "JEV_RETRY_BACKOFF_SECONDS")
    (text "0 and 10") (env.retryBackoffSeconds.getD (text "0.25"))

structure HttpRequest where
  url : Text
  method : Text
  headers : List (Text × Text)
  data : Option Bytes

/-- The requests that were sent, and the waits between them in seconds. -/
structure Wire where
  sent : List HttpRequest := []
  slept : List ℚ := []

def retryableHttpStatuses : List Nat := [408, 425, 429, 500, 502, 503, 504]

def readResponse (raw : Bytes) (attempts : Nat) : Except Raised (Fields F × Nat) :=
  match host.decodeDetected raw with
  | none => .error .unicodeDecodeError
  | some t =>
    match loads host.fmt t with
    | .error .jsonDecodeError => .error (.clientError (text "upstream returned invalid JSON") attempts)
    | .error .valueError => .error .valueError
    | .error .recursionError => .error .recursionError
    | .ok (.obj fields) => .ok (fields, attempts)
    | .ok _ => .error (.clientError (text "upstream response must be a JSON object") attempts)

/-- None where the loop goes on. -/
def tryOnce (upstream : Nat → Attempt) (request : HttpRequest) (last : Bool) (retryIndex : Nat) :
    Command Wire Raised (Option (Fields F × Nat)) := do
  Command.modify (fun wire => { wire with sent := wire.sent ++ [request] })
  match upstream retryIndex with
  | .response raw => Command.ofExcept ((readResponse host raw (retryIndex + 1)).map some)
  | .httpError code detail =>
    let detail ← Command.ofExcept detail
    if code ∉ retryableHttpStatuses ∨ last then
      Command.fail (.clientError (text "upstream HTTP " ++ decimal code ++ text ": " ++ detail.take 2000) (retryIndex + 1))
    else return none
  | .failed reason =>
    if last then Command.fail (.clientError (text "upstream connection failed: " ++ reason) (retryIndex + 1))
    else return none
  | .raised e => Command.fail e

def pause (backoff : F) (retryIndex : Nat) : Command Wire Raised Unit :=
  Command.modify (fun wire =>
    if host.nonzero backoff then { wire with slept := wire.slept ++ [min (host.seconds backoff * 2 ^ retryIndex) 10] }
    else wire)

def retryLoop (upstream : Nat → Attempt) (request : HttpRequest) (backoff : F) :
    Nat → Nat → Command Wire Raised (Fields F × Nat)
  | 0, retryIndex => do
      match ← tryOnce host upstream request true retryIndex with
      | some found => return found
      | none =>
        pause host backoff retryIndex
        Command.fail .assertionError
  | remaining + 1, retryIndex => do
      match ← tryOnce host upstream request false retryIndex with
      | some found => return found
      | none =>
        pause host backoff retryIndex
        retryLoop upstream request backoff remaining (retryIndex + 1)

def requestHeaders (env : Env) : List (Text × Text) :=
  (text "Accept", text "application/json") ::
    if truthy env.apiKey then [(text "Authorization", text "Bearer " ++ env.apiKey.getD [])] else []

def requestData (body : Option (Fields F)) : Except Raised (Option Bytes) :=
  match body with
  | none => .ok none
  | some body => do
      let t ← canonicalJson host.fmt (.obj body)
      let bytes ← encodeText t
      return some bytes

def requestJson (env : Env) (upstream : Nat → Attempt) (url method : Text) (body : Option (Fields F)) :
    Command Wire Raised (Fields F × Nat) := do
  let _ ← Command.ofExcept (timeoutSeconds host env)
  let retries ← Command.ofExcept (maxRetries host env)
  let backoff ← Command.ofExcept (retryBackoffSeconds host env)
  let data ← Command.ofExcept (requestData host body)
  let headers := requestHeaders env ++ if body.isSome then [(text "Content-Type", text "application/json")] else []
  retryLoop host upstream ⟨url, method, headers, data⟩ backoff retries.toNat 0

end Requests

section Bodies

variable (world : World)

def readFile (name label : Text) : Except Raised (Bytes × Fields F) := do
  let path ← world.resolve name
  match world.readBytes path with
  | .error message => throw (clientError (text "cannot read " ++ label ++ text ": " ++ message))
  | .ok data =>
    return (data, [(text "role", .str label), (text "path", .str path), (text "size_bytes", .int data.length),
      (text "sha256", .str (host.sha256 data))])

def readText (name label description : Text) : Except Raised (Text × Fields F) := do
  let (raw, entry) ← readFile host world name label
  match decode raw with
  | some t => return (t, entry)
  | none => throw (clientError (description ++ text " must be UTF-8"))

def requestText (name : Text) : Except Raised (Text × List (Fields F)) :=
  if name = text "-" then
    match decode world.stdin with
    | some t => .ok (t, [])
    | none => .error .unicodeDecodeError
  else (readText host world name (text "request_file") (text "request file")).map (fun r => (r.1, [r.2]))

def stateValue : Except Raised (Option (Value F) × List (Fields F)) :=
  match world.args.stateJson, world.args.stateFile with
  | some t, _ => (loadJson host t (text "--state-json")).map (fun v => (some v, []))
  | none, some name => do
      let (t, entry) ← readText host world name (text "state_file") (text "state file")
      let v ← loadJson host t (text "--state-file")
      return (some v, [entry])
  | none, none => .ok (none, [])

def optionalField (key : Text) : Option (Value F) → Fields F
  | some v => [(key, v)]
  | none => []

def flagFields (kind : Kind) (question : Text) (state : Option (Value F)) : Fields F :=
  [(text "kind", .str kind.text), (text "question", .str question)] ++
    optionalField (text "state") state ++
    optionalField (text "options") (world.args.options.map (fun options => .arr (options.map .str))) ++
    optionalField (text "strategy") (world.args.strategy.map (fun strategy => .str strategy.text)) ++
    optionalField (text "thinking") (world.args.thinking.map (fun thinking => .str thinking.text))

def flagBody : Except Raised (Fields F × List (Fields F)) :=
  match world.args.kind, world.args.question with
  | some kind, some question => do
      refuseIf (world.args.stateJson.isSome ∧ world.args.stateFile.isSome)
        (text "use only one of --state-json and --state-file")
      let (state, evidence) ← stateValue host world
      let body ← validate host (.obj (flagFields world kind question state))
      return (body, evidence)
  | _, _ => .error (clientError (text "--kind and --question are required"))

def fileBody (name : Text) : Except Raised (Fields F × List (Fields F)) := do
  let (t, evidence) ← requestText host world name
  let value ← loadJson host t (text "request file")
  let body ← validate host value
  return (body, evidence)

def pathOf (entry : Fields F) : Option Text :=
  match find (text "path") entry with
  | some (.str path) => some path
  | _ => none

/-- Each file once, by its path. -/
def addEvidence : List Text → List (Fields F) → Except Raised (List (Fields F))
  | [], evidence => .ok evidence
  | name :: names, evidence => do
      let (_, entry) ← readFile host world name (text "evidence_file")
      addEvidence names (if pathOf entry ∈ evidence.map pathOf then evidence else evidence ++ [entry])

def givenBody : Except Raised (Fields F × List (Fields F)) :=
  if truthy world.args.requestFile then fileBody host world (world.args.requestFile.getD []) else flagBody host world

def buildBody : Except Raised (Fields F × List (Fields F)) := do
  let (body, evidence) ← givenBody host world
  let evidence ← addEvidence host world world.args.evidenceFile evidence
  return (body, evidence)

end Bodies

section Audit

/-- The variables of main, and what a run leaves behind: the log, its own writes to it, and the output. -/
structure Run (F : Type) where
  log : Bytes
  writes : List (Fields F × Bytes) := []
  url : Option Text := none
  requestBody : Option (Fields F) := none
  responseBody : Option (Fields F) := none
  evidence : List (Fields F) := []
  attempts : Nat := 0
  wire : Wire := {}
  stdout : Option (Fields F) := none
  stderr : Option (Fields F) := none

def sys (disk : Disk) (call : SysCall) : Except Raised Unit :=
  match disk.fails call with
  | some message => .error (.osError message)
  | none => .ok ()

def checkParent (disk : Disk) : Except Raised Unit :=
  if disk.parentExisted then do
    sys disk .stat
    refuseIf (disk.parentMode &&& 0o077 ≠ 0) (text "audit directory permits group/other access: " ++ disk.parent)
  else sys disk .chmod

def checkRegular (disk : Disk) (path : Text) : Except Raised Unit :=
  if disk.regular then .ok ()
  else do
    sys disk .close
    throw (clientError (text "audit log is not a regular file: " ++ path))

def openLog (disk : Disk) (path : Text) : Except Raised Unit := do
  sys disk .exists
  sys disk .mkdir
  checkParent disk
  sys disk .open
  sys disk .fstat
  checkRegular disk path
  sys disk .fchmod

def cannotWrite (path : Text) : Raised → Raised
  | .osError message => clientError (text "cannot write audit log " ++ path ++ text ": " ++ message)
  | e => e

def Run.wrote (s : Run F) (event : Fields F) (bytes : Bytes) : Run F :=
  { s with log := s.log ++ bytes, writes := s.writes ++ [(event, bytes)] }

def Disk.takes (disk : Disk) (line : Bytes) : Bytes := line.take (max 1 (line.length - disk.cut))

/-- The count that write returns is not looked at. -/
def appendLine (disk : Disk) (path : Text) (record : Fields F) : Command (Run F) Raised (Fields F) := do
  Command.ofExcept (sys disk .flock)
  Command.ofExcept (sys disk .read)
  let s ← Command.state
  let (event, line) ← Command.ofExcept (nextEvent host.fmt host.sha256 path s.log record)
  Command.ofExcept (sys disk .write)
  Command.modify (fun s => s.wrote event (disk.takes line))
  Command.ofExcept (sys disk .fsync)
  return event

/-- The end of a with block: what close raises takes the place of what the block raised. -/
def closing {α : Type} (disk : Disk) (block : Command (Run F) Raised α) : Command (Run F) Raised α := do
  let ended ← Command.attempt block
  Command.ofExcept (sys disk .closeHandle)
  Command.ofExcept ended

def appendAudit (disk : Disk) (record : Fields F) : Command (Run F) Raised (Text × Fields F) := do
  let path ← Command.ofExcept disk.path
  Command.mapError (cannotWrite path) do
    Command.ofExcept (openLog disk path)
    let event ← closing disk (appendLine host disk path record)
    return (path, event)

def version : Text := text "0.3.0"

def hashOf : Option (Fields F) → Except Raised (Value F)
  | none => .ok .null
  | some body => (sha256Json host.fmt host.sha256 (.obj body)).map .str

def optionalText (t : Option Text) : Value F := (t.map .str).getD .null

def optionalBody (body : Option (Fields F)) : Value F := (body.map .obj).getD .null

def authority : Fields F :=
  [(text "decision_authority", .str (text "advisory_only")),
    (text "final_authorization", .str (text "external_approval_or_waiver_required"))]

structure Hashes (F : Type) where
  request : Value F
  response : Value F

def hashes (s : Run F) : Except Raised (Hashes F) := do
  let request ← hashOf host s.requestBody
  let response ← hashOf host s.responseBody
  return ⟨request, response⟩

def auditFields (world : World) (timestamp : Text) (s : Run F) (hashes : Hashes F) (error : Option Text) : Fields F :=
  [(text "schema_version", .int 1), (text "client_version", .str version), (text "timestamp", .str timestamp),
    (text "audit_id", .str world.auditId), (text "operation", .str (if world.args.info then text "info" else text "decide")),
    (text "endpoint", optionalText s.url), (text "argv", .arr (world.argv.map .str)),
    (text "request", optionalBody s.requestBody), (text "request_sha256", hashes.request),
    (text "response", optionalBody s.responseBody), (text "response_sha256", hashes.response),
    (text "evidence", .arr (s.evidence.map .obj)), (text "attempts", .int s.attempts),
    (text "outcome", .str (if truthy error then text "error" else text "success")), (text "error", optionalText error)] ++
    authority

def publicMetadata (world : World) (hashes : Hashes F) (attempts : Nat) (path : Text) : Fields F :=
  [(text "client_version", .str version), (text "audit_id", .str world.auditId), (text "audit_log", .str path),
    (text "request_sha256", hashes.request), (text "response_sha256", hashes.response), (text "attempts", .int attempts)] ++
    authority

end Audit

section Main

variable (world : World)

def hasDecisionInputs (args : Args) : Bool :=
  truthy args.requestFile || args.kind.isSome || truthy args.question || truthy args.stateJson || truthy args.stateFile ||
    !args.evidenceFile.isEmpty

def onWire {α : Type} (c : Command Wire Raised α) : Command (Run F) Raised α :=
  Command.focus Run.wire (fun wire s => { s with wire := wire }) c

def request (url method : Text) (body : Option (Fields F)) : Command (Run F) Raised Unit := do
  Command.modify (fun s => { s with url := some url })
  let (response, attempts) ← onWire (requestJson host world.env world.upstream url method body)
  Command.modify (fun s => { s with responseBody := some response, attempts := attempts })

def perform : Command (Run F) Raised Unit :=
  if world.args.info then
    if hasDecisionInputs world.args then
      Command.fail (clientError (text "--info cannot be combined with decision inputs"))
    else do
      let url ← Command.ofExcept (endpoint host (world.env.baseUrl.getD []) true)
      request host world url (text "GET") none
  else do
    let (body, evidence) ← Command.ofExcept (buildBody host world)
    Command.modify (fun s => { s with requestBody := some body, evidence := evidence })
    let url ← Command.ofExcept (endpoint host (world.env.baseUrl.getD []) false)
    request host world url (text "POST") (some body)

/-- json.dump to a stream. -/
def report (sink : Text → Option Raised) (document : Fields F) : Except Raised Unit :=
  let limits := ⟨host.fmt.limits.digits, host.printDepth⟩
  if Proper limits (.obj document) then
    match sink (dumps compact host.fmt.floatstr (.obj document) ++ ['\n'.toNat]) with
    | some e => .error e
    | none => .ok ()
  else .error ((fault limits (.obj document)).getD .valueError)

def tryMain : Command (Run F) Raised Unit := do
  perform host world
  let s ← Command.state
  let hashes ← Command.ofExcept (hashes host s)
  let (path, _) ← appendAudit host world.disk (auditFields world world.timestamp s hashes none)
  let result := Dict.assign (text "_jev_client") (.obj (publicMetadata world hashes s.attempts path)) (s.responseBody.getD [])
  Command.ofExcept (report host world.stdout result)
  Command.modify (fun s => { s with stdout := some result })

def alsoFailed : Text := text "; audit logging also failed: "

/-- What the handler says and where the log is: it catches ClientError only. -/
def handlerMessage (message : Text) : Except Raised (Text × Fields F) → Except Raised (Text × Text)
  | .ok (path, _) => .ok (path, message)
  | .error (.clientError reason _) => do
      let path ← world.handlerDisk.path
      return (path, message ++ alsoFailed ++ reason)
  | .error e => .error e

def handleError (message : Text) (attempts : Nat) : Command (Run F) Raised Unit := do
  Command.modify (fun s => { s with attempts := max s.attempts attempts })
  let s ← Command.state
  let hashes ← Command.ofExcept (hashes host s)
  let appended ← Command.attempt
    (appendAudit host world.handlerDisk (auditFields world world.handlerTimestamp s hashes (some message)))
  let (path, message) ← Command.ofExcept (handlerMessage world message appended)
  let payload :=
    [(text "error", .str message), (text "_jev_client", .obj (publicMetadata world hashes s.attempts path))]
  Command.ofExcept (report host world.stderr payload)
  Command.modify (fun s => { s with stderr := some payload })

def main : Command (Run F) Raised Nat := do
  match ← Command.attempt (tryMain host world) with
  | .ok () => return 0
  | .error (.clientError message attempts) =>
    handleError host world message attempts
    return 2
  | .error (.osError message) =>
    handleError host world message 0
    return 2
  | .error e => Command.fail e

end Main

end ProductionStack.JevDecide
