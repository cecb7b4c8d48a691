import Strix.AdminAuth
import Strix.AuditLog
import Strix.SsoAuthority

/-!
# Auditing the admin API

A request to a protected route goes through four layers before its handler: audit,
CSRF, authentication and authorization, in this order.  The authentication layer
adds the user to the request it hands on; the audit layer has read the user from
the request it was handed, before it handed it on.

* `attributed_iff`: along a sequence of requests each leaves an entry of its own,
  with its user, exactly when none of them comes with a token that verifies and
  their request ids are new and all different.
-/

namespace Strix

open MachineRuns RowTable

/-! ## Requests and layers -/

/-- The text of a method. -/
def Method.text : Method → String
  | get => "GET"
  | head => "HEAD"
  | post => "POST"
  | put => "PUT"
  | delete => "DELETE"
  | other name => name

/-- A request as the layers see it: what was sent, the peer's address, and the
extension that the authentication layer adds. -/
structure AdminRequest where
  method : Method
  path : String
  headers : RawHeaders := []
  peer : Option String := none
  user : Option AuthenticatedUser := none

structure AdminResponse where
  status : Nat
  headers : List (String × String) := []
  deriving DecidableEq, Repr

/-- The rest of the layers. -/
abbrev Next := AdminRequest → AdminResponse

/-- CSRF protection configuration, with the origin that `url::Url::parse` reads
from a `Referer`. -/
structure CsrfConfig where
  allowedOrigins : List String
  enabled : Bool := true
  refererOrigin : String → Option String

/-- `csrf_middleware`: does it hand the request on? -/
def CsrfConfig.lets (csrf : CsrfConfig) (req : AdminRequest) : Bool :=
  if req.method = .get ∨ req.method = .head ∨ req.method = .other "OPTIONS" then true
  else if !csrf.enabled then true
  else
    match (req.headers.text "origin") <|> (req.headers.text "referer").bind csrf.refererOrigin with
    | some origin => csrf.allowedOrigins.contains origin
    | none => true

def csrfLayer (csrf : CsrfConfig) (req : AdminRequest) (next : Next) : AdminResponse :=
  if csrf.lets req then next req else { status := 403 }

/-- `auth_middleware`. -/
def authLayer (config : SessionConfig) (now : DateTime) (req : AdminRequest) (next : Next) :
    AdminResponse :=
  match authMiddleware config now (req.headers.text "authorization") with
  | .ok user => next { req with user := some user }
  | .error e => { status := e.status }

/-- `authorize_middleware`. -/
def authorizeLayer (iam : IamStore) (req : AdminRequest) (next : Next) : AdminResponse :=
  match req.user with
  | none => { status := 401 }
  | some user =>
    match authorizeMiddleware iam user req.method req.path with
    | .ok () => next req
    | .error e => { status := e.status }

/-- The request id: the first of the two headers that is there, if it is text, or
else the UUID that is drawn. -/
def AdminRequest.requestId (req : AdminRequest) (uuid : String) : String :=
  (((req.headers.lookup "x-request-id") <|> req.headers.lookup "x-amz-request-id").bind
    HeaderValue.toStr).getD uuid

/-- `StatusCode::is_success`. -/
def statusIsSuccess (status : Nat) : Bool := 200 ≤ status && status < 300

/-- The entry of a request, given the response and what the layer finds out itself. -/
def adminEntry (req : AdminRequest) (uuid : String) (finished : DateTime) (durationMs : Nat)
    (status : Nat) : AuditLogEntry where
  id := req.requestId uuid
  timestamp := finished
  operation := "Admin:" ++ req.method.text ++ " " ++ req.path
  principal := req.user.map (·.username)
  sourceIp := forwardedIp req.headers <|> req.peer
  statusCode := status
  errorCode := if statusIsSuccess status then none else some (toString status)
  durationMs := some durationMs
  requestId := req.requestId uuid

/-- `audit_middleware`: the response with the request id, and the log. -/
def auditLayer (uuid : String) (finished : DateTime) (durationMs : Nat) (req : AdminRequest)
    (next : Next) (log : AuditLog) : AdminResponse × AuditLog :=
  let response := next req
  let answered := { response with
    headers := ("x-request-id", req.requestId uuid) ::
      response.headers.filter fun h => h.1 != "x-request-id" }
  (answered, (logAuditEvent (adminEntry req uuid finished durationMs response.status) log).2)

/-- A request to a protected route, with what the server finds when it serves it:
the time, a drawn UUID, the IAM store, and what the handler answers. -/
structure AdminCall where
  request : AdminRequest
  fromOutside : request.user = none
  now : DateTime
  uuid : String
  finished : DateTime
  durationMs : Nat
  iam : IamStore
  handler : Next

variable (config : SessionConfig) (csrf : CsrfConfig)

/-- The layers under the audit layer. -/
def AdminCall.inner (call : AdminCall) : Next := fun req =>
  csrfLayer csrf req fun req =>
    authLayer config call.now req fun req =>
      authorizeLayer call.iam req call.handler

/-- A request to a protected route. -/
def AdminCall.serve (call : AdminCall) (log : AuditLog) : AdminResponse × AuditLog :=
  auditLayer call.uuid call.finished call.durationMs call.request (call.inner config csrf) log

/-- Requests to the admin API.  Public routes are not audited. -/
inductive AdminOp
  | publicRoute
  | protectedRoute (call : AdminCall)

/-- Requests one after another, over the audit log. -/
def adminRuns (log : AuditLog) : Machine AuditLog AdminOp (Option AdminResponse) where
  init := log
  step log op :=
    match op with
    | .publicRoute => (none, log)
    | .protectedRoute call =>
      let (response, log) := call.serve config csrf log
      (some response, log)

/-! ## What an entry should say -/

/-- The user whom `auth_middleware` lets through. -/
def AdminCall.authenticated (call : AdminCall) : Option AuthenticatedUser :=
  if csrf.lets call.request then
    (authMiddleware config call.now (call.request.headers.text "authorization")).toOption
  else none

/-- The entry says what was requested and what was answered. -/
structure Describes (call : AdminCall) (response : AdminResponse) (entry : AuditLogEntry) :
    Prop where
  operation : entry.operation =
    "Admin:" ++ call.request.method.text ++ " " ++ call.request.path
  status : entry.statusCode = response.status

/-- The request adds an entry of its own to the log, which describes it, and leaves
the others. -/
def LogsOwn (log : AuditLog) (call : AdminCall) (entry : AuditLogEntry) : Prop :=
  (call.serve config csrf log).2 = insertRow entry log ∧
    Describes call (call.serve config csrf log).1 entry

/-- **The request is logged**: it has an entry of its own. -/
def Logged (log : AuditLog) : AdminOp → Prop
  | .publicRoute => True
  | .protectedRoute call => ∃ entry, LogsOwn config csrf log call entry

/-- **The request is attributed**: the entry of its own names its user. -/
def Attributed (log : AuditLog) : AdminOp → Prop
  | .publicRoute => True
  | .protectedRoute call => ∃ entry, LogsOwn config csrf log call entry ∧
      ∀ user, call.authenticated config csrf = some user → entry.principal = some user.username

/-! ## What the layers write -/

/-- The entry that a protected route makes. -/
def AdminCall.entry (call : AdminCall) : AuditLogEntry :=
  adminEntry call.request call.uuid call.finished call.durationMs
    (call.inner config csrf call.request).status

/-- The entry that a request makes. -/
def AdminOp.entry : AdminOp → Option AuditLogEntry
  | publicRoute => none
  | protectedRoute call => some (call.entry config csrf)

variable {config csrf}

theorem adminRuns_logsTo (start : AuditLog) :
    LogsTo (adminRuns config csrf start) id AuditLogEntry.id (AdminOp.entry config csrf) := by
  intro log op
  cases op with
  | publicRoute => rfl
  | protectedRoute call => exact logAuditEvent_snd _ _

/-- **The entry of a request** is the one its layer makes, and it gets in exactly if
the request id is not in the log. -/
theorem logsOwn_iff {log : AuditLog} {call : AdminCall} {entry : AuditLogEntry} :
    LogsOwn config csrf log call entry ↔ entry = call.entry config csrf ∧
      ∀ row ∈ log, row.id ≠ call.request.requestId call.uuid := by
  have hlog : (call.serve config csrf log).2 =
      logRow AuditLogEntry.id (call.entry config csrf) log := logAuditEvent_snd _ _
  have hnew : (call.serve config csrf log).2 = insertRow (call.entry config csrf) log ↔
      ∀ row ∈ log, row.id ≠ call.request.requestId call.uuid := by
    rw [hlog]
    exact logRow_eq_insertRow_iff
  constructor
  · intro h
    obtain ⟨hinsert, -⟩ := h
    have hsame : (call.serve config csrf log).2 = insertRow (call.entry config csrf) log := by
      rw [hlog] at hinsert ⊢
      unfold logRow at hinsert ⊢
      split
      · rename_i htaken
        have hlength := congrArg List.length hinsert
        simp [htaken, insertRow] at hlength
      · rfl
    refine ⟨?_, hnew.mp hsame⟩
    rw [hinsert] at hsame
    exact (List.cons.inj (List.append_cancel_left hsame)).1
  · intro h
    obtain ⟨rfl, hfresh⟩ := h
    exact ⟨hnew.mpr hfresh, rfl, rfl⟩

/-- **No entry names a user.** -/
theorem entry_principal (call : AdminCall) : (call.entry config csrf).principal = none := by
  simp [AdminCall.entry, adminEntry, call.fromOutside]

/-- A request is attributed exactly if it is logged and not authenticated. -/
theorem attributed_protected_iff (log : AuditLog) (call : AdminCall) :
    Attributed config csrf log (.protectedRoute call) ↔
      call.authenticated config csrf = none ∧ Logged config csrf log (.protectedRoute call) := by
  constructor
  · intro h
    obtain ⟨entry, hown, hnames⟩ := h
    refine ⟨?_, entry, hown⟩
    cases huser : call.authenticated config csrf with
    | none => rfl
    | some user =>
        have hprincipal := hnames user huser
        rw [(logsOwn_iff.mp hown).1, entry_principal] at hprincipal
        cases hprincipal
  · intro h
    obtain ⟨hnobody, entry, hown⟩ := h
    refine ⟨entry, hown, fun user huser => ?_⟩
    rw [hnobody] at huser
    cases huser

/-- The request ids under which a sequence of requests is logged. -/
def requestIds (ops : List AdminOp) : List String :=
  ops.filterMap fun op => match op with
    | .publicRoute => none
    | .protectedRoute call => some (call.request.requestId call.uuid)

theorem entry_ids (config : SessionConfig) (csrf : CsrfConfig) (ops : List AdminOp) :
    (ops.filterMap (AdminOp.entry config csrf)).map AuditLogEntry.id = requestIds ops := by
  rw [requestIds, List.map_filterMap]
  congr 1
  funext op
  cases op <;> rfl

/-- **Every request is logged** exactly when the ids the requests are logged under
are all different and not in the log. -/
theorem logged_iff (log : AuditLog) (ops : List AdminOp) :
    (adminRuns config csrf log).AllSteps (Logged config csrf) log ops ↔
      (requestIds ops).Nodup ∧ ∀ id ∈ requestIds ops, ∀ row ∈ log, row.id ≠ id := by
  have hone : ∀ (s : AuditLog) (op : AdminOp), Logged config csrf s op ↔
      ∀ row, op.entry config csrf = some row → ∀ r ∈ s, r.id ≠ row.id := by
    intro s op
    cases op with
    | publicRoute =>
        refine iff_of_true trivial ?_
        intro row hentry
        cases hentry
    | protectedRoute call =>
        simp only [Logged, logsOwn_iff, exists_eq_left, AdminOp.entry, Option.some.injEq,
          forall_eq']
        rfl
  have hsteps : (adminRuns config csrf log).AllSteps (Logged config csrf) log ops ↔
      (adminRuns config csrf log).AllSteps (fun s op =>
        ∀ row, op.entry config csrf = some row → ∀ r ∈ s, r.id ≠ row.id) log ops :=
    Machine.allSteps_congr (I := fun _ => True) (fun _ _ _ => trivial) (fun s op _ => hone s op)
      trivial ops
  rw [hsteps, ← entry_ids config csrf, List.forall_mem_map]
  exact allSteps_logged_iff (adminRuns_logsTo log) log ops

/-- **Attribution of a sequence.**  Whatever the log, every request of a sequence is
attributed exactly when none of them is authenticated, and the ids they are logged
under are all different and not in the log. -/
theorem attributed_iff (log : AuditLog) (ops : List AdminOp) :
    (adminRuns config csrf log).AllSteps (Attributed config csrf) log ops ↔
      (∀ call, .protectedRoute call ∈ ops → call.authenticated config csrf = none) ∧
        (requestIds ops).Nodup ∧ ∀ id ∈ requestIds ops, ∀ row ∈ log, row.id ≠ id := by
  have hone : ∀ (s : AuditLog) (op : AdminOp), Attributed config csrf s op ↔
      (∀ call, op = .protectedRoute call → call.authenticated config csrf = none) ∧
        Logged config csrf s op := by
    intro s op
    cases op with
    | publicRoute =>
        refine iff_of_true trivial ⟨?_, trivial⟩
        intro call heq
        cases heq
    | protectedRoute call => simp [attributed_protected_iff]
  have hsteps : (adminRuns config csrf log).AllSteps (Attributed config csrf) log ops ↔
      (adminRuns config csrf log).AllSteps (fun s op =>
        (∀ call, op = .protectedRoute call → call.authenticated config csrf = none) ∧
          Logged config csrf s op) log ops :=
    Machine.allSteps_congr (I := fun _ => True) (fun _ _ _ => trivial) (fun s op _ => hone s op)
      trivial ops
  have hnobody : (∀ op ∈ ops, ∀ call, op = .protectedRoute call →
        call.authenticated config csrf = none) ↔
      ∀ call, .protectedRoute call ∈ ops → call.authenticated config csrf = none :=
    ⟨fun h call hcall => h _ hcall call rfl, fun h op hop call heq => h call (heq ▸ hop)⟩
  rw [hsteps, Machine.allSteps_and_forall_iff, hnobody, logged_iff]

/-! ## Requests of root -/

def rootSession : SessionConfig := { tokens := rootTokens, expiry := 3600 }

def localOrigins : CsrfConfig where
  allowedOrigins := ["http://localhost:9001", "http://127.0.0.1:9001"]
  refererOrigin := fun _ => none

/-- `GET /config`, which is answered 200. -/
def configCall (headers : RawHeaders) (uuid : String) : AdminCall where
  request := { method := .get, path := "/config", headers := headers, peer := some "10.0.0.1" }
  fromOutside := rfl
  now := 0
  uuid := uuid
  finished := 0
  durationMs := 1
  iam := { rootAccessKey := "ROOTKEY", rootSecretKey := "root-secret", db := {} }
  handler := fun _ => { status := 200 }

/-- A request with the session token of root. -/
def tokenCall : AdminCall :=
  configCall [("authorization", asciiHeader "Bearer eyJ")] "550e8400-e29b-41d4-a716-446655440000"

/-- A request without a token, under an id of the client's choice. -/
def chosenIdCall : AdminCall := configCall [("x-request-id", asciiHeader "1")] ""

theorem tokenCall_authenticated :
    (tokenCall.authenticated rootSession localOrigins).map (·.username) = some "root" := by
  decide

/-- **A request with a token that verifies is logged without its user.** -/
theorem authenticated_unattributed :
    ¬ ∀ (config : SessionConfig) (csrf : CsrfConfig) (log : AuditLog) (ops : List AdminOp),
      (adminRuns config csrf log).AllSteps (Attributed config csrf) log ops := by
  intro h
  obtain ⟨hroot, -⟩ := h rootSession localOrigins [] [.protectedRoute tokenCall]
  have hnobody := ((attributed_protected_iff [] tokenCall).mp hroot).1
  have hnone := tokenCall_authenticated
  rw [hnobody] at hnone
  cases hnone

/-- The second request under an id leaves no entry. -/
example : ((adminRuns rootSession localOrigins []).after []
    [.protectedRoute chosenIdCall, .protectedRoute chosenIdCall]).length = 1 := by decide

end Strix
