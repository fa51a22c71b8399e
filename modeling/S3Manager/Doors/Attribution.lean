import S3Manager.Auth.CsrfBinding
import S3Manager.Doors.WriteGuards
import S3Manager.Tokens.Authenticate

/-! The application as a whole: tokens are issued, edited and revoked, tool calls and requests of
browsers arrive with their headers and cookies, and the S3 requests of those that were let in
interleave. Whatever is lost or changed in the store is then the work of a token that was good, or
of a session that was live, when the request came. -/

set_option autoImplicit false

namespace S3Manager.Doors

open Python Utils Access Storage Library Tokens Config

section Model

/-- A tool of the MCP server with the arguments of a call. -/
inductive McpTool where
  | listFiles (pages : Nat) (role : Option Str) (bucket path : Str) (recursive : Bool)
      (maxKeys : Option Int) (continuationToken : Option Str)
  | bucketSummary (pages : Nat) (role : Option Str) (bucket path : Str)
  | uploadFile (role : Option Str) (bucket path : Str) (maxFileSize estimatedSize : Int)
      (content : Bytes)
  | deleteFile (pages : Nat) (role : Option Str) (bucket path : Str)
  | readFile (rules : Mcp.TextRules) (role : Option Str) (bucket path : Str) (forceText : Bool)
  | copyObject (pages : Nat) (role : Option Str)
      (sourceBucket sourcePath destBucket destPath : Str) (deleteSource : Bool)
  | getObjectMetadata (role : Option Str) (bucket path : Str)
  | presignedUrl (role : Option Str) (bucket path : Str) (expiresIn : Int)

def McpTool.operation (token : Mcp.Token) : McpTool → StorageOperation
  | .listFiles pages role bucket path recursive maxKeys continuationToken =>
      .mcpListFiles pages role bucket path recursive maxKeys continuationToken
  | .bucketSummary pages role bucket path => .mcpBucketSummary pages role bucket path
  | .uploadFile role bucket path maxFileSize estimatedSize content =>
      .mcpUploadFile token role bucket path maxFileSize estimatedSize content
  | .deleteFile pages role bucket path => .mcpDeleteFile pages token role bucket path
  | .readFile rules role bucket path forceText => .mcpReadFile rules token role bucket path forceText
  | .copyObject pages role sourceBucket sourcePath destBucket destPath deleteSource =>
      .mcpCopyObject pages token role sourceBucket sourcePath destBucket destPath deleteSource
  | .getObjectMetadata role bucket path => .mcpGetObjectMetadata role bucket path
  | .presignedUrl role bucket path expiresIn => .mcpPresignedUrl role bucket path expiresIn

/-- A route of the web server that asks S3, with the arguments of a request. -/
inductive WebRoute where
  | listFiles (pages : Nat) (role : Option Str) (bucketName path : Str) (query : Web.ListQuery)
  | uploadFile (role : Option Str) (bucketName : Str) (form : Web.UploadForm) (maxFileSize : Int)
  | downloadFile (role : Option Str) (bucketName path : Str)
  | getPresignedUrl (role bucketName path op : Str) (defaultTtl maxTtl : Int)
      (expiresIn : Option Int)
  | deleteFile (pages : Nat) (role : Option Str) (bucketName path : Str)
      (disableDeletionEnv : Bool)

namespace WebRoute

def operation : WebRoute → StorageOperation
  | listFiles pages role bucketName path query => .webListFiles pages role bucketName path query
  | uploadFile role bucketName form maxFileSize => .webUploadFile role bucketName form maxFileSize
  | downloadFile role bucketName path => .webDownloadFile role bucketName path
  | getPresignedUrl role bucketName path op defaultTtl maxTtl expiresIn =>
      .webGetPresignedUrl role bucketName path op defaultTtl maxTtl expiresIn
  | deleteFile pages role bucketName path disableDeletionEnv =>
      .webDeleteFile pages role bucketName path disableDeletionEnv

/-- The route depends on `verify_csrf_token`. -/
def verifiesCsrf : WebRoute → Bool
  | uploadFile .. | deleteFile .. => true
  | _ => false

end WebRoute

/-- A tool call as it arrives. The config is read once to let it in, and again for the tool. -/
structure ToolCall where
  authConfig : Dict
  authorization : Option Str
  now : Int
  config : Dict
  tool : McpTool

/-- A request of a browser, with the config that its route reads. -/
structure Visit where
  exchange : Auth.Exchange
  config : Dict
  route : WebRoute

/-- What the application has besides its tokens. -/
structure App where
  server : Server
  jwt : Auth.Jwt
  environ : Environ
  expireMinutes : Int

def ToolCall.authenticate (app : App) (rows : Rows) (call : ToolCall) :
    Result (ApiToken × McpUser) × Rows :=
  authenticateMcpRequest app.server call.authConfig call.authorization call.now rows

/-- The principal that the dependencies of the route make. -/
def Visit.identify (app : App) (visit : Visit) : Result Auth.Principal :=
  if visit.route.verifiesCsrf then
    visit.exchange.mutate app.jwt app.environ app.expireMinutes
  else
    (visit.exchange.currentUser app.jwt app.environ app.expireMinutes).map Prod.fst

/-- The fields of the token that the tools look at. -/
def mcpToken (token : ApiToken) : Mcp.Token := ⟨token.isReadOnly, token.maxReadBytes⟩

/-- The user that a request runs for. What roles an administrator is allowed is not read. -/
structure ActsAs (admin : Bool) (allowed : List Json) (default : Option Json) (user : UserDict) :
    Prop where
  isAdmin : user.isAdmin = admin
  allowedRoles : admin = false → user.allowedRoles.map Json.str = allowed
  defaultRole : admin = false → user.defaultRole.map Json.str = default

def ToolCall.made (call : ToolCall) (token : ApiToken) (user : UserDict) : DoorCall :=
  ⟨call.config, user, call.tool.operation (mcpToken token)⟩

def Visit.made (visit : Visit) (user : UserDict) : DoorCall :=
  ⟨visit.config, user, visit.route.operation⟩

/-- A call that was let in, and what is left of its program. -/
structure Running where
  made : DoorCall
  rest : S3Program made.operation.Answer

def DoorCall.start (unicode : Unicode) (made : DoorCall) : Running :=
  ⟨made, made.operation.program unicode made.config made.user⟩

structure AppState where
  rows : Rows
  world : World
  running : List Running

inductive AppEvent where
  | token (action : ServerAction)
  | calls (call : ToolCall)
  | visits (visit : Visit)
  /-- a request for a route that asks nothing of S3; its answer may set a cookie -/
  | looks (exchange : Auth.Exchange)
  /-- the next S3 request of a running call -/
  | serves (index : Nat)

inductive AppStep (unicode : Unicode) (conventions : Conventions) (app : App) :
    AppState → AppEvent → AppState → Prop where
  | token {state : AppState} (action : ServerAction) :
      AppStep unicode conventions app state (.token action)
        { state with rows := action.after app.server state.rows }
  | callRefused {state : AppState} {call : ToolCall} {exc : PyError} :
      (call.authenticate app state.rows).1 = .error exc →
      AppStep unicode conventions app state (.calls call)
        { state with rows := (call.authenticate app state.rows).2 }
  | callAdmitted {state : AppState} {call : ToolCall} {token : ApiToken} {principal : McpUser}
      {user : UserDict} :
      (call.authenticate app state.rows).1 = .ok (token, principal) →
      ActsAs principal.isAdmin principal.allowedRoles none user →
      AppStep unicode conventions app state (.calls call)
        { state with
          rows := (call.authenticate app state.rows).2
          running := state.running ++ [(call.made token user).start unicode] }
  | visitRefused {state : AppState} {visit : Visit} {exc : PyError} :
      visit.identify app = .error exc →
      AppStep unicode conventions app state (.visits visit) state
  | visitAdmitted {state : AppState} {visit : Visit} {principal : Auth.Principal}
      {user : UserDict} :
      visit.identify app = .ok principal →
      ActsAs principal.isAdmin principal.allowedRoles principal.defaultRole user →
      AppStep unicode conventions app state (.visits visit)
        { state with running := state.running ++ [(visit.made user).start unicode] }
  | looks {state : AppState} (exchange : Auth.Exchange) :
      AppStep unicode conventions app state (.looks exchange) state
  | serves {state : AppState} {index : Nat} {made : DoorCall} {request : Effect}
      {next : request.Reply → S3Program made.operation.Answer} :
      state.running[index]? = some ⟨made, .perform request next⟩ →
      AppStep unicode conventions app state (.serves index)
        { state with
          world := (handle conventions request state.world).2
          running := state.running.set index ⟨made, next (handle conventions request state.world).1⟩ }

end Model

section Law

variable (app : App)

abbrev AppTrace := List (AppState × AppEvent)

/-- What has happened to the rows of the tokens. -/
def tokenTrace (trace : AppTrace) : List (Rows × ServerAction) :=
  trace.filterMap fun visited =>
    match visited.2 with
    | .token action => some (visited.1.rows, action)
    | .calls call => some (visited.1.rows, .request call.authConfig call.authorization call.now)
    | .visits _ | .looks _ | .serves _ => none

/-- The exchanges with browsers, whose answers are what sets cookies. -/
def exchangeTrace (trace : AppTrace) : List Auth.Exchange :=
  trace.filterMap fun visited =>
    match visited.2 with
    | .visits visit => some visit.exchange
    | .looks exchange => some exchange
    | .token _ | .calls _ | .serves _ => none

/-- No cookie is forged, and no token for a header guessed: whenever a request comes whose route
verifies the token, this is so for the exchanges before it. -/
def Unforged (events : AppTrace) : Prop :=
  ∀ index state visit, events[index]? = some (state, AppEvent.visits visit) →
    visit.route.verifiesCsrf = true →
      Auth.Trusted app.jwt app.environ app.expireMinutes (exchangeTrace (events.take index))
        visit.exchange

/-- The token is good after these events: it was issued, for the bearer of a text with this hash
and for this user, and no revocation of it has been answered normally. -/
structure GoodToken (before : AppTrace) (token : ApiToken) : Prop where
  issued : ∃ visited ∈ tokenTrace before, ∃ text made,
    visited.2.Issues app.server visited.1 text made ∧
      SameToken made token ∧ token.tokenHash = app.server.sha256 text
  alive : ∀ visited ∈ tokenTrace before, visited.2.revoked app.server visited.1 ≠ some token.id

/-- Whose request it is that is let in after these events. -/
inductive LetIn (before : AppTrace) (state : AppState) : AppEvent → DoorCall → Prop where
  /-- It bears the text of a good token, and is made as the owner of the token. -/
  | token {call : ToolCall} {token : ApiToken} {principal : McpUser} {user : UserDict}
      {account : User} {plaintext : Str} :
      call.authorization = some (bearer ++ plaintext) →
      token.tokenHash = app.server.sha256 plaintext → token ∈ state.rows →
      GoodToken app before token → account ∈ app.server.accounts → account.id = token.userId →
      account.principal call.authConfig = .ok principal →
      ActsAs principal.isAdmin principal.allowedRoles none user →
      LetIn before state (.calls call) (call.made token user)
  /-- It shows a live cookie that was set for the user it is forwarded for, with the token of its
  header, and is made as this user with the rights of the groups it is forwarded with. -/
  | session {visit : Visit} {principal : Auth.Principal} {user : UserDict} :
      Auth.Bound app.jwt app.environ app.expireMinutes (exchangeTrace before) visit.exchange →
      visit.exchange.mutate app.jwt app.environ app.expireMinutes = .ok principal →
      ActsAs principal.isAdmin principal.allowedRoles principal.defaultRole user →
      LetIn before state (.visits visit) (visit.made user)

/-- At some moment a request was let in that has the leave. -/
def HadLeave (leave : DoorCall → Prop) (trace : AppTrace) : Prop :=
  ∃ before state event after made, trace = before ++ (state, event) :: after ∧
    LetIn app before state event made ∧ leave made

end Law

section Runs

variable {unicode : Unicode} {conventions : Conventions} {app : App} {bucket key : Str}
  {world : World} {trace : AppTrace} {state next : AppState} {event : AppEvent}

theorem tokenTrace_snoc (trace : AppTrace) (state : AppState) (event : AppEvent) :
    tokenTrace (trace ++ [(state, event)]) = tokenTrace trace ++ tokenTrace [(state, event)] :=
  List.filterMap_append

theorem unforged_init {last : AppState × AppEvent} (unforged : Unforged app (trace ++ [last])) :
    Unforged app trace := by
  intro index state visit there verifies
  have inside := (List.getElem?_eq_some_iff.mp there).1
  have trusted := unforged index state visit
    ((List.getElem?_append_left inside).trans there) verifies
  rwa [List.take_append_of_le_length (Nat.le_of_lt inside)] at trusted

theorem unforged_last {visit : Visit}
    (unforged : Unforged app (trace ++ [(state, .visits visit)]))
    (verifies : visit.route.verifiesCsrf = true) :
    Auth.Trusted app.jwt app.environ app.expireMinutes (exchangeTrace trace) visit.exchange := by
  have trusted := unforged trace.length state visit (by simp) verifies
  rwa [List.take_left] at trusted

/-- The tokens see nothing but their own actions and the calls that come. -/
theorem token_step (tokens : Execution (ServerStep app.server) [] (tokenTrace trace) state.rows)
    (step : AppStep unicode conventions app state event next) :
    Execution (ServerStep app.server) [] (tokenTrace (trace ++ [(state, event)])) next.rows := by
  rw [tokenTrace_snoc]
  cases step with
  | token action => exact .snoc tokens (.act action)
  | callRefused | callAdmitted => exact .snoc tokens (.act (.request _ _ _))
  | visitRefused | visitAdmitted | looks | serves =>
      simp only [tokenTrace, List.filterMap_cons, List.filterMap_nil, List.append_nil]
      exact tokens

/-- A tool call that is let in bears a good token. -/
theorem letIn_of_authenticated {call : ToolCall} {token : ApiToken} {principal : McpUser}
    {user : UserDict}
    (tokens : Execution (ServerStep app.server) [] (tokenTrace trace) state.rows)
    (admitted : (call.authenticate app state.rows).1 = .ok (token, principal))
    (acts : ActsAs principal.isAdmin principal.allowedRoles none user) :
    LetIn app trace state (.calls call) (call.made token user) := by
  have ledger := ledger_run tokens
  obtain ⟨plaintext, header, -, member, hash, active, account, known, own, is⟩ :=
    authenticate_ok ledger.kept admitted
  exact .token header hash member
    ⟨ledger_issued ledger member, (ledger.alive token member).mp active⟩ known own is acts

/-- A request of a browser that is let in to change something is bound to a live session. -/
theorem letIn_of_identified {visit : Visit} {principal : Auth.Principal} {user : UserDict}
    (unforged : Unforged app (trace ++ [(state, .visits visit)]))
    (verifies : visit.route.verifiesCsrf = true) (admitted : visit.identify app = .ok principal)
    (acts : ActsAs principal.isAdmin principal.allowedRoles principal.defaultRole user) :
    LetIn app trace state (.visits visit) (visit.made user) := by
  rw [Visit.identify, if_pos verifies] at admitted
  exact .session (Auth.mutation_bound (unforged_last unforged verifies) admitted) admitted acts

/-- The other routes put and take nothing. -/
theorem verifies_of_may {visit : Visit} {user : UserDict}
    (may : (visit.made user).MayStore unicode bucket key ∨
      (visit.made user).MayErase unicode bucket key) : visit.route.verifiesCsrf = true := by
  obtain ⟨exchange, config, route⟩ := visit
  cases route with
  | uploadFile | deleteFile => rfl
  | listFiles | downloadFile | getPresignedUrl =>
      obtain stores | erases := may
      · exact stores.names.elim
      · exact erases.names.elim

theorem hadLeave_snoc {leave : DoorCall → Prop} (last : AppState × AppEvent)
    (had : HadLeave app leave trace) : HadLeave app leave (trace ++ [last]) := by
  obtain ⟨before, state, event, after, made, rfl, admitted, holds⟩ := had
  exact ⟨before, state, event, after ++ [last], made, by simp, admitted, holds⟩

theorem changesOnly_mono {store erase store' erase' : Prop} {held later : Store}
    (changes : ChangesOnly bucket key store erase held later) (stores : store → store')
    (erases : erase → erase') : ChangesOnly bucket key store' erase' held later :=
  ⟨fun there gone => erases (changes.lost there gone),
    fun stored here other => stores (changes.changed stored here other)⟩

/-- The object changes between two worlds by leave of the trace only. -/
def ChangesByLeave (unicode : Unicode) (app : App) (bucket key : Str) (trace : AppTrace)
    (first later : World) : Prop :=
  ChangesOnly bucket key (HadLeave app (DoorCall.MayStore unicode bucket key) trace)
    (HadLeave app (DoorCall.MayErase unicode bucket key) trace) first.store later.store

theorem changesByLeave_snoc {first later : World} (last : AppState × AppEvent)
    (changes : ChangesByLeave unicode app bucket key trace first later) :
    ChangesByLeave unicode app bucket key (trace ++ [last]) first later :=
  changesOnly_mono changes (hadLeave_snoc last) (hadLeave_snoc last)

/-- What has happened to one object so far, and what the running calls may still do to it. -/
structure Attributed (unicode : Unicode) (conventions : Conventions) (app : App)
    (bucket key : Str) (world : World) (trace : AppTrace) (state : AppState) : Prop where
  tokens : Execution (ServerStep app.server) [] (tokenTrace trace) state.rows
  store : ChangesByLeave unicode app bucket key trace world state.world
  running : ∀ call ∈ state.running, call.rest.Confined (handle conventions) Eq
    (ChangesByLeave unicode app bucket key trace)

theorem running_snoc
    (running : ∀ call ∈ state.running, call.rest.Confined (handle conventions) Eq
      (ChangesByLeave unicode app bucket key trace)) (last : AppState × AppEvent) :
    ∀ call ∈ state.running, call.rest.Confined (handle conventions) Eq
      (ChangesByLeave unicode app bucket key (trace ++ [last])) :=
  fun call member => Program.confined_weaken (running call member) fun _ _ =>
    changesByLeave_snoc last

/-- A call that starts at the last event changes what it has leave for. -/
theorem start_confined (made : DoorCall)
    (letIn : made.MayStore unicode bucket key ∨ made.MayErase unicode bucket key →
      LetIn app trace state event made) :
    (made.start unicode).rest.Confined (handle conventions) Eq
      (ChangesByLeave unicode app bucket key (trace ++ [(state, event)])) :=
  confined_call_leave
    (fun may => ⟨trace, state, event, [], made, rfl, letIn (.inl may), may⟩)
    fun may => ⟨trace, state, event, [], made, rfl, letIn (.inr may), may⟩

theorem attributed_step
    (unforged : Unforged app (trace ++ [(state, event)]))
    (attributed : Attributed unicode conventions app bucket key world trace state)
    (step : AppStep unicode conventions app state event next) :
    Attributed unicode conventions app bucket key world (trace ++ [(state, event)]) next := by
  have tokens := token_step attributed.tokens step
  have store := changesByLeave_snoc (state, event) attributed.store
  have running := running_snoc attributed.running (state, event)
  cases step with
  | token | callRefused | visitRefused | looks => exact ⟨tokens, store, running⟩
  | @callAdmitted call token principal user admitted acts =>
      refine ⟨tokens, store, fun other member => ?_⟩
      obtain earlier | new := List.mem_append.mp member
      · exact running other earlier
      · obtain rfl := List.mem_singleton.mp new
        exact start_confined (call.made token user) fun _ =>
          letIn_of_authenticated attributed.tokens admitted acts
  | @visitAdmitted visit principal user admitted acts =>
      refine ⟨tokens, store, fun other member => ?_⟩
      obtain earlier | new := List.mem_append.mp member
      · exact running other earlier
      · obtain rfl := List.mem_singleton.mp new
        exact start_confined (visit.made user) fun may =>
          letIn_of_identified unforged (verifies_of_may may) admitted acts
  | @serves index made request next asks =>
      obtain ⟨kept, onward⟩ := (running _ (List.mem_of_getElem? asks)).1 state.world
      refine ⟨tokens, changesOnly_trans store kept, fun other member => ?_⟩
      obtain earlier | rfl := List.mem_or_eq_of_mem_set member
      · exact running other earlier
      · exact onward

theorem attributed_run
    (run : Execution (AppStep unicode conventions app) ⟨[], world, []⟩ trace state)
    (unforged : Unforged app trace) :
    Attributed unicode conventions app bucket key world trace state := by
  refine @Execution.history AppState AppEvent (AppStep unicode conventions app)
    (fun trace state => Unforged app trace →
      Attributed unicode conventions app bucket key world trace state) ?_ _ _ _ run ?_ unforged
  · intro trace state event next before step honest
    exact attributed_step honest (before (unforged_init honest)) step
  · exact fun _ => ⟨.nil, changesOnly_refl _, by simp⟩

/-- The application of the stand, before anybody has a token. -/
def standApp : App where
  server := ada
  jwt := Auth.Jwt.quoted
  environ := Auth.secretEnviron
  expireMinutes := 1

/-- A first look of a user in the group `stand`, whose answer sets a cookie. -/
def browserLook : Auth.Exchange where
  request :=
    ⟨fun name => if name = Auth.trustedGroupsHeader then some (lit "stand")
      else Auth.readOne Auth.trustedUsernameHeader (lit "ann") name, fun _ => none⟩
  now := 0
  config := standConfig
  generated := lit "t"

/-- An upload with this cookie and its token. -/
def browserVisit : Visit where
  exchange :=
    { request :=
        ⟨fun name => if name = Auth.csrfHeader then some (lit "t") else browserLook.request.header name,
          Auth.readOne Auth.sessionCookie Auth.annCookie⟩
      now := 1
      config := standConfig
      generated := lit "u" }
  config := standConfig
  route := .uploadFile (some (lit "stand")) (lit "data") ⟨lit "stand-a/x", [0], none⟩ 10

def annUser : UserDict where
  isAdmin := false
  allowedRoles := [lit "stand"]
  defaultRole := some (lit "stand")

theorem annUser_acts :
    ActsAs false [.str (lit "stand")] (some (.str (lit "stand"))) annUser :=
  ⟨rfl, fun _ => rfl, fun _ => rfl⟩

theorem browserVisit_trusted :
    Auth.Trusted Auth.Jwt.quoted Auth.secretEnviron 1 [browserLook] browserVisit.exchange where
  unforged key cookie claims _ carried _ := by
    obtain rfl : Auth.annCookie = cookie := Option.some.inj carried
    exact ⟨browserLook, List.mem_cons_self, _, rfl⟩
  fresh sent member := by
    obtain rfl | earlier := List.mem_cons.mp member
    · decide
    · obtain rfl := List.mem_singleton.mp earlier
      decide

end Runs

end S3Manager.Doors
