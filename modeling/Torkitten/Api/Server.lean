import Torkitten.Api.Request

/-!
# The local console

The handlers of `internal/api`, and the methods of the login, bootstrap and onboarding managers that
they call. Requests are served one after another here; `Bootstrap.Setup` and `Access.Credentials`
follow the interleaving of setup requests and of logins. The files of Authelia belong to
`Bootstrap.Setup`; here the calls that change them only succeed or fail.
-/

namespace Torkitten.Api

open Proc

/-- The parts that the server is built with: the digest, the paths and the renderer, and the secret
of its forms. -/
structure Server where
  digest : Digest
  runtime : Runtime
  secret : List UInt8

/-- `hmac.New(sha256.New, key)` for a key of at most one block. -/
def hmac (digest : Digest) (key data : List UInt8) : List UInt8 :=
  let block := (key ++ List.replicate 64 0).take 64
  digest.sum (block.map (· ^^^ 0x5c) ++ digest.sum (block.map (· ^^^ 0x36) ++ data))

/-! ## Commands -/

/-- The supervisor has been given a command. -/
def commanded (c : Component) (command : Supervisor.Command) (w : World) : World :=
  { w with commands := (c, command) :: w.commands }

/-- `supervisor.Name` of a text. -/
def componentOf (name : String) : Option Component :=
  match name with
  | "tor" => some .tor
  | "caddy" => some .caddy
  | "authelia" => some .authelia
  | _ => none

/-- `Supervisor.command` by name. -/
def command (name : String) (c : Supervisor.Command) : Op Unit :=
  match componentOf name with
  | none => .fail (.new "unknown or inactive component")
  | some component => .modify (commanded component c)

/-- `Supervisor.Action`. -/
def componentAction (name action : String) : Op Unit :=
  match action with
  | "start" => command name .start
  | "stop" => command name .stop
  | "restart" => command name .restart
  | _ => .fail (.new "invalid component action")

/-- A call of another process that the system does not follow. -/
def externalCall : Handler Unit := onWorld (serviceCall id)

/-- A change of a file that the system does not follow. -/
def externalWrite : Handler Unit := onWorld (diskCall some)

/-! ## Factors -/

/-- `Client.BeginFactors`. -/
def beginFactors (username : String) (password : List UInt8) : Handler Unit :=
  if (validateUsername username).isSome || password.length < 1 || password.length > 128 then
    .fail (.new "authentication failed")
  else failing (.new "authentication failed") do
    externalCall
    externalCall

/-- `FactorSession.Complete`. -/
def completeFactors (code : String) : Handler Unit :=
  if !matchesClass Char.isDigit 6 code then .fail (.new "authentication failed")
  else failing (.new "authentication failed") externalCall

/-- `Client.Verify` and `AuthenticateFactors`. -/
def verifyFactors (username : String) (password : List UInt8) (code : String) : Handler Unit := do
  beginFactors username password
  completeFactors code

/-! ## Logins -/

/-- `Login.Begin`. -/
def loginBegin (owner : String) (password : List UInt8) : Handler String := do
  beginFactors owner password
  let raw ← onWorld (randomBytes 32)
  let id := base64Encode raw
  let now ← onWorld now
  .modify fun site => { site with flows := site.flows.filter fun flow => now < flow.expires }
  let site ← get
  if site.flows.length ≥ 32 then .fail (.new "too many login attempts")
  else do
    .modify fun site => { site with flows := site.flows.filter (fun flow => flow.id != id) ++
      [{ id, owner, expires := now + 5 * minute }] }
    return id

/-- `Login.Complete`. -/
def loginComplete (id code : String) : Handler String := do
  let site ← get
  .modify fun site => { site with flows := site.flows.filter fun flow => flow.id != id }
  match site.flows.find? fun flow => flow.id == id with
  | none => .fail (.new "authentication failed")
  | some flow =>
    let now ← onWorld now
    if !decide (now < flow.expires) then .fail (.new "authentication failed")
    else do
      completeFactors code
      .modify fun site => { site with verified := flow.owner :: site.verified }
      return flow.owner

namespace Server

variable (srv : Server)

/-- `Manager.Create` of sessions. -/
def createSession (owner : String) : Handler String := do
  let issued ← onWorld (createIssued srv.digest owner)
  .modify fun site => { site with drawn := .session issued :: site.drawn }
  return issued.cookie

/-- `Manager.Create` of tokens. -/
def createToken (name : String) (scopes : List Scope) (lifetime : Duration) :
    Handler (String × String) := do
  let grant ← onWorld (createGrant srv.digest name scopes lifetime)
  .modify fun site => { site with drawn := .token grant :: site.drawn }
  return (grant.token, hexEncode grant.id)

end Server

/-- `Manager.CreateDevice`. -/
def createDevice (name : String) : Handler (PendingDevice × String) := do
  let (pending, credential) ← onWorld (Torkitten.createDevice name)
  .modify fun site => { site with drawn := .device pending :: site.drawn }
  return (pending, credential)

/-! ## First-time setup -/

/-- `StopAuthelia`. -/
def stopAuthelia : Handler Unit := do
  onWorld (.modify (commanded .authelia .stop))
  externalCall

/-- `StartAuthelia`. -/
def startAuthelia : Handler Unit := do
  onWorld (.modify (commanded .authelia .start))
  externalCall

/-- `HashPassword`. -/
def hashPassword (password : List UInt8) : Handler Unit :=
  if password.length < 12 || password.length > 128 || password.contains 0 then
    .fail (.new "password must contain 12-128 bytes")
  else externalCall

/-- `Manager.Begin` for an installation that `setupRoute` has found without an owner. -/
def setupBegin (username : String) (password confirmation : List UInt8) : Handler String :=
  if !Bootstrap.acceptsDetails username password confirmation then
    .fail (.new "invalid setup details")
  else do
    .modify fun site => { site with setup := none }
    hashPassword password
    failing (.new "could not reconcile Authelia") stopAuthelia
    failing (.new "could not clear incomplete setup")
      (forEach (fun _ => externalWrite) [Bootstrap.StaleFile.database, .wal, .shm, .qr])
    externalWrite
    failing (.new "Authelia did not become ready") startAuthelia
    externalCall
    let raw ← onWorld (randomBytes 32)
    let id := base64Encode raw
    let now ← onWorld now
    .modify fun site => { site with setup := some { id, username, password, expires := now + 10 * minute } }
    return id

/-- `validFlow`. -/
def validFlow (id : String) : Handler (Option Bootstrap.SetupFlow) := do
  let site ← get
  match site.setup with
  | none => return none
  | some flow =>
    let now ← onWorld now
    if now < flow.expires && id == flow.id then return some flow
    else do
      let later ← onWorld Torkitten.now
      if later < flow.expires then return none
      else do
        .modify fun site => { site with setup := none }
        return none

/-- `Manager.QR`. -/
def setupQR (id : String) : Handler Unit := do
  match ← validFlow id with
  | none => .fail (.new "file does not exist")
  | some _ => externalWrite

/-- `Manager.Complete`. -/
def Server.setupComplete (srv : Server) (id code : String) : Handler String := do
  match ← validFlow id with
  | none => .fail (.new "setup expired")
  | some flow =>
    failing (.new "authentication failed") (verifyFactors flow.username flow.password code)
    let issued ← onWorld (issue flow.username)
    .modify fun site => { site with drawn := .session issued :: site.drawn }
    onWorld (srv.runtime.completeSetup (issued.record srv.digest))
    .modify fun site => { site with setup := none }
    ignore externalWrite
    return issued.cookie

/-! ## The credentials of the owner -/

/-- `FinishAuth`. -/
def finishAuth : Handler Unit := onWorld (restartComponent .authelia)

/-- `Manager.ChangePassword`. -/
def changePassword (username : String) (oldPassword newPassword confirmation : List UInt8)
    (code : String) : Handler Unit :=
  if newPassword.length < 12 || newPassword.length > 128 || newPassword != confirmation ||
      newPassword.contains 0 then
    .fail (.new "invalid credential change")
  else do
    verifyFactors username oldPassword code
    failing (.new "password change failed") do
      onWorld revokeAllSessions
      externalCall
    finishAuth

/-- `Manager.BeginTOTP`. -/
def beginTOTP (username : String) (password : List UInt8) (code : String) : Handler Unit := do
  verifyFactors username password code
  failing (.new "TOTP change failed") externalCall
  let now ← onWorld now
  .modify fun site => { site with totp := some (now + 10 * minute) }

/-- The TOTP flow is there and has not expired; an expired one is dropped. -/
def validTOTP : Handler Bool := do
  let site ← get
  match site.totp with
  | none => return false
  | some expires =>
    let now ← onWorld now
    if now < expires then return true
    else do
      .modify fun site => { site with totp := none }
      return false

/-- `Manager.CompleteTOTP`. -/
def completeTOTP : Handler Unit := do
  if !(← validTOTP) then .fail (.new "TOTP change expired")
  else do
    onWorld revokeAllSessions
    failing (.new "TOTP change failed") externalCall
    .modify fun site => { site with totp := none }
    finishAuth

/-- `Manager.Expire`. -/
def expire : Handler Unit := do
  let _ ← validTOTP
  onWorld expirePending

/-! ## Credentials of a request -/

/-- `Manager.State`. -/
def currentState : Handler State := onWorld viewState

namespace Server

variable (srv : Server)

/-- `flowCSRF`. -/
def flowCSRF (value : String) : String := base64Encode (hmac srv.digest srv.secret (utf8 value))

/-- `preauth`: the token of the forms, and the cookie it sets. -/
def preauth (r : Request) : Handler (String × List SetCookie) := do
  match (r.cookie "torkitten_flow").filter fun value => value.utf8ByteSize == 43 with
  | some value => return (srv.flowCSRF value, [])
  | none =>
    let value := match ← (onWorld (randomBytes 32)).attempt with
      | .ok raw => base64Encode raw
      | .error _ => ""
    return (srv.flowCSRF value, [{ name := "torkitten_flow", value, maxAge := 900 }])

/-- `validForm`. -/
def validForm (r : Request) (csrf : String) : Bool :=
  r.mediaType == some "application/x-www-form-urlencoded" && r.origin == localOrigin &&
    r.form.isSome && r.formValue "csrf" == csrf

/-- `browserAuth`: the cookie and what it stands for. -/
def browserAuth (r : Request) : Handler (Option (String × Auth)) :=
  match r.cookie sessionCookie with
  | none => return none
  | some cookie => do
    match ← (onWorld (authenticate srv.digest cookie)).attempt with
    | .ok auth => return some (cookie, auth)
    | .error _ => return none

/-- `validMutation`. -/
def validMutation (r : Request) (cookie csrf : String) : Bool :=
  r.origin == localOrigin && r.jsonType && validateCSRF srv.digest cookie csrf &&
    r.csrfToken == csrf

/-- The call of `Authorize` in `mappingAuth` and `mappingWriteAuth`. -/
def tokenAuth (r : Request) (scope : Scope) : Handler Bool := do
  match ← (onWorld (authorize srv.digest r.bearerToken scope)).attempt with
  | .ok _ => return true
  | .error _ => return false

/-- `mappingAuth`. -/
def mappingAuth (r : Request) (scope : Scope) : Handler Bool :=
  if r.bearerToken ≠ "" then srv.tokenAuth r scope
  else do
    let auth ← srv.browserAuth r
    return auth.isSome

/-- `mappingWriteAuth`. -/
def mappingWriteAuth (r : Request) : Handler Bool :=
  if r.bearerToken ≠ "" then srv.tokenAuth r .mappingsWrite
  else do
    match ← srv.browserAuth r with
    | none => return false
    | some (cookie, auth) => return srv.validMutation r cookie auth.csrf

/-! ## Routes -/

/-- `setupRoute` of an installation without an owner. -/
def setupForm (r : Request) (csrf : String) : Handler Response :=
  match r.method, r.path with
  | .get, "/setup" => return { content := .page "setup.html" csrf "" }
  | .post, "/setup/password" =>
    if !validForm r csrf then return .denied
    else do
      match ← (setupBegin (r.formValue "username") (utf8 (r.formValue "password"))
          (utf8 (r.formValue "confirmation"))).attempt with
      | .error _ => return { content := .page "setup.html" csrf "Setup could not continue." }
      | .ok id => return (Response.seeOther "/setup/totp").set "torkitten_setup" id 600
  | .get, "/setup/totp" => return { content := .page "setup_totp.html" csrf "" }
  | .get, "/setup/qr" =>
    match r.cookie "torkitten_setup" with
    | none => return .notFound
    | some id => do
      match ← (setupQR id).attempt with
      | .error _ => return .notFound
      | .ok _ => return { content := .image }
  | .post, "/setup/totp" =>
    if !validForm r csrf then return .denied
    else
      match r.cookie "torkitten_setup" with
      | none => return .denied
      | some id => do
        match ← (srv.setupComplete id (r.formValue "totp")).attempt with
        | .error _ => return { content := .page "setup_totp.html" csrf "Authentication failed." }
        | .ok cookie =>
          return ((Response.seeOther "/").set sessionCookie cookie (12 * 60 * 60)).clear
            "torkitten_setup"
  | _, _ => return .notFound

/-- `setupRoute`. -/
def setupRoute (r : Request) : Handler Response := do
  if (← currentState).initialized then return .notFound
  else do
    let (csrf, cookies) ← srv.preauth r
    let response ← srv.setupForm r csrf
    return response.after cookies

/-- `finishLogin`. -/
def finishLogin (r : Request) (csrf : String) : Handler Response :=
  if !validForm r csrf then return .denied
  else
    match r.cookie "torkitten_login" with
    | none => return .denied
    | some id => do
      match ← (loginComplete id (r.formValue "totp")).attempt with
      | .error _ =>
        return { content := .page "login_totp.html" csrf "Authentication failed. Start over." }
      | .ok owner =>
        match ← (srv.createSession owner).attempt with
        | .error _ => return .failed
        | .ok cookie =>
          return ((Response.seeOther "/").set sessionCookie cookie (12 * 60 * 60)).clear
            "torkitten_login"

/-- `loginRoute` of an installation with an owner. -/
def loginForm (r : Request) (csrf : String) : Handler Response :=
  match r.method, r.path with
  | .get, "/login" => return { content := .page "login.html" csrf "" }
  | .post, "/login/password" =>
    if !validForm r csrf then return .denied
    else do
      match ← (loginBegin (r.formValue "username") (utf8 (r.formValue "password"))).attempt with
      | .error _ => return { content := .page "login.html" csrf "Authentication failed." }
      | .ok id => return (Response.seeOther "/login/totp").set "torkitten_login" id 300
  | .get, "/login/totp" => return { content := .page "login_totp.html" csrf "" }
  | .post, "/login/totp" => srv.finishLogin r csrf
  | _, _ => return .notFound

/-- `loginRoute`. -/
def loginRoute (r : Request) : Handler Response := do
  if !(← currentState).initialized then return .seeOther "/setup"
  else do
    let (csrf, cookies) ← srv.preauth r
    let response ← srv.loginForm r csrf
    return response.after cookies

/-- `dashboard`. -/
def dashboard (r : Request) : Handler Response :=
  if r.method ≠ .get then return .notFound
  else do
    if !(← currentState).initialized then return .seeOther "/setup"
    else
      match ← srv.browserAuth r with
      | none => return .seeOther "/login"
      | some (_, auth) => return { content := .page "dashboard.html" auth.csrf "" }

/-- `logout`. -/
def logout (r : Request) : Handler Response := do
  match ← srv.browserAuth r with
  | none => return .denied
  | some (cookie, auth) =>
    if r.method ≠ .post || !srv.validMutation r cookie auth.csrf then return .denied
    else do
      ignore (onWorld (revokeSession auth.id))
      return { status := 204, cookies := [clearCookie sessionCookie] }

/-- An error that is due to a missing confirmation. -/
def unconfirmed : Handler Unit := .fail (.new "confirmation required")

/-- The end of `mappingRoute`. -/
def mappingAction (path : String) (input : Input) : Handler Response :=
  match path with
  | "/api/mappings/create" => result (onWorld (srv.runtime.createMapping input.mapping))
  | "/api/mappings/update" => result (onWorld (srv.runtime.updateMapping input.oldPrefix
      { input.mapping with enabled := input.enabled }))
  | "/api/mappings/enable" =>
    result (onWorld (srv.runtime.enableMapping input.prefixLabel input.enabled))
  | "/api/mappings/delete" =>
    result (if validConfirmation input.confirmation "DELETE" then
      onWorld (srv.runtime.deleteMapping input.id) else unconfirmed)
  | "/api/mappings/test" => result (onWorld (Runtime.testMapping input.mapping))
  | _ => return .notFound

/-- `mappingRoute`. -/
def mappingRoute (r : Request) : Handler Response :=
  if r.path = "/api/mappings" ∧ r.method = .get then do
    if !(← srv.mappingAuth r .mappingsRead) then return .denied
    else do
      let current ← currentState
      return { content := .mappings current.mappings current.publication (current.host "") }
  else if r.method ≠ .post || !r.jsonType then return .denied
  else do
    if !(← srv.mappingWriteAuth r) then return .denied
    else
      match r.body with
      | none => return { status := 400, content := .text "invalid request" }
      | some input => srv.mappingAction r.path input

/-- `ServePending`, as a file or as a QR code. -/
def servePending (qr : Bool) : Handler Response := do
  let current ← currentState
  match current.pending with
  | none => return .notFound
  | some pending =>
    let now ← onWorld now
    if !decide (now < pending.expiresAt) then return .notFound
    else
      match Tor.credential current.serviceID pending.privateKey with
      | .error _ => return .failed
      | .ok credential => return { content := if qr then .image else .text (credential ++ "\n") }

/-- `applicationQR`. -/
def applicationQR (r : Request) : Handler Response := do
  let current ← currentState
  if current.mappings.any (fun m => m.prefixLabel == r.queryPrefix) &&
      (r.queryPrefix == "" || prefixRE r.queryPrefix) && serviceIDRE current.serviceID then
    return { content := .image }
  else return .notFound

/-- `sensitiveRead`. -/
def sensitiveRead (r : Request) : Handler Response :=
  match r.path with
  | "/api/state" => do return { content := .state (← currentState) }
  | "/api/devices/pending.auth_private" => servePending false
  | "/api/devices/pending.png" => servePending true
  | "/api/application.png" => applicationQR r
  | _ => return .notFound

/-- Run an action that needs a confirmation. -/
def confirmed (input : Input) (word : String) (c : Handler Unit) : Handler Unit :=
  if validConfirmation input.confirmation word then c else unconfirmed

/-- The action of `/api/identity/rotate`. -/
def rotate (input : Input) : Handler (String × List RotatedCredential) := do
  let credentials ← onWorld (srv.runtime.rotateIdentity input.confirmation)
  return ((← currentState).host "", credentials)

/-- `sensitiveAction`. -/
def sensitiveAction (path : String) (input : Input) : Handler Response :=
  match path with
  | "/api/devices/create" => answer (createDevice input.name) fun (pending, credential) =>
      { content := .device pending.id pending.name credential pending.expiresAt }
  | "/api/devices/acknowledge" => result (onWorld (acknowledgeDevice input.id))
  | "/api/devices/revoke" => result (confirmed input "REVOKE" (onWorld (revokeDevice input.id)))
  | "/api/publication" =>
    result (confirmed input (if input.enabled then "START" else "STOP")
      (onWorld (srv.runtime.setPublication input.enabled)))
  | "/api/components" =>
    result (if input.action ≠ "start" && !validConfirmation input.confirmation input.action.toUpper
      then unconfirmed else onWorld (componentAction input.name input.action))
  | "/api/sessions/revoke" => result (confirmed input "REVOKE" (onWorld (revokeSession input.id)))
  | "/api/identity/rotate" => answer (srv.rotate input) fun (onion, credentials) =>
      { content := .rotated onion credentials }
  | "/api/owner/password" => answer (changePassword input.username (utf8 input.password)
      (utf8 input.newPassword) (utf8 input.confirmation) input.totp)
      fun _ => Response.done.clear sessionCookie
  | "/api/owner/totp/begin" => answer (beginTOTP input.username (utf8 input.password) input.totp)
      fun _ => { content := .image }
  | "/api/owner/totp/complete" => answer completeTOTP fun _ => Response.done.clear sessionCookie
  | "/api/tokens/create" =>
    if input.lifetimeHours < 0 ∨ 8760 < input.lifetimeHours then return .refused
    else answer (srv.createToken input.name input.scopes (input.lifetimeHours * hour))
      fun (token, id) => { content := .token id token }
  | "/api/tokens/revoke" => result (confirmed input "REVOKE" (onWorld (revokeToken input.id)))
  | _ => return .notFound

/-- `apiRoute`. -/
def apiRoute (r : Request) : Handler Response :=
  if r.path = "/api/mappings" ∨ r.path.startsWith "/api/mappings/" then srv.mappingRoute r
  else do
    match ← srv.browserAuth r with
    | none => return .denied
    | some (cookie, auth) =>
      if r.method = .get then sensitiveRead r
      else if r.method ≠ .post || !srv.validMutation r cookie auth.csrf then return .denied
      else
        match r.body with
        | none => return { status := 400, content := .text "invalid request" }
        | some input => srv.sensitiveAction r.path input

/-- `asset`; the embedded files do not depend on the state. -/
def asset (r : Request) : Handler Response :=
  if r.method ≠ .get then return .notFound else return {}

/-- `allow` of the server. -/
def allowPath (path : String) : Handler Bool := do
  let now ← onWorld now
  .modify fun site =>
    if site.minute ≠ now / minute then
      { site with minute := now / minute, general := 0, authentication := 0 }
    else site
  if path.startsWith "/login" || path.startsWith "/setup" then do
    .modify fun site => { site with authentication := site.authentication + 1 }
    return (← get).authentication ≤ 30
  else do
    .modify fun site => { site with general := site.general + 1 }
    return (← get).general ≤ 240

/-- The part of `ServeHTTP` that holds a place of the semaphore. -/
def dispatch (r : Request) : Handler Response := do
  if !(← allowPath r.path) then return { status := 429, content := .text "too many requests" }
  else if r.path.startsWith "/assets/" then asset r
  else if r.path.startsWith "/setup" then srv.setupRoute r
  else if r.path.startsWith "/login" then srv.loginRoute r
  else if r.path = "/" then srv.dashboard r
  else if r.path = "/logout" then srv.logout r
  else if r.path.startsWith "/api/" then srv.apiRoute r
  else return .notFound

/-- `ServeHTTP`. -/
def serveHTTP (r : Request) : Handler Response :=
  if r.host ≠ localHost ∨ r.urlHost ≠ "" ∨ r.urlScheme ≠ "" then return .notFound
  else do
    if (← get).serving ≥ 32 then return { status := 503, content := .text "busy" }
    else do
      .modify fun site => { site with serving := site.serving + 1 }
      let response ← (srv.dispatch r).attempt
      .modify fun site => { site with serving := site.serving - 1 }
      match response with
      | .ok response => return response
      | .error err => .fail err

end Server

end Torkitten.Api
