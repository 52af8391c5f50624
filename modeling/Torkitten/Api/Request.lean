import Torkitten.Access.Operations
import Torkitten.Access.Token
import Torkitten.Bootstrap.Setup

/-!
# Requests to the local console

What the handlers of `internal/api` read of a request and write to a response, and the state that
the daemon keeps in memory besides its store. A request is taken as `net/http` and `mime` parse it:
the path, the cookies, the media type, the form and the JSON body are those that their parsers
yield.
-/

namespace Torkitten.Api

open Proc

/-- `localHost`. -/
def localHost : String := "localhost:12755"

/-- `localOrigin`. -/
def localOrigin : String := "http://localhost:12755"

/-- `localsession.CookieName`. -/
def sessionCookie : String := "torkitten_admin"

inductive Method where
  | get
  | post
  | other (name : String)
  deriving DecidableEq, Repr

/-- `input`: the JSON body of a request. -/
structure Input where
  prefixLabel : String := ""
  oldPrefix : String := ""
  id : String := ""
  name : String := ""
  action : String := ""
  confirmation : String := ""
  port : ℤ := 0
  lifetimeHours : ℤ := 0
  protocol : Protocol := .other ""
  enabled : Bool := false
  scopes : List Scope := []
  username : String := ""
  password : String := ""
  newPassword : String := ""
  totp : String := ""
  deriving DecidableEq, Repr

/-- The mapping that a request describes. -/
def Input.mapping (input : Input) : Mapping :=
  { prefixLabel := input.prefixLabel, port := input.port, protocol := input.protocol, enabled := true }

/-- `http.Request`, as far as the handlers read it. -/
structure Request where
  host : String
  urlHost : String := ""
  urlScheme : String := ""
  method : Method
  path : String
  /-- The value of `prefix` in the query. -/
  queryPrefix : String := ""
  /-- The cookies, with their names. -/
  cookies : List (String × String) := []
  authorization : String := ""
  origin : String := ""
  csrfToken : String := ""
  /-- What `mime.ParseMediaType` makes of the content type, unless it fails. -/
  mediaType : Option String := none
  /-- What `ParseForm` makes of the body, unless it fails. -/
  form : Option (List (String × String)) := none
  /-- What `decode` makes of the body, unless it fails. -/
  body : Option Input := none
  deriving DecidableEq, Repr

namespace Request

variable (r : Request)

/-- `Request.Cookie`. -/
def cookie (name : String) : Option String := r.cookies.lookup name

/-- `Request.FormValue`. -/
def formValue (name : String) : String := ((r.form.getD []).lookup name).getD ""

/-- `jsonType`. -/
def jsonType : Bool := r.mediaType == some "application/json"

/-- `bearerToken`. -/
def bearerToken : String :=
  if r.authorization.startsWith "Bearer " && r.authorization.utf8ByteSize < 256 then
    String.ofList (r.authorization.toList.drop 7)
  else ""

end Request

/-- `validConfirmation`. -/
def validConfirmation (a b : String) : Bool := equalFold (trimSpace a) b

/-- A cookie that a response sets. -/
structure SetCookie where
  name : String
  value : String
  maxAge : ℤ
  deriving DecidableEq, Repr

/-- `clearCookie`. -/
def clearCookie (name : String) : SetCookie := { name, value := "", maxAge := -1 }

/-- The content of a response. -/
inductive Content where
  | empty
  | text (body : String)
  /-- `render`: a template with its token and its error. -/
  | page (name csrf error : String)
  | image
  | ok
  | mappings (mappings : List Mapping) (publication : Bool) (onion : String)
  | state (s : State)
  | device (id name credential : String) (expiresAt : Time)
  | rotated (onion : String) (credentials : List RotatedCredential)
  | token (id token : String)

/-- `http.ResponseWriter`, as far as the handlers write it. -/
structure Response where
  status : ℕ := 200
  location : String := ""
  cookies : List SetCookie := []
  content : Content := .empty

namespace Response

/-- `http.NotFound`. -/
def notFound : Response := { status := 404, content := .text "404 page not found" }

/-- `http.Redirect` with the status for a form. -/
def seeOther (location : String) : Response := { status := 303, location }

/-- `deny`. -/
def denied : Response := { status := 403, content := .text "denied" }

/-- `fail`. -/
def failed : Response := { status := 500, content := .text "request failed" }

/-- The answer of `result` to an error. -/
def refused : Response := { status := 400, content := .text "request failed" }

/-- The answer of `result` to nil. -/
def done : Response := { content := .ok }

/-- Set another cookie. -/
def set (response : Response) (name value : String) (maxAge : ℤ) : Response :=
  { response with cookies := response.cookies ++ [{ name, value, maxAge }] }

/-- Clear a cookie. -/
def clear (response : Response) (name : String) : Response :=
  { response with cookies := response.cookies ++ [clearCookie name] }

/-- Set cookies before the others. -/
def after (response : Response) (cookies : List SetCookie) : Response :=
  { response with cookies := cookies ++ response.cookies }

end Response

/-! ## The daemon -/

/-- `loginFlow`, with its key and the owner of its factor session. -/
structure LoginFlow where
  id : String
  owner : String
  expires : Time
  deriving DecidableEq, Repr

/-- A secret that the random source has yielded for a credential. -/
inductive Draw where
  | session (issued : Issued)
  | token (grant : Grant)
  | device (pending : PendingDevice)
  deriving DecidableEq, Repr

/-- The daemon: the system with its store, and what its managers and its server keep in memory. The
last two fields record what has happened; no handler reads them. -/
structure Site where
  world : World
  /-- `Login.flows`. -/
  flows : List LoginFlow
  /-- The flow of the bootstrap manager. -/
  setup : Option Bootstrap.SetupFlow
  /-- The expiry of the TOTP flow of the onboarding manager. -/
  totp : Option Time
  /-- The minute that the limiter counts, and its two counters. -/
  minute : ℤ
  general : ℕ
  authentication : ℕ
  /-- The places taken in the semaphore. -/
  serving : ℕ
  /-- The owners of the logins of which Authelia has verified both factors, newest first. -/
  verified : List String
  /-- The credentials drawn, newest first. -/
  drawn : List Draw

/-- What a handler does. -/
abbrev Handler := Proc Site Event GoError

/-- Run an operation on the system. -/
def onWorld {α : Type} (c : Op α) : Handler α := .focus Site.world (fun site world => { site with world }) c

/-- Replace the error that a call may return. -/
def failing {α : Type} (err : GoError) (c : Handler α) : Handler α := do
  match ← c.attempt with
  | .ok a => return a
  | .error _ => .fail err

/-- Answer with what a call returns, or refuse. -/
def answer {α : Type} (c : Handler α) (response : α → Response) : Handler Response := do
  match ← c.attempt with
  | .ok a => return response a
  | .error _ => return .refused

/-- `result`. -/
def result (c : Handler Unit) : Handler Response := answer c fun _ => .done

end Torkitten.Api
