import Torkitten.Control.Changes

/-!
# The Caddy configuration of a state

`Renderer.Render` of `internal/caddy`. The configuration is built as a document of sites, named
matchers and handle blocks, and printed as the text the source writes, so that statements about
what Caddy does with a request can be made about the document. Only the parts of the Caddyfile
language that the renderer uses are modelled.
-/

namespace Torkitten.Caddy

/-- `Renderer`. -/
structure Renderer where
  adminSocket : String
  onionTLSSocket : String
  onionHTTPSocket : String
  autheliaSocket : String
  launcherRoot : String
  storageRoot : String
  targetHost : String
  aliases : List String
  publicRoot : String
  deriving DecidableEq, Repr

/-- `DefaultRenderer`. -/
def defaultRenderer : Renderer where
  adminSocket := "/run/torkitten/caddy-admin.sock"
  onionTLSSocket := "/run/torkitten/caddy-https.sock"
  onionHTTPSocket := "/run/torkitten/caddy-http.sock"
  autheliaSocket := "/run/torkitten/authelia.sock"
  launcherRoot := "/usr/share/torkitten/launcher"
  storageRoot := "/var/lib/torkitten/caddy/storage"
  targetHost := "127.0.0.1"
  aliases := []
  publicRoot := ""

/-! ## Documents -/

/-- The two sockets Caddy listens on. -/
inductive Listener where
  | tls
  | http
  deriving DecidableEq, Repr

/-- A named matcher: it accepts a request for one of the hosts, with one of the paths and
methods when they are given. -/
structure Matcher where
  hosts : List String
  paths : Option (List String)
  methods : Option (List String)
  deriving DecidableEq, Repr

/-- A step of a `route` block. -/
inductive RouteStep where
  /-- Remove a header of the request. -/
  | requestHeader (name : String)
  /-- Ask Authelia to authorise the request. -/
  | forwardAuth (socket : String)
  /-- Hand the request to Authelia. -/
  | reverseProxy (socket : String)
  deriving DecidableEq, Repr

/-- A directive of a `handle` block. -/
inductive Directive where
  | route (steps : List RouteStep)
  /-- Answer one path with a fixed body. -/
  | respond (name path : String) (headers : List String) (body : String)
  /-- Serve the files of the launcher. -/
  | files (root : String)
  /-- Hand the request to an application. -/
  | reverseProxy (upstream : String)
  deriving DecidableEq, Repr

/-- A `handle` block with its matcher. -/
structure Handle where
  name : String
  matcher : Matcher
  directives : List Directive
  deriving DecidableEq, Repr

/-- A site. It answers every request of its listener: with the first handle block that accepts
the request, and otherwise with 404. -/
structure Site where
  listener : Listener
  hosts : List String
  bind : String
  /-- Whether the block restricts the TLS versions. -/
  versions : Bool
  handles : List Handle
  deriving DecidableEq, Repr

/-- A configuration. -/
structure Caddyfile where
  adminSocket : String
  storageRoot : String
  sites : List Site
  deriving DecidableEq, Repr

/-! ## Their text -/

/-- The scheme of a listener. -/
def Listener.scheme : Listener → String
  | .tls => "https"
  | .http => "http"

/-- The catch-all address of a listener. -/
def Listener.catchAll : Listener → String
  | .tls => ":443"
  | .http => ":80"

/-- The text of a matcher: a line, or a block when it restricts more than the host. -/
def Matcher.text (name : String) (m : Matcher) : String :=
  match m.paths, m.methods with
  | some paths, some methods =>
    "\t@" ++ name ++ " \x7b\n\t\thost " ++ String.intercalate " " m.hosts ++ "\n\t\tpath " ++
      String.intercalate " " paths ++ "\n\t\tmethod " ++ String.intercalate " " methods ++ "\n\t\x7d\n"
  | _, _ => "\t@" ++ name ++ " host " ++ String.intercalate " " m.hosts ++ "\n"

/-- The headers set on every request that goes to Authelia. -/
def forwardedHeaders : String :=
  "\t\t\t\theader_up X-Forwarded-For 127.0.0.1\n" ++
    "\t\t\t\theader_up X-Forwarded-Host \x7bhttp.request.host\x7d\n" ++
    "\t\t\t\theader_up X-Forwarded-Proto https\n"

def RouteStep.text : RouteStep → String
  | .requestHeader name => "\t\t\trequest_header -" ++ name ++ "\n"
  | .forwardAuth socket =>
    "\t\t\tforward_auth unix/" ++ socket ++ " \x7b\n\t\t\t\turi /login/api/authz/forward-auth\n" ++
      forwardedHeaders ++ "\t\t\t\tcopy_headers Remote-User Remote-Groups Remote-Email Remote-Name\n" ++
      "\t\t\t\x7d\n"
  | .reverseProxy socket =>
    "\t\t\treverse_proxy unix/" ++ socket ++ " \x7b\n" ++ forwardedHeaders ++ "\t\t\t\x7d\n"

/-- The headers of the launcher's own files. -/
def launcherHeaders : String :=
  "\t\theader \x7b\n\t\t\tCache-Control no-store\n\t\t\tContent-Security-Policy \"default-src 'self'; " ++
    "img-src 'self' data:; style-src 'self'; script-src 'self'; connect-src 'self'; " ++
    "base-uri 'none'; frame-ancestors 'none'; form-action 'self'\"\n" ++
    "\t\t\tReferrer-Policy no-referrer\n\t\t\tX-Content-Type-Options nosniff\n\t\t\x7d\n"

def Directive.text : Directive → String
  | .route steps => "\t\troute \x7b\n" ++ String.join (steps.map RouteStep.text) ++ "\t\t\x7d\n"
  | .respond name path headers body =>
    "\t\t@" ++ name ++ " path " ++ path ++ "\n" ++
      String.join (headers.map fun h => "\t\theader @" ++ name ++ " " ++ h ++ "\n") ++
      "\t\trespond @" ++ name ++ " `" ++ body ++ "` 200\n"
  | .files root => launcherHeaders ++ "\t\troot * " ++ root ++ "\n\t\tfile_server\n"
  | .reverseProxy upstream => "\t\treverse_proxy " ++ upstream ++ "\n"

def Handle.text (h : Handle) : String :=
  h.matcher.text h.name ++ "\thandle @" ++ h.name ++ " \x7b\n" ++
    String.join (h.directives.map Directive.text) ++ "\t\x7d\n"

def Site.text (s : Site) : String :=
  String.intercalate ", " ((s.hosts ++ [s.listener.catchAll]).map (s.listener.scheme ++ "://" ++ ·)) ++
    " \x7b\n\tbind unix/" ++ s.bind ++ "\n" ++
    (if s.versions then "\ttls \x7b\n\t\tprotocols tls1.2 tls1.3\n\t\x7d\n" else "") ++
    String.join (s.handles.map Handle.text) ++ "\trespond \"not found\" 404\n\x7d\n"

/-- The text of a configuration. -/
def Caddyfile.text (c : Caddyfile) : String :=
  "\x7b\n\tadmin unix/" ++ c.adminSocket ++ "\n\tpersist_config off\n\tstorage file_system \x7b\n\t\troot " ++
    c.storageRoot ++ "\n\t\x7d\n\tpki \x7b\n\t\tca local \x7b\n\t\t\tname \"Torkitten Local CA\"\n" ++
    "\t\t\tintermediate_lifetime 17520h\n\t\t\x7d\n\t\x7d\n\tcert_issuer internal \x7b\n\t\tlifetime 9528h\n" ++
    "\t\x7d\n\tskip_install_trust\n\tauto_https disable_redirects\n\x7d\n\n" ++
    String.intercalate "\n" (c.sites.map Site.text)

/-! ## Rendering -/

/-- `untrustedHeaders`. -/
def untrustedHeaders : List String :=
  ["Remote-User", "Remote-Groups", "Remote-Email", "Remote-Name", "X-Forwarded-For",
    "X-Forwarded-Host", "X-Forwarded-Proto", "X-Forwarded-URI", "X-Forwarded-Method"]

/-- `hosts`. -/
def hosts (ids : List String) (label : String) : List String := ids.map (hostOf · label)

/-- The enabled mappings as the launcher names them: name and address. -/
def launcherApps (s : State) (mappings : List Mapping) : List (String × String) :=
  (mappings.filter Mapping.enabled).map fun m =>
    (m.prefixLabel, "https://" ++ s.host m.prefixLabel ++ "/")

/-- The document that lists the applications of the launcher. -/
def appsJSON (apps : List (String × String)) : String :=
  "\x7b\"apps\":[" ++ String.intercalate "," (apps.map fun app =>
    "\x7b\"name\":" ++ jsonString app.1 ++ ",\"url\":" ++ jsonString app.2 ++ "\x7d") ++ "]\x7d"

/-- `launcherJSON`. -/
def launcherJSON (s : State) (mappings : List Mapping) : String := appsJSON (launcherApps s mappings)

/-- The paths of the login portal. -/
def portalPaths : List String :=
  ["/login", "/login/", "/login/2fa/one-time-password", "/login/2fa/password",
    "/login/authenticated", "/login/logout", "/login/favicon.ico", "/login/manifest.json",
    "/login/robots.txt", "/login/static/*", "/login/locales", "/login/locales/*",
    "/login/api/state", "/login/api/configuration", "/login/api/configuration/password-policy",
    "/login/api/checks/safe-redirection", "/login/api/firstfactor", "/login/api/logout",
    "/login/api/user/info", "/login/api/secondfactor/totp"]

/-- The methods of the login portal. -/
def portalMethods : List String := ["GET", "HEAD", "POST"]

/-- `safeHost`: `^[a-z0-9.-]+$`. -/
def safeHost (v : String) : Bool :=
  !v.toList.isEmpty && v.toList.all fun c => isLabelChar c || c == '.'

/-- `sort.Strings`. -/
def sortStrings (values : List String) : List String := values.insertionSort fun a b => ¬ b < a

namespace Renderer

variable (r : Renderer)

/-- The paths that `Render` checks. -/
def paths : List String :=
  [r.adminSocket, r.onionTLSSocket, r.onionHTTPSocket, r.autheliaSocket, r.launcherRoot,
    r.storageRoot]

/-- `renderPortal`. -/
def portal (ids : List String) : Handle where
  name := "portal"
  matcher := { hosts := hosts ids "", paths := some portalPaths, methods := some portalMethods }
  directives :=
    [.route (untrustedHeaders.map .requestHeader ++ [.reverseProxy r.autheliaSocket])]

/-- `renderProtectedPrefix`. -/
def protectedPrefix : Directive :=
  .route (untrustedHeaders.map .requestHeader ++ [.forwardAuth r.autheliaSocket])

/-- The block of the launcher. -/
def launcher (s : State) (ids : List String) (mappings : List Mapping) : Handle where
  name := "launcher"
  matcher := { hosts := hosts ids "", paths := none, methods := none }
  directives :=
    [r.protectedPrefix,
      .respond "apps" "/apps.json" ["Content-Type application/json"] (launcherJSON s mappings)] ++
    (if r.publicRoot = "" then [] else
      [.respond "root_ca" "/trust/torkitten-root-ca.pem"
        ["Content-Type application/x-pem-file",
          "Content-Disposition `attachment; filename=torkitten-root-ca.pem`"] r.publicRoot]) ++
    [.files r.launcherRoot]

/-- The upstream of a mapping. -/
def upstream (m : Mapping) : String :=
  m.protocol.text ++ "://" ++ r.targetHost ++ ":" ++ toString m.port

/-- The block of a mapping. -/
def application (ids : List String) (m : Mapping) : Handle where
  name := "map_" ++ m.prefixLabel
  matcher := { hosts := hosts ids m.prefixLabel, paths := none, methods := none }
  directives := [r.protectedPrefix, .reverseProxy (r.upstream m)]

/-- The site of a socket that answers every request with 404. -/
def denyAll (listener : Listener) (socket : String) : Site :=
  { listener, hosts := [], bind := socket, versions := false, handles := [] }

/-- The document of a state without an owner. -/
def denyOnly : Caddyfile where
  adminSocket := r.adminSocket
  storageRoot := r.storageRoot
  sites := [denyAll .tls r.onionTLSSocket, denyAll .http r.onionHTTPSocket]

/-- The document of an initialised state. -/
def routed (s : State) : Caddyfile :=
  let mappings := sortMappings s.mappings
  let ids := sortStrings (s.serviceID :: r.aliases)
  { adminSocket := r.adminSocket
    storageRoot := r.storageRoot
    sites :=
      [{ listener := .tls
         hosts := ids.flatMap fun id => [hostOf id "", "*." ++ hostOf id ""]
         bind := r.onionTLSSocket
         versions := true
         handles := r.portal ids :: r.launcher s ids mappings ::
           (mappings.filter Mapping.enabled).map (r.application ids) },
       denyAll .http r.onionHTTPSocket] }

/-- The document that `Render` prints. -/
def config (s : State) : Except GoError Caddyfile :=
  match s.validate with
  | some err => .error err
  | none =>
    if !r.paths.all safePath then .error (.new "unsafe internal Caddy path")
    else if !safeHost r.targetHost then .error (.new "unsafe fixed upstream host")
    else if s.serviceID = "" || !s.initialized then .ok r.denyOnly
    else if r.aliases.any fun id => !serviceIDRE id || id == s.serviceID then
      .error (.new "invalid Caddy identity alias")
    else .ok (r.routed s)

/-- `Renderer.Render`. -/
def render (s : State) : Except GoError String := (r.config s).map Caddyfile.text

end Renderer

end Torkitten.Caddy

namespace Torkitten

/-! ## What a configuration depends on -/

/-- The parts of a state that decide what is routed are the same. -/
structure SameRoutes (s s' : State) : Prop where
  initialized : s'.initialized = s.initialized
  serviceID : s'.serviceID = s.serviceID
  mappings : s'.mappings = s.mappings

theorem SameRoutes.refl (s : State) : SameRoutes s s := ⟨rfl, rfl, rfl⟩

theorem SameRoutes.trans {s s' s'' : State} (h : SameRoutes s s') (h' : SameRoutes s' s'') :
    SameRoutes s s'' :=
  ⟨h'.initialized.trans h.initialized, h'.serviceID.trans h.serviceID,
    h'.mappings.trans h.mappings⟩

/-- Valid states with the same routes have the same configuration. -/
theorem SameRoutes.render {s s' : State} (h : SameRoutes s s') (hs : s.Valid) (hs' : s'.Valid)
    (r : Caddy.Renderer) : r.render s' = r.render s := by
  have hvalid : s.validate = none := hs
  have hvalid' : s'.validate = none := hs'
  have hhost : s'.host = s.host := by
    funext label
    simp only [State.host, h.serviceID]
  have hrouted : r.routed s' = r.routed s := by
    simp only [Caddy.Renderer.routed, Caddy.Renderer.launcher, Caddy.launcherJSON,
      Caddy.launcherApps, h.serviceID, h.mappings, hhost]
  simp only [Caddy.Renderer.render, Caddy.Renderer.config, hvalid, hvalid', h.serviceID,
    h.initialized, hrouted]

/-- A configuration is rendered for valid states only. -/
theorem valid_of_render {r : Caddy.Renderer} {s : State} {config : String}
    (h : r.render s = .ok config) : s.Valid := by
  cases hvalid : s.validate with
  | none => exact hvalid
  | some err => simp [Caddy.Renderer.render, Caddy.Renderer.config, hvalid, Except.map] at h

end Torkitten
