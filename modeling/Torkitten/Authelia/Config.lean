import Torkitten.System.World

/-!
# The configuration of Authelia

`Paths` and `Paths.Render` of `internal/authelia`: the only part of Authelia's files that depends
on the onion identity.
-/

namespace Torkitten.Authelia

/-- `Paths`. -/
structure Paths where
  binary : String
  config : String
  users : String
  database : String
  secretsDir : String
  socket : String
  qr : String
  notifications : String
  deriving DecidableEq, Repr

/-- `DefaultPaths`. -/
def defaultPaths : Paths where
  binary := "/usr/bin/authelia"
  config := "/etc/torkitten/authelia/configuration.yml"
  users := "/var/lib/torkitten/authelia/users.yml"
  database := "/var/lib/torkitten/authelia/db.sqlite3"
  secretsDir := "/var/lib/torkitten/authelia/secrets"
  socket := "/run/torkitten/authelia.sock"
  qr := "/run/torkitten/setup-totp.png"
  notifications := "/var/lib/torkitten/authelia/notifications.txt"

/-- `OwnerGroup`. -/
def ownerGroup : String := "torkitten-owner"

namespace Paths

variable (p : Paths)

/-- `Paths.safe`. -/
def safe : Bool :=
  [p.binary, p.config, p.users, p.database, p.secretsDir, p.socket, p.qr, p.notifications].all
    safePath

/-- The text of the configuration for one onion identity. -/
def text (serviceID : String) : String :=
  let base := hostOf serviceID ""
  String.join [
    "theme: 'dark'\n",
    "server:\n",
    "  address: 'unix://" ++ p.socket ++ "?umask=0077&path=login'\n",
    "  disable_healthcheck: true\n",
    "  endpoints:\n",
    "    enable_pprof: false\n",
    "    enable_expvars: false\n",
    "    authz: \x7b forward-auth: \x7b implementation: 'ForwardAuth', authn_strategies: [\x7b " ++
      "name: 'CookieSession' \x7d] \x7d \x7d\n",
    "    rate_limits:\n",
    "      second_factor_totp: \x7b enable: true, buckets: [\x7b period: '1 minute', requests: " ++
      "10 \x7d, \x7b period: '10 minutes', requests: 30 \x7d] \x7d\n",
    "totp: \x7b issuer: 'Torkitten', algorithm: 'sha1', digits: 6, period: 30, skew: 1, secret_" ++
      "size: 32, disable_reuse_security_policy: false \x7d\n",
    "webauthn: \x7b disable: true \x7d\n",
    "identity_validation:\n",
    "  reset_password: \x7b\x7d\n",
    "  elevated_session: \x7b require_second_factor: true, skip_second_factor: true \x7d\n",
    "authentication_backend:\n",
    "  password_reset: \x7b disable: true \x7d\n",
    "  password_change: \x7b disable: false \x7d\n",
    "  file:\n",
    "    path: '" ++ p.users ++ "'\n",
    "    watch: true\n",
    "    search: \x7b email: false, case_insensitive: false \x7d\n",
    "    password:\n",
    "      algorithm: 'argon2'\n",
    "      argon2: \x7b variant: 'argon2id', iterations: 3, memory: 65536, parallelism: 4, key_" ++
      "length: 32, salt_length: 16 \x7d\n",
    "access_control:\n",
    "  default_policy: 'deny'\n",
    "  rules: [\x7b domain: ['" ++ base ++ "', '*." ++ base ++ "'], subject: 'group:" ++
      ownerGroup ++ "', policy: 'two_factor' \x7d]\n",
    "session:\n",
    "  name: 'torkitten_onion'\n",
    "  same_site: 'lax'\n",
    "  inactivity: '87600h'\n",
    "  expiration: '87600h'\n",
    "  remember_me: -1\n",
    "  cookies:\n",
    "    - \x7b domain: '" ++ base ++ "', authelia_url: 'https://" ++ base ++
      "/login', default_redirection_url: 'https://" ++ base ++
      "', name: 'torkitten_onion', same_site: 'lax', inactivity: '87600h', expiration: '87600h'" ++
      ", remember_me: -1 \x7d\n",
    "regulation: \x7b modes: ['user'], max_retries: 3, find_time: '2m', ban_time: '5m' \x7d\n",
    "storage: \x7b local: \x7b path: '" ++ p.database ++ "' \x7d \x7d\n",
    "notifier: \x7b filesystem: \x7b filename: '" ++ p.notifications ++ "' \x7d \x7d\n",
    "ntp: \x7b disable_startup_check: true \x7d\n",
    "telemetry: \x7b metrics: \x7b enabled: false \x7d \x7d\n"]

/-- `Paths.Render`. -/
def render (serviceID : String) : Except GoError String :=
  if !serviceIDRE serviceID || !p.safe then .error (.new "invalid Authelia rendering inputs")
  else .ok (p.text serviceID)

end Paths

/-- `Runner.Validate`. -/
def validate : Op Unit := do
  match ← (serviceCall id).attempt with
  | .error _ => .fail (.new "Authelia command failed")
  | .ok _ => return ()

/-- The client of Authelia: its socket and the service it signs in to. -/
structure Client where
  socket : String
  domain : String
  deriving DecidableEq, Repr

/-- `NewClient`. -/
def newClient (socket serviceID : String) : Except GoError Client :=
  if !safePath socket || !serviceIDRE serviceID then
    .error (.new "invalid Authelia client configuration")
  else .ok { socket, domain := serviceID }

/-- `Client.SetServiceID`. -/
def setServiceID (id : String) : Op Unit := .modify fun w => { w with clientID := id }

end Torkitten.Authelia
