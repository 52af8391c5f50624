import Torkitten.Caddy.Render
import Torkitten.System.World

/-!
# Tor's configuration and client authorisations

The methods of `internal/tor` that write the configuration file and the `authorized_clients`
directory. `StageIdentity` runs the same methods on a copy of the paths that points into a stage
directory, so the methods take the hidden service directory they work on as an argument.
-/

namespace Torkitten.Tor

/-- `Paths`. -/
structure Paths where
  binary : String
  config : String
  dataDir : String
  hiddenServiceDir : String
  controlSocket : String
  cookieFile : String
  onionHTTPSocket : String
  onionTLSSocket : String
  deriving DecidableEq, Repr

/-- `DefaultPaths`. -/
def defaultPaths : Paths where
  binary := "/usr/bin/tor"
  config := "/etc/torkitten/tor/torrc"
  dataDir := "/var/lib/torkitten/tor/data"
  hiddenServiceDir := "/var/lib/torkitten/tor/hidden-service"
  controlSocket := "/run/torkitten/tor-control.sock"
  cookieFile := "/run/torkitten/tor-control.cookie"
  onionHTTPSocket := "/run/torkitten/caddy-http.sock"
  onionTLSSocket := "/run/torkitten/caddy-https.sock"

/-- `strings.HasSuffix`. -/
def hasSuffix (v ending : String) : Bool := ending.toList.isSuffixOf v.toList

/-- `strings.TrimSuffix`. -/
def trimSuffix (v ending : String) : String :=
  if hasSuffix v ending then String.ofList (v.toList.take (v.toList.length - ending.toList.length))
  else v

/-- The text of a configuration. -/
def Torrc.text (torrc : Torrc) : String :=
  String.join (torrc.map fun line => line.1 ++ " " ++ line.2 ++ "\n")

/-- Whether a configuration leaves the network on: its last word on `DisableNetwork`. -/
def Torrc.network (torrc : Torrc) : Bool :=
  (torrc.reverse.find? fun line => line.1 == "DisableNetwork").any fun line => line.2 == "0"

namespace Paths

variable (p : Paths)

/-- `Paths.safe`. -/
def safe : Bool :=
  [p.binary, p.config, p.dataDir, p.hiddenServiceDir, p.controlSocket, p.cookieFile,
    p.onionHTTPSocket, p.onionTLSSocket].all safePath

/-- The lines of the configuration. -/
def lines (publication : Bool) : Torrc :=
  [("DataDirectory", p.dataDir), ("SocksPort", "0"), ("RunAsDaemon", "0"), ("SafeLogging", "1"),
    ("Log", "notice stdout"), ("DisableDebuggerAttachment", "1"),
    ("ControlSocket", p.controlSocket), ("CookieAuthentication", "1"),
    ("CookieAuthFile", p.cookieFile), ("CookieAuthFileGroupReadable", "0"),
    ("DisableNetwork", if publication then "0" else "1"),
    ("PublishHidServDescriptors", if publication then "1" else "0"),
    ("HiddenServiceDir", p.hiddenServiceDir), ("HiddenServiceDirGroupReadable", "0"),
    ("HiddenServiceVersion", "3"), ("HiddenServiceAllowUnknownPorts", "0"),
    ("HiddenServiceEnableIntroDoSDefense", "1"),
    ("HiddenServicePort", "80 unix:" ++ p.onionHTTPSocket),
    ("HiddenServicePort", "443 unix:" ++ p.onionTLSSocket), ("CellStatistics", "0"),
    ("ConnDirectionStatistics", "0"), ("DirReqStatistics", "0"), ("EntryStatistics", "0"),
    ("ExitPortStatistics", "0"), ("ExtraInfoStatistics", "0"), ("HiddenServiceStatistics", "0"),
    ("OverloadStatistics", "0"), ("PaddingStatistics", "0"), ("HeartbeatPeriod", "0")]

/-- `Paths.Render`. -/
def render (publication : Bool) : Except GoError Torrc :=
  if !p.safe then .error (.new "unsafe Tor paths") else .ok (p.lines publication)

/-- `Paths.WriteConfig`. -/
def writeConfig (publication : Bool) : Op Unit :=
  match p.render publication with
  | .error err => .fail err
  | .ok torrc => writeCall fun w => some { w with torrc := some torrc }

/-- `Paths.Validate`: Tor checks the configuration file. -/
def validate : Op Unit := do
  match ← (serviceCall id).attempt with
  | .error _ => .fail (.new "Tor rejected configuration")
  | .ok _ => return ()

end Paths

/-- The effect of `EnsureDir` on a hidden service directory. -/
def ensuredDir (at_ : HsPath) (w : World) : World :=
  w.setDir at_ (some ((w.dirs at_).getD .empty))

/-- The effect of `EnsureDir` on an `authorized_clients` directory. -/
def ensuredAuth (at_ : HsPath) (w : World) : World :=
  let d := (w.dirs at_).getD .empty
  w.setDir at_ (some { d with auth := some (d.auth.getD ∅) })

/-- `Paths.Ensure`. The directories of the configuration, the data and the control socket are not
modelled. -/
def Paths.ensure (p : Paths) (at_ : HsPath) : Op Unit := do
  if !p.safe then .fail (.new "unsafe Tor paths")
  else
    diskCall some
    diskCall some
    diskCall fun w => some (ensuredDir at_ w)
    diskCall fun w => some (ensuredAuth at_ w)
    diskCall some

/-! ## Client authorisations -/

/-- The name of the authorisation file of a device. -/
def authFile (id : String) : String := id ++ ".auth"

/-- The content of an authorisation file. -/
def authData (publicKey : String) : String := "descriptor:x25519:" ++ publicKey ++ "\n"

/-- Change the `authorized_clients` directory, which must exist. -/
def withAuth (at_ : HsPath) (change : AuthDir → Option AuthDir) (w : World) : Option World := do
  let d ← w.dirs at_
  let auth ← d.auth
  let auth ← change auth
  return w.setDir at_ (some { d with auth := some auth })

/-- Replace a file of the directory; what is not a regular file is not replaced. -/
def putFile (name data : String) (auth : AuthDir) : Option AuthDir :=
  match auth.lookup name with
  | some .dir => none
  | some .special => none
  | _ => some (auth.insert name (.file data))

/-- `Paths.WriteAuthorization`. -/
def writeAuthorization (at_ : HsPath) (id publicKey : String) : Op Unit :=
  if !idRE id || !keyRE publicKey then .fail (.new "invalid Tor authorization record")
  else writeCall (withAuth at_ (putFile (authFile id) (authData publicKey)))

/-- The effect of removing one entry; an entry that does not exist is no error. -/
def erasedEntry (at_ : HsPath) (name : String) (w : World) : World :=
  (withAuth at_ (fun auth => some (auth.erase name)) w).getD w

/-- `Paths.RemoveAuthorization`. -/
def removeAuthorization (at_ : HsPath) (id : String) : Op Unit :=
  if !idRE id then .fail (.new "invalid device id")
  else diskCall fun w => some (erasedEntry at_ (authFile id) w)

/-- The records that a set of devices puts into the directory. -/
def records (devices : List Device) (pending : Option PendingDevice) : List (String × String) :=
  devices.map (fun d => (d.id, d.publicKey)) ++
    pending.toList.map fun d => (d.id, d.publicKey)

/-- The map of expected keys of `Reconcile`. -/
def expected (devices : List Device) (pending : Option PendingDevice) : AList fun _ : String => String :=
  (records devices pending).foldl (fun m r => m.insert r.1 r.2) ∅

/-- A map access: the empty text where there is no key. -/
def keyFor (keys : AList fun _ : String => String) (id : String) : String :=
  (keys.lookup id).getD ""

/-- The entries of the directory that `Reconcile` removes. -/
def stale (keys : AList fun _ : String => String) (auth : AuthDir) : List String :=
  auth.keys.filter fun name =>
    hasSuffix name ".auth" && auth.lookup name != some .dir &&
      keyFor keys (trimSuffix name ".auth") == ""

/-- `os.ReadDir` of the `authorized_clients` directory. -/
def readAuth (at_ : HsPath) : Op AuthDir := .ask fun e w =>
  if e.crash then (.crash, w)
  else if e.disk.fails then (.error .external, w)
  else
    match (w.dirs at_).bind HsDir.auth with
    | none => (.error .external, w)
    | some auth => (.ok auth, w)

/-- `Paths.Reconcile`. -/
def reconcile (at_ : HsPath) (devices : List Device) (pending : Option PendingDevice) : Op Unit := do
  let keys := expected devices pending
  Proc.forEach (fun id => writeAuthorization at_ id (keyFor keys id))
    (Caddy.sortStrings keys.keys)
  let auth ← readAuth at_
  Proc.forEach (fun name => diskCall fun w => some (erasedEntry at_ name w)) (stale keys auth)

end Torkitten.Tor
