import Mathlib.Data.List.Infix
import Torkitten.Caddy.Render
import Torkitten.Foundations.Reading
import Torkitten.Model.Validation

/-!
# Fail-closed routing

What Caddy does with a request under the configuration that `Renderer.Render` produces. The
first handle block whose matcher accepts the request is taken; its directives run in order; a
request that no block accepts is answered with 404. How Caddy compares a path with a pattern is
a parameter: none of the results depends on it.

The main fact about names is that a host name determines the mapping prefix and the onion
address it was built from, because neither contains a dot.
-/

namespace Torkitten.Caddy

/-- A request, with its host in lower case and without a port. -/
structure Request where
  listener : Listener
  host : String
  path : String
  method : String
  deriving DecidableEq, Repr

/-- Where a request ends up. -/
inductive Destination where
  /-- An application, at an upstream address. -/
  | application (upstream : String)
  /-- The login portal, at Authelia's socket. -/
  | authelia (socket : String)
  /-- A fixed body. -/
  | page (body : String)
  /-- A file below a directory. -/
  | file (root : String)
  /-- The answer 404. -/
  | notFound
  deriving DecidableEq, Repr

/-- What happens to a request: where it ends up, which of its headers are removed before, and
whether Authelia has to authorise it first. -/
structure Served where
  destination : Destination
  stripped : List String
  authorized : Bool
  deriving DecidableEq, Repr

/-- A request that is answered with 404 at once. -/
def Served.denied : Served := { destination := .notFound, stripped := [], authorized := false }

section Semantics

variable (pathMatches : String → String → Bool)

end Semantics

/-! ## Host names -/

namespace Renderer

variable (r : Renderer) (pathMatches : String → String → Bool)

/-- The renderer passes the checks of `Render` on its own fields. -/
def Safe : Prop := r.paths.all safePath = true ∧ safeHost r.targetHost = true

instance : Decidable r.Safe := inferInstanceAs (Decidable (_ ∧ _))

/-- The service id and the aliases. -/
def ids (s : State) : List String := s.serviceID :: r.aliases

variable {r} {s : State} {req : Request}

theorem mem_sortMappings {m : Mapping} {mappings : List Mapping} :
    m ∈ sortMappings mappings ↔ m ∈ mappings := by
  simp [sortMappings]

end Renderer

/-- An initialised state with two enabled mappings and a disabled one. -/
def sampleState : State :=
  { newState with
    initialized := true
    serviceID := String.ofList (List.replicate 56 'a')
    mappings := [⟨"app", 3000, .h2c, true⟩, ⟨"off", 4000, .https, false⟩, ⟨"zed", 8080, .http, true⟩] }

/-- The default renderer during a rotation to another address. -/
def sampleRenderer : Renderer :=
  { defaultRenderer with aliases := [String.ofList (List.replicate 56 'b')] }

/-- A request over TLS for the first mapping, under the other address. -/
def sampleRequest : Request :=
  ⟨.tls, hostOf (String.ofList (List.replicate 56 'b')) "app", "/", "GET"⟩

end Torkitten.Caddy
