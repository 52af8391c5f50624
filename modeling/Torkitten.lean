import Torkitten.Access.Authority
import Torkitten.Access.Credentials
import Torkitten.Access.Expiry
import Torkitten.Access.Flows
import Torkitten.Access.Rate
import Torkitten.Api.Acknowledgement
import Torkitten.Api.Capacity
import Torkitten.Api.Privileges
import Torkitten.Api.Recovery
import Torkitten.Api.Serving
import Torkitten.Bootstrap.Matching
import Torkitten.Bootstrap.Owner
import Torkitten.Bootstrap.Runtime
import Torkitten.Caddy.Canonical
import Torkitten.Control.Leftovers
import Torkitten.Control.Mappings
import Torkitten.Control.Mirror
import Torkitten.Control.Renewal
import Torkitten.Control.Rotation
import Torkitten.Model.Specification
import Torkitten.Onboarding.Enrollment
import Torkitten.Store.AtomicWrite
import Torkitten.Store.FileStore
import Torkitten.Store.Reopen
import Torkitten.Supervisor.Ceiling
import Torkitten.Supervisor.Log
import Torkitten.Supervisor.Undisturbed
import Torkitten.Tor.Control
import Torkitten.Tor.Reconciliation
import Torkitten.Store.Refinement
