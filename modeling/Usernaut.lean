import Usernaut.Basic
import Usernaut.Clients.Gitlab
import Usernaut.Clients.Strconv
import Usernaut.Clients.GitlabUsers
import Usernaut.Store
import Usernaut.Controller.Members
import Usernaut.Controller.Effects
import Usernaut.Controller.Backends
import Usernaut.Controller.Delta
import Usernaut.Controller.Reconcile
import Usernaut.Controller.Frame
import Usernaut.Controller.ReverseIndex
import Usernaut.Controller.AllOrNothing
import Usernaut.Controller.Writes
import Usernaut.Controller.Watch
import Usernaut.Controller.Promotion
import Usernaut.Controller.Membership
import Usernaut.Controller.Idempotence
import Usernaut.Controller.Finalizer
import Usernaut.Controller.GroupParams
import Usernaut.Controller.OwnerReferences
import Usernaut.PeriodicJobs.Offboarding
import Usernaut.PeriodicJobs.Sweep
import Usernaut.Clients.Ldap
import Usernaut.PeriodicJobs.LdapCheck
import Usernaut.Clients.Snowflake
import Usernaut.Cache.Redis
