import Mathlib.Data.Finmap

/-!
# Usernaut data model

The values the Group controller and the offboarding job pass around: the `Group` custom
resource with its spec and status (`api/v1alpha1`), the backend records of `pkg/common/structs`
and the backend configuration of `pkg/config`.

A Go `map[string]V` is a `StringMap V`, a Mathlib `Finmap`: finitely many keys, each bound once,
and no order. Where the code iterates a map, the model iterates a list that the caller supplies,
so that every iteration order Go may choose is covered.

Only the fields some modelled function reads or writes are kept. Object metadata keeps the name,
uid, generation, deletion timestamp, finalizers, labels and owner references, and leaves out the
namespace, annotations and resource version; a condition has no transition time; an LDAP user
keeps the email, display name and surname.
-/

namespace Usernaut

/-- A Go `map[string]V`. -/
abbrev StringMap (V : Type) := Finmap (fun _ : String => V)

/-- **A map built by inserts** binds each key to the value of the last element inserted under it,
and keeps the bindings of the map it started from for the other keys: Go's `m[key(x)] = val(x)`
in a loop. -/
theorem StringMap.lookup_foldl_insert {V α : Type} (key : α → String) (val : α → V) :
    ∀ (l : List α) (m : StringMap V) (k : String),
      (l.foldl (fun m x => m.insert (key x) (val x)) m).lookup k =
        ((l.reverse.find? fun x => key x = k).map val).or (m.lookup k)
  | [], m, k => by simp
  | x :: l, m, k => by
    rw [List.foldl_cons, StringMap.lookup_foldl_insert key val l, List.reverse_cons,
      List.find?_append]
    by_cases hk : key x = k
    · subst hk
      cases l.reverse.find? fun y => key y = key x <;> simp
    · cases l.reverse.find? fun y => key y = k <;> simp [hk, Finmap.lookup_insert_of_ne _ (Ne.symm hk)]

/-- The backend key `name + "_" + type` under which the store records a backend. -/
def backendKey (name type : String) : String := name ++ "_" ++ type

/-- Answers are compared when runs on concrete inputs are decided. -/
instance instDecidableEqExcept {ε α : Type} [DecidableEq ε] [DecidableEq α] :
    DecidableEq (Except ε α)
  | .ok a, .ok b => decidable_of_iff (a = b) (by simp)
  | .error a, .error b => decidable_of_iff (a = b) (by simp)
  | .ok _, .error _ => isFalse nofun
  | .error _, .ok _ => isFalse nofun

/-- A backend a Group declares: `usernautdevv1alpha1.Backend`. -/
structure Backend where
  name : String
  type : String
  deriving DecidableEq, Repr

/-- A `group_params` entry: `property` and `value` for the backend `name` of type `backend`. -/
structure GroupParam where
  backend : String
  name : String
  property : String
  value : List String
  deriving DecidableEq, Repr

/-- `spec.members`: usernames, and names of other Groups of the same namespace. -/
structure Members where
  users : List String
  groups : List String
  deriving DecidableEq, Repr

/-- The spec of a Group custom resource. -/
structure GroupSpec where
  groupName : String
  members : Members
  backends : List Backend
  groupParams : List GroupParam
  deriving DecidableEq, Repr

/-- A `metav1.OwnerReference`. -/
structure OwnerReference where
  apiVersion : String
  kind : String
  name : String
  uid : String
  blockOwnerDeletion : Bool
  deriving DecidableEq, Repr

/-- The object metadata the controller reads or writes. -/
structure ObjectMeta where
  name : String
  uid : String
  generation : Nat
  /-- Set once the object is being deleted. -/
  deletionTimestamp : Option Nat
  finalizers : List String
  /-- The keys of the object's labels; the controller never reads a label's value. -/
  labels : List String
  ownerReferences : List OwnerReference
  deriving DecidableEq, Repr

/-- A `metav1.Condition`, without its transition time. -/
structure Condition where
  type : String
  status : String
  reason : String
  message : String
  observedGeneration : Nat
  deriving DecidableEq, Repr

/-- One entry of `status.backends_status`. -/
structure BackendStatus where
  name : String
  type : String
  status : Bool
  message : String
  deriving DecidableEq, Repr

/-- The status of a Group custom resource. -/
structure GroupStatus where
  reconciledUsers : List String
  conditions : List Condition
  backendsStatus : List BackendStatus
  deriving DecidableEq, Repr

/-- A Group custom resource: `usernautdevv1alpha1.Group`. -/
structure Group where
  metadata : ObjectMeta
  spec : GroupSpec
  status : GroupStatus
  deriving DecidableEq, Repr

/-- `structs.TeamParams`. -/
structure TeamParams where
  property : String
  value : List String
  deriving DecidableEq, Repr

/-- The empty `TeamParams`, Go's zero value. -/
def TeamParams.zero : TeamParams := ⟨"", []⟩

/-- `structs.Team`, as the reconciler sends it to `CreateTeam` and reads its answer. -/
structure Team where
  id : String
  name : String
  description : String
  role : String
  teamParams : TeamParams
  deriving DecidableEq, Repr

/-- `structs.User`, as the reconciler sends it to `CreateUser` and reads its answer. -/
structure User where
  id : String
  email : String
  userName : String
  role : String
  firstName : String
  lastName : String
  deriving DecidableEq, Repr

/-- `structs.BackendParams`. -/
structure BackendParams where
  name : String
  type : String
  groupParams : TeamParams
  deriving DecidableEq, Repr

/-- The directory record of a user, `structs.LDAPUser`, with the fields the reconciler reads. -/
structure LDAPUser where
  email : String
  displayName : String
  sn : String
  deriving DecidableEq, Repr

/-- `config.Dependant`: the backend a GitLab backend depends on for LDAP sync. -/
structure Dependant where
  type : String
  name : String
  deriving DecidableEq, Repr

/-- `config.Backend`, the configuration of one backend instance. -/
structure BackendConfig where
  enabled : Bool
  dependsOn : Dependant
  deriving DecidableEq, Repr

end Usernaut
