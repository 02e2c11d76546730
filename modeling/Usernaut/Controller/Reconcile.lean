import Usernaut.Controller.Backends
import Mathlib.Data.List.AList

/-!
# `GroupReconciler.Reconcile`

One reconcile of a Group: the deletion path (`handleDeletion`), and otherwise the finalizer,
owner references and status updates on the API server, the configurability gate, nested member
expansion, the LDAP lookups, the per-backend processing and, when every backend succeeded, the
update of the group's members and of the `user:groups` reverse index.

The cache mutex is not modelled: `reconcile` runs as one step, which is what holding the lock
for the whole store-touching region gives. The store is total, so the store errors the Go code
logs never happen.

## Main definitions

* `GroupReconciler.updateCacheIndexes`, `GroupReconciler.cleanupUserGroupsIndex`: the two writers
  of group members and of the reverse index.
* `GroupReconciler.handleDeletion`, `GroupReconciler.deleteBackendsTeam`: finalization.
* `GroupReconciler.reconcile`: `Reconcile` of the Group named in the request.
-/

namespace Usernaut

/-- `groupFinalizer`. -/
def groupFinalizer : String := "operator.dataverse.redhat.com/finalizer"

/-- `usernautdevv1alpha1.GroupVersion.String()`. -/
def groupVersion : String := "operator.dataverse.redhat.com/v1alpha1"

/-- `usernautdevv1alpha1.GroupReadyCondition`. Modelled from the spec: the API package is not in
the repository's sources, and the spec calls the condition `Ready`. -/
def groupReadyCondition : String := "Ready"

/-- `controllerutil.AddFinalizer`: append the finalizer unless it is there. -/
def addFinalizer (obj : Group) (finalizer : String) : Group :=
  if finalizer ∈ obj.metadata.finalizers then obj
  else { obj with metadata := { obj.metadata with finalizers := obj.metadata.finalizers ++ [finalizer] } }

@[simp] theorem addFinalizer_spec (obj : Group) (finalizer : String) :
    (addFinalizer obj finalizer).spec = obj.spec := by
  unfold addFinalizer; split_ifs <;> rfl

@[simp] theorem addFinalizer_generation (obj : Group) (finalizer : String) :
    (addFinalizer obj finalizer).metadata.generation = obj.metadata.generation := by
  unfold addFinalizer; split_ifs <;> rfl

@[simp] theorem addFinalizer_labels (obj : Group) (finalizer : String) :
    (addFinalizer obj finalizer).metadata.labels = obj.metadata.labels := by
  unfold addFinalizer; split_ifs <;> rfl

@[simp] theorem addFinalizer_status (obj : Group) (finalizer : String) :
    (addFinalizer obj finalizer).status = obj.status := by
  unfold addFinalizer; split_ifs <;> rfl

/-- `controllerutil.RemoveFinalizer`. -/
def removeFinalizer (obj : Group) (finalizer : String) : Group :=
  { obj with metadata := { obj.metadata with
      finalizers := obj.metadata.finalizers.filter (· ≠ finalizer) } }

namespace GroupReconciler

/-- `setCondition`: replace the first condition of the same type, or append. -/
def setCondition : List Condition → Condition → List Condition
  | [], newCondition => [newCondition]
  | cond :: rest, newCondition =>
    if cond.type = newCondition.type then newCondition :: rest else cond :: setCondition rest newCondition

/-- `Group.SetWaiting`. Modelled from the spec (§4.7 step 2): the Ready condition is set to
`Unknown`, with reason `Waiting`. -/
def setWaiting (groupCR : Group) : Group :=
  { groupCR with status := { groupCR.status with
      conditions := setCondition groupCR.status.conditions
        ⟨groupReadyCondition, "Unknown", "Waiting", "", groupCR.metadata.generation⟩ } }

/-- `Group.UpdateStatus(hasErrors)`. Modelled from the spec (§4.7 step 10): the Ready condition
is `True` when there is no error and `False` otherwise. -/
def updateStatus (groupCR : Group) (hasErrors : Bool) : Group :=
  { groupCR with status := { groupCR.status with
      conditions := setCondition groupCR.status.conditions
        ⟨groupReadyCondition, if hasErrors then "False" else "True", "", "",
          groupCR.metadata.generation⟩ } }

variable {σ : Type} (env : Env σ)

/-- `r.Update(ctx, obj)`. The API server stores `obj`'s metadata and spec, and controller-runtime
decodes its reply into `obj`. The status is a subresource (the reconciler writes it with
`Status().Update`) that `Update` does not write, so the reply carries the status the server
holds, `stored`, and not `obj`'s. Decoding overwrites the fields the reply carries: where the
API type leaves an empty list out of its JSON (its tags are not in the sources), Go keeps
`obj`'s list, and the model, which takes the whole status from the reply, does not. -/
def updateGroup (stored : GroupStatus) (obj : Group) : ReconcileM σ Group := do
  emit (.update obj (env.update obj))
  ofExcept (env.update obj)
  return { obj with status := stored }

/-- `r.Status().Update(ctx, obj)`. The reply carries the status written, and the metadata and
spec the server holds, which are `obj`'s: decoding it leaves `obj` as it is. -/
def updateGroupStatus (obj : Group) : ReconcileM σ Unit := do
  emit (.statusUpdate obj (env.updateStatus obj))
  ofExcept (env.updateStatus obj)

/-- `LDAPFetchResult`, with the field the reconciler reads (`ActiveUserList` is never read). -/
structure LDAPFetchResult where
  currentMembers : List String

/-- One pass of `fetchLDAPData`'s loop: a user LDAP resolves is recorded under its username, and
its email is appended to the current members; a user it does not resolve is skipped. -/
def fetchLDAPDataStep (acc : StringMap LDAPUser × List String) (user : String) :
    StringMap LDAPUser × List String :=
  match env.ldap user with
  | .error _ => acc
  | .ok ldapUser => (acc.1.insert user ldapUser, acc.2 ++ [ldapUser.email])

/-- `fetchLDAPData`: the resolved users by username, and the emails of the resolved users. -/
def fetchLDAPData (uniqueMembers : List String) : StringMap LDAPUser × LDAPFetchResult :=
  let (allLdapUserData, currentMembers) := uniqueMembers.foldl (fetchLDAPDataStep env) (∅, [])
  (allLdapUserData, ⟨currentMembers⟩)

/-- `updateCacheIndexes`: add the group to every current member's reverse index, remove it from
every previous member's that is no longer a member, and record the current members. Go removes
the previous members in the iteration order of a set; removals for distinct emails commute and a
repeated removal changes nothing, so the list order gives the same store. -/
def updateCacheIndexes (store : Store) (groupName : String) (ldapResult : LDAPFetchResult) : Store :=
  let previousMembers := store.group.getMembers groupName
  let userGroups := ldapResult.currentMembers.foldl
    (fun ug email => ug.addGroup email groupName) store.userGroups
  let userGroups := previousMembers.foldl
    (fun ug email => if email ∈ ldapResult.currentMembers then ug else ug.removeGroup email groupName)
    userGroups
  { store with
    userGroups := userGroups
    group := store.group.setMembers groupName ldapResult.currentMembers }

@[simp] theorem updateCacheIndexes_group_getMembers (store : Store) (groupName : String)
    (ldapResult : LDAPFetchResult) (g : String) :
    (updateCacheIndexes store groupName ldapResult).group.getMembers g =
      if g = groupName then ldapResult.currentMembers else store.group.getMembers g := by
  simp [updateCacheIndexes]

/-- After the update, `e` has `g` if it had it or is a current member of `g = groupName`, unless
`g = groupName` and `e` is a previous member that is no longer current. -/
theorem mem_updateCacheIndexes_getGroups (store : Store) (groupName : String)
    (ldapResult : LDAPFetchResult) (e g : String) :
    g ∈ (updateCacheIndexes store groupName ldapResult).userGroups.getGroups e ↔
      (g ∈ store.userGroups.getGroups e ∨ (e ∈ ldapResult.currentMembers ∧ g = groupName)) ∧
        ¬(e ∈ store.group.getMembers groupName ∧ e ∉ ldapResult.currentMembers ∧ g = groupName) := by
  simp only [updateCacheIndexes, UserGroupsStore.mem_getGroups_foldl_removeGroup_unless,
    UserGroupsStore.mem_getGroups_foldl_addGroup]

/-- The index update of a group recorded with its current members, each of whom has the group in
the reverse index, changes nothing. -/
theorem updateCacheIndexes_self {store : Store} {groupName : String} {ldapResult : LDAPFetchResult}
    (hmem : groupName ∈ store.group.entries)
    (hmembers : store.group.getMembers groupName = ldapResult.currentMembers)
    (hgroups : ∀ e ∈ ldapResult.currentMembers, groupName ∈ store.userGroups.getGroups e) :
    updateCacheIndexes store groupName ldapResult = store := by
  simp only [updateCacheIndexes, UserGroupsStore.foldl_addGroup_of_mem _ hgroups]
  rw [List.foldl_ext _ (fun ug _ => ug) _ fun _ e he => if_pos (hmembers ▸ he), List.foldl_fixed,
    ← hmembers, GroupStore.setMembers_getMembers _ hmem]

/-- `cleanupUserGroupsIndex`: remove the group from every member's reverse index. -/
def cleanupUserGroupsIndex (store : Store) (groupName : String) : Store :=
  { store with
    userGroups := (store.group.getMembers groupName).foldl
      (fun ug email => ug.removeGroup email groupName) store.userGroups }

@[simp] theorem cleanupUserGroupsIndex_group (store : Store) (groupName : String) :
    (cleanupUserGroupsIndex store groupName).group = store.group := rfl

theorem mem_cleanupUserGroupsIndex_getGroups (store : Store) (groupName e g : String) :
    g ∈ (cleanupUserGroupsIndex store groupName).userGroups.getGroups e ↔
      g ∈ store.userGroups.getGroups e ∧ ¬(e ∈ store.group.getMembers groupName ∧ g = groupName) :=
  UserGroupsStore.mem_getGroups_foldl_removeGroup _ _ _ _ _

/-- `utils.GetTransformedGroupNameOrFallback`. Modelled from the spec (§4.5): the function is not
in the repository's sources; it falls back to the original name when no rule matches. -/
def getTransformedGroupNameOrFallback (backendType groupName : String) : String :=
  match env.transform backendType groupName with
  | .ok transformedGroupName => transformedGroupName
  | .error _ => groupName

/-- One pass of `deleteBackendsTeam`'s loop: delete the backend's team if the group records one,
and the preload entry of its transformed name; the flag records a failure. -/
def deleteBackendTeamStep (groupName : String) (hasErrors : Bool) (backend : Backend) :
    ReconcileM σ Bool := do
  let transformedGroupName := getTransformedGroupNameOrFallback env backend.type groupName
  match env.newClient backend.name backend.type with
  | .error _ => pure true
  | .ok backendClient =>
    let teamID := (← getStore).group.getBackendID groupName backend.name backend.type
    let hasErrors ← tryCatch
      (do
        if teamID ≠ "" then
          callBackend backend (backendClient.deleteTeamByID teamID) (.deleteTeamByID teamID)
        pure hasErrors)
      fun _ => pure true
    if transformedGroupName ≠ "" then
      modifyStore fun s => { s with team := s.team.delete transformedGroupName }
    pure hasErrors

/-- `deleteBackendsTeam`: delete the group's team in every declared backend, then the group's
record; an error if any step failed. -/
def deleteBackendsTeam (groupCR : Group) : ReconcileM σ Unit := do
  let groupName := groupCR.spec.groupName
  let hasErrors ← groupCR.spec.backends.foldlM (deleteBackendTeamStep env groupName) false
  modifyStore fun s => { s with group := s.group.delete groupName }
  if hasErrors then throw "finalizer completed with errors during team deletion"

/-- `handleDeletion`. -/
def handleDeletion (groupCR : Group) : ReconcileM σ Unit := do
  if groupFinalizer ∈ groupCR.metadata.finalizers then
    modifyStore fun s => cleanupUserGroupsIndex s groupCR.spec.groupName
    deleteBackendsTeam env groupCR
    let _ ← updateGroup env groupCR.status (removeFinalizer groupCR groupFinalizer)
    pure ()

/-- `isGroupConfigurable`: some declared backend's rules transform the group name. -/
def isGroupConfigurable (groupCR : Group) : Bool :=
  !groupCR.spec.backends.isEmpty &&
    groupCR.spec.backends.any fun backend =>
      match env.transform backend.type groupCR.spec.groupName with
      | .ok _ => true
      | .error _ => false

/-- `setOwnerReference`: one owner reference of kind Group for each distinct Group named in
`spec.members.groups`, written back only when the set of such references changed. The result is
the Group's owner references afterwards. The desired references sit in a map by UID; Go appends
them in that map's order, here in the association list's. The reply of the `Update` is the Group
sent, since `groupCR`'s status is the one the server holds. -/
def setOwnerReference (groupCR : Group) : ReconcileM σ (List OwnerReference) := do
  let desiredOwnerRefs ← groupCR.spec.members.groups.foldlM
    (fun (desired : AList fun _ : String => OwnerReference) parentGroupName => do
      let parentGroupCR ← ofExcept (env.groups.get parentGroupName)
      pure (desired.insert parentGroupCR.metadata.uid
        { apiVersion := groupVersion, kind := "Group", name := parentGroupCR.metadata.name,
          uid := parentGroupCR.metadata.uid, blockOwnerDeletion := true }))
    ∅
  let isGroupRef := fun ref : OwnerReference => ref.kind = "Group" && ref.apiVersion = groupVersion
  let nonGroupOwnerRefs := groupCR.metadata.ownerReferences.filter (!isGroupRef ·)
  let existingGroupOwnerRefs :=
    ((groupCR.metadata.ownerReferences.filter isGroupRef).map (·.uid)).toFinset
  let needsUpdate := desiredOwnerRefs.keys.length ≠ existingGroupOwnerRefs.card ∨
    ∃ uid ∈ desiredOwnerRefs.keys, uid ∉ existingGroupOwnerRefs
  if ¬needsUpdate then return groupCR.metadata.ownerReferences
  let newOwnerRefs := nonGroupOwnerRefs ++ desiredOwnerRefs.entries.map (·.2)
  let _ ← updateGroup env groupCR.status
    { groupCR with metadata := { groupCR.metadata with ownerReferences := newOwnerRefs } }
  return newOwnerRefs

/-- `controllerutils.RemoveForceReconcileLabel`: when the label is there, remove it and `Update`
the Group, whose reply, decoded into `obj`, carries the status the server holds, `stored`. -/
def removeForceReconcileLabel (stored : GroupStatus) (obj : Group) : ReconcileM σ Group := do
  if env.forceReconcileLabel ∉ obj.metadata.labels then return obj
  updateGroup env stored { obj with metadata := { obj.metadata with
    labels := obj.metadata.labels.filter (· ≠ env.forceReconcileLabel) } }

/-- `updateStatusAndHandleErrors`: one status entry per declared backend, the Ready condition,
and an error when any backend failed. -/
def updateStatusAndHandleErrors (groupCR : Group) (backendErrors : BackendErrors) :
    ReconcileM σ Unit := do
  let backendStatus := groupCR.spec.backends.map fun backend =>
    match (backendErrors.lookup backend.type).bind (·.lookup backend.name) with
    | some msg => (⟨backend.name, backend.type, false, msg⟩ : BackendStatus)
    | none => ⟨backend.name, backend.type, true, "Successful"⟩
  let groupCR := updateStatus
    { groupCR with status := { groupCR.status with backendsStatus := backendStatus } } false
  let groupCR := if backendErrors.hasErrors then updateStatus groupCR true else groupCR
  updateGroupStatus env groupCR
  if backendErrors.hasErrors then throw "failed to reconcile all backends"

/-- The part of `Reconcile` after the configurability gate: expand the members, look them up in
LDAP, process every backend, update the indexes only if no backend failed, and report. `groupCR`
is the Group as the Waiting status update left it, so its status is the one the server holds. -/
def reconcileMembers (groupCR : Group) : ReconcileM σ Unit := do
  let storedStatus := groupCR.status
  let allMembers ← ofExcept (expandGroupMembers env.groups groupCR.spec.groupName)
  let uniqueMembers := deduplicateMembers allMembers
  let groupCR := { groupCR with status := { groupCR.status with reconciledUsers := uniqueMembers } }
  let (allLdapUserData, ldapResult) := fetchLDAPData env uniqueMembers
  let backendErrors ← processAllBackends env groupCR allLdapUserData uniqueMembers
  (if !backendErrors.hasErrors then do
      emit (.log "All backends succeeded, updating cache indexes")
      modifyStore fun s => updateCacheIndexes s groupCR.spec.groupName ldapResult
    else emit (.log "Backend errors detected, skipping cache index updates (all-or-nothing)"))
  let groupCR ← removeForceReconcileLabel env storedStatus groupCR
  updateStatusAndHandleErrors env groupCR backendErrors

/-- The Group `Reconcile` goes on with once the Waiting status is written: `groupCR` with the
finalizer, the owner references `ownerReferences` and the Ready condition `Unknown`. -/
def waitingGroup (groupCR : Group) (ownerReferences : List OwnerReference) : Group :=
  let groupCR := addFinalizer groupCR groupFinalizer
  setWaiting { groupCR with metadata := { groupCR.metadata with ownerReferences } }

@[simp] theorem waitingGroup_spec (groupCR : Group) (ownerReferences : List OwnerReference) :
    (waitingGroup groupCR ownerReferences).spec = groupCR.spec := by
  simp [waitingGroup, setWaiting]

@[simp] theorem waitingGroup_labels (groupCR : Group) (ownerReferences : List OwnerReference) :
    (waitingGroup groupCR ownerReferences).metadata.labels = groupCR.metadata.labels := by
  simp [waitingGroup, setWaiting]

@[simp] theorem waitingGroup_generation (groupCR : Group) (ownerReferences : List OwnerReference) :
    (waitingGroup groupCR ownerReferences).metadata.generation = groupCR.metadata.generation := by
  simp [waitingGroup, setWaiting]

@[simp] theorem waitingGroup_reconciledUsers (groupCR : Group)
    (ownerReferences : List OwnerReference) :
    (waitingGroup groupCR ownerReferences).status.reconciledUsers =
      groupCR.status.reconciledUsers := by
  simp [waitingGroup, setWaiting]

/-- The part of `Reconcile` before the configurability gate: add the finalizer, set the owner
references and write the Waiting status. The result is the owner references. The finalizer
`Update`'s reply is the Group sent, since the status the server holds is the one `Get` returned. -/
def prepareGroup (groupCR : Group) : ReconcileM σ (List OwnerReference) := do
  (if groupFinalizer ∉ groupCR.metadata.finalizers then do
      let _ ← updateGroup env groupCR.status (addFinalizer groupCR groupFinalizer)
    else pure ())
  let ownerReferences ← setOwnerReference env (addFinalizer groupCR groupFinalizer)
  updateGroupStatus env (waitingGroup groupCR ownerReferences)
  return ownerReferences

/-- `Reconcile` of the Group named `name`: nothing if it is gone, `handleDeletion` if it is being
deleted, and otherwise `prepareGroup`, the configurability gate, and `reconcileMembers`. -/
def reconcile (name : String) : ReconcileM σ Unit := do
  match env.groups.get name with
  | .error _ => pure ()
  | .ok groupCR =>
    if groupCR.metadata.deletionTimestamp.isSome then handleDeletion env groupCR
    else do
      let ownerReferences ← prepareGroup env groupCR
      let groupCR := waitingGroup groupCR ownerReferences
      if !isGroupConfigurable env groupCR then
        let condition : Condition :=
          { type := groupReadyCondition, status := "False",
            reason := "NonConfigurable",
            message := "Group is not configurable - no matching patterns found in backend configuration",
            observedGeneration := groupCR.metadata.generation }
        updateGroupStatus env { groupCR with status := { groupCR.status with
          reconciledUsers := [], conditions := setCondition groupCR.status.conditions condition } }
      else reconcileMembers env groupCR

end GroupReconciler

end Usernaut
