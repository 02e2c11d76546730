import Usernaut.Controller.Effects

/-!
# Per-backend processing

The part of `GroupReconciler.Reconcile` that runs for every backend a Group declares
(`processAllBackends` and what it calls): the LDAP-sync checks for GitLab, finding or creating
the group's team, creating missing users, and computing and applying the membership delta.

A Go map index `m[k]` of a string map reads `""` for a missing key; the model writes it
`(m.lookup k).getD ""`, and the code's test `exists && id != ""` is then `(m.lookup k).getD "" ≠ ""`.

## Main definitions

* `GroupReconciler.processUsers`: the membership delta `(usersToAdd, usersToRemove)`.
* `GroupReconciler.fetchOrCreateTeam`, `GroupReconciler.createUsersInBackendAndCache`.
* `GroupReconciler.setupLdapSync`, `GroupReconciler.ldapDependantChecks`.
* `GroupReconciler.processSingleBackend`, `GroupReconciler.processAllBackends`.
-/

namespace Usernaut

/-- `backendErrors`: error messages by backend type, then backend name. -/
abbrev BackendErrors := StringMap (StringMap String)

namespace BackendErrors

/-- Record `message` for the backend `name` of type `type`, creating the inner map if needed. -/
def record (errs : BackendErrors) (type name message : String) : BackendErrors :=
  errs.insert type (((errs.lookup type).getD ∅).insert name message)

/-- The test `Reconcile` and `updateStatusAndHandleErrors` make: some inner map is non-empty. -/
def hasErrors (errs : BackendErrors) : Bool :=
  decide (∃ type ∈ errs.keys, ((errs.lookup type).getD ∅).keys.Nonempty)

/-- `backendErrors[type][name]`: the message recorded for a backend, if any. -/
def entry (errs : BackendErrors) (type name : String) : Option String :=
  (errs.lookup type).bind (·.lookup name)

@[simp] theorem entry_empty (type name : String) : entry ∅ type name = none := rfl

@[simp] theorem entry_record (errs : BackendErrors) (type name message type' name' : String) :
    (errs.record type name message).entry type' name' =
      if type' = type ∧ name' = name then some message else errs.entry type' name' := by
  by_cases htype : type' = type
  · subst htype
    by_cases hname : name' = name
    · subst hname
      simp [entry, record]
    · rcases hinner : errs.lookup type' with _ | inner <;> simp [entry, record, hinner, hname]
  · simp [entry, record, htype, Finmap.lookup_insert_of_ne _ htype]

@[simp] theorem hasErrors_empty : hasErrors ∅ = false := by simp [hasErrors]

@[simp] theorem hasErrors_record (errs : BackendErrors) (type name message : String) :
    (errs.record type name message).hasErrors = true := by
  simp only [hasErrors, record, decide_eq_true_eq]
  exact ⟨type, by simp [Finmap.mem_keys], name, by simp [Finmap.mem_keys]⟩

end BackendErrors

namespace GroupReconciler

variable {σ : Type} (env : Env σ)

/-- One pass of `processUsers`' loop over the group's usernames, building `userIDsToSync` and the
first part of `usersToRemove`: a username LDAP did not resolve is removed if it is a key of the
member map, and a resolved user without an id for the backend is an error. -/
def processUsersStep (allLdapUserData : StringMap LDAPUser) (store : Store)
    (existingTeamMembers : List String) (backendKey : String)
    (acc : List String × List String) (user : String) : Except String (List String × List String) :=
  match allLdapUserData.lookup user with
  | none => .ok (acc.1, if user ∈ existingTeamMembers then acc.2 ++ [user] else acc.2)
  | some userDetails =>
    let userID := ((store.user.getBackends userDetails.email).lookup backendKey).getD ""
    if userID = "" then .error "user ID not found in cache" else .ok (acc.1 ++ [userID], acc.2)

/-- `processUsers`: the ids to add to the team and the ids to remove from it. `existingTeamMembers`
is the member map's keys in its iteration order. -/
def processUsers (allLdapUserData : StringMap LDAPUser) (store : Store) (groupUsers : List String)
    (existingTeamMembers : List String) (backendName backendType : String) :
    Except String (List String × List String) := do
  let (userIDsToSync, usersToRemove) ← groupUsers.foldlM
    (processUsersStep allLdapUserData store existingTeamMembers (backendKey backendName backendType))
    ([], [])
  let usersToRemove := usersToRemove ++ existingTeamMembers.filter (· ∉ userIDsToSync)
  let usersToAdd := userIDsToSync.filter (· ∉ existingTeamMembers)
  pure (usersToAdd, usersToRemove)

/-- `createUsersInBackendAndCache`: create in the backend every resolved user who has no id for
it yet, and record the new id. -/
def createUsersInBackendAndCache (allLdapUserData : StringMap LDAPUser) (users : List String)
    (backendName backendType : String) (backendClient : Client σ) (ldapSync : Option String) :
    ReconcileM σ Unit :=
  users.forM fun user =>
    match allLdapUserData.lookup user with
    | none => pure ()
    | some userDetails => do
      let userBackends := (← getStore).user.getBackends userDetails.email
      if (userBackends.lookup (backendKey backendName backendType)).getD "" ≠ "" then pure ()
      else do
        let u : User :=
          { id := "", email := userDetails.email, userName := user,
            role := env.accountReviewerRole, firstName := userDetails.displayName,
            lastName := userDetails.sn }
        let newUser ← callBackend ⟨backendName, backendType⟩ (backendClient.createUser ldapSync u)
          (.createUser u)
        modifyStore fun s => { s with
          user := s.user.setBackend userDetails.email (backendKey backendName backendType) newUser.id }

/-- `fetchOrCreateTeam`: the team id recorded for the group, else the preloaded one (copied
into the group's record), else a newly created team's. -/
def fetchOrCreateTeam (groupName : String) (backendClient : Client σ) (ldapSync : Option String)
    (backendParams : BackendParams) : ReconcileM σ String := do
  let backendName := backendParams.name
  let backendType := backendParams.type
  let transformedGroupName ← ofExcept (env.transform backendType groupName)
  let teamID := (← getStore).group.getBackendID groupName backendName backendType
  if teamID ≠ "" then return teamID
  let teamBackends := (← getStore).team.getBackends transformedGroupName
  emit (.teamStoreRead groupName transformedGroupName (backendKey backendName backendType))
  let id := (teamBackends.lookup (backendKey backendName backendType)).getD ""
  if id ≠ "" then
    modifyStore fun s => { s with group := s.group.setBackend groupName backendName backendType id }
    return id
  let team : Team :=
    { id := "", name := transformedGroupName, description := "team for " ++ groupName,
      role := env.accountReviewerRole, teamParams := backendParams.groupParams }
  let newTeam ← callBackend ⟨backendName, backendType⟩ (backendClient.createTeam ldapSync team)
    (.createTeam team)
  modifyStore fun s => { s with
    group := s.group.setBackend groupName backendName backendType newTeam.id }
  return newTeam.id

/-- `isGroupCRHasDependants`: the group declares the backend its GitLab backend depends on. -/
def isGroupCRHasDependants (backends : List Backend) (dependsOn : Dependant) : Bool :=
  backends.any fun backend => backend.type = dependsOn.type && backend.name = dependsOn.name

/-- `ldapDependantChecks`: the dependency is configured, enabled, and already recorded for the
group, in the Group store or else in the Team preload store. -/
def ldapDependantChecks (dependsOn : Dependant) (groupName : String) : ReconcileM σ Unit := do
  let some dependantType := env.backendMap.lookup dependsOn.type
    | throw ("ldap dependant type " ++ dependsOn.type ++ " not found in BackendMap")
  let some dependantName := dependantType.lookup dependsOn.name
    | throw ("ldap dependant name " ++ dependsOn.name ++ " not found in BackendMap[" ++
        dependsOn.type ++ "]")
  if !dependantName.enabled then throw (dependsOn.type ++ " is not enabled")
  if (← getStore).group.backendExists groupName dependsOn.name dependsOn.type then return ()
  let transformedGroupName ← ofExcept (env.transform dependsOn.type groupName)
  let teamBackends := (← getStore).team.getBackends transformedGroupName
  emit (.teamStoreRead groupName transformedGroupName (backendKey dependsOn.name dependsOn.type))
  if backendKey dependsOn.name dependsOn.type ∈ teamBackends then return ()
  throw ("dependent backend " ++ backendKey dependsOn.name dependsOn.type ++
    " not found in cache for group " ++ groupName)

/-- `r.AppConfig.BackendMap["gitlab"][backendName].DependsOn`, Go's zero value when absent. -/
def gitlabDependsOn (backendName : String) : Dependant :=
  (((env.backendMap.lookup "gitlab").bind (·.lookup backendName)).map (·.dependsOn)).getD ⟨"", ""⟩

/-- Whether the configuration asks for LDAP sync: a GitLab backend with a dependency. -/
def ldapSyncConfigured (backendType backendName : String) : Bool :=
  backendType = "gitlab" &&
    !((gitlabDependsOn env backendName).type = "" && (gitlabDependsOn env backendName).name = "")

/-- `setupLdapSync`: `true` when the client is put in LDAP-sync mode. -/
def setupLdapSync (backendType backendName : String) (backendClient : Client σ)
    (groupName : String) (backends : List Backend) : ReconcileM σ Bool := do
  if backendType = "gitlab" then
    let dependsOn := gitlabDependsOn env backendName
    if dependsOn.type = "" ∧ dependsOn.name = "" then return false
    ldapDependantChecks env dependsOn groupName
    if !isGroupCRHasDependants backends dependsOn then
      throw ("ldap dependants for " ++ backendType ++ " backend doesn't exist in group CR")
    if !backendClient.isGitlab then throw "backend client is not a GitlabClient"
    return true
  else return false

/-- `processSingleBackend`. -/
def processSingleBackend (groupCR : Group) (backend : Backend)
    (allLdapUserData : StringMap LDAPUser) (uniqueMembers : List String)
    (backendGroupParams : TeamParams) : ReconcileM σ Unit := do
  let backendClient ← ofExcept (env.newClient backend.name backend.type)
  let isLdapSync ← setupLdapSync env backend.type backend.name backendClient
    groupCR.spec.groupName groupCR.spec.backends
  let ldapSync := if isLdapSync then some groupCR.spec.groupName else none
  let teamID ← fetchOrCreateTeam env groupCR.spec.groupName backendClient ldapSync
    ⟨backend.name, backend.type, backendGroupParams⟩
  createUsersInBackendAndCache env allLdapUserData uniqueMembers backend.name backend.type
    backendClient ldapSync
  let members ← callBackend backend (backendClient.fetchTeamMembersByTeamID teamID)
    (.fetchTeamMembersByTeamID teamID)
  let (usersToAdd, usersToRemove) ← ofExcept
    (processUsers allLdapUserData (← getStore) uniqueMembers members backend.name backend.type)
  if !isLdapSync then
    if usersToAdd ≠ [] then
      callBackend backend (backendClient.addUserToTeam teamID usersToAdd)
        (.addUserToTeam teamID usersToAdd)
    if usersToRemove ≠ [] then
      callBackend backend (backendClient.removeUserFromTeam teamID usersToRemove)
        (.removeUserFromTeam teamID usersToRemove)

/-- The first loop of `processAllBackends`: validate one group param, recording an error or the
param under its backend key. -/
def groupParamStep (validBackends : List String) (acc : BackendErrors × StringMap TeamParams)
    (param : GroupParam) : BackendErrors × StringMap TeamParams :=
  if backendKey param.name param.backend ∉ validBackends then
    (acc.1.record param.backend param.name
      ("group param refers to non-existent backend: " ++ param.backend ++ "/" ++ param.name), acc.2)
  else if param.property = "" then
    (acc.1.record param.backend param.name
      ("group param property is empty for backend: " ++ param.backend ++ "/" ++ param.name), acc.2)
  else (acc.1, acc.2.insert (backendKey param.name param.backend) ⟨param.property, param.value⟩)

/-- The second loop of `processAllBackends`: process one backend, recording its error. -/
def processBackendStep (groupCR : Group) (allLdapUserData : StringMap LDAPUser)
    (uniqueMembers : List String) (groupParamsByBackend : StringMap TeamParams)
    (backendErrors : BackendErrors) (backend : Backend) : ReconcileM σ BackendErrors :=
  tryCatch
    (do
      processSingleBackend env groupCR backend allLdapUserData uniqueMembers
        ((groupParamsByBackend.lookup (backendKey backend.name backend.type)).getD .zero)
      pure backendErrors)
    fun err => pure (backendErrors.record backend.type backend.name err)

/-- `processAllBackends`: the errors of the invalid group params and of the backends. -/
def processAllBackends (groupCR : Group) (allLdapUserData : StringMap LDAPUser)
    (uniqueMembers : List String) : ReconcileM σ BackendErrors :=
  let validBackends := groupCR.spec.backends.map fun backend => backendKey backend.name backend.type
  let (backendErrors, groupParamsByBackend) :=
    groupCR.spec.groupParams.foldl (groupParamStep validBackends) (∅, ∅)
  groupCR.spec.backends.foldlM
    (processBackendStep env groupCR allLdapUserData uniqueMembers groupParamsByBackend)
    backendErrors

end GroupReconciler

end Usernaut
