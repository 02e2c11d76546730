import Usernaut.Controller.Membership

/-!
# Reconciling twice

A second reconcile of a Group, with the same spec and LDAP answers, started from what a first
reconcile that logged `succeededIndexUpdate` left, makes no backend write (`CreateTeam`,
`CreateUser`, `AddUserToTeam`, `RemoveUserFromTeam`) and leaves the store as it was, for
backends that keep team membership as sets, provided that

* no created team gets an empty id: the group would record none, and the second reconcile would
  create the team again;
* no member's backend id is a username of the expansion that LDAP does not resolve: the first
  reconcile removes it from the team as a ghost, and the second adds it back.

The first reconcile leaves the world `Settled`: it records the group's members, their reverse
index entries, their ids and the team ids (`Recorded`), and its teams hold exactly the members'
ids. From a settled world every step of a reconcile moves along `noWrites`, so that each step
starts from the same store and backend states and reads there what the first reconcile recorded.

## Main definitions

* `Event.isWrite`: the four calls that write to a backend.
* `noWrites`: no write call, and the store and the backends as they were.
* `Recorded`, `Settled`: what a successful reconcile leaves, when the two conditions above hold.

## Main results

* `processSingleBackend_noWrites`, `reconcile_noWrites`: from a settled world, nothing is written.
* `reconcile_recorded`: what a reconcile that logged `succeededIndexUpdate` records.
* `Settled.of_teamsMatchMembers`: with the teams matching the members, that is a settled world.
* `reconcile_idempotent`: the second reconcile writes nothing.
-/

namespace Usernaut

open GroupReconciler

/-- Whether a backend call writes: `CreateTeam`, `CreateUser`, `AddUserToTeam` or
`RemoveUserFromTeam`. -/
def BackendCall.isWrite : BackendCall → Bool
  | .createTeam _ _ | .createUser _ _ | .addUserToTeam _ _ _ | .removeUserFromTeam _ _ _ => true
  | _ => false

/-- Whether an event is a backend call that writes. -/
def Event.isWrite : Event → Bool
  | .backend _ call => call.isWrite
  | _ => false

/-- Between `w` and `w'` no write call was made, and the store and the backends' states are as
they were. -/
def noWrites {σ : Type} : WorldOrder σ :=
  (WorldOrder.appends fun e => e.isWrite = false).inter
    (WorldOrder.keeping fun w => (w.store, w.backends))

/-- An event that is not a write call, such as a log line or a read of the Team preload store. -/
theorem noWrites_record {σ : Type} (w : World σ) {e : Event} (he : e.isWrite = false) :
    noWrites.rel w (w.record e) :=
  ⟨⟨[e], rfl, by simpa using he⟩, rfl⟩

/-- Calls to the API server write nothing. -/
theorem apiWork_noWrites {σ : Type} : ApiWork (noWrites (σ := σ)) fun _ => True where
  update w _ _ _ := noWrites_record w rfl
  statusUpdate w _ _ _ := noWrites_record w rfl

/-- A backend call that writes nothing and leaves the backend's state as it was. -/
theorem noWrites_afterCall {σ : Type} {w : World σ} {b : Backend} {st : σ} {c : BackendCall}
    (hst : st = w.backends b) (hc : c.isWrite = false) : noWrites.rel w (w.afterCall b st c) := by
  subst hst
  exact ⟨⟨[.backend b c], by simp, by simpa [Event.isWrite] using hc⟩,
    Prod.ext rfl (Function.update_eq_self _ _)⟩

/-- The worlds whose store is `s` and whose backends are in the states `bs`. -/
def WorldAt {σ : Type} (s : Store) (bs : Backend → σ) (w : World σ) : Prop :=
  w.store = s ∧ w.backends = bs

/-- `noWrites` stays among the worlds with a given store and backend states. -/
theorem worldAt_noWrites {σ : Type} {s : Store} {bs : Backend → σ} (w w' : World σ)
    (hw : WorldAt s bs w) (h : noWrites.rel w w') : WorldAt s bs w' :=
  ⟨(congrArg Prod.fst h.2).trans hw.1, (congrArg Prod.snd h.2).trans hw.2⟩

/-- What a reconcile that logged `succeededIndexUpdate` records about a Group with spec `spec`
whose members expand to `all`. -/
structure Recorded (env : Env TeamMembers) (spec : GroupSpec) (all : List String) (s : Store) :
    Prop where
  /-- The group has an entry in the Group store. -/
  indexed : spec.groupName ∈ s.group.entries
  /-- Its members are the emails LDAP resolves for the expansion. -/
  members : s.group.getMembers spec.groupName =
    (fetchLDAPData env (deduplicateMembers all)).2.currentMembers
  /-- Every member has the group in the reverse index. -/
  groups : ∀ e ∈ s.group.getMembers spec.groupName, spec.groupName ∈ s.userGroups.getGroups e
  /-- Every member has an id in every declared backend. -/
  userIDs : ∀ b ∈ spec.backends, ∀ e ∈ s.group.getMembers spec.groupName,
    s.user.backendID e (backendKey b.name b.type) ≠ ""
  /-- The group records a team id for every declared backend, and none of them is empty. -/
  teamIDs : ∀ b ∈ spec.backends, s.group.getBackendID spec.groupName b.name b.type ≠ ""

/-- A store and backend states that a reconcile of the Group finds nothing to do in: what a
successful reconcile records, teams that hold exactly the members' ids, and no member's id that
is an unresolved username of the expansion. -/
structure Settled (env : Env TeamMembers) (spec : GroupSpec) (all : List String) (s : Store)
    (bs : Backend → TeamMembers) extends Recorded env spec all s : Prop where
  /-- Outside LDAP-sync mode, each team holds exactly the members' ids. -/
  teams : ∀ b ∈ spec.backends, ldapSyncConfigured env b.type b.name = false → ∀ x,
    x ∈ bs b (s.group.getBackendID spec.groupName b.name b.type) ↔
      ∃ e ∈ s.group.getMembers spec.groupName, s.user.backendID e (backendKey b.name b.type) = x
  /-- Outside LDAP-sync mode, a member's id that is a username of the expansion is one that
  LDAP resolves. -/
  resolved : ∀ b ∈ spec.backends, ldapSyncConfigured env b.type b.name = false →
    ∀ e ∈ s.group.getMembers spec.groupName,
      s.user.backendID e (backendKey b.name b.type) ∈ all →
        (env.ldap (s.user.backendID e (backendKey b.name b.type))).toOption ≠ none

namespace Settled

variable {env : Env TeamMembers} {spec : GroupSpec} {all : List String} {s : Store}
  {bs : Backend → TeamMembers} (hS : Settled env spec all s bs) {b : Backend}
include hS

/-- Every user LDAP resolves has an id in every declared backend. -/
theorem userIDs_lookup (hb : b ∈ spec.backends) :
    ∀ u ∈ deduplicateMembers all, ∀ d, (fetchLDAPData env (deduplicateMembers all)).1.lookup u = some d →
      s.user.backendID d.email (backendKey b.name b.type) ≠ "" := fun u hu d hd =>
  hS.userIDs b hb _ (hS.members ▸ (mem_fetchLDAPData_currentMembers env).mpr
    ⟨u, hu, d, ((lookup_fetchLDAPData env).mp hd).2, rfl⟩)

/-- Outside LDAP-sync mode, each team holds exactly the ids of the users LDAP resolves. -/
theorem teams_lookup (hb : b ∈ spec.backends)
    (hsync : ldapSyncConfigured env b.type b.name = false) (x : String) :
    x ∈ bs b (s.group.getBackendID spec.groupName b.name b.type) ↔
      ∃ u ∈ deduplicateMembers all, ∃ d, (fetchLDAPData env (deduplicateMembers all)).1.lookup u = some d ∧
        s.user.backendID d.email (backendKey b.name b.type) = x := by
  rw [hS.teams b hb hsync x, hS.members, exists_lookup_fetchLDAPData_iff]

/-- Outside LDAP-sync mode, a team member that is a username of the expansion is resolved. -/
theorem resolved_lookup (hb : b ∈ spec.backends)
    (hsync : ldapSyncConfigured env b.type b.name = false) :
    ∀ x ∈ bs b (s.group.getBackendID spec.groupName b.name b.type), x ∈ deduplicateMembers all →
      (fetchLDAPData env (deduplicateMembers all)).1.lookup x ≠ none := fun x hx hxu => by
  obtain ⟨e, he, rfl⟩ := (hS.teams b hb hsync x).mp hx
  rw [Ne, lookup_fetchLDAPData_eq_none env hxu]
  exact hS.resolved b hb hsync e he (mem_deduplicateMembers.mp hxu)

end Settled

namespace GroupReconciler

/-- A delta computed against a team that holds exactly the ids of the resolved users, none of
them an unresolved username of the group, is empty. -/
theorem processUsers_eq_nil {data : StringMap LDAPUser} {store : Store}
    {users existing : List String} {n t : String} {toAdd toRemove : List String}
    (h : processUsers data store users existing n t = .ok (toAdd, toRemove))
    (hex : ∀ x, x ∈ existing ↔ ∃ u ∈ users, ∃ d, data.lookup u = some d ∧
      store.user.backendID d.email (backendKey n t) = x)
    (hghost : ∀ x ∈ existing, x ∈ users → data.lookup x ≠ none) :
    toAdd = [] ∧ toRemove = [] := by
  unfold processUsers at h
  rcases hf : users.foldlM (processUsersStep data store existing (backendKey n t)) ([], []) with
    _ | ⟨toSync, ghosts⟩ <;> rw [hf] at h
  · cases h
  obtain ⟨-, h2, h3⟩ := foldlM_processUsersStep users _ _ hf
  cases h
  simp only [List.not_mem_nil, false_or] at h2 h3
  refine ⟨List.filter_eq_nil_iff.mpr fun x hx => ?_, List.append_eq_nil.mpr
    ⟨List.eq_nil_iff_forall_not_mem.mpr fun x hx => ?_, List.filter_eq_nil_iff.mpr fun x hx => ?_⟩⟩
  · simpa using (hex x).mpr ((h2 x).mp hx)
  · obtain ⟨hu, hnone, hx'⟩ := (h3 x).mp hx
    exact hghost x hx' hu hnone
  · simpa using (h2 x).mpr ((hex x).mp hx)

section Quiet

variable (env : Env TeamMembers) {s : Store} {bs : Backend → TeamMembers}

/-- From a store that records a team id for the backend, `fetchOrCreateTeam` only reads. -/
theorem fetchOrCreateTeam_noWrites {groupName : String} {client : Client TeamMembers}
    {ldapSync : Option String} {n t : String} {p : TeamParams}
    (hid : s.group.getBackendID groupName n t ≠ "") :
    MovesFrom (WorldAt s bs) noWrites (fetchOrCreateTeam env groupName client ldapSync ⟨n, t, p⟩) := by
  unfold fetchOrCreateTeam
  simp only [pure_bind]
  refine MovesFrom.bind worldAt_noWrites (.of_moves (Moves.ofExcept' _)) fun _ _ _ _ _ _ w hw => ?_
  simp only [exec_bind, exec_getStore, hw.1, ne_eq, hid, not_false_eq_true, if_true, exec_pure]
  exact noWrites.refl w

/-- From a store where every resolved user has an id for the backend, creating the missing users
creates none. -/
theorem createUsersInBackendAndCache_noWrites {data : StringMap LDAPUser} {users : List String}
    {n t : String} {client : Client TeamMembers} {ldapSync : Option String}
    (hids : ∀ u ∈ users, ∀ d, data.lookup u = some d → s.user.backendID d.email (backendKey n t) ≠ "") :
    MovesFrom (WorldAt s bs) noWrites
      (createUsersInBackendAndCache env data users n t client ldapSync) := by
  refine MovesFrom.forM' worldAt_noWrites fun user huser => ?_
  split
  · exact .of_moves (Moves.pure' _)
  · rename_i d hd
    intro w hw
    simp only [exec_bind, exec_getStore, hw.1, UserStore.getD_lookup_getBackends]
    rw [if_pos (hids user huser d hd)]
    exact noWrites.refl w

/-- **One backend, again.** From a store that records a non-empty team id for the backend and
an id for every resolved user, and, outside LDAP-sync mode, a team holding exactly those ids,
none of them an unresolved username of the group, `processSingleBackend` writes nothing. -/
theorem processSingleBackend_noWrites {groupCR : Group} {backend : Backend}
    {data : StringMap LDAPUser} {users : List String} {params : TeamParams}
    (hlawful : ∀ client, env.newClient backend.name backend.type = .ok client → LawfulClient client)
    (hid : s.group.getBackendID groupCR.spec.groupName backend.name backend.type ≠ "")
    (hids : ∀ u ∈ users, ∀ d, data.lookup u = some d →
      s.user.backendID d.email (backendKey backend.name backend.type) ≠ "")
    (hteam : ldapSyncConfigured env backend.type backend.name = false → ∀ x,
      x ∈ bs backend (s.group.getBackendID groupCR.spec.groupName backend.name backend.type) ↔
        ∃ u ∈ users, ∃ d, data.lookup u = some d ∧
          s.user.backendID d.email (backendKey backend.name backend.type) = x)
    (hghost : ldapSyncConfigured env backend.type backend.name = false → ∀ x ∈
      bs backend (s.group.getBackendID groupCR.spec.groupName backend.name backend.type),
        x ∈ users → data.lookup x ≠ none) :
    MovesFrom (WorldAt s bs) noWrites
      (processSingleBackend env groupCR backend data users params) := by
  unfold processSingleBackend
  refine MovesFrom.bind worldAt_noWrites (.of_moves (Moves.ofExcept' _))
    fun w client w₁ _ h₁ _ => ?_
  simp only [exec_ofExcept, Prod.mk.injEq] at h₁
  have hc := hlawful client h₁.1
  refine MovesFrom.bind worldAt_noWrites (.of_moves (setupLdapSync_moves (R := noWrites)
    (fun w _ _ _ _ => noWrites_record w rfl) env _ _ _ _))
    fun w isLdapSync w₂ _ h₂ _ => ?_
  have hsync : isLdapSync = _ := setupLdapSync_returns env _ _ _ _ w _ _ h₂
  refine MovesFrom.bind worldAt_noWrites (fetchOrCreateTeam_noWrites env hid)
    fun w teamID w₃ _ h₃ hw₃ => ?_
  have hteamID := (fetchOrCreateTeam_ok env hc h₃).2.2.1
  rw [hw₃.1] at hteamID
  subst hteamID
  refine MovesFrom.bind worldAt_noWrites (createUsersInBackendAndCache_noWrites env hids)
    fun _ _ _ _ _ _ => ?_
  refine MovesFrom.bind worldAt_noWrites (.of_moves (Moves.callBackend_op fun w =>
    noWrites_afterCall (by rw [hc.fetchTeamMembersByTeamID]) rfl)) fun w members w₅ hw h₅ _ => ?_
  simp only [exec_callBackend, hc.fetchTeamMembersByTeamID, hw.2, Prod.mk.injEq,
    Except.ok.injEq] at h₅
  obtain ⟨rfl, -⟩ := h₅
  refine MovesFrom.bind worldAt_noWrites (.of_moves Moves.getStore') fun w st w₆ hw h₆ _ => ?_
  simp only [exec_getStore, hw.1, Prod.mk.injEq, Except.ok.injEq] at h₆
  obtain ⟨rfl, -⟩ := h₆
  refine MovesFrom.bind worldAt_noWrites (.of_moves (Moves.ofExcept' _))
    fun w ⟨toAdd, toRemove⟩ w₇ _ h₇ _ => ?_
  simp only [exec_ofExcept, Prod.mk.injEq] at h₇
  cases isLdapSync
  · obtain ⟨rfl, rfl⟩ := processUsers_eq_nil h₇.1 (hteam hsync.symm) (hghost hsync.symm)
    simp only [Bool.not_false, ne_eq, not_true_eq_false, ↓reduceIte, pure_bind]
    exact .of_moves (Moves.pure' _)
  · exact .of_moves (Moves.pure' _)

/-- **Every backend, again.** From a settled world, the backend loop writes nothing. -/
theorem processAllBackends_noWrites {groupCR : Group} {all : List String}
    (hS : Settled env groupCR.spec all s bs)
    (hlawful : ∀ b ∈ groupCR.spec.backends, ∀ client,
      env.newClient b.name b.type = .ok client → LawfulClient client) :
    MovesFrom (WorldAt s bs) noWrites (processAllBackends env groupCR
      (fetchLDAPData env (deduplicateMembers all)).1 (deduplicateMembers all)) := by
  simp only [processAllBackends]
  refine MovesFrom.foldlM' worldAt_noWrites (fun _ b hb => ?_) _
  unfold processBackendStep
  exact MovesFrom.tryCatch' worldAt_noWrites (MovesFrom.bind worldAt_noWrites
    (processSingleBackend_noWrites env (hlawful b hb) (hS.teamIDs b hb) (hS.userIDs_lookup hb)
      (hS.teams_lookup hb) (hS.resolved_lookup hb)) fun _ _ _ _ _ _ => .of_moves (Moves.pure' _))
    fun _ => .of_moves (Moves.pure' _)

/-- From a settled world, the part of a reconcile after the configurability gate writes nothing:
the index update records what is recorded. -/
theorem reconcileMembers_noWrites {spec : GroupSpec} (groupCR : Group)
    (hspec : groupCR.spec = spec) {all : List String}
    (hall : expandGroupMembers env.groups spec.groupName = .ok all)
    (hS : Settled env spec all s bs)
    (hlawful : ∀ b ∈ spec.backends, ∀ client,
      env.newClient b.name b.type = .ok client → LawfulClient client) :
    MovesFrom (WorldAt s bs) noWrites (reconcileMembers env groupCR) := by
  subst hspec
  unfold reconcileMembers
  simp only [hall, ofExcept_ok, pure_bind]
  refine MovesFrom.bind worldAt_noWrites (processAllBackends_noWrites env hS hlawful)
    fun _ _ _ _ _ _ => ?_
  refine MovesFrom.bind worldAt_noWrites ?_ fun _ _ _ _ _ _ => .of_moves (Moves.bind'
    (removeForceReconcileLabel_moves apiWork_noWrites env _ _ trivial) fun _ =>
      updateStatusAndHandleErrors_moves apiWork_noWrites env _ _ fun _ _ => trivial)
  refine MovesFrom.dite' (fun _ => ?_) fun _ => .of_moves (Moves.emit' fun w => noWrites_record w rfl)
  refine .bind_of_moves worldAt_noWrites (Moves.emit' fun w => noWrites_record w rfl)
    fun _ w ⟨hw, _⟩ => ?_
  subst hw
  rw [exec_modifyStore, updateCacheIndexes_self hS.indexed hS.members
    fun e he => hS.groups e (hS.members ▸ he)]
  exact noWrites.refl w

/-- **A reconcile, again.** From a settled world, a reconcile of a Group that is not being
deleted writes nothing. -/
theorem reconcile_noWrites (name : String) (groupCR : Group)
    (hget : env.groups.get name = .ok groupCR)
    (hdel : groupCR.metadata.deletionTimestamp = none) {all : List String}
    (hall : expandGroupMembers env.groups groupCR.spec.groupName = .ok all)
    (hS : Settled env groupCR.spec all s bs)
    (hlawful : ∀ b ∈ groupCR.spec.backends, ∀ client,
      env.newClient b.name b.type = .ok client → LawfulClient client) :
    MovesFrom (WorldAt s bs) noWrites (reconcile env name) := by
  unfold reconcile
  simp only [hget, hdel, Option.isSome_none, Bool.false_eq_true, if_false]
  refine .bind_of_moves worldAt_noWrites (prepareGroup_moves apiWork_noWrites env _ trivial
    (fun _ => trivial) fun _ => trivial) fun _ => ?_
  exact MovesFrom.dite' (fun _ => .of_moves (updateGroupStatus_moves apiWork_noWrites env trivial))
    fun _ => reconcileMembers_noWrites env _ (waitingGroup_spec _ _) hall hS hlawful

end Quiet

section FirstRun

variable (env : Env TeamMembers)

/-- The index update after a backend loop with no error entry records the group, its members,
their reverse index entries, their ids and the team ids, when no created team gets an empty id. -/
theorem recorded_updateCacheIndexes {groupCR : Group} {all : List String}
    (hlawful : ∀ b ∈ groupCR.spec.backends, ∀ client,
      env.newClient b.name b.type = .ok client → LawfulClient client)
    (hcreate : ∀ b ∈ groupCR.spec.backends, ∀ client, env.newClient b.name b.type = .ok client →
      ∀ ldapSync team s newTeam, (client.createTeam ldapSync team s).1 = .ok newTeam → newTeam.id ≠ "")
    (hkeys : (groupCR.spec.backends.map fun b => backendKey b.name b.type).Nodup)
    {w w' : World TeamMembers} {errs : BackendErrors}
    (h : (processAllBackends env groupCR (fetchLDAPData env (deduplicateMembers all)).1
      (deduplicateMembers all)).exec w = (.ok errs, w'))
    (herrs : errs.hasErrors = false) :
    Recorded env groupCR.spec all (updateCacheIndexes w'.store groupCR.spec.groupName
      (fetchLDAPData env (deduplicateMembers all)).2) := by
  have hbackend (b : Backend) (hb : b ∈ groupCR.spec.backends) :
      (∀ u ∈ deduplicateMembers all, ∀ d,
        (fetchLDAPData env (deduplicateMembers all)).1.lookup u = some d →
          w'.store.user.backendID d.email (backendKey b.name b.type) ≠ "") ∧
      w'.store.group.getBackendID groupCR.spec.groupName b.name b.type ≠ "" := by
    obtain ⟨_, _, w₂, -, h₂, h₃⟩ := processAllBackends_ok env hkeys h herrs b hb
    obtain ⟨-, hids, hid⟩ := processSingleBackend_ok env (hlawful b hb) h₂
    simp only [keepsBackend, WorldOrder.keeping, Prod.mk.injEq] at h₃
    obtain ⟨-, hid', hu⟩ := h₃
    exact ⟨fun u hu' d hd => congrFun hu d.email ▸ hids u hu' d hd, hid' ▸ hid (hcreate b hb)⟩
  refine ⟨by simp [updateCacheIndexes, GroupStore.setMembers], by simp, fun e he => ?_,
    fun b hb e he => ?_, fun b hb => by simpa [updateCacheIndexes] using (hbackend b hb).2⟩
  · simp only [updateCacheIndexes_group_getMembers, if_true] at he
    rw [mem_updateCacheIndexes_getGroups]
    exact ⟨.inr ⟨he, rfl⟩, fun h => h.2.1 he⟩
  · simp only [updateCacheIndexes_group_getMembers, if_true, mem_fetchLDAPData_currentMembers] at he
    obtain ⟨u, hu, d, hd, rfl⟩ := he
    exact (hbackend b hb).1 u hu d ((lookup_fetchLDAPData env).mpr ⟨hu, hd⟩)

/-- **What a successful reconcile records.** A reconcile of a Group that logged
`succeededIndexUpdate` was not deleting it, and left the store with what `Recorded` says. -/
theorem reconcile_recorded (name : String) (groupCR : Group)
    (hget : env.groups.get name = .ok groupCR)
    (hlawful : ∀ b ∈ groupCR.spec.backends, ∀ client,
      env.newClient b.name b.type = .ok client → LawfulClient client)
    (hcreate : ∀ b ∈ groupCR.spec.backends, ∀ client, env.newClient b.name b.type = .ok client →
      ∀ ldapSync team s newTeam, (client.createTeam ldapSync team s).1 = .ok newTeam → newTeam.id ≠ "")
    (hkeys : (groupCR.spec.backends.map fun b => backendKey b.name b.type).Nodup) :
    IfLogged succeededIndexUpdate (fun _ w' => groupCR.metadata.deletionTimestamp = none ∧
      ∃ all, expandGroupMembers env.groups groupCR.spec.groupName = .ok all ∧
        Recorded env groupCR.spec all w'.store) (reconcile env name) := by
  refine reconcile_ifLogged env apiWork_quiet (fun _ _ _ _ h => h) name groupCR hget
    fun hdel groupCR' hspec => IfLogged.imp ?_ fun _ _ h => ⟨hdel, h⟩
  refine reconcileMembers_ifLogged env groupCR' hspec
    (fun groupCR'' all _ _ _ hspec' hall h herrs => ⟨all, hall, ?_⟩) fun _ _ w₂ hr h => ?_
  · rw [← hspec'] at hlawful hcreate hkeys ⊢
    exact recorded_updateCacheIndexes env hlawful hcreate hkeys h herrs
  · rwa [show w₂.store = _ from congrArg Prod.fst h]

end FirstRun

/-- The store and the backends a reconcile left are settled when they record what a successful
reconcile records, its teams match the members, and no member's id is an unresolved username of
the expansion. -/
theorem Settled.of_teamsMatchMembers {env : Env TeamMembers} {spec : GroupSpec} {all : List String}
    {w w' : World TeamMembers} (hall : expandGroupMembers env.groups spec.groupName = .ok all)
    (hrec : Recorded env spec all w'.store) (hmatch : TeamsMatchMembers env spec w w')
    (hres : ∀ b ∈ spec.backends, ldapSyncConfigured env b.type b.name = false →
      ∀ e ∈ w'.store.group.getMembers spec.groupName,
        w'.store.user.backendID e (backendKey b.name b.type) ∈ all →
          (env.ldap (w'.store.user.backendID e (backendKey b.name b.type))).toOption ≠ none) :
    Settled env spec all w'.store w'.backends where
  toRecorded := hrec
  teams b hb hsync x := by
    rw [hmatch b hb hsync x, and_iff_left_iff_imp]
    rintro ⟨e, he, rfl⟩ ⟨⟨all', hall', hx⟩, hnone, -⟩
    cases hall.symm.trans hall'
    exact hres b hb hsync e he hx hnone
  resolved := hres

end GroupReconciler

/-- **Idempotence.** Take backends that keep team membership as sets and never give a created
team an empty id, a Group `name` whose declared backends have distinct keys, and a reconcile of
it that logged `succeededIndexUpdate`. If no member's id in a backend outside LDAP-sync mode is
a username of the expansion that LDAP does not resolve, a second reconcile from the world the
first left makes no backend write, and leaves the store and the backends as they were. -/
theorem reconcile_idempotent (env : Env TeamMembers) (name : String) (groupCR : Group)
    (hget : env.groups.get name = .ok groupCR)
    (hlawful : ∀ b ∈ groupCR.spec.backends, ∀ client,
      env.newClient b.name b.type = .ok client → LawfulClient client)
    (hcreate : ∀ b ∈ groupCR.spec.backends, ∀ client, env.newClient b.name b.type = .ok client →
      ∀ ldapSync team s newTeam, (client.createTeam ldapSync team s).1 = .ok newTeam → newTeam.id ≠ "")
    (hkeys : (groupCR.spec.backends.map fun b => backendKey b.name b.type).Nodup)
    (w w₁ : World TeamMembers) (h₁ : ((reconcile env name).exec w).2 = w₁)
    (hlog : Event.log succeededIndexUpdate ∈ w₁.events.drop w.events.length)
    (hres : ∀ b ∈ groupCR.spec.backends, ldapSyncConfigured env b.type b.name = false →
      ∀ e ∈ w₁.store.group.getMembers groupCR.spec.groupName,
        ∀ all ∈ (expandGroupMembers env.groups groupCR.spec.groupName).toOption,
          w₁.store.user.backendID e (backendKey b.name b.type) ∈ all →
            (env.ldap (w₁.store.user.backendID e (backendKey b.name b.type))).toOption ≠ none) :
    let w₂ := ((reconcile env name).exec w₁).2
    (∀ e ∈ w₂.events.drop w₁.events.length, e.isWrite = false) ∧
      w₂.store = w₁.store ∧ w₂.backends = w₁.backends := by
  subst h₁
  obtain ⟨new, hev, hrec⟩ := reconcile_recorded env name groupCR hget hlawful hcreate hkeys w
  obtain ⟨new', hev', hmatch⟩ := reconcile_teamsMatchMembers env name groupCR hget hlawful hkeys w
  have hlog' := hlog
  rw [hev, List.drop_left] at hlog
  rw [hev', List.drop_left] at hlog'
  obtain ⟨hdel, all, hall, hrec⟩ := hrec hlog
  have hS := Settled.of_teamsMatchMembers hall hrec (hmatch hlog')
    fun b hb hsync e he => hres b hb hsync e he all (by rw [hall]; rfl)
  obtain ⟨⟨_, hev₂, hnew⟩, hkeep⟩ := reconcile_noWrites env name groupCR hget hdel hall hS hlawful _ ⟨rfl, rfl⟩
  refine ⟨?_, congrArg Prod.fst hkeep, congrArg Prod.snd hkeep⟩
  rw [hev₂, List.drop_left]
  exact hnew

/-- An empty cache and backends with no team members. -/
def freshWorld : World TeamMembers := ⟨Store.empty, fun _ _ => [], []⟩

/-- Reconciling `collisionGroup` from scratch, then again: the first reconcile succeeds and
gives `alice` the id `alice`, which LDAP resolves, so the second one writes nothing. -/
theorem reconcile_fresh_idempotent :
    let w₁ := ((reconcile collisionEnv "g1").exec freshWorld).2
    let w₂ := ((reconcile collisionEnv "g1").exec w₁).2
    Event.log succeededIndexUpdate ∈ w₁.events.drop freshWorld.events.length ∧
      ((∀ e ∈ w₂.events.drop w₁.events.length, e.isWrite = false) ∧
        w₂.store = w₁.store ∧ w₂.backends = w₁.backends) :=
  ⟨by decide, reconcile_idempotent collisionEnv "g1" collisionGroup rfl
    (fun _ _ _ h => by cases h; exact setClient_lawful)
    (fun _ _ _ h => by cases h; rintro _ _ _ _ ⟨⟩; exact (by decide : "T1" ≠ "")) (by decide) freshWorld _ rfl
    (by decide) (by decide)⟩

/-- Reconciling `collisionGroup` twice from `collisionWorld`: the first reconcile succeeds and
removes `u1` from the team as a ghost although it is `alice`'s id; the second adds it back. -/
theorem reconcile_collision_readdsMember :
    let w₁ := ((reconcile collisionEnv "g1").exec collisionWorld).2
    let w₂ := ((reconcile collisionEnv "g1").exec w₁).2
    Event.log succeededIndexUpdate ∈ w₁.events.drop collisionWorld.events.length ∧
      Event.backend ⟨"ftA", "fivetran"⟩ (.addUserToTeam "T1" ["u1"] (.ok ())) ∈
        w₂.events.drop w₁.events.length := by
  decide

end Usernaut
