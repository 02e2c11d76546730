import Usernaut.Controller.Reconcile

/-!
# What the reconciler's steps can change

Every change a reconcile makes, outside the update of the group's members and of the reverse
index, is one of a few kinds: a call to a backend, a read of the Team preload store, a call to
the API server, the record of a user's backend id, and the record of the group's team id. Each
write and each preload read is made only after the code has checked the store: a user's id is
recorded only where the user has none for the backend, a team id only where the group has none,
and the preload store is read only for a backend the group records no team for.

`BackendWork R groupName` says that the order `R` allows each of these steps under the check the
code makes before it. Every function of the reconcile of `groupName` up to the index update then
moves the world along `R`: one lemma per function here, each from the lemmas of the functions it
calls. Each property of the reconciler that is a frame condition (the reverse index, the
all-or-nothing update, the promotion of preloaded teams) is then one proof of `BackendWork`.

## Main definitions

* `BackendWork R groupName`: `R` allows the reconciler's per-backend work for `groupName`.

## Main results

* `processAllBackends_moves`: the per-backend part of a reconcile moves along every such `R`.
* `prepareGroup_moves`, `removeForceReconcileLabel_moves`,
  `updateStatusAndHandleErrors_moves`: so do the reconcile's calls to the API server.
-/

namespace Usernaut

open GroupReconciler

variable {σ : Type}

/-- The order `R` allows the reconciler's writes to the API server of every object `allowed`
holds of. -/
structure ApiWork (R : WorldOrder σ) (allowed : Group → Prop) : Prop where
  /-- `r.Update` of a Group. -/
  update : ∀ (w : World σ) obj answer, allowed obj → R.rel w (w.record (.update obj answer))
  /-- `r.Status().Update` of a Group. -/
  statusUpdate : ∀ (w : World σ) obj answer, allowed obj →
    R.rel w (w.record (.statusUpdate obj answer))

/-- Writes to the API server are no log lines. -/
theorem apiWork_noLogs : ApiWork (WorldOrder.appends (σ := σ) fun e => e.isLog = false) fun _ => True where
  update _ _ _ _ := ⟨[_], rfl, by simp [Event.isLog]⟩
  statusUpdate _ _ _ _ := ⟨[_], rfl, by simp [Event.isLog]⟩

/-- The world after `CreateTeam` on the backend `⟨n, t⟩` left it in the state `s` with the
answer `answer`, and, when the call succeeded, the new team's id was recorded for `groupName`:
what `fetchOrCreateTeam` does once its checks have passed, with nothing in between. -/
def World.afterCreateTeam (w : World σ) (groupName n t : String) (s : σ) (team : Team)
    (answer : Except String Team) : World σ :=
  let w' := w.afterCall ⟨n, t⟩ s (.createTeam team answer)
  match answer with
  | .ok newTeam =>
    { w' with store := { w'.store with group := w'.store.group.setBackend groupName n t newTeam.id } }
  | .error _ => w'

/-- `CreateTeam` with the record of its id moves along `R` when the call does and the record
after it does. -/
theorem World.afterCreateTeam_of {R : WorldOrder σ} {w : World σ} {groupName n t : String} {s : σ}
    {team : Team} {answer : Except String Team}
    (hcall : R.rel w (w.afterCall ⟨n, t⟩ s (.createTeam team answer)))
    (hset : ∀ id, R.rel (w.afterCall ⟨n, t⟩ s (.createTeam team answer))
      { w.afterCall ⟨n, t⟩ s (.createTeam team answer) with
        store := { w.store with group := w.store.group.setBackend groupName n t id } }) :
    R.rel w (w.afterCreateTeam groupName n t s team answer) := by
  cases answer
  · exact hcall
  · exact R.trans hcall (hset _)

/-- The order `R` allows the work of a reconcile of `groupName` on its backend `backend`, each
write and each preload read under the check the code makes before it: calls to `backend`, and
records of ids under its key only. -/
structure BackendWork (R : WorldOrder σ) (groupName : String) (backend : Backend) : Prop where
  /-- A call to the backend other than `CreateTeam`. -/
  call : ∀ (w : World σ) s c, c.isCreateTeam = false → R.rel w (w.afterCall backend s c)
  /-- `CreateTeam` on the backend and the record of the new team's id, made only when the group
  records no team id for the backend. -/
  createTeam : ∀ (w : World σ) s team answer,
    w.store.group.getBackendID groupName backend.name backend.type = "" →
      R.rel w (w.afterCreateTeam groupName backend.name backend.type s team answer)
  /-- A read of the Team preload store, for the backend or the one it depends on, made only for
  a backend the group records no team id for. -/
  teamStoreRead : ∀ (w : World σ) teamName n t, w.store.group.getBackendID groupName n t = "" →
    R.rel w (w.record (.teamStoreRead groupName teamName (backendKey n t)))
  /-- `User.SetBackend` of a user's id for the backend, made only where the user has none. -/
  setUser : ∀ (w : World σ) email id,
    ((w.store.user.getBackends email).lookup (backendKey backend.name backend.type)).getD "" = "" →
      R.rel w { w with store := { w.store with
        user := w.store.user.setBackend email (backendKey backend.name backend.type) id } }
  /-- `Group.SetBackend` of the group's team id for the backend, made only where it has none. -/
  setTeamID : ∀ (w : World σ) id,
    w.store.group.getBackendID groupName backend.name backend.type = "" →
      R.rel w { w with store := { w.store with
        group := w.store.group.setBackend groupName backend.name backend.type id } }

/-- The per-backend work only appends events. -/
theorem backendWork_appends (groupName : String) (backend : Backend) :
    BackendWork (WorldOrder.appends (σ := σ) fun _ => True) groupName backend where
  call _ _ _ _ := ⟨[_], rfl, by simp⟩
  createTeam _ _ _ _ _ := World.afterCreateTeam_of ⟨[_], rfl, by simp⟩ fun _ => ⟨[], by simp, by simp⟩
  teamStoreRead _ _ _ _ _ := ⟨[_], rfl, by simp⟩
  setUser _ _ _ _ := ⟨[], by simp, by simp⟩
  setTeamID _ _ _ := ⟨[], by simp, by simp⟩

/-- The order `R` allows the backend work of a finalization: deleting teams in the backends and
entries of the Team preload store. -/
structure DeletionWork (R : WorldOrder σ) : Prop where
  /-- A backend call. -/
  call : ∀ (w : World σ) b s c, R.rel w (w.afterCall b s c)
  /-- `Team.Delete`. -/
  deleteTeam : ∀ (w : World σ) teamName,
    R.rel w { w with store := { w.store with team := w.store.team.delete teamName } }

/-- `RemoveForceReconcileLabel` leaves the Group without the label, and, when the label was there,
with the status of the `Update`'s reply, the status the server holds. -/
theorem removeForceReconcileLabel_returns (env : Env σ) (stored : GroupStatus) (obj : Group) :
    Returns (· = { obj with
      metadata := { obj.metadata with
        labels := obj.metadata.labels.filter (· ≠ env.forceReconcileLabel) }
      status := if env.forceReconcileLabel ∈ obj.metadata.labels then stored else obj.status })
      (removeForceReconcileLabel env stored obj) := by
  unfold removeForceReconcileLabel updateGroup
  simp only [pure_bind]
  split_ifs with h
  · exact Returns.bind' fun _ => Returns.bind' fun _ => Returns.pure' rfl
  · refine Returns.pure' ?_
    have : obj.metadata.labels.filter (· ≠ env.forceReconcileLabel) = obj.metadata.labels :=
      List.filter_eq_self.mpr fun l hl => by simpa using ne_of_mem_of_not_mem hl h
    rw [this]

/-- When the API server accepts the label removal, `RemoveForceReconcileLabel` returns the Group
without the label, and with the status the server holds if the label was there. -/
theorem removeForceReconcileLabel_exec (env : Env σ) (stored : GroupStatus) (obj : Group)
    (hupd : env.forceReconcileLabel ∈ obj.metadata.labels → ∀ obj', env.update obj' = .ok ())
    (w : World σ) :
    ((removeForceReconcileLabel env stored obj).exec w).1 = .ok { obj with
      metadata := { obj.metadata with
        labels := obj.metadata.labels.filter (· ≠ env.forceReconcileLabel) }
      status := if env.forceReconcileLabel ∈ obj.metadata.labels then stored else obj.status } := by
  obtain ⟨a, ha⟩ : ∃ a, ((removeForceReconcileLabel env stored obj).exec w).1 = .ok a := by
    unfold removeForceReconcileLabel
    split_ifs with h
    · simp [updateGroup, hupd h]
    · exact ⟨_, rfl⟩
  rw [ha, removeForceReconcileLabel_returns env stored obj w a _ (Prod.ext ha rfl)]

section Api

variable {R : WorldOrder σ} {allowed : Group → Prop} (hA : ApiWork R allowed) (env : Env σ)
include hA

theorem updateGroup_moves {stored : GroupStatus} {obj : Group} (h : allowed obj) :
    Moves R (updateGroup env stored obj) :=
  Moves.bind' (Moves.emit' fun w => hA.update w _ _ h) fun _ =>
    Moves.bind' (Moves.ofExcept' _) fun _ => Moves.pure' _

theorem updateGroupStatus_moves {obj : Group} (h : allowed obj) :
    Moves R (updateGroupStatus env obj) :=
  Moves.bind' (Moves.emit' fun w => hA.statusUpdate w _ _ h) fun _ => Moves.ofExcept' _

/-- `setOwnerReference` writes the Group with new owner references only. -/
theorem setOwnerReference_moves (groupCR : Group)
    (h : ∀ refs, allowed { groupCR with metadata := { groupCR.metadata with ownerReferences := refs } }) :
    Moves R (setOwnerReference env groupCR) := by
  unfold setOwnerReference
  simp only [pure_bind]
  exact Moves.bind' (Moves.foldlM' (fun _ _ _ => Moves.bind' (Moves.ofExcept' _) fun _ => Moves.pure' _) _)
    fun _ => Moves.ite' (Moves.pure' _) (Moves.bind' (updateGroup_moves hA env (h _)) fun _ => Moves.pure' _)

/-- `RemoveForceReconcileLabel` writes the Group without the label. -/
theorem removeForceReconcileLabel_moves (stored : GroupStatus) (obj : Group)
    (h : allowed { obj with metadata := { obj.metadata with
      labels := obj.metadata.labels.filter (· ≠ env.forceReconcileLabel) } }) :
    Moves R (removeForceReconcileLabel env stored obj) := by
  unfold removeForceReconcileLabel
  simp only [pure_bind]
  exact Moves.ite' (Moves.pure' _) (updateGroup_moves hA env h)

/-- `prepareGroup` writes the Group with the finalizer, the Group with new owner references, and
the Waiting Group. -/
theorem prepareGroup_moves (groupCR : Group) (hfin : allowed (addFinalizer groupCR groupFinalizer))
    (hrefs : ∀ refs, allowed { addFinalizer groupCR groupFinalizer with metadata :=
      { (addFinalizer groupCR groupFinalizer).metadata with ownerReferences := refs } })
    (hwait : ∀ refs, allowed (waitingGroup groupCR refs)) :
    Moves R (prepareGroup env groupCR) := by
  unfold prepareGroup
  refine Moves.bind' (Moves.ite' ?_ (Moves.pure' _)) fun _ => Moves.bind'
    (setOwnerReference_moves hA env _ hrefs) fun _ =>
      Moves.bind' (updateGroupStatus_moves hA env (hwait _)) fun _ => Moves.pure' _
  exact Moves.bind' (updateGroup_moves hA env hfin) fun _ => Moves.pure' _

/-- `updateStatusAndHandleErrors` writes the Group with new backend statuses and conditions. -/
theorem updateStatusAndHandleErrors_moves (groupCR : Group) (errs : BackendErrors)
    (h : ∀ backendsStatus conditions, allowed { groupCR with status := { groupCR.status with
      backendsStatus := backendsStatus, conditions := conditions } }) :
    Moves R (updateStatusAndHandleErrors env groupCR errs) := by
  unfold updateStatusAndHandleErrors
  exact Moves.bind' (updateGroupStatus_moves hA env (by split_ifs <;> exact h _ _))
    fun _ => Moves.ite' (Moves.throw' _) (Moves.pure' _)

end Api

section LdapSync

variable {R : WorldOrder σ} {groupName : String}
  (hread : ∀ (w : World σ) teamName n t, w.store.group.getBackendID groupName n t = "" →
    R.rel w (w.record (.teamStoreRead groupName teamName (backendKey n t)))) (env : Env σ)
include hread

/-- The LDAP-sync checks only read: the store, and the Team preload store of a group that records
no team for the backend its GitLab backend depends on. -/
theorem ldapDependantChecks_moves (dependsOn : Dependant) :
    Moves R (ldapDependantChecks env dependsOn groupName) := by
  unfold ldapDependantChecks
  simp only [pure_bind]
  split
  · split
    · refine (fun hrest => Moves.ite' (Moves.bind' (Moves.throw' _) fun _ => hrest) hrest) ?_
      refine Moves.getStore_bind fun s => MovesAt.dite' (fun _ => .of_moves (Moves.pure' _)) fun hex => ?_
      have hid := GroupStore.getBackendID_of_backendExists_eq_false _ (Bool.eq_false_iff.mpr hex)
      exact MovesAt.bind_reads (ReadsStore.ofExcept' _) (.of_moves (Moves.ofExcept' _))
        fun _ => MovesAt.getStore_bind (MovesAt.bind_reads (ReadsStore.emit' _)
          (MovesAt.emit' fun w hw => hread w _ _ _ (hw ▸ hid))
          fun _ => .of_moves (Moves.ite' (Moves.pure' _) (Moves.throw' _)))
    · exact Moves.throw' _
  · exact Moves.throw' _

theorem setupLdapSync_moves (backendType backendName : String) (client : Client σ)
    (backends : List Backend) :
    Moves R (setupLdapSync env backendType backendName client groupName backends) := by
  unfold setupLdapSync
  simp only [pure_bind, ExceptT.bind_throw]
  exact Moves.ite' (Moves.ite' (Moves.pure' _) (Moves.bind' (ldapDependantChecks_moves hread env _)
    fun _ => Moves.ite' (Moves.throw' _) (Moves.ite' (Moves.throw' _) (Moves.pure' _)))) (Moves.pure' _)

end LdapSync

section Backends

variable {R : WorldOrder σ} {groupName : String} {backend : Backend}
  (hR : BackendWork R groupName backend) (env : Env σ)
include hR

theorem createUsersInBackendAndCache_moves (data : StringMap LDAPUser) (users : List String)
    (client : Client σ) (ldapSync : Option String) :
    Moves R (createUsersInBackendAndCache env data users backend.name backend.type client
      ldapSync) := by
  refine Moves.forM' fun user _ => ?_
  split
  · exact Moves.pure' _
  refine Moves.getStore_bind fun s => MovesAt.dite' (fun _ => .of_moves (Moves.pure' _)) fun hid => ?_
  exact MovesAt.bind_reads (ReadsStore.callBackend' _ _ _)
    (MovesAt.callBackend' fun w _ _ _ => hR.call _ _ _ rfl)
    fun _ => MovesAt.modifyStore' fun w hw => hR.setUser _ _ _ (hw ▸ not_not.mp hid)

/-- `CreateTeam` and the record of the new team's id, from a store where the group has no team
id for the backend. -/
theorem createTeam_movesAt {s : Store}
    (hid : s.group.getBackendID groupName backend.name backend.type = "")
    (op : σ → Except String Team × σ) (team : Team) :
    MovesAt R s (callBackend ⟨backend.name, backend.type⟩ op (.createTeam team) >>= fun newTeam =>
      modifyStore (fun s => { s with
        group := s.group.setBackend groupName backend.name backend.type newTeam.id }) >>=
        fun _ => pure newTeam.id) := fun w hw => by
  have h := hR.createTeam w (op (w.backends backend)).2 team (op (w.backends backend)).1 (hw ▸ hid)
  rcases hop : op (w.backends backend) with ⟨_ | newTeam, st⟩ <;>
    simp only [hop] at h <;> simpa [hop] using h

theorem fetchOrCreateTeam_moves (client : Client σ) (ldapSync : Option String)
    (groupParams : TeamParams) :
    Moves R (fetchOrCreateTeam env groupName client ldapSync
      ⟨backend.name, backend.type, groupParams⟩) := by
  unfold fetchOrCreateTeam
  simp only [pure_bind]
  refine Moves.bind' (Moves.ofExcept' _) fun teamName => Moves.getStore_bind fun s => ?_
  refine MovesAt.dite' (fun _ => .of_moves (Moves.pure' _)) fun hid => ?_
  have hid : s.group.getBackendID groupName backend.name backend.type = "" := not_not.mp hid
  refine MovesAt.getStore_bind (MovesAt.bind_reads (ReadsStore.emit' _)
    (MovesAt.emit' fun w hw => hR.teamStoreRead w _ _ _ (hw ▸ hid)) fun _ => ?_)
  exact MovesAt.dite' (fun _ => MovesAt.bind
    (MovesAt.modifyStore' fun w hw => hR.setTeamID _ _ (hw ▸ hid)) fun _ => Moves.pure' _)
    fun _ => createTeam_movesAt hR hid _ _

theorem processSingleBackend_moves (groupCR : Group) (hg : groupCR.spec.groupName = groupName)
    (data : StringMap LDAPUser) (uniqueMembers : List String) (params : TeamParams) :
    Moves R (processSingleBackend env groupCR backend data uniqueMembers params) := by
  subst hg
  have call (op : σ → Except String Unit × σ) (c : Except String Unit → BackendCall)
      (hc : ∀ a, (c a).isCreateTeam = false) : Moves R (callBackend backend op c) :=
    Moves.callBackend' fun w _ a => hR.call _ _ _ (hc a)
  unfold processSingleBackend
  refine Moves.bind' (Moves.ofExcept' _) fun client => ?_
  refine Moves.bind' (setupLdapSync_moves hR.teamStoreRead env _ _ _ _) fun isLdapSync => ?_
  refine Moves.bind' (fetchOrCreateTeam_moves hR env _ _ _) fun teamID => ?_
  refine Moves.bind' (createUsersInBackendAndCache_moves hR env _ _ _ _) fun _ => ?_
  refine Moves.bind' (Moves.callBackend' fun w _ _ => hR.call _ _ _ rfl) fun members => ?_
  refine Moves.bind' Moves.getStore' fun _ => Moves.bind' (Moves.ofExcept' _) fun delta => ?_
  obtain ⟨toAdd, toRemove⟩ := delta
  have remove : Moves R (if toRemove ≠ [] then callBackend backend
      (client.removeUserFromTeam teamID toRemove) (.removeUserFromTeam teamID toRemove) else pure ()) :=
    Moves.ite' (call _ _ fun _ => rfl) (Moves.pure' _)
  simp only [pure_bind]
  exact Moves.ite' (Moves.ite' (Moves.bind' (call _ _ fun _ => rfl) fun _ => remove) remove)
    (Moves.pure' _)

theorem processBackendStep_moves (groupCR : Group) (hg : groupCR.spec.groupName = groupName)
    (data : StringMap LDAPUser) (uniqueMembers : List String) (params : StringMap TeamParams)
    (errs : BackendErrors) :
    Moves R (processBackendStep env groupCR data uniqueMembers params errs backend) :=
  Moves.tryCatch' (Moves.bind' (processSingleBackend_moves hR env groupCR hg _ _ _) fun _ =>
    Moves.pure' _) fun _ => Moves.pure' _

end Backends

/-- The per-backend part of a reconcile of `groupName`, when `R` allows the work on every
backend. -/
theorem processAllBackends_moves {R : WorldOrder σ} {groupName : String}
    (hR : ∀ backend, BackendWork R groupName backend) (env : Env σ) (groupCR : Group)
    (hg : groupCR.spec.groupName = groupName) (data : StringMap LDAPUser)
    (uniqueMembers : List String) :
    Moves R (processAllBackends env groupCR data uniqueMembers) :=
  Moves.foldlM' (fun _ backend _ => processBackendStep_moves (hR backend) env groupCR hg _ _ _ _) _

/-- `processAllBackends` returns the errors, whatever the backends answer: each backend's error
is caught and recorded. -/
theorem processAllBackends_succeeds (env : Env σ) (groupCR : Group) (data : StringMap LDAPUser)
    (uniqueMembers : List String) : Succeeds (processAllBackends env groupCR data uniqueMembers) :=
  Succeeds.foldlM' (fun _ _ => Succeeds.tryCatch' fun _ => Succeeds.pure' _) _

section Deletion

variable {R : WorldOrder σ} (hD : DeletionWork R) (env : Env σ)

/-- One backend of the finalization never fails: a failed deletion is only recorded in the flag. -/
theorem deleteBackendTeamStep_succeeds (groupName : String) (hasErrors : Bool) (backend : Backend) :
    Succeeds (deleteBackendTeamStep env groupName hasErrors backend) := by
  unfold deleteBackendTeamStep
  split
  · exact Succeeds.pure' _
  · simp only [pure_bind]
    exact Succeeds.bind' Succeeds.getStore' fun _ => Succeeds.bind'
      (Succeeds.tryCatch' fun _ => Succeeds.pure' _) fun _ => Succeeds.ite'
        (Succeeds.bind' (Succeeds.modifyStore' _) fun _ => Succeeds.pure' _) (Succeeds.pure' _)

/-- What a run of `deleteBackendsTeam` does: the loop returns a flag, the group's record is
deleted, and the run fails exactly when the flag is set. -/
theorem deleteBackendsTeam_spec (groupCR : Group) (w : World σ) :
    ∃ hasErrors w₁, (groupCR.spec.backends.foldlM
        (deleteBackendTeamStep env groupCR.spec.groupName) false).exec w = (.ok hasErrors, w₁) ∧
      (deleteBackendsTeam env groupCR).exec w =
        (if hasErrors then .error "finalizer completed with errors during team deletion" else .ok (),
          { w₁ with store := { w₁.store with
            group := w₁.store.group.delete groupCR.spec.groupName } }) := by
  obtain ⟨_, hok⟩ := Succeeds.foldlM' (deleteBackendTeamStep_succeeds env _) false w
  rcases hloop : (groupCR.spec.backends.foldlM
    (deleteBackendTeamStep env groupCR.spec.groupName) false).exec w with ⟨_ | hasErrors, w₁⟩
  · rw [hloop] at hok
    cases hok
  · refine ⟨hasErrors, w₁, rfl, ?_⟩
    simp only [deleteBackendsTeam, exec_bind, hloop, exec_modifyStore]
    cases hasErrors <;> rfl

include hD

theorem deleteBackendTeamStep_moves (groupName : String) (hasErrors : Bool) (backend : Backend) :
    Moves R (deleteBackendTeamStep env groupName hasErrors backend) := by
  unfold deleteBackendTeamStep
  split
  · exact Moves.pure' _
  · simp only [pure_bind]
    exact Moves.bind' Moves.getStore' fun _ => Moves.bind'
      (Moves.tryCatch' (Moves.ite' (Moves.bind' (Moves.callBackend' fun _ _ _ => hD.call _ _ _ _)
        fun _ => Moves.pure' _) (Moves.pure' _)) fun _ => Moves.pure' _)
      fun _ => Moves.ite' (Moves.bind' (Moves.modifyStore' fun _ => hD.deleteTeam _ _)
        fun _ => Moves.pure' _) (Moves.pure' _)

/-- Finalization, given that `R` also allows the cleanup of the reverse index, the deletion of the
group's record, and the write of the Group without its finalizer. -/
theorem handleDeletion_moves {allowed : Group → Prop} (hA : ApiWork R allowed) (groupCR : Group)
    (hobj : allowed (removeFinalizer groupCR groupFinalizer))
    (hclean : ∀ w : World σ, R.rel w
      { w with store := cleanupUserGroupsIndex w.store groupCR.spec.groupName })
    (hdelete : ∀ w : World σ, R.rel w
      { w with store := { w.store with group := w.store.group.delete groupCR.spec.groupName } }) :
    Moves R (handleDeletion env groupCR) :=
  Moves.ite' (Moves.bind' (Moves.modifyStore' hclean) fun _ => Moves.bind'
    (Moves.bind' (Moves.foldlM' (fun _ _ _ => deleteBackendTeamStep_moves hD env _ _ _) _) fun _ =>
      Moves.bind' (Moves.modifyStore' hdelete) fun _ => Moves.ite' (Moves.throw' _) (Moves.pure' _))
    fun _ => Moves.bind' (updateGroup_moves hA env hobj) fun _ => Moves.pure' _) (Moves.pure' _)

end Deletion

section Reconcile

variable {R : WorldOrder σ} (hA : ApiWork R fun _ => True) (env : Env σ)
  (hlog : ∀ (w : World σ) msg, R.rel w (w.record (.log msg)))
include hA hlog

/-- The part of a reconcile of `groupName` after the configurability gate, given that `R` also
allows the index update. -/
theorem reconcileMembers_moves {groupName : String} (hR : ∀ backend, BackendWork R groupName backend)
    (hindex : ∀ (w : World σ) ldapResult,
      R.rel w { w with store := updateCacheIndexes w.store groupName ldapResult })
    (groupCR : Group) (hg : groupCR.spec.groupName = groupName) :
    Moves R (reconcileMembers env groupCR) := by
  subst hg
  unfold reconcileMembers
  refine Moves.bind' (Moves.ofExcept' _) fun _ => ?_
  dsimp only
  refine Moves.bind' (processAllBackends_moves hR env _ rfl _ _) fun _ => ?_
  refine Moves.bind' (Moves.ite' (Moves.bind' (Moves.emit' (hlog · _)) fun _ =>
    Moves.modifyStore' fun w => hindex w _) (Moves.emit' (hlog · _))) fun _ => ?_
  exact Moves.bind' (removeForceReconcileLabel_moves hA env _ _ trivial) fun _ =>
    updateStatusAndHandleErrors_moves hA env _ _ fun _ _ => trivial

/-- A reconcile of the Group named `name`, given what `R` allows for that Group: its finalization
when it is being deleted, its backend work, and its index update. -/
theorem reconcile_moves (name : String)
    (hgroup : ∀ groupCR, env.groups.get name = .ok groupCR →
      (groupCR.metadata.deletionTimestamp.isSome → Moves R (handleDeletion env groupCR)) ∧
      (∀ backend, BackendWork R groupCR.spec.groupName backend) ∧
      ∀ (w : World σ) ldapResult,
        R.rel w { w with store := updateCacheIndexes w.store groupCR.spec.groupName ldapResult }) :
    Moves R (reconcile env name) := by
  unfold reconcile
  split
  · exact Moves.pure' _
  rename_i groupCR hget
  obtain ⟨hdelete, hR, hindex⟩ := hgroup groupCR hget
  refine Moves.dite' hdelete fun _ => ?_
  exact Moves.bind' (prepareGroup_moves hA env _ trivial (fun _ => trivial) fun _ => trivial)
    fun _ => Moves.ite' (updateGroupStatus_moves hA env trivial)
      (reconcileMembers_moves hA env hlog hR hindex _ (by simp [waitingGroup, setWaiting]))

end Reconcile

/-- The run of a reconcile of `groupCR` from `w` gets past the configurability gate with the
owner references `refs`: the Group is not being deleted, `prepareGroup` returns `refs`, and the
Waiting Group is configurable. -/
structure ReachesMembers (env : Env σ) (groupCR : Group) (w : World σ) (refs : List OwnerReference) :
    Prop where
  notDeleting : groupCR.metadata.deletionTimestamp = none
  prepared : ((prepareGroup env groupCR).exec w).1 = .ok refs
  configurable : isGroupConfigurable env (waitingGroup groupCR refs) = true

/-- Such a run goes on as `reconcileMembers` of the Waiting Group, from the world `prepareGroup`
left. -/
theorem ReachesMembers.reconcile_exec {env : Env σ} {name : String} {groupCR : Group} {w : World σ}
    {refs : List OwnerReference} (hget : env.groups.get name = .ok groupCR)
    (h : ReachesMembers env groupCR w refs) :
    (reconcile env name).exec w =
      (reconcileMembers env (waitingGroup groupCR refs)).exec ((prepareGroup env groupCR).exec w).2 := by
  simp only [reconcile, hget, h.notDeleting, Option.isSome_none, Bool.false_eq_true, ite_false]
  rw [exec_bind_of_ok h.prepared]
  simp [h.configurable]

/-- What the run of a reconcile that gets past the gate appends: what `prepareGroup` appends,
then what `reconcileMembers` of the Waiting Group appends, for a `P` that events before it do not
break. -/
theorem ReachesMembers.runAppends {P : List Event → Prop} (hP : ∀ a b, P b → P (a ++ b))
    {env : Env σ} {name : String} {groupCR : Group} {w : World σ} {refs : List OwnerReference}
    (hget : env.groups.get name = .ok groupCR) (h : ReachesMembers env groupCR w refs)
    (hm : RunAppends P (reconcileMembers env (waitingGroup groupCR refs))
      ((prepareGroup env groupCR).exec w).2) :
    RunAppends P (reconcile env name) w :=
  RunAppends.of_exec_eq hP (congrArg Prod.snd (h.reconcile_exec hget))
    (let ⟨new, hev, _⟩ := prepareGroup_moves apiWork_noLogs env groupCR trivial (fun _ => trivial)
      (fun _ => trivial) w; ⟨new, hev⟩) hm

/-- Reconciles one after another, each against the cluster and the outside world it sees. A
reconcile that returns an error is requeued, which is a later entry of the list. -/
def reconcileAll : List (Env σ × String) → World σ → World σ
  | [], w => w
  | (env, name) :: steps, w => reconcileAll steps ((reconcile env name).exec w).2

/-- A run of reconciles that each move the world along `R` moves it along `R`. -/
theorem reconcileAll_rel {R : WorldOrder σ} :
    ∀ {steps : List (Env σ × String)}, (∀ step ∈ steps, Moves R (reconcile step.1 step.2)) →
      ∀ w, R.rel w (reconcileAll steps w)
  | [], _, w => R.refl w
  | _ :: _, h, w => R.trans (h _ (List.mem_cons_self _ _) w)
      (reconcileAll_rel (fun step hs => h step (List.mem_cons_of_mem _ hs)) _)

end Usernaut
