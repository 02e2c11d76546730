import Usernaut.Controller.Frame

/-!
# The reverse index over whole runs

The cache keeps each group's members (`group:<name>`) and, for each user, the groups the user is
in (`user:groups:<email>`). Two functions write them: `updateCacheIndexes`, at the end of a
reconcile in which every backend succeeded, and `cleanupUserGroupsIndex` with the deletion of the
group's record, when a Group is finalized. Every other step of the controller leaves both as they
are (`keepsIndexes`, from `BackendWork`).

The two indexes agree: `e` is a member of `G` exactly when `G` is among `e`'s groups. This holds
of the empty cache and after every reconcile and every finalization, whatever the Group specs,
the LDAP answers and the backends do, so it holds of every world a run of the controller reaches
from an empty cache.

## Main definitions

* `Store.Consistent`: the two indexes agree.
* `Step`, `Reachable`: runs of the controller, one reconcile or finalization at a time.

## Main results

* `updateCacheIndexes_consistent`: the index update keeps the indexes in agreement.
* `deleteBackendsTeam_exec`: finalization always deletes the group's record.
* `reconcile_consistent`, `handleDeletion_consistent`: one step keeps the agreement.
* `Reachable.consistent`: every reachable world's indexes agree.
-/

namespace Usernaut

open GroupReconciler

variable {σ : Type}

/-- The group index and the reverse index agree: `e` is a member of `g` exactly when `g` is among
`e`'s groups. -/
def Store.Consistent (s : Store) : Prop :=
  ∀ e g, e ∈ s.group.getMembers g ↔ g ∈ s.userGroups.getGroups e

theorem Store.consistent_empty : Store.empty.Consistent := by
  simp [Store.Consistent, Store.empty, GroupStore.getMembers, GroupStore.get,
    UserGroupsStore.getGroups, GroupData.empty]

/-- The index update keeps the indexes in agreement: the group's members become the current
members, and exactly those users gain the group or keep it. -/
theorem updateCacheIndexes_consistent {s : Store} (h : s.Consistent) (groupName : String)
    (ldapResult : LDAPFetchResult) : (updateCacheIndexes s groupName ldapResult).Consistent := by
  intro e g
  rw [updateCacheIndexes_group_getMembers, mem_updateCacheIndexes_getGroups, ← h]
  by_cases hg : g = groupName
  · subst hg; simp only [if_true, and_true]; tauto
  · simp [hg]

/-- After the cleanup, no user has the group, and the other groups still agree. -/
theorem cleanupUserGroupsIndex_detached {s : Store} (h : s.Consistent) (groupName : String) :
    (∀ e, groupName ∉ (cleanupUserGroupsIndex s groupName).userGroups.getGroups e) ∧
      ∀ e g, g ≠ groupName → (e ∈ (cleanupUserGroupsIndex s groupName).group.getMembers g ↔
        g ∈ (cleanupUserGroupsIndex s groupName).userGroups.getGroups e) := by
  refine ⟨fun e hmem => ?_, fun e g hg => ?_⟩
  · rw [mem_cleanupUserGroupsIndex_getGroups, ← h] at hmem
    exact hmem.2 ⟨hmem.1, rfl⟩
  · rw [mem_cleanupUserGroupsIndex_getGroups, cleanupUserGroupsIndex_group, h]
    simp [hg]

/-- Every group's members and every user's groups are as they were. -/
def keepsIndexes : WorldOrder σ where
  rel w w' := w'.store.group.getMembers = w.store.group.getMembers ∧
    w'.store.userGroups = w.store.userGroups
  refl _ := ⟨rfl, rfl⟩
  trans h h' := ⟨h'.1.trans h.1, h'.2.trans h.2⟩

theorem consistent_iff_of_keepsIndexes {w w' : World σ} (h : keepsIndexes.rel w w') :
    w'.store.Consistent ↔ w.store.Consistent := by
  simp only [Store.Consistent, h.1, h.2]

/-- A step that keeps the indexes keeps them in agreement. -/
theorem Moves.preserving_consistent {α : Type} {m : ReconcileM σ α} (h : Moves keepsIndexes m) :
    Moves (WorldOrder.preserving Store.Consistent) m :=
  h.mono fun _ _ hw => (consistent_iff_of_keepsIndexes hw).mpr

/-- The per-backend work and the API calls of a reconcile keep the indexes. -/
theorem backendWork_keepsIndexes (groupName : String) (backend : Backend) :
    BackendWork (keepsIndexes (σ := σ)) groupName backend where
  call _ _ _ _ := ⟨rfl, rfl⟩
  createTeam _ _ _ _ _ := World.afterCreateTeam_of ⟨rfl, rfl⟩ fun _ =>
    ⟨funext fun _ => GroupStore.getMembers_setBackend _ _ _ _ _ _, rfl⟩
  teamStoreRead _ _ _ _ _ := ⟨rfl, rfl⟩
  setUser _ _ _ _ := ⟨rfl, rfl⟩
  setTeamID _ _ _ := ⟨funext fun _ => GroupStore.getMembers_setBackend _ _ _ _ _ _, rfl⟩

/-- Writes to the API server keep the indexes. -/
theorem apiWork_keepsIndexes : ApiWork (keepsIndexes (σ := σ)) fun _ => True where
  update _ _ _ _ := ⟨rfl, rfl⟩
  statusUpdate _ _ _ _ := ⟨rfl, rfl⟩

/-- Finalization's backend work keeps the indexes. -/
theorem deletionWork_keepsIndexes : DeletionWork (keepsIndexes (σ := σ)) where
  call _ _ _ _ := ⟨rfl, rfl⟩
  deleteTeam _ _ := ⟨rfl, rfl⟩

section Finalization

variable (env : Env σ)

/-- Finalization always deletes the group's record, whatever the backends answer, after steps
that keep both indexes. -/
theorem deleteBackendsTeam_exec (groupCR : Group) (w : World σ) :
    ∃ w₁ : World σ, keepsIndexes.rel w w₁ ∧ ((deleteBackendsTeam env groupCR).exec w).2 =
      { w₁ with store := { w₁.store with
          group := w₁.store.group.delete groupCR.spec.groupName } } := by
  obtain ⟨_, w₁, hloop, hrun⟩ := deleteBackendsTeam_spec env groupCR w
  have hkeep := Moves.foldlM' (R := keepsIndexes) (l := groupCR.spec.backends)
    (fun b a _ => deleteBackendTeamStep_moves deletionWork_keepsIndexes env groupCR.spec.groupName b a)
    false w
  rw [hloop] at hkeep
  exact ⟨w₁, hkeep, by rw [hrun]⟩

/-- Finalization keeps the indexes in agreement: the group leaves every member's groups, then its
record goes. -/
theorem handleDeletion_consistent (groupCR : Group) :
    Moves (WorldOrder.preserving Store.Consistent) (handleDeletion env groupCR) := by
  refine Moves.ite' (fun w hw => ?_) (Moves.pure' _)
  obtain ⟨hnone, hother⟩ := cleanupUserGroupsIndex_detached hw groupCR.spec.groupName
  obtain ⟨w₁, ⟨hmembers, hgroups⟩, hw₁⟩ := deleteBackendsTeam_exec env groupCR
    { w with store := cleanupUserGroupsIndex w.store groupCR.spec.groupName }
  have hdeleted : Store.Consistent ((deleteBackendsTeam env groupCR).exec
      { w with store := cleanupUserGroupsIndex w.store groupCR.spec.groupName }).2.store := by
    intro e g
    rw [hw₁]
    simp only [GroupStore.getMembers_delete, hmembers, hgroups]
    split_ifs with hg
    · subst hg; simpa using hnone e
    · exact hother e g hg
  simp only [exec_bind, exec_modifyStore]
  rcases hx : (deleteBackendsTeam env groupCR).exec
    { w with store := cleanupUserGroupsIndex w.store groupCR.spec.groupName } with ⟨_ | _, w₂⟩ <;>
    rw [hx] at hdeleted
  · exact hdeleted
  · simpa only [exec_bind] using (Moves.bind' (updateGroup_moves apiWork_keepsIndexes env trivial)
      fun _ => Moves.pure' ()).preserving_consistent w₂ hdeleted

end Finalization

section Reconcile

variable (env : Env σ)

/-- The part of a reconcile after the configurability gate keeps the indexes in agreement: the
backends keep them, and the index update, when it runs, keeps them in agreement. -/
theorem reconcileMembers_consistent (groupCR : Group) :
    Moves (WorldOrder.preserving Store.Consistent) (reconcileMembers env groupCR) := by
  have hR := backendWork_keepsIndexes (σ := σ) groupCR.spec.groupName
  unfold reconcileMembers
  refine Moves.bind' (Moves.ofExcept' _) fun _ => ?_
  dsimp only
  refine Moves.bind' (processAllBackends_moves hR env _ rfl _ _).preserving_consistent fun _ => ?_
  refine Moves.bind' (Moves.ite' (Moves.bind' (Moves.emit' fun _ => id) fun _ =>
    Moves.modifyStore' fun _ h => updateCacheIndexes_consistent h _ _) (Moves.emit' fun _ => id))
    fun _ => ?_
  exact (Moves.bind' (removeForceReconcileLabel_moves apiWork_keepsIndexes env _ _ trivial) fun _ =>
    updateStatusAndHandleErrors_moves apiWork_keepsIndexes env _ _ fun _ _ => trivial).preserving_consistent

/-- A reconcile keeps the indexes in agreement, whatever the Group, the LDAP directory and the
backends do. -/
theorem reconcile_consistent (name : String) :
    Moves (WorldOrder.preserving Store.Consistent) (reconcile env name) := by
  have hapi := apiWork_keepsIndexes (σ := σ)
  unfold reconcile
  split
  · exact Moves.pure' _
  refine Moves.ite' (handleDeletion_consistent env _) ?_
  exact Moves.bind' (prepareGroup_moves hapi env _ trivial (fun _ => trivial) fun _ => trivial).preserving_consistent
    fun _ => Moves.ite' (updateGroupStatus_moves hapi env trivial).preserving_consistent
      (reconcileMembers_consistent env _)

end Reconcile

/-- One step of the controller: a reconcile of the Group named `name`, or the finalization of
`groupCR`, each against its own cluster, configuration, directory and backends. -/
inductive Step (σ : Type)
  | reconcile (env : Env σ) (name : String)
  | finalize (env : Env σ) (groupCR : Group)

/-- The reconciler's function for a step. -/
def Step.run : Step σ → ReconcileM σ Unit
  | .reconcile env name => GroupReconciler.reconcile env name
  | .finalize env groupCR => handleDeletion env groupCR

/-- The worlds a run of the controller reaches from an empty cache, from any backends. -/
inductive Reachable : World σ → Prop
  | init (backends : Backend → σ) (events : List Event) : Reachable ⟨Store.empty, backends, events⟩
  | step {w : World σ} (st : Step σ) : Reachable w → Reachable (st.run.exec w).2

/-- Every world a run reaches from an empty cache has its two indexes in agreement. -/
theorem Reachable.consistent {w : World σ} (h : Reachable w) :
    ∀ e g, e ∈ w.store.group.getMembers g ↔ g ∈ w.store.userGroups.getGroups e := by
  induction h with
  | init => exact Store.consistent_empty
  | step st _ ih =>
    cases st with
    | reconcile env name => exact reconcile_consistent env name _ ih
    | finalize env groupCR => exact handleDeletion_consistent env groupCR _ ih

/-- A backend client whose every call succeeds: new teams and users get the id `"1"`, and teams
have no members. -/
def acceptingClient : Client Unit where
  createTeam _ team _ := (.ok { team with id := "1" }, ())
  createUser _ user _ := (.ok { user with id := "1" }, ())
  fetchTeamMembersByTeamID _ _ := (.ok [], ())
  addUserToTeam _ _ _ := (.ok (), ())
  removeUserFromTeam _ _ _ := (.ok (), ())
  deleteTeamByID _ _ := (.ok (), ())
  deleteUser _ _ := (.ok (), ())
  isGitlab := false

/-- A namespace with one Group `g1` of one user, `alice`, on one backend. -/
def onboardingEnv : Env Unit where
  groups := ⟨[{ metadata := ⟨"g1", "g1-uid", 1, none, [groupFinalizer], [], []⟩
                spec := ⟨"g1", ⟨["alice"], []⟩, [⟨"ftA", "fivetran"⟩], []⟩
                status := ⟨[], [], []⟩ }]⟩
  update _ := .ok ()
  updateStatus _ := .ok ()
  backendMap := ∅
  transform _ groupName := .ok groupName
  ldap _ := .ok ⟨"alice@example.com", "Alice", "A"⟩
  newClient _ _ := .ok acceptingClient
  forceReconcileLabel := "operator.dataverse.redhat.com/force-reconcile"
  accountReviewerRole := "reviewer"

/-- The world after reconciling `g1` from an empty cache and then finalizing it is reachable, and
its indexes agree. -/
theorem reachable_onboardThenFinalize_consistent :
    let w : World Unit := ⟨Store.empty, fun _ => (), []⟩
    let g1 := ⟨⟨"g1", "g1-uid", 1, some 2, [groupFinalizer], [], []⟩,
      ⟨"g1", ⟨["alice"], []⟩, [⟨"ftA", "fivetran"⟩], []⟩, ⟨[], [], []⟩⟩
    let w₂ := ((Step.finalize onboardingEnv g1).run.exec
      ((Step.reconcile onboardingEnv "g1").run.exec w).2).2
    Reachable w₂ ∧ ∀ e g, e ∈ w₂.store.group.getMembers g ↔ g ∈ w₂.store.userGroups.getGroups e :=
  have h := Reachable.step _ (Reachable.step _ (Reachable.init (fun _ => ()) []))
  ⟨h, Reachable.consistent h⟩

end Usernaut
