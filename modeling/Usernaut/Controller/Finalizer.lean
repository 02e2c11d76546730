import Usernaut.Controller.ReverseIndex
import Usernaut.Controller.AllOrNothing

/-!
# Finalization

`handleDeletion` of a Group that carries the finalizer cleans up the reverse index, deletes the
group's team in every declared backend (`deleteBackendsTeam`), deletes the group's record, and
only then removes the finalizer and writes the Group back with `r.Update`.

`deleteBackendsTeam` keeps going past a failed step: a backend whose client cannot be built, or
whose `DeleteTeamByID` fails, sets a flag, and the loop continues with the next backend. But
once the record is deleted, a set flag makes it return an error, and `handleDeletion` returns
that error before it removes the finalizer. A Group one of whose backends never gets a client
therefore keeps its finalizer through every reconcile (`reconcileAll_failedClient_noUpdate`).

The loop runs over the declared backends: a team recorded for a backend that the spec no longer
declares is never deleted, and its id is dropped with the record
(`handleDeletion_deletesDeclaredTeams`).

## Main definitions

* `Event.isUpdate`: a write of a Group with `r.Update`.

## Main results

* `foldlM_deleteBackendTeamStep_flag`: a backend without a client sets the flag for good.
* `handleDeletion_failedClient`: then finalization fails before it writes the Group.
* `reconcileAll_failedClient_noUpdate`: and no number of reconciles ever writes it.
* `handleDeletion_deletesDeclaredTeams`: when every call succeeds, every team recorded for a
  declared backend is deleted before the record is.
-/

namespace Usernaut

open GroupReconciler

variable {σ : Type}

/-- Whether an event is `r.Update` of a Group, the write that persists a removed finalizer. -/
def Event.isUpdate : Event → Bool
  | .update _ _ => true
  | _ => false

/-- Finalization writes no Group with `r.Update` apart from the one that removes the finalizer. -/
theorem deletionWork_noUpdate : DeletionWork (WorldOrder.appends (σ := σ) fun e => e.isUpdate = false) where
  call _ _ _ _ := ⟨[_], rfl, by simp [Event.isUpdate]⟩
  deleteTeam _ _ := ⟨[], by simp, by simp⟩

/-- Finalization only appends events, and changes no group's record before it deletes the
group's. -/
theorem deletionWork_keepsGroups :
    DeletionWork ((WorldOrder.appends (σ := σ) fun _ => True).inter
      (WorldOrder.keeping fun w => w.store.group)) where
  call _ _ _ _ := ⟨⟨[_], rfl, by simp⟩, rfl⟩
  deleteTeam _ _ := ⟨⟨[], by simp, by simp⟩, rfl⟩

section Flag

variable (env : Env σ) (groupName : String)

/-- One backend of the finalization: a flag already set stays set, and a backend whose client
cannot be built sets it. -/
theorem deleteBackendTeamStep_flag {hasErrors : Bool} {backend : Backend}
    (hset : hasErrors = true ∨ (env.newClient backend.name backend.type).toOption = none) :
    Returns (· = true) (deleteBackendTeamStep env groupName hasErrors backend) := by
  unfold deleteBackendTeamStep
  split
  · exact Returns.pure' rfl
  · rename_i client hc
    obtain rfl : hasErrors = true := hset.resolve_right (by simp [hc, Except.toOption])
    simp only [pure_bind]
    exact Returns.bind' fun _ => Returns.bind (Q := (· = true)) (Returns.tryCatch' (Returns.ite'
      (Returns.bind' fun _ => Returns.pure' rfl) (Returns.pure' rfl)) fun _ => Returns.pure' rfl)
      fun _ hflag => Returns.ite' (Returns.bind' fun _ => Returns.pure' hflag) (Returns.pure' hflag)

/-- The loop of `deleteBackendsTeam` ends with the flag set when it started set or some backend
has no client. -/
theorem foldlM_deleteBackendTeamStep_flag : ∀ (backends : List Backend) (hasErrors : Bool),
    (hasErrors = true ∨ ∃ b ∈ backends, (env.newClient b.name b.type).toOption = none) →
    Returns (· = true) (backends.foldlM (deleteBackendTeamStep env groupName) hasErrors)
  | [], _, hset => Returns.pure' (by simpa using hset)
  | b :: rest, hasErrors, hset => by
    rw [List.foldlM_cons]
    simp only [List.mem_cons, exists_eq_or_imp] at hset
    rcases hset with hset | hset | hrest
    · exact Returns.bind (deleteBackendTeamStep_flag env groupName (.inl hset)) fun _ hflag =>
        foldlM_deleteBackendTeamStep_flag rest _ (.inl hflag)
    · exact Returns.bind (deleteBackendTeamStep_flag env groupName (.inr hset)) fun _ hflag =>
        foldlM_deleteBackendTeamStep_flag rest _ (.inl hflag)
    · exact Returns.bind' fun _ => foldlM_deleteBackendTeamStep_flag rest _ (.inr hrest)

end Flag

section Stuck

variable (env : Env σ) {groupCR : Group} {b : Backend} (hb : b ∈ groupCR.spec.backends)
  (hc : (env.newClient b.name b.type).toOption = none)
include hb hc

/-- **Finalization does not progress.** When some declared backend has no client, every run of
`handleDeletion` returns the error of `deleteBackendsTeam`, after the record is deleted and before
the finalizer is removed. -/
theorem handleDeletion_failedClient (w : World σ)
    (hfin : groupFinalizer ∈ groupCR.metadata.finalizers) :
    ((handleDeletion env groupCR).exec w).1 =
      .error "finalizer completed with errors during team deletion" := by
  obtain ⟨flag, w₁, hloop, hrun⟩ := deleteBackendsTeam_spec env groupCR
    { w with store := cleanupUserGroupsIndex w.store groupCR.spec.groupName }
  obtain rfl := foldlM_deleteBackendTeamStep_flag env _ _ false (.inr ⟨b, hb, hc⟩) _ _ _ hloop
  simp [handleDeletion, hfin, hrun]

/-- Every run of `handleDeletion` of such a Group writes no Group. -/
theorem handleDeletion_noUpdate :
    Moves (WorldOrder.appends fun e => e.isUpdate = false) (handleDeletion env groupCR) := by
  intro w
  by_cases hfin : groupFinalizer ∈ groupCR.metadata.finalizers
  · obtain ⟨flag, w₁, hloop, hrun⟩ := deleteBackendsTeam_spec env groupCR
      { w with store := cleanupUserGroupsIndex w.store groupCR.spec.groupName }
    obtain rfl := foldlM_deleteBackendTeamStep_flag env _ _ false (.inr ⟨b, hb, hc⟩) _ _ _ hloop
    have hmoves := Moves.foldlM' (R := WorldOrder.appends fun e => e.isUpdate = false)
      (l := groupCR.spec.backends)
      (fun b a _ => deleteBackendTeamStep_moves deletionWork_noUpdate env groupCR.spec.groupName b a)
      false { w with store := cleanupUserGroupsIndex w.store groupCR.spec.groupName }
    rw [hloop] at hmoves
    simpa [handleDeletion, hfin, hrun] using hmoves
  · simpa [handleDeletion, hfin] using WorldOrder.refl _ w

/-- **No number of reconciles removes the finalizer.** When the Group `name` is being deleted and
one of its declared backends has no client, reconciling it any number of times writes no Group
with `r.Update`. -/
theorem reconcileAll_failedClient_noUpdate {name : String}
    (hget : env.groups.get name = .ok groupCR) (hdel : groupCR.metadata.deletionTimestamp.isSome)
    (n : Nat) (w : World σ) :
    ∃ new, (reconcileAll (List.replicate n (env, name)) w).events = w.events ++ new ∧
      ∀ e ∈ new, e.isUpdate = false := by
  refine reconcileAll_rel (R := WorldOrder.appends fun e => e.isUpdate = false)
    (fun step hstep => ?_) w
  obtain rfl := List.eq_of_mem_replicate hstep
  unfold reconcile
  simp only [hget, hdel, if_true]
  exact handleDeletion_noUpdate env hb hc

end Stuck

/-- A Group `g1` being deleted, with the finalizer, on one backend. -/
def deletingGroup : Group :=
  { metadata := ⟨"g1", "g1-uid", 1, some 2, [groupFinalizer], [], []⟩
    spec := ⟨"g1", ⟨["alice"], []⟩, [⟨"ftA", "fivetran"⟩], []⟩
    status := ⟨[], [], []⟩ }

/-- A namespace holding `deletingGroup`, whose backend's client cannot be built. -/
def deletingGroupEnv : Env Unit := { unreachableBackendEnv with groups := ⟨[deletingGroup]⟩ }

/-- The finalization of `g1`, whose backend `ftA` gets no client, fails. -/
theorem handleDeletion_failedClient_deletingGroup :
    (⟨"ftA", "fivetran"⟩ : Backend) ∈ deletingGroup.spec.backends ∧
      (deletingGroupEnv.newClient "ftA" "fivetran").toOption = none ∧
      groupFinalizer ∈ deletingGroup.metadata.finalizers ∧
      ((handleDeletion deletingGroupEnv deletingGroup).exec ⟨Store.empty, fun _ => (), []⟩).1 =
        .error "finalizer completed with errors during team deletion" :=
  have hb : (⟨"ftA", "fivetran"⟩ : Backend) ∈ deletingGroup.spec.backends := by decide
  have hfin : groupFinalizer ∈ deletingGroup.metadata.finalizers := by decide
  ⟨hb, rfl, hfin, handleDeletion_failedClient deletingGroupEnv hb rfl _ hfin⟩

/-- Deleting `g1` when its backend's client cannot be built: finalization fails with the error of
`deleteBackendsTeam` although the API server accepts every write, and no number of reconciles
writes the Group, so its finalizer is never removed. -/
theorem reconcile_failedClient_keepsFinalizer :
    (∀ g, deletingGroupEnv.update g = .ok ()) ∧
      ((reconcile deletingGroupEnv "g1").exec ⟨Store.empty, fun _ => (), []⟩).1 =
        .error "finalizer completed with errors during team deletion" ∧
      ∀ n (w : World Unit), ∃ new,
        (reconcileAll (List.replicate n (deletingGroupEnv, "g1")) w).events = w.events ++ new ∧
          ∀ e ∈ new, e.isUpdate = false :=
  ⟨fun _ => rfl, by decide,
    reconcileAll_failedClient_noUpdate deletingGroupEnv (b := ⟨"ftA", "fivetran"⟩) (by decide) rfl
      rfl rfl⟩

section Teams

variable (env : Env σ) (groupName : String)

/-- One backend of the finalization, when its client can be built and deletes teams: the team
the group records for it, if any, is passed to `DeleteTeamByID` and deleted. -/
theorem deleteBackendTeamStep_deletes {backend : Backend} {client : Client σ}
    (hc : env.newClient backend.name backend.type = .ok client)
    (hok : ∀ teamID s, (client.deleteTeamByID teamID s).1 = .ok ()) (hasErrors : Bool)
    (w : World σ) (hid : w.store.group.getBackendID groupName backend.name backend.type ≠ "") :
    Event.backend backend (.deleteTeamByID
        (w.store.group.getBackendID groupName backend.name backend.type) (.ok ())) ∈
      ((deleteBackendTeamStep env groupName hasErrors backend).exec w).2.events := by
  unfold deleteBackendTeamStep
  simp only [hc, pure_bind, exec_bind, exec_getStore, exec_tryCatch, if_pos hid,
    exec_callBackend, hok, exec_pure]
  split_ifs <;> simp

/-- The loop of `deleteBackendsTeam`, when every client can be built and deletes teams, passes
every team the group records for a backend of the loop to `DeleteTeamByID`. -/
theorem foldlM_deleteBackendTeamStep_deletes (backends : List Backend)
    (hcalls : ∀ b ∈ backends, ∃ client, env.newClient b.name b.type = .ok client ∧
      ∀ teamID s, (client.deleteTeamByID teamID s).1 = .ok ()) (hasErrors : Bool) (w : World σ) :
    ∀ b ∈ backends, w.store.group.getBackendID groupName b.name b.type ≠ "" →
      Event.backend b (.deleteTeamByID (w.store.group.getBackendID groupName b.name b.type)
        (.ok ())) ∈ ((backends.foldlM (deleteBackendTeamStep env groupName) hasErrors).exec w).2.events := by
  induction backends generalizing hasErrors w with
  | nil => simp
  | cons b₀ rest ih =>
    intro b hb hid
    obtain ⟨flag, hstep⟩ := deleteBackendTeamStep_succeeds env groupName hasErrors b₀ w
    rw [List.foldlM_cons, exec_bind_of_ok hstep]
    obtain ⟨-, hgroup₁⟩ := deleteBackendTeamStep_moves deletionWork_keepsGroups env groupName
      hasErrors b₀ w
    rcases List.mem_cons.mp hb with rfl | hb
    · -- the step itself deletes `b`'s team, and the rest of the loop only appends events
      obtain ⟨⟨new, hrest, -⟩, -⟩ := Moves.foldlM'
        (R := (WorldOrder.appends (σ := σ) fun _ => True).inter
          (WorldOrder.keeping fun w => w.store.group)) (l := rest)
        (fun b a _ => deleteBackendTeamStep_moves deletionWork_keepsGroups env groupName b a) flag
        ((deleteBackendTeamStep env groupName hasErrors b).exec w).2
      obtain ⟨client, hc, hok⟩ := hcalls b (List.mem_cons_self _ _)
      rw [hrest]
      exact List.mem_append_left _ (deleteBackendTeamStep_deletes env groupName hc hok hasErrors w hid)
    · -- the step keeps the group's record, so the rest of the loop deletes `b`'s team
      have hgroup₁ : ((deleteBackendTeamStep env groupName hasErrors b₀).exec w).2.store.group =
          w.store.group := hgroup₁
      rw [← hgroup₁] at hid ⊢
      exact ih (fun b' hb' => hcalls b' (List.mem_cons_of_mem _ hb')) flag _ b hb hid

/-- **Finalization deletes the declared backends' teams.** When every declared backend's client
can be built and deletes teams, finalizing a Group that carries the finalizer deletes the
group's record, and passes to `DeleteTeamByID` every team the record held, before
finalization, for a declared backend. -/
theorem handleDeletion_deletesDeclaredTeams (groupCR : Group)
    (hfin : groupFinalizer ∈ groupCR.metadata.finalizers)
    (hcalls : ∀ b ∈ groupCR.spec.backends, ∃ client, env.newClient b.name b.type = .ok client ∧
      ∀ teamID s, (client.deleteTeamByID teamID s).1 = .ok ()) (w : World σ) :
    let w' := ((handleDeletion env groupCR).exec w).2
    groupCR.spec.groupName ∉ w'.store.group.entries ∧
      ∀ b ∈ groupCR.spec.backends,
        w.store.group.getBackendID groupCR.spec.groupName b.name b.type ≠ "" →
          Event.backend b (.deleteTeamByID
            (w.store.group.getBackendID groupCR.spec.groupName b.name b.type) (.ok ())) ∈
            w'.events := by
  intro w'
  obtain ⟨flag, w₁, hloop, hrun⟩ := deleteBackendsTeam_spec env groupCR
    { w with store := cleanupUserGroupsIndex w.store groupCR.spec.groupName }
  have hdel := foldlM_deleteBackendTeamStep_deletes env groupCR.spec.groupName _ hcalls false
    { w with store := cleanupUserGroupsIndex w.store groupCR.spec.groupName }
  simp only [hloop, cleanupUserGroupsIndex_group] at hdel
  have hw' : w'.store.group = w₁.store.group.delete groupCR.spec.groupName ∧ w₁.events <+: w'.events := by
    simp only [w', handleDeletion, if_pos hfin, exec_bind, exec_modifyStore, hrun]
    cases flag <;> rcases hu : env.update (removeFinalizer groupCR groupFinalizer) with _ | _ <;>
      simp [updateGroup, World.record, hu]
  refine ⟨by simp [hw'.1, GroupStore.delete], fun b hb hid => hw'.2.subset (hdel b hb hid)⟩

end Teams

/-- `g1`, being deleted, now declares only `ftA`. -/
def shrunkGroup : Group :=
  { metadata := ⟨"g1", "g1-uid", 2, some 3, [groupFinalizer], [], []⟩
    spec := ⟨"g1", ⟨["alice"], []⟩, [⟨"ftA", "fivetran"⟩], []⟩
    status := ⟨[], [], []⟩ }

/-- An earlier reconcile, when `g1` also declared `ftB`, recorded a team on each backend. -/
def shrunkStore : Store :=
  { Store.empty with
    group := ⟨(∅ : StringMap GroupData).insert "g1" ⟨["alice@example.com"],
      ((∅ : StringMap BackendInfo).insert "ftA_fivetran" ⟨"T1", "ftA", "fivetran"⟩).insert
        "ftB_fivetran" ⟨"T2", "ftB", "fivetran"⟩⟩⟩ }

/-- Finalizing `shrunkGroup` with every call succeeding deletes the team `T1` of the declared
backend and the record. -/
theorem handleDeletion_shrunkGroup_deletesDeclared :
    groupFinalizer ∈ shrunkGroup.metadata.finalizers ∧
      let w' := ((handleDeletion onboardingEnv shrunkGroup).exec ⟨shrunkStore, fun _ => (), []⟩).2
      "g1" ∉ w'.store.group.entries ∧ ∀ b ∈ shrunkGroup.spec.backends,
        shrunkStore.group.getBackendID "g1" b.name b.type ≠ "" →
          Event.backend b (.deleteTeamByID (shrunkStore.group.getBackendID "g1" b.name b.type)
            (.ok ())) ∈ w'.events :=
  ⟨by decide, handleDeletion_deletesDeclaredTeams onboardingEnv shrunkGroup (by decide)
    (fun _ _ => ⟨acceptingClient, rfl, fun _ _ => rfl⟩) _⟩

/-- The same finalization never calls `DeleteTeamByID` for `T2`, which the record held for `ftB`,
and deletes the record, the only pointer to `T2`. -/
theorem handleDeletion_shrunkGroup_dropsTeam :
    let w' := ((handleDeletion onboardingEnv shrunkGroup).exec ⟨shrunkStore, fun _ => (), []⟩).2
    shrunkStore.group.getBackendID "g1" "ftB" "fivetran" = "T2" ∧
      w'.events = [.backend ⟨"ftA", "fivetran"⟩ (.deleteTeamByID "T1" (.ok ())),
        .update (removeFinalizer shrunkGroup groupFinalizer) (.ok ())] ∧
      (w'.store.group.entries.lookup "g1").isNone := by
  decide

end Usernaut
