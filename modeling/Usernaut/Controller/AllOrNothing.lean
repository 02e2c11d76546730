import Usernaut.Controller.Frame

/-!
# The all-or-nothing index update

`Reconcile` updates a group's members and the reverse index only when every backend succeeded;
when some backend failed, or a group param named an undeclared backend or had an empty property,
it logs `Backend errors detected, skipping cache index updates (all-or-nothing)` and leaves both
as they were. What a failing reconcile does change is what the per-backend work had recorded
before or after the failure: users' backend ids and the group's team ids, each only where none
was recorded (`Store.Extends`).

The log line is how a run shows that `backendErrors` had an entry: no other step of a reconcile
logs anything, so the line is among a run's new events exactly when the index update was
skipped.

## Main definitions

* `KeepsEntries`, `Store.Extends`: what a reconcile with a failed backend may change.
* `backendsOnly`: changes allowed by `Store.Extends`, with no log line.
* `ProcessesBackends`: a reconcile's run gets to the backends, and what they return.

## Main results

* `backendWork_backendsOnly`: the per-backend work changes only what `Store.Extends` allows.
* `reconcile_ifLogged`: only the part of a reconcile after the configurability gate logs.
* `reconcile_logsSkipped`: a reconcile whose backends return an error entry logs that it skips
  the index update.
* `reconcile_extendsIfLogged`, `reconcile_backendErrors_extends`: a reconcile that skips the
  index update, and so one whose backends return an error entry, changes only what
  `Store.Extends` allows.
-/

namespace Usernaut

open GroupReconciler

variable {σ : Type}

/-- `m'` keeps every key of `m`, and the value of every key whose value `keep` holds of. -/
def KeepsEntries {V : Type} (keep : V → Prop) (m m' : StringMap V) : Prop :=
  ∀ k v, m.lookup k = some v → ∃ v', m'.lookup k = some v' ∧ (keep v → v' = v)

namespace KeepsEntries

variable {V : Type} {keep : V → Prop} {m m' m'' : StringMap V}

theorem refl (m : StringMap V) : KeepsEntries keep m m := fun _ v h => ⟨v, h, fun _ => rfl⟩

theorem trans (h : KeepsEntries keep m m') (h' : KeepsEntries keep m' m'') :
    KeepsEntries keep m m'' := fun k v hv => by
  obtain ⟨v', hv', hkeep⟩ := h k v hv
  obtain ⟨v'', hv'', hkeep'⟩ := h' k v' hv'
  exact ⟨v'', hv'', fun hk => (hkeep' (hkeep hk ▸ hk)).trans (hkeep hk)⟩

/-- Writing a key whose value `keep` does not hold of, or that is missing. -/
theorem insert (k : String) (v : V) (hk : ∀ v₀, m.lookup k = some v₀ → ¬keep v₀) :
    KeepsEntries keep m (m.insert k v) := fun k' v' hv' => by
  by_cases hkk : k' = k
  · subst hkk
    exact ⟨v, by simp, fun hkeep => absurd hkeep (hk v' hv')⟩
  · exact ⟨v', by simpa [Finmap.lookup_insert_of_ne _ hkk] using hv', fun _ => rfl⟩

end KeepsEntries

/-- The store changes a reconcile of `groupName` makes when a backend fails: every group's members,
the reverse index and the Team preload store are as they were, the other groups' backends too,
and the users' backend ids and the group's team ids only gain entries where none (or an empty
one) was recorded. -/
structure Store.Extends (groupName : String) (s s' : Store) : Prop where
  members : ∀ g, s'.group.getMembers g = s.group.getMembers g
  userGroups : s'.userGroups = s.userGroups
  team : s'.team = s.team
  otherBackends : ∀ g, g ≠ groupName → s'.group.getBackends g = s.group.getBackends g
  teamIDs : KeepsEntries (fun b : BackendInfo => b.id ≠ "")
    (s.group.getBackends groupName) (s'.group.getBackends groupName)
  userIDs : ∀ email, KeepsEntries (· ≠ "") (s.user.getBackends email) (s'.user.getBackends email)

namespace Store.Extends

variable {groupName : String} {s s' s'' : Store}

theorem refl (s : Store) : s.Extends groupName s :=
  ⟨fun _ => rfl, rfl, rfl, fun _ _ => rfl, .refl _, fun _ => .refl _⟩

theorem trans (h : s.Extends groupName s') (h' : s'.Extends groupName s'') :
    s.Extends groupName s'' :=
  ⟨fun g => (h'.members g).trans (h.members g), h'.userGroups.trans h.userGroups,
    h'.team.trans h.team, fun g hg => (h'.otherBackends g hg).trans (h.otherBackends g hg),
    h.teamIDs.trans h'.teamIDs, fun e => (h.userIDs e).trans (h'.userIDs e)⟩

end Store.Extends

/-- Between `w` and `w'` the store changed only as `Store.Extends groupName` allows. -/
def extendsStore (groupName : String) : WorldOrder σ where
  rel w w' := w.store.Extends groupName w'.store
  refl w := .refl w.store
  trans h h' := h.trans h'

/-- Between `w` and `w'` the store changed only as `Store.Extends groupName` allows, and nothing
was logged. -/
def backendsOnly (groupName : String) : WorldOrder σ :=
  (WorldOrder.appends fun e => e.isLog = false).inter (extendsStore groupName)

/-- A step that leaves the store as it is and appends one event that is not a log line. -/
theorem backendsOnly_of_append {groupName : String} {w w' : World σ} (e : Event)
    (hs : w'.store = w.store) (he : w'.events = w.events ++ [e]) (hlog : e.isLog = false) :
    (backendsOnly groupName).rel w w' :=
  ⟨⟨[e], he, by simpa using hlog⟩, show w.store.Extends groupName w'.store from hs ▸ .refl _⟩

/-- A write of the store that appends no event. -/
theorem backendsOnly_of_store {groupName : String} (w : World σ) {s : Store}
    (h : w.store.Extends groupName s) : (backendsOnly groupName).rel w { w with store := s } :=
  ⟨⟨[], by simp, by simp⟩, h⟩

/-- Recording a team id for `groupName` where it has none. -/
theorem Store.extends_setTeamID {groupName n t id : String} {s : Store}
    (h : s.group.getBackendID groupName n t = "") :
    s.Extends groupName { s with group := s.group.setBackend groupName n t id } where
  members _ := GroupStore.getMembers_setBackend _ _ _ _ _ _
  userGroups := rfl
  team := rfl
  otherBackends g hg := by simp [hg]
  teamIDs := by
    simp only [GroupStore.getBackends_setBackend, if_true]
    exact .insert _ _ fun b hb => by simpa [GroupStore.getBackendID, hb] using h
  userIDs _ := .refl _

/-- Calls to the API server log nothing and leave the store as it is. -/
theorem apiWork_backendsOnly (groupName : String) :
    ApiWork (backendsOnly (σ := σ) groupName) fun _ => True where
  update _ _ _ _ := backendsOnly_of_append _ rfl rfl rfl
  statusUpdate _ _ _ _ := backendsOnly_of_append _ rfl rfl rfl

/-- The per-backend work of a reconcile of `groupName` only records ids where none was
recorded, and logs nothing. -/
theorem backendWork_backendsOnly (groupName : String) (backend : Backend) :
    BackendWork (backendsOnly (σ := σ) groupName) groupName backend where
  call _ _ _ _ := backendsOnly_of_append _ rfl rfl rfl
  createTeam w _ _ _ h := World.afterCreateTeam_of (backendsOnly_of_append _ rfl rfl rfl)
    fun _ => backendsOnly_of_store _ (Store.extends_setTeamID h)
  teamStoreRead _ _ _ _ _ := backendsOnly_of_append _ rfl rfl rfl
  setUser w email id h := backendsOnly_of_store w
    { members := fun _ => rfl
      userGroups := rfl
      team := rfl
      otherBackends := fun _ _ => rfl
      teamIDs := .refl _
      userIDs := fun e => by
        simp only [UserStore.getBackends_setBackend]
        split_ifs with he
        · subst he
          exact .insert _ _ fun v hv => by simpa [hv] using h
        · exact .refl _ }
  setTeamID w _ h := backendsOnly_of_store w (Store.extends_setTeamID h)

/-- What a finalization does is no log line either. -/
theorem deletionWork_noLogs : DeletionWork (WorldOrder.appends (σ := σ) fun e => e.isLog = false) where
  call _ _ _ _ := ⟨[_], rfl, by simp [Event.isLog]⟩
  deleteTeam _ _ := ⟨[], by simp, by simp⟩

/-- The log line of a reconcile that skips the index update. -/
def skippedIndexUpdate : String :=
  "Backend errors detected, skipping cache index updates (all-or-nothing)"

section Reconcile

variable (env : Env σ)

/-- After the configurability gate: the index update runs only after a log line other than
`skippedIndexUpdate`, and every other step changes only what `Store.Extends` allows. -/
theorem reconcileMembers_extendsIfLogged {groupName : String} (groupCR : Group)
    (hg : groupCR.spec.groupName = groupName) :
    IfLogged skippedIndexUpdate (fun w w' => w.store.Extends groupName w'.store)
      (reconcileMembers env groupCR) := by
  subst hg
  have hR := backendWork_backendsOnly (σ := σ) groupCR.spec.groupName
  have hA := apiWork_backendsOnly (σ := σ) groupCR.spec.groupName
  have htrans (w w₁ w₂ : World σ) :
      (extendsStore groupCR.spec.groupName).rel w w₁ → (extendsStore groupCR.spec.groupName).rel w₁ w₂ →
        w.store.Extends groupCR.spec.groupName w₂.store := Store.Extends.trans
  unfold reconcileMembers
  refine .bind_left (Moves.ofExcept' _) htrans fun _ => ?_
  dsimp only
  refine .bind_left (processAllBackends_moves hR env _ rfl _ _) htrans fun _ => ?_
  refine .bind_right (.ite' (fun w => ?_) (fun w => ⟨[_], rfl, fun _ => .refl _⟩)) (fun _ =>
    Moves.bind' (removeForceReconcileLabel_moves hA env _ _ trivial)
      fun _ => updateStatusAndHandleErrors_moves hA env _ _ fun _ _ => trivial) htrans
  refine ⟨[.log "All backends succeeded, updating cache indexes"], rfl, fun hmem => ?_⟩
  simp [skippedIndexUpdate] at hmem

/-- Only `reconcileMembers` logs: a reconcile of the Group `name` logs `msg` only as `Q` allows
when every `reconcileMembers` of a Group with its spec does, once the finalizer, the owner
references and the Waiting status, written along an order `Q` is closed under before it, are
in place. The finalization of a Group being deleted logs nothing. -/
theorem reconcile_ifLogged {msg : String} {Q : World σ → World σ → Prop} {R : WorldOrder σ}
    (hA : ApiWork ((WorldOrder.appends fun e => e.isLog = false).inter R) fun _ => True)
    (hQ : ∀ w w₁ w₂, R.rel w w₁ → Q w₁ w₂ → Q w w₂) (name : String) (groupCR : Group)
    (hget : env.groups.get name = .ok groupCR)
    (hm : groupCR.metadata.deletionTimestamp = none → ∀ groupCR' : Group,
      groupCR'.spec = groupCR.spec → IfLogged msg Q (reconcileMembers env groupCR')) :
    IfLogged msg Q (reconcile env name) := by
  unfold reconcile
  simp only [hget]
  refine .dite' (fun _ => .of_noLogs (handleDeletion_moves deletionWork_noLogs env apiWork_noLogs
    _ trivial (fun _ => ⟨[], by simp, by simp⟩) fun _ => ⟨[], by simp, by simp⟩)) fun hdel => ?_
  refine .bind_left (prepareGroup_moves hA env _ trivial (fun _ => trivial) fun _ => trivial) hQ
    fun _ => .ite' (.of_noLogs ((updateGroupStatus_moves hA env trivial).mono fun _ _ h => h.1)) ?_
  exact hm (by simpa using hdel) _ (waitingGroup_spec _ _)

/-- A reconcile of the Group `name` that logs `skippedIndexUpdate` changes the store only as
`Store.Extends` allows for the group it reconciles. -/
theorem reconcile_extendsIfLogged (name : String) (groupCR : Group)
    (hget : env.groups.get name = .ok groupCR) :
    IfLogged skippedIndexUpdate (fun w w' => w.store.Extends groupCR.spec.groupName w'.store)
      (reconcile env name) := by
  refine reconcile_ifLogged env (apiWork_backendsOnly groupCR.spec.groupName) ?_ name groupCR hget
    fun _ _ hspec => reconcileMembers_extendsIfLogged env _ (congrArg GroupSpec.groupName hspec)
  exact fun _ _ _ => Store.Extends.trans

/-- The run of a reconcile of `groupCR` from `w` gets to the backends, and `processAllBackends`
returns `backendErrors`: the run gets past the configurability gate, the members expand to
`allMembers`, and the backends are processed from the world the Waiting status update left. -/
def ProcessesBackends (groupCR : Group) (w : World σ) (backendErrors : BackendErrors) : Prop :=
  ∃ refs, ReachesMembers env groupCR w refs ∧ ∃ allMembers,
    expandGroupMembers env.groups groupCR.spec.groupName = .ok allMembers ∧
      ((processAllBackends env { waitingGroup groupCR refs with status :=
          { (waitingGroup groupCR refs).status with reconciledUsers := deduplicateMembers allMembers } }
        (fetchLDAPData env (deduplicateMembers allMembers)).1 (deduplicateMembers allMembers)).exec
        ((prepareGroup env groupCR).exec w).2).1 = .ok backendErrors

/-- After the configurability gate, backends that return an error entry make the run log
`skippedIndexUpdate`. -/
theorem reconcileMembers_logsSkipped (groupCR : Group) (allMembers : List String) (w : World σ)
    (backendErrors : BackendErrors)
    (hall : expandGroupMembers env.groups groupCR.spec.groupName = .ok allMembers)
    (hproc : ((processAllBackends env { groupCR with status :=
        { groupCR.status with reconciledUsers := deduplicateMembers allMembers } }
      (fetchLDAPData env (deduplicateMembers allMembers)).1 (deduplicateMembers allMembers)).exec w).1 =
        .ok backendErrors)
    (herr : backendErrors.hasErrors = true) :
    RunAppends (Event.log skippedIndexUpdate ∈ ·) (reconcileMembers env groupCR) w := by
  unfold reconcileMembers
  simp only [hall, ofExcept_ok, pure_bind]
  refine .bind_left (fun _ _ => List.mem_append_right _) (processAllBackends_moves
    (backendWork_appends (σ := σ) groupCR.spec.groupName) env _ rfl _ _) hproc
    (.bind_right ?_ ?_ fun _ =>
      Moves.bind' (removeForceReconcileLabel_moves apiWork_noLogs env _ _ trivial) fun _ =>
        updateStatusAndHandleErrors_moves apiWork_noLogs env _ _ fun _ _ => trivial)
  · exact fun _ _ h _ => List.mem_append_left _ h
  · simp only [herr, Bool.not_true, Bool.false_eq_true, ite_false]
    exact ⟨[_], rfl, List.mem_singleton_self _⟩

/-- A reconcile whose backends return an error entry logs `skippedIndexUpdate`. -/
theorem reconcile_logsSkipped (name : String) (groupCR : Group)
    (hget : env.groups.get name = .ok groupCR) (w : World σ) (backendErrors : BackendErrors)
    (hrun : ProcessesBackends env groupCR w backendErrors) (herr : backendErrors.hasErrors = true) :
    RunAppends (Event.log skippedIndexUpdate ∈ ·) (reconcile env name) w :=
  let ⟨_, hreach, allMembers, hall, hproc⟩ := hrun
  hreach.runAppends (fun _ _ => List.mem_append_right _) hget
    (reconcileMembers_logsSkipped env _ allMembers _ backendErrors (by simpa using hall) hproc herr)

/-- **All-or-nothing.** A reconcile of the Group `name` whose backends record an error entry,
for a failed backend or an invalid group param, leaves every group's members and every user's
groups as they were; the store changes only by backend ids recorded where none was. -/
theorem reconcile_backendErrors_extends (name : String) (groupCR : Group)
    (hget : env.groups.get name = .ok groupCR) (w : World σ) (backendErrors : BackendErrors)
    (hrun : ProcessesBackends env groupCR w backendErrors) (herr : backendErrors.hasErrors = true) :
    w.store.Extends groupCR.spec.groupName ((reconcile env name).exec w).2.store := by
  obtain ⟨new, hev, himp⟩ := reconcile_extendsIfLogged env name groupCR hget w
  obtain ⟨new', hev', hlog⟩ := reconcile_logsSkipped env name groupCR hget w backendErrors hrun herr
  rw [hev] at hev'
  exact himp (List.append_cancel_left hev' ▸ hlog)

/-- A Group `g1` declaring one backend. -/
def unreachableBackendGroup : Group :=
  { metadata := ⟨"g1", "g1-uid", 1, none, [groupFinalizer], [], []⟩
    spec := ⟨"g1", ⟨["alice"], []⟩, [⟨"ftA", "fivetran"⟩], []⟩
    status := ⟨[], [], []⟩ }

/-- A namespace holding `unreachableBackendGroup`, whose backend's client cannot be built. -/
def unreachableBackendEnv : Env Unit where
  groups := ⟨[unreachableBackendGroup]⟩
  update _ := .ok ()
  updateStatus _ := .ok ()
  backendMap := ∅
  transform _ groupName := .ok groupName
  ldap _ := .ok ⟨"alice@example.com", "Alice", "A"⟩
  newClient _ _ := .error "backend ftA of type fivetran is not configured"
  forceReconcileLabel := "operator.dataverse.redhat.com/force-reconcile"
  accountReviewerRole := "reviewer"

/-- What `processAllBackends` records for `g1`: the error of `ftA`'s client. -/
def unreachableBackendErrors : BackendErrors :=
  (∅ : BackendErrors).record "fivetran" "ftA" "backend ftA of type fivetran is not configured"

/-- Reconciling `g1` from an empty cache: the run gets to the backend, which fails, and the store
only gains what `Store.Extends` allows. -/
theorem reconcile_unreachableBackend_extends :
    unreachableBackendEnv.groups.get "g1" = .ok unreachableBackendGroup ∧
      ProcessesBackends unreachableBackendEnv unreachableBackendGroup ⟨Store.empty, fun _ => (), []⟩
        unreachableBackendErrors ∧
      unreachableBackendErrors.hasErrors = true ∧
      Store.empty.Extends "g1"
        ((reconcile unreachableBackendEnv "g1").exec ⟨Store.empty, fun _ => (), []⟩).2.store :=
  have hrun : ProcessesBackends unreachableBackendEnv unreachableBackendGroup
      ⟨Store.empty, fun _ => (), []⟩ unreachableBackendErrors :=
    ⟨[], ⟨rfl, rfl, rfl⟩, ["alice"], rfl, rfl⟩
  ⟨rfl, hrun, BackendErrors.hasErrors_record _ _ _ _,
    reconcile_backendErrors_extends unreachableBackendEnv "g1" _ rfl _ _ hrun
      (BackendErrors.hasErrors_record _ _ _ _)⟩

end Reconcile

end Usernaut
