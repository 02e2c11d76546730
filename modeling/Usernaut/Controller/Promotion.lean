import Usernaut.Controller.Frame

/-!
# Team ids are recorded once

`fetchOrCreateTeam` uses the team id a Group's record holds for a backend. Only when there is
none does it read the Team preload store, copying a preloaded id into the record, and only when
there is none there either does it call `CreateTeam` and record the new team's id.
`ldapDependantChecks` reads the preload store only for a backend the record does not hold. Every
write of a team id is made where the record holds none, and only finalization deletes the record
or writes the preload store.

So along any run of reconciles of a Group that does not finalize it, a non-empty team id, once
recorded, stays, and the run never again calls `CreateTeam` for that backend or reads its preload
entry (`reconcileAll_recordsOnce`). A `CreateTeam` that answers with an empty id records the
empty id, which reads as none: the next reconcile creates the team again
(`reconcileAll_emptyTeamID_counterexample`). What holds is that at most one `CreateTeam` per
backend returns a non-empty id, and none follows it.

A backend is identified here by its key `name_type`, under which `GetBackendID` reads the id.

## Main definitions

* `Event.touchesTeamAt`, `Event.teamCreated`, `Event.teamCreatedWithID`: the events that create
  a team or read the preload store at a key.
* `RecordsOnce`, `recordsOnce`: team ids are kept and recorded once between two worlds.

## Main results

* `backendWork_recordsOnce`: the per-backend work of a reconcile moves along `recordsOnce`.
* `reconcile_recordsOnce`: so does a reconcile of the Group that does not finalize it.
* `reconcileAll_recordsOnce`: so does every run of such reconciles, in which at most one
  `CreateTeam` per backend returns a non-empty id.
-/

namespace Usernaut

open GroupReconciler

variable {σ : Type}

/-- `e` is a `CreateTeam` call on a backend whose key is `key`, or a read of the Team preload
store for `groupName` at `key`. -/
def Event.touchesTeamAt (groupName key : String) : Event → Prop
  | .backend b (.createTeam _ _) => backendKey b.name b.type = key
  | .teamStoreRead g _ k => g = groupName ∧ k = key
  | _ => False

/-- `e` is a `CreateTeam` call on a backend whose key is `key`, that succeeded. -/
def Event.teamCreated (key : String) : Event → Bool
  | .backend b (.createTeam _ (.ok _)) => backendKey b.name b.type == key
  | _ => false

/-- `e` is a `CreateTeam` call on a backend whose key is `key`, that returned a non-empty id. -/
def Event.teamCreatedWithID (key : String) : Event → Bool
  | .backend b (.createTeam _ (.ok team)) => backendKey b.name b.type == key && team.id != ""
  | _ => false

namespace Event

theorem touchesTeamAt_of_teamCreatedWithID {groupName key : String} :
    ∀ {e : Event}, e.teamCreatedWithID key → e.touchesTeamAt groupName key
  | .backend _ (.createTeam _ (.ok _)), h => by simp_all [teamCreatedWithID, touchesTeamAt]

theorem not_touchesTeamAt_backend {b : Backend} {c : BackendCall} (hc : c.isCreateTeam = false)
    (groupName key : String) : ¬(Event.backend b c).touchesTeamAt groupName key := by
  cases c <;> simp_all [touchesTeamAt, BackendCall.isCreateTeam]

theorem teamCreatedWithID_backend {b : Backend} {c : BackendCall} (hc : c.isCreateTeam = false)
    (key : String) : (Event.backend b c).teamCreatedWithID key = false := by
  cases c <;> simp_all [teamCreatedWithID, BackendCall.isCreateTeam]

end Event

/-- What the events `new` appended between `w` and `w'` do with the team ids of `groupName`:
every `CreateTeam` and every preload read is at a key that held no id in `w`, every `CreateTeam`
that returned a non-empty id has an id recorded at its key in `w'`, and no `CreateTeam` or
preload read at a key follows a `CreateTeam` at that key that returned a non-empty id. -/
structure OnceEvents (groupName : String) (w w' : World σ) (new : List Event) : Prop where
  unrecorded : ∀ e ∈ new, ∀ key, e.touchesTeamAt groupName key →
    w.store.group.teamIDAt groupName key = ""
  recorded : ∀ e ∈ new, ∀ key, e.teamCreatedWithID key →
    w'.store.group.teamIDAt groupName key ≠ ""
  once : new.Pairwise fun e e' => ∀ key, e.teamCreatedWithID key → ¬e'.touchesTeamAt groupName key

/-- From `w` to `w'`, the team ids of `groupName` are recorded once: every non-empty id recorded
in `w` is still recorded, the Team preload store is as it was, and the new events are
`OnceEvents`. -/
structure RecordsOnce (groupName : String) (w w' : World σ) : Prop where
  kept : ∀ key, w.store.group.teamIDAt groupName key ≠ "" →
    w'.store.group.teamIDAt groupName key = w.store.group.teamIDAt groupName key
  team : w'.store.team = w.store.team
  appended : ∃ new, w'.events = w.events ++ new ∧ OnceEvents groupName w w' new

namespace RecordsOnce

variable {groupName : String} {w₁ w₂ w₃ : World σ}

/-- A key with no id at the end held none at the start. -/
theorem unrecorded_of (h : RecordsOnce groupName w₁ w₂) {key : String}
    (h₂ : w₂.store.group.teamIDAt groupName key = "") : w₁.store.group.teamIDAt groupName key = "" :=
  by_contra fun hne => hne ((h.kept key hne).symm.trans h₂)

theorem trans (h : RecordsOnce groupName w₁ w₂) (h' : RecordsOnce groupName w₂ w₃) :
    RecordsOnce groupName w₁ w₃ where
  kept key hk := (h'.kept key (by rwa [h.kept key hk])).trans (h.kept key hk)
  team := h'.team.trans h.team
  appended := by
    obtain ⟨new, hev, hu, hr, ho⟩ := h.appended
    obtain ⟨new', hev', hu', hr', ho'⟩ := h'.appended
    refine ⟨new ++ new', by rw [hev', hev, List.append_assoc], ⟨?_, ?_, ?_⟩⟩
    · intro e he key ht
      rcases List.mem_append.mp he with he | he
      · exact hu e he key ht
      · exact h.unrecorded_of (hu' e he key ht)
    · intro e he key hc
      rcases List.mem_append.mp he with he | he
      · rw [h'.kept key (hr e he key hc)]
        exact hr e he key hc
      · exact hr' e he key hc
    · exact List.pairwise_append.mpr
        ⟨ho, ho', fun e he e' he' key hc ht => hr e he key hc (hu' e' he' key ht)⟩

/-- A step that appends one event at an unrecorded key and keeps every recorded id. -/
theorem single {e : Event} (hev : w₂.events = w₁.events ++ [e])
    (hkept : ∀ key, w₁.store.group.teamIDAt groupName key ≠ "" →
      w₂.store.group.teamIDAt groupName key = w₁.store.group.teamIDAt groupName key)
    (hteam : w₂.store.team = w₁.store.team)
    (hu : ∀ key, e.touchesTeamAt groupName key → w₁.store.group.teamIDAt groupName key = "")
    (hr : ∀ key, e.teamCreatedWithID key → w₂.store.group.teamIDAt groupName key ≠ "") :
    RecordsOnce groupName w₁ w₂ :=
  ⟨hkept, hteam, [e], hev, by simpa using hu, by simpa using hr, List.pairwise_singleton _ _⟩

/-- A step that writes only the store, keeping every recorded id and the preload store. -/
theorem of_store (w : World σ) {s' : Store}
    (hgroup : ∀ key, w.store.group.teamIDAt groupName key ≠ "" →
      s'.group.teamIDAt groupName key = w.store.group.teamIDAt groupName key)
    (hteam : s'.team = w.store.team) : RecordsOnce groupName w { w with store := s' } :=
  ⟨hgroup, hteam, [], by simp, by simp, by simp, .nil⟩

/-- At most one `CreateTeam` at a key returns a non-empty id among events that are `once`. -/
theorem length_filter_le_one {new : List Event} {key : String}
    (h : new.Pairwise fun e e' => ∀ key, e.teamCreatedWithID key → ¬e'.touchesTeamAt groupName key) :
    (new.filter (·.teamCreatedWithID key)).length ≤ 1 := by
  have hf : (new.filter (·.teamCreatedWithID key)).Pairwise _ := h.sublist (List.filter_sublist new)
  have hmem : ∀ e ∈ new.filter (·.teamCreatedWithID key), e.teamCreatedWithID key :=
    fun e he => (List.mem_filter.mp he).2
  generalize new.filter (·.teamCreatedWithID key) = l at hf hmem
  match l, hf, hmem with
  | [], _, _ | [_], _, _ => simp
  | e :: e' :: _, hf, hmem =>
    exact absurd (Event.touchesTeamAt_of_teamCreatedWithID (hmem e' (by simp)))
      ((List.pairwise_cons.mp hf).1 e' (by simp) key (hmem e (by simp)))

end RecordsOnce

/-- `RecordsOnce groupName` as an order on worlds. -/
def recordsOnce (groupName : String) : WorldOrder σ where
  rel := RecordsOnce groupName
  refl _ := ⟨fun _ _ => rfl, rfl, [], by simp, by simp, by simp, .nil⟩
  trans := RecordsOnce.trans

/-- An event that neither creates a team nor reads the preload store. -/
theorem recordsOnce_record {groupName : String} (w : World σ) (e : Event)
    (hu : ∀ key, ¬e.touchesTeamAt groupName key) (hr : ∀ key, e.teamCreatedWithID key = false) :
    (recordsOnce groupName).rel w (w.record e) :=
  RecordsOnce.single rfl (fun _ _ => rfl) rfl (fun key h => absurd h (hu key))
    fun key h => by simp [hr key] at h

/-- The per-backend work of a reconcile of `groupName` creates teams and reads the preload store
only where the record holds no id, and records ids only there. -/
theorem backendWork_recordsOnce (groupName : String) (backend : Backend) :
    BackendWork (recordsOnce (σ := σ) groupName) groupName backend where
  call w s c hc := RecordsOnce.single rfl (fun _ _ => rfl) rfl
    (fun key h => absurd h (Event.not_touchesTeamAt_backend hc _ key))
    fun key h => by simp [Event.teamCreatedWithID_backend hc] at h
  createTeam w s team answer hid := by
    have hu : ∀ key, (Event.backend ⟨backend.name, backend.type⟩ (.createTeam team answer)).touchesTeamAt
        groupName key → w.store.group.teamIDAt groupName key = "" := by
      rintro key rfl
      exact hid
    cases answer with
    | error =>
      exact RecordsOnce.single rfl (fun _ _ => rfl) rfl hu fun key h => by
        simp [Event.teamCreatedWithID] at h
    | ok newTeam =>
      refine RecordsOnce.single rfl (fun key hk => GroupStore.teamIDAt_setBackend_of_ne _ hid hk) rfl
        hu fun key h => ?_
      simp only [Event.teamCreatedWithID, Bool.and_eq_true, beq_iff_eq, bne_iff_ne] at h
      simpa [World.afterCreateTeam, GroupStore.teamIDAt_setBackend, h.1] using h.2
  teamStoreRead w _ _ _ hid := RecordsOnce.single rfl (fun _ _ => rfl) rfl
    (fun key ⟨_, hk⟩ => hk ▸ hid) fun key h => by simp [Event.teamCreatedWithID] at h
  setUser w _ _ _ := RecordsOnce.of_store w (fun _ _ => rfl) rfl
  setTeamID w _ hid :=
    RecordsOnce.of_store w (fun _ hk => GroupStore.teamIDAt_setBackend_of_ne _ hid hk) rfl

/-- Writes to the API server touch no team id. -/
theorem apiWork_recordsOnce (groupName : String) :
    ApiWork (recordsOnce (σ := σ) groupName) fun _ => True where
  update w _ _ _ := recordsOnce_record w _ (fun _ => id) fun _ => rfl
  statusUpdate w _ _ _ := recordsOnce_record w _ (fun _ => id) fun _ => rfl

/-- A reconcile of the Group named `name`, when that Group is `groupName`'s and the reconcile
does not finalize it, records team ids once. -/
theorem reconcile_recordsOnce (env : Env σ) (name groupName : String)
    (hG : ∀ groupCR, env.groups.get name = .ok groupCR → groupCR.spec.groupName = groupName ∧
      (groupCR.metadata.deletionTimestamp.isSome → groupFinalizer ∉ groupCR.metadata.finalizers)) :
    Moves (recordsOnce groupName) (reconcile env name) := by
  refine reconcile_moves (apiWork_recordsOnce groupName) env
    (fun w _ => recordsOnce_record w _ (fun _ => id) fun _ => rfl) name fun groupCR hget => ?_
  obtain ⟨rfl, hfin⟩ := hG groupCR hget
  refine ⟨fun hdel => ?_, backendWork_recordsOnce _, fun w _ =>
    RecordsOnce.of_store w (fun key _ => by simp [updateCacheIndexes]) rfl⟩
  simp only [handleDeletion, if_neg (hfin hdel)]
  exact Moves.pure' _

/-- Along every run of reconciles of `groupName`'s Group that does not finalize it, whatever the
specs, the directory and the backends: a non-empty team id, once recorded, stays; the Team
preload store is never written; no `CreateTeam` and no preload read is made at a key that holds
an id, or that an earlier `CreateTeam` of the run filled with a non-empty id; so at most one
`CreateTeam` per backend key returns a non-empty id. -/
theorem reconcileAll_recordsOnce (groupName : String) (steps : List (Env σ × String))
    (hsteps : ∀ step ∈ steps, ∀ groupCR, step.1.groups.get step.2 = .ok groupCR →
      groupCR.spec.groupName = groupName ∧
        (groupCR.metadata.deletionTimestamp.isSome → groupFinalizer ∉ groupCR.metadata.finalizers))
    (w : World σ) :
    RecordsOnce groupName w (reconcileAll steps w) ∧
      ∀ key, (((reconcileAll steps w).events.drop w.events.length).filter
        (·.teamCreatedWithID key)).length ≤ 1 := by
  have h : RecordsOnce groupName w (reconcileAll steps w) :=
    reconcileAll_rel (R := recordsOnce groupName)
      (fun step hs => reconcile_recordsOnce step.1 step.2 groupName (hsteps step hs)) w
  obtain ⟨new, hev, -, -, honce⟩ := h.appended
  refine ⟨h, fun key => ?_⟩
  rw [hev, List.drop_left]
  exact RecordsOnce.length_filter_le_one honce

/-- A backend client whose `CreateTeam` succeeds and answers with the team as sent, whose id is
empty; every other call succeeds. -/
def emptyTeamIDClient : Client Unit where
  createTeam _ team _ := (.ok team, ())
  createUser _ user _ := (.ok { user with id := "1" }, ())
  fetchTeamMembersByTeamID _ _ := (.ok [], ())
  addUserToTeam _ _ _ := (.ok (), ())
  removeUserFromTeam _ _ _ := (.ok (), ())
  deleteTeamByID _ _ := (.ok (), ())
  deleteUser _ _ := (.ok (), ())
  isGitlab := false

/-- The Group `g1`, of one user, `alice`, on one backend, `ftA` of type `fivetran`. -/
def onboardingGroup : Group :=
  { metadata := ⟨"g1", "g1-uid", 1, none, [groupFinalizer], [], []⟩
    spec := ⟨"g1", ⟨["alice"], []⟩, [⟨"ftA", "fivetran"⟩], []⟩
    status := ⟨[], [], []⟩ }

/-- `g1` against `emptyTeamIDClient`. -/
def emptyTeamIDEnv : Env Unit where
  groups := ⟨[onboardingGroup]⟩
  update _ := .ok ()
  updateStatus _ := .ok ()
  backendMap := ∅
  transform _ groupName := .ok groupName
  ldap _ := .ok ⟨"alice@example.com", "Alice", "A"⟩
  newClient _ _ := .ok emptyTeamIDClient
  forceReconcileLabel := "operator.dataverse.redhat.com/force-reconcile"
  accountReviewerRole := "reviewer"

/-- Two reconciles of `g1`, neither of which finalizes it. -/
theorem emptyTeamIDEnv_reconcilesG1 :
    ∀ step ∈ [(emptyTeamIDEnv, "g1"), (emptyTeamIDEnv, "g1")], ∀ groupCR,
      step.1.groups.get step.2 = .ok groupCR → groupCR.spec.groupName = "g1" ∧
        (groupCR.metadata.deletionTimestamp.isSome → groupFinalizer ∉ groupCR.metadata.finalizers) := by
  intro step hstep groupCR hget
  have hg1 : emptyTeamIDEnv.groups.get "g1" = .ok onboardingGroup := rfl
  simp only [List.mem_cons, List.mem_singleton, List.not_mem_nil, or_false, or_self] at hstep
  subst hstep
  rw [hg1, Except.ok.injEq] at hget
  subst hget
  exact ⟨rfl, by decide⟩

/-- The two reconciles of `g1` against `emptyTeamIDClient` record team ids once. -/
theorem reconcileAll_emptyTeamID_recordsOnce :
    (∀ step ∈ [(emptyTeamIDEnv, "g1"), (emptyTeamIDEnv, "g1")], ∀ groupCR,
      step.1.groups.get step.2 = .ok groupCR → groupCR.spec.groupName = "g1" ∧
        (groupCR.metadata.deletionTimestamp.isSome →
          groupFinalizer ∉ groupCR.metadata.finalizers)) ∧
      RecordsOnce "g1" ⟨Store.empty, fun _ => (), []⟩
        (reconcileAll [(emptyTeamIDEnv, "g1"), (emptyTeamIDEnv, "g1")] ⟨Store.empty, fun _ => (), []⟩) ∧
      ∀ key, (((reconcileAll [(emptyTeamIDEnv, "g1"), (emptyTeamIDEnv, "g1")]
        ⟨Store.empty, fun _ => (), []⟩).events.drop 0).filter (·.teamCreatedWithID key)).length ≤ 1 :=
  ⟨emptyTeamIDEnv_reconcilesG1,
    reconcileAll_recordsOnce "g1" _ emptyTeamIDEnv_reconcilesG1 ⟨Store.empty, fun _ => (), []⟩⟩

/-- With a `CreateTeam` that answers with an empty id, two reconciles of `g1` from an empty cache
both create `g1`'s team on `ftA`, and both creations succeed. -/
theorem reconcileAll_emptyTeamID_counterexample :
    (∀ step ∈ [(emptyTeamIDEnv, "g1"), (emptyTeamIDEnv, "g1")], ∀ groupCR,
      step.1.groups.get step.2 = .ok groupCR → groupCR.spec.groupName = "g1" ∧
        (groupCR.metadata.deletionTimestamp.isSome →
          groupFinalizer ∉ groupCR.metadata.finalizers)) ∧
      ((reconcileAll [(emptyTeamIDEnv, "g1"), (emptyTeamIDEnv, "g1")]
        ⟨Store.empty, fun _ => (), []⟩).events.filter
          (·.teamCreated (backendKey "ftA" "fivetran"))).length = 2 :=
  ⟨emptyTeamIDEnv_reconcilesG1, by decide⟩

end Usernaut
