import Usernaut.Controller.AllOrNothing

/-!
# Team membership after a successful reconcile

What a reconcile leaves in the backends' teams, for backends that keep team membership as sets:
fetching a team's members reads its set, `AddUserToTeam` and `RemoveUserFromTeam` are union and
difference, and creating a team or a user leaves every team's members as they were
(`LawfulClient`). A backend's state is then a map from team id to its members.

`processUsers` computes the delta from the usernames of the expanded Group: the ids to keep are
the backend ids of the users LDAP resolves, and a username LDAP does not resolve is removed from
the team if it is one of the team's member ids. So after the add and the remove, the team holds
the ids to keep, less those unresolved usernames that were in it (`processUsers_mem`). A
username that LDAP does not resolve and that equals a member's backend id is removed although
it is wanted.

A reconcile shows that no backend failed by logging `succeededIndexUpdate` before it updates
the indexes; the members it records for the group are then the emails of the resolved users.

## Main definitions

* `TeamMembers`, `LawfulClient`: backends with set semantics.
* `TeamSynced`: what a successful `processSingleBackend` leaves in one backend.
* `keepsBackend`: what the work on the other backends leaves of one backend.

## Main results

* `processUsers_mem`: the members the delta leaves, from those it was computed against.
* `processSingleBackend_ok`, `processAllBackends_ok`: one backend, then every backend.
* `reconcileMembers_ifLogged`: what a run that logs `succeededIndexUpdate` leaves follows from
  the backend loop with no error entry and the index update.
* `reconcile_teamMembers`: after a reconcile that logged `succeededIndexUpdate`, the team of
  each declared backend outside LDAP-sync mode holds the backend ids of the group's members, less
  the unresolved usernames of the expansion that were in it before.
-/

namespace Usernaut

open GroupReconciler

/-- A backend's state when it keeps team membership as sets: the member ids of each team. A
team's list is read only through membership. -/
abbrev TeamMembers := String → List String

/-- A client of a backend that keeps team membership as sets. Creating a team or a user may
answer anything and changes no team's members; fetching a team's members reads them; adding and
removing are union and difference. -/
structure LawfulClient (client : Client TeamMembers) : Prop where
  createTeam : ∀ ldapSync team s, (client.createTeam ldapSync team s).2 = s
  createUser : ∀ ldapSync user s, (client.createUser ldapSync user s).2 = s
  fetchTeamMembersByTeamID : ∀ teamID s,
    client.fetchTeamMembersByTeamID teamID s = (.ok (s teamID), s)
  addUserToTeam : ∀ teamID users s,
    client.addUserToTeam teamID users s = (.ok (), Function.update s teamID (s teamID ∪ users))
  removeUserFromTeam : ∀ teamID users s, client.removeUserFromTeam teamID users s =
    (.ok (), Function.update s teamID ((s teamID).filter (· ∉ users)))

/-- The log line of a reconcile in which no backend failed, just before it updates the indexes. -/
def succeededIndexUpdate : String := "All backends succeeded, updating cache indexes"

/-- What the work on the other backends leaves of `backend`: its state, the group's team id for
it, and every user's id for it. -/
def keepsBackend {σ : Type} (groupName : String) (backend : Backend) : WorldOrder σ :=
  WorldOrder.keeping fun w => (w.backends backend,
    w.store.group.getBackendID groupName backend.name backend.type,
    fun email => w.store.user.backendID email (backendKey backend.name backend.type))

/-- The work of a reconcile on another backend, under another key, leaves `backend` as it was. -/
theorem backendWork_keepsBackend {σ : Type} {groupName : String} {backend other : Backend}
    (hne : other ≠ backend)
    (hkey : backendKey other.name other.type ≠ backendKey backend.name backend.type) :
    BackendWork (keepsBackend (σ := σ) groupName backend) groupName other where
  call _ _ _ _ := by simp [keepsBackend, WorldOrder.keeping, Function.update_noteq hne.symm]
  createTeam _ _ _ _ _ := World.afterCreateTeam_of
    (by simp [keepsBackend, WorldOrder.keeping, Function.update_noteq hne.symm])
    fun _ => by simp [keepsBackend, WorldOrder.keeping, hkey.symm]
  teamStoreRead _ _ _ _ _ := rfl
  setUser _ _ _ _ := by simp [keepsBackend, WorldOrder.keeping, hkey.symm]
  setTeamID _ _ _ := by simp [keepsBackend, WorldOrder.keeping, hkey.symm]

/-- The team the group `groupName` records for `backend` in `w'` holds the ids, in `w'`, of the
users LDAP resolved, less the unresolved usernames that were members of that team in `w`. -/
def TeamSynced (groupName : String) (data : StringMap LDAPUser) (users : List String)
    (backend : Backend) (w w' : World TeamMembers) : Prop :=
  ∀ x, x ∈ w'.backends backend (w'.store.group.getBackendID groupName backend.name backend.type) ↔
    (∃ u ∈ users, ∃ d, data.lookup u = some d ∧
      w'.store.user.backendID d.email (backendKey backend.name backend.type) = x) ∧
    ¬(x ∈ users ∧ data.lookup x = none ∧
      x ∈ w.backends backend (w'.store.group.getBackendID groupName backend.name backend.type))

/-- `TeamSynced` depends on the first world only through the backend's state, and survives the
work on the other backends. -/
theorem TeamSynced.keeps {groupName : String} {data : StringMap LDAPUser} {users : List String}
    {backend : Backend} {w₀ w w₁ w₂ : World TeamMembers} (h : TeamSynced groupName data users backend w w₁)
    (h₀ : w.backends backend = w₀.backends backend)
    (h₁₂ : (keepsBackend groupName backend).rel w₁ w₂) :
    TeamSynced groupName data users backend w₀ w₂ := by
  simp only [keepsBackend, WorldOrder.keeping, Prod.mk.injEq] at h₁₂
  obtain ⟨hb, hid, hu⟩ := h₁₂
  intro x
  simp only [hb, hid, ← h₀, fun e => congrFun hu e]
  exact h x

namespace GroupReconciler

section Delta

variable {data : StringMap LDAPUser} {store : Store} {existing : List String} {key : String}

/-- `processUsers`' loop: every resolved user has an id for the backend, the ids to keep are
theirs, and the unresolved usernames that are member ids are to be removed. -/
theorem foldlM_processUsersStep : ∀ (users : List String) (acc r : List String × List String),
    users.foldlM (processUsersStep data store existing key) acc = .ok r →
      (∀ u ∈ users, ∀ d, data.lookup u = some d → store.user.backendID d.email key ≠ "") ∧
      (∀ x, x ∈ r.1 ↔ x ∈ acc.1 ∨
        ∃ u ∈ users, ∃ d, data.lookup u = some d ∧ store.user.backendID d.email key = x) ∧
      (∀ x, x ∈ r.2 ↔ x ∈ acc.2 ∨ (x ∈ users ∧ data.lookup x = none ∧ x ∈ existing))
  | [], acc, r, h => by cases h; simp
  | u :: users, acc, r, h => by
    rw [List.foldlM_cons] at h
    rcases hu : data.lookup u with _ | d
    · simp only [processUsersStep, hu] at h
      obtain ⟨h1, h2, h3⟩ := foldlM_processUsersStep users _ r h
      refine ⟨fun v hv e he => ?_, fun x => ?_, fun x => ?_⟩
      · rcases List.mem_cons.mp hv with rfl | hv
        · simp [hu] at he
        · exact h1 v hv e he
      · simp [h2 x, hu]
      · by_cases hx : x = u
        · subst hx
          by_cases hex : x ∈ existing <;> simp [h3, hu, hex]
        · split_ifs at h3 <;> simp [h3, hx]
    · simp only [processUsersStep, hu] at h
      rw [UserStore.getD_lookup_getBackends] at h
      split_ifs at h with hid
      · cases h
      obtain ⟨h1, h2, h3⟩ := foldlM_processUsersStep users _ r h
      refine ⟨fun v hv e he => ?_, fun x => ?_, fun x => ?_⟩
      · rcases List.mem_cons.mp hv with rfl | hv
        · rw [hu] at he; cases he; exact hid
        · exact h1 v hv e he
      · simp [h2 x, hu, or_and_right, exists_or, or_assoc, eq_comm]
      · by_cases hx : x = u
        · subst hx; simp [h3, hu]
        · simp [h3, hx]

/-- **The delta.** If `processUsers` succeeds, every resolved user has an id for the backend,
and a team that held `existing` holds, after the add and the remove, the ids of the resolved
users less the unresolved usernames that were in `existing`. -/
theorem processUsers_mem {users : List String} {n t : String} {toAdd toRemove : List String}
    (h : processUsers data store users existing n t = .ok (toAdd, toRemove)) :
    (∀ u ∈ users, ∀ d, data.lookup u = some d → store.user.backendID d.email (backendKey n t) ≠ "") ∧
    ∀ x, ((x ∈ existing ∨ x ∈ toAdd) ∧ x ∉ toRemove ↔
      (∃ u ∈ users, ∃ d, data.lookup u = some d ∧ store.user.backendID d.email (backendKey n t) = x) ∧
        ¬(x ∈ users ∧ data.lookup x = none ∧ x ∈ existing)) := by
  unfold processUsers at h
  rcases hf : users.foldlM (processUsersStep data store existing (backendKey n t)) ([], []) with
    _ | ⟨toSync, ghosts⟩ <;> rw [hf] at h
  · cases h
  obtain ⟨h1, h2, h3⟩ := foldlM_processUsersStep users _ _ hf
  cases h
  refine ⟨h1, fun x => ?_⟩
  have h2 := h2 x
  have h3 := h3 x
  simp only [List.not_mem_nil, false_or] at h2 h3
  simp only [List.mem_append, List.mem_filter, decide_eq_true_eq, ← h2, ← h3]
  by_cases hs : x ∈ toSync <;> by_cases he : x ∈ existing <;> simp [hs, he]

end Delta

section LDAP

variable (env : Env TeamMembers)

/-- `fetchLDAPData`'s loop records exactly the users LDAP resolves, each under its username. -/
theorem lookup_foldl_fetchLDAPDataStep : ∀ (users : List String)
    (acc : StringMap LDAPUser × List String),
    (∀ u d, acc.1.lookup u = some d → env.ldap u = .ok d) → ∀ u d,
      ((users.foldl (fetchLDAPDataStep env) acc).1.lookup u = some d ↔
        acc.1.lookup u = some d ∨ (u ∈ users ∧ env.ldap u = .ok d))
  | [], acc, _, u, d => by simp
  | v :: users, acc, hacc, u, d => by
    rw [List.foldl_cons]
    rcases hv : env.ldap v with _ | dv
    · simp only [fetchLDAPDataStep, hv]
      rw [lookup_foldl_fetchLDAPDataStep users acc hacc]
      by_cases huv : u = v
      · subst huv; simp [hv]
      · simp [huv]
    · simp only [fetchLDAPDataStep, hv]
      have hacc' : ∀ u d, (acc.1.insert v dv).lookup u = some d → env.ldap u = .ok d := by
        intro u d hu
        by_cases huv : u = v
        · subst huv; simp_all
        · exact hacc u d (by simpa [Finmap.lookup_insert_of_ne _ huv] using hu)
      rw [lookup_foldl_fetchLDAPDataStep users _ hacc']
      by_cases huv : u = v
      · subst huv
        simp only [Finmap.lookup_insert, Option.some.injEq, hv, Except.ok.injEq,
          List.mem_cons_self, true_and, or_iff_left_of_imp And.right]
        exact ⟨.inr, fun h => h.elim (fun h => by simpa [hv] using hacc u d h) id⟩
      · simp [Finmap.lookup_insert_of_ne _ huv, huv]

/-- `fetchLDAPData`'s loop appends the emails of the users LDAP resolves. -/
theorem foldl_fetchLDAPDataStep_snd : ∀ (users : List String)
    (acc : StringMap LDAPUser × List String),
    (users.foldl (fetchLDAPDataStep env) acc).2 =
      acc.2 ++ users.filterMap fun u => (env.ldap u).toOption.map (·.email)
  | [], acc => by simp
  | v :: users, acc => by
    rw [List.foldl_cons, foldl_fetchLDAPDataStep_snd users]
    rcases hv : env.ldap v with _ | dv <;> simp [fetchLDAPDataStep, hv, Except.toOption]

/-- The users `fetchLDAPData` resolves are the members LDAP resolves. -/
theorem lookup_fetchLDAPData {users : List String} {u : String} {d : LDAPUser} :
    (fetchLDAPData env users).1.lookup u = some d ↔ u ∈ users ∧ env.ldap u = .ok d := by
  simpa using lookup_foldl_fetchLDAPDataStep env users (∅, []) (by simp) u d

/-- The current members `fetchLDAPData` reports are the emails of the resolved users. -/
theorem mem_fetchLDAPData_currentMembers {users : List String} {e : String} :
    e ∈ (fetchLDAPData env users).2.currentMembers ↔
      ∃ u ∈ users, ∃ d, env.ldap u = .ok d ∧ d.email = e := by
  simp only [fetchLDAPData, foldl_fetchLDAPDataStep_snd, List.nil_append, List.mem_filterMap,
    Option.map_eq_some']
  refine exists_congr fun u => and_congr_right fun _ => exists_congr fun d => and_congr_left fun _ => ?_
  rcases env.ldap u <;> simp [Except.toOption]

/-- The ids of the users `fetchLDAPData` resolves are the ids of the current members it reports. -/
theorem exists_lookup_fetchLDAPData_iff {users : List String} {s : UserStore} {key x : String} :
    (∃ u ∈ users, ∃ d, (fetchLDAPData env users).1.lookup u = some d ∧
      s.backendID d.email key = x) ↔
      ∃ e ∈ (fetchLDAPData env users).2.currentMembers, s.backendID e key = x := by
  simp only [mem_fetchLDAPData_currentMembers, lookup_fetchLDAPData]
  constructor
  · rintro ⟨u, hu, d, ⟨-, hd⟩, rfl⟩
    exact ⟨d.email, ⟨u, hu, d, hd, rfl⟩, rfl⟩
  · rintro ⟨_, ⟨u, hu, d, hd, rfl⟩, rfl⟩
    exact ⟨u, hu, d, ⟨hu, hd⟩, rfl⟩

/-- A member `fetchLDAPData` does not resolve is one LDAP does not resolve. -/
theorem lookup_fetchLDAPData_eq_none {users : List String} {u : String} (hu : u ∈ users) :
    (fetchLDAPData env users).1.lookup u = none ↔ (env.ldap u).toOption = none := by
  rw [Option.eq_none_iff_forall_not_mem]
  simp only [Option.mem_def, lookup_fetchLDAPData, hu, true_and]
  rcases env.ldap u <;> simp [Except.toOption]

end LDAP

section Backend

variable (env : Env TeamMembers) {client : Client TeamMembers}

/-- A successful `fetchOrCreateTeam` returns the team id it leaves recorded for the group, which
is not empty when no created team gets an empty id, and with a lawful client it changes neither a
team's members nor a user's ids. -/
theorem fetchOrCreateTeam_ok (hc : LawfulClient client) {groupName : String}
    {ldapSync : Option String} {n t : String} {p : TeamParams} {w w' : World TeamMembers}
    {teamID : String}
    (h : (fetchOrCreateTeam env groupName client ldapSync ⟨n, t, p⟩).exec w = (.ok teamID, w')) :
    w'.backends = w.backends ∧ w'.store.user = w.store.user ∧
      w'.store.group.getBackendID groupName n t = teamID ∧
      ((∀ team s newTeam, (client.createTeam ldapSync team s).1 = .ok newTeam → newTeam.id ≠ "") →
        teamID ≠ "") := by
  unfold fetchOrCreateTeam at h
  simp only [pure_bind, exec_bind, exec_ofExcept, exec_getStore] at h
  rcases ht : env.transform t groupName with _ | teamName <;> simp only [ht] at h
  · cases h
  split_ifs at h with hid
  · cases h; exact ⟨rfl, rfl, rfl, fun _ => hid⟩
  simp only [exec_bind, exec_getStore, exec_emit] at h
  split_ifs at h with hpre
  · simp only [exec_bind, exec_modifyStore, exec_pure, Prod.mk.injEq, Except.ok.injEq] at h
    obtain ⟨rfl, rfl⟩ := h
    simp [hpre]
  · simp only [exec_bind, exec_callBackend, hc.createTeam] at h
    split at h <;> cases h
    rename_i heq
    simp only [Prod.mk.injEq] at heq
    obtain ⟨hteam, rfl⟩ := heq
    exact ⟨by simp, rfl, by simp, fun hids => hids _ _ _ hteam⟩

/-- With a lawful client, creating the missing users changes no team's members and no group's
record. -/
theorem createUsersInBackendAndCache_keeps (hc : LawfulClient client) (data : StringMap LDAPUser)
    (users : List String) (n t : String) (ldapSync : Option String) :
    Moves (WorldOrder.keeping fun w => (w.backends, w.store.group))
      (createUsersInBackendAndCache env data users n t client ldapSync) := by
  refine Moves.forM' fun user _ => ?_
  split
  · exact Moves.pure' _
  refine Moves.getStore_bind fun s => .of_moves (Moves.ite' (Moves.pure' _) ?_)
  exact Moves.bind' (Moves.callBackend_op fun w => by simp [WorldOrder.keeping, hc.createUser])
    fun _ => Moves.modifyStore' fun _ => rfl

/-- `setupLdapSync` puts the client in LDAP-sync mode exactly when the configuration asks for it. -/
theorem setupLdapSync_returns (type name groupName : String) (backends : List Backend) :
    Returns (· = ldapSyncConfigured env type name) (setupLdapSync env type name client groupName backends) := by
  unfold setupLdapSync
  simp only [pure_bind, ExceptT.bind_throw]
  by_cases hg : type = "gitlab"
  · rw [if_pos hg]
    by_cases hd : (gitlabDependsOn env name).type = "" ∧ (gitlabDependsOn env name).name = ""
    · rw [if_pos hd]
      exact Returns.pure' (by simp [ldapSyncConfigured, hg, hd])
    · rw [if_neg hd]
      exact Returns.bind' fun _ => Returns.ite' (Returns.throw' _)
        (Returns.ite' (Returns.throw' _) (Returns.pure' (by simp [ldapSyncConfigured, hg, not_and_or.mp hd])))
  · rw [if_neg hg]
    exact Returns.pure' (by simp [ldapSyncConfigured, hg])

/-- A successful `setupLdapSync` reports the configured mode and leaves the store and the
backends as they were. -/
theorem setupLdapSync_ok {type name groupName : String} {backends : List Backend}
    {w w' : World TeamMembers} {isLdapSync : Bool}
    (h : (setupLdapSync env type name client groupName backends).exec w = (.ok isLdapSync, w')) :
    isLdapSync = ldapSyncConfigured env type name ∧ w'.store = w.store ∧ w'.backends = w.backends := by
  have hkeep := setupLdapSync_moves (R := WorldOrder.keeping fun w => (w.store, w.backends))
    (fun w _ _ _ (_ : w.store.group.getBackendID groupName _ _ = "") => rfl) env type name client
    backends w
  rw [h] at hkeep
  exact ⟨setupLdapSync_returns env type name groupName backends w _ _ h, congrArg Prod.fst hkeep, congrArg Prod.snd hkeep⟩

/-- **One backend.** A successful `processSingleBackend` leaves every resolved user with an id
for the backend, and the group with a team id for it that is not empty when no created team gets
an empty id. Outside LDAP-sync mode, it leaves the backend `TeamSynced`. -/
theorem processSingleBackend_ok {backend : Backend}
    (hlawful : ∀ client, env.newClient backend.name backend.type = .ok client → LawfulClient client)
    {groupCR : Group} {data : StringMap LDAPUser} {users : List String} {params : TeamParams}
    {w w' : World TeamMembers}
    (h : (processSingleBackend env groupCR backend data users params).exec w = (.ok (), w')) :
    (ldapSyncConfigured env backend.type backend.name = false →
      TeamSynced groupCR.spec.groupName data users backend w w') ∧
    (∀ u ∈ users, ∀ d, data.lookup u = some d →
      w'.store.user.backendID d.email (backendKey backend.name backend.type) ≠ "") ∧
    ((∀ client, env.newClient backend.name backend.type = .ok client → ∀ ldapSync team s newTeam,
        (client.createTeam ldapSync team s).1 = .ok newTeam → newTeam.id ≠ "") →
      w'.store.group.getBackendID groupCR.spec.groupName backend.name backend.type ≠ "") := by
  unfold processSingleBackend at h
  obtain ⟨client, w₁, h₁, h⟩ := exec_bind_eq_ok h
  simp only [exec_ofExcept, Prod.mk.injEq] at h₁
  obtain ⟨hnc, rfl⟩ := h₁
  have hc := hlawful client hnc
  obtain ⟨isLdapSync, w₂, h₂, h⟩ := exec_bind_eq_ok h
  obtain ⟨rfl, -, hb₂⟩ := setupLdapSync_ok env h₂
  obtain ⟨teamID, w₃, h₃, h⟩ := exec_bind_eq_ok h
  obtain ⟨hb₃, -, hid₃, hne₃⟩ := fetchOrCreateTeam_ok env hc h₃
  obtain ⟨_, w₄, h₄, h⟩ := exec_bind_eq_ok h
  have hk₄ := (createUsersInBackendAndCache_keeps env hc _ _ _ _ _).keeping_exec h₄
  simp only [Prod.mk.injEq] at hk₄
  obtain ⟨members, w₅, h₅, h⟩ := exec_bind_eq_ok h
  simp only [exec_callBackend, hc.fetchTeamMembersByTeamID, Prod.mk.injEq, Except.ok.injEq] at h₅
  obtain ⟨rfl, rfl⟩ := h₅
  obtain ⟨s₆, w₆, h₆, h⟩ := exec_bind_eq_ok h
  simp only [exec_getStore, Prod.mk.injEq, Except.ok.injEq] at h₆
  obtain ⟨rfl, rfl⟩ := h₆
  obtain ⟨⟨toAdd, toRemove⟩, w₇, h₇, h⟩ := exec_bind_eq_ok h
  simp only [exec_ofExcept, Prod.mk.injEq] at h₇
  obtain ⟨hpu, rfl⟩ := h₇
  have hfinal : w'.store = w₄.store ∧ (ldapSyncConfigured env backend.type backend.name = false →
      ∀ x, x ∈ w'.backends backend teamID ↔
        (x ∈ w₄.backends backend teamID ∨ x ∈ toAdd) ∧ x ∉ toRemove) := by
    cases hsync : ldapSyncConfigured env backend.type backend.name
    · simp only [hsync, Bool.not_false, if_true] at h
      split_ifs at h with ha hr hr <;>
        simp only [exec_bind, exec_callBackend, hc.addUserToTeam, hc.removeUserFromTeam, exec_pure,
          Prod.mk.injEq, true_and] at h <;>
        subst h <;> refine ⟨rfl, fun _ x => ?_⟩
      · simp [List.mem_union_iff]
      · simp [List.mem_union_iff, not_not.mp hr]
      · simp [not_not.mp ha]
      · simp [not_not.mp ha, not_not.mp hr]
    · simp only [hsync, Bool.not_true, Bool.false_eq_true, if_false, exec_pure, Prod.mk.injEq,
        true_and] at h
      subst h
      exact ⟨rfl, nofun⟩
  obtain ⟨hstore, hmem⟩ := hfinal
  have hid : w'.store.group.getBackendID groupCR.spec.groupName backend.name backend.type =
      teamID := by
    rw [hstore, hk₄.2, hid₃]
  have hb : w₄.backends = w.backends := by rw [hk₄.1, hb₃, hb₂]
  refine ⟨fun hsync x => ?_, fun u hu d hd => hstore ▸ (processUsers_mem hpu).1 u hu d hd,
    fun hids => hid ▸ hne₃ (hids client hnc _)⟩
  rw [hid, hmem hsync, (processUsers_mem hpu).2 x, hstore, hb, World.afterCall_store]

end Backend

section AllBackends

variable {σ : Type} (env : Env σ)

/-- A pass of the backend loop that leaves no error ran the backend's processing to success, and
kept the errors it was given. -/
theorem processBackendStep_ok {groupCR : Group} {data : StringMap LDAPUser} {users : List String}
    {params : StringMap TeamParams} {errs errs' : BackendErrors} {backend : Backend}
    {w w' : World σ}
    (h : (processBackendStep env groupCR data users params errs backend).exec w = (.ok errs', w'))
    (herrs : errs'.hasErrors = false) :
    errs' = errs ∧ (processSingleBackend env groupCR backend data users
      ((params.lookup (backendKey backend.name backend.type)).getD .zero)).exec w = (.ok (), w') := by
  unfold processBackendStep at h
  simp only [exec_tryCatch, exec_bind, exec_pure] at h
  rcases hx : (processSingleBackend env groupCR backend data users
    ((params.lookup (backendKey backend.name backend.type)).getD .zero)).exec w with
    ⟨_ | ⟨⟩, w₁⟩ <;> simp only [hx, Prod.mk.injEq, Except.ok.injEq] at h <;>
    obtain ⟨rfl, rfl⟩ := h
  · simp at herrs
  · exact ⟨rfl, rfl⟩

/-- **Every backend.** In a run of the backend loop that ends with no error, over backends with
distinct keys, each backend's processing ran to success, from a world where the passes before it
had left that backend as it was, and the passes after it left it as it was too. -/
theorem foldlM_processBackendStep_ok (groupCR : Group) (data : StringMap LDAPUser)
    (users : List String) (params : StringMap TeamParams) : ∀ (backends : List Backend),
    (backends.map fun b => backendKey b.name b.type).Nodup →
    ∀ errs w errs' w', (backends.foldlM (processBackendStep env groupCR data users params)
      errs).exec w = (.ok errs', w') → errs'.hasErrors = false →
      errs.hasErrors = false ∧ ∀ b ∈ backends, ∃ w₁ w₂,
        (keepsBackend groupCR.spec.groupName b).rel w w₁ ∧
        (processSingleBackend env groupCR b data users
          ((params.lookup (backendKey b.name b.type)).getD .zero)).exec w₁ = (.ok (), w₂) ∧
        (keepsBackend groupCR.spec.groupName b).rel w₂ w'
  | [], _, errs, w, errs', w', h, herrs => by
    simp only [List.foldlM_nil, exec_pure, Prod.mk.injEq, Except.ok.injEq] at h
    obtain ⟨rfl, rfl⟩ := h
    exact ⟨herrs, by simp⟩
  | b :: rest, hkeys, errs, w, errs', w', h, herrs => by
    rw [List.foldlM_cons] at h
    obtain ⟨errs₁, w₁, h₁, h₂⟩ := exec_bind_eq_ok h
    simp only [List.map_cons, List.nodup_cons, List.mem_map, not_exists, not_and] at hkeys
    obtain ⟨herrs₁, ih⟩ := foldlM_processBackendStep_ok groupCR data users params rest hkeys.2
      errs₁ w₁ errs' w' h₂ herrs
    obtain ⟨rfl, hb⟩ := processBackendStep_ok env h₁ herrs₁
    have hkey (b' : Backend) (hb' : b' ∈ rest) :
        backendKey b'.name b'.type ≠ backendKey b.name b.type := hkeys.1 b' hb'
    have hne (b' : Backend) (hb' : b' ∈ rest) : b' ≠ b := fun heq => hkey b' hb' (heq ▸ rfl)
    refine ⟨herrs₁, fun b' hb' => ?_⟩
    rcases List.mem_cons.mp hb' with rfl | hb'
    · have hrest := (Moves.foldlM' (R := keepsBackend groupCR.spec.groupName b') fun errs b'' hb'' =>
        processBackendStep_moves (backendWork_keepsBackend (hne b'' hb'') (hkey b'' hb'')) env
          groupCR rfl data users params errs) errs₁ w₁
      rw [h₂] at hrest
      exact ⟨w, w₁, WorldOrder.refl _ _, hb, hrest⟩
    · have hstep := processBackendStep_moves (backendWork_keepsBackend (hne b' hb').symm
        (hkey b' hb').symm) env groupCR rfl data users params errs₁ w
      rw [h₁] at hstep
      obtain ⟨v₁, v₂, hv₁, hrun, hv₂⟩ := ih b' hb'
      exact ⟨v₁, v₂, WorldOrder.trans _ hstep hv₁, hrun, hv₂⟩

/-- `foldlM_processBackendStep_ok` for the declared backends of `processAllBackends`. -/
theorem processAllBackends_ok {groupCR : Group} {data : StringMap LDAPUser} {users : List String}
    (hkeys : (groupCR.spec.backends.map fun b => backendKey b.name b.type).Nodup)
    {w w' : World σ} {errs : BackendErrors}
    (h : (processAllBackends env groupCR data users).exec w = (.ok errs, w'))
    (herrs : errs.hasErrors = false) :
    ∀ b ∈ groupCR.spec.backends, ∃ params w₁ w₂, (keepsBackend groupCR.spec.groupName b).rel w w₁ ∧
      (processSingleBackend env groupCR b data users params).exec w₁ = (.ok (), w₂) ∧
      (keepsBackend groupCR.spec.groupName b).rel w₂ w' := by
  simp only [processAllBackends] at h
  rcases hp : groupCR.spec.groupParams.foldl (groupParamStep
    (groupCR.spec.backends.map fun b => backendKey b.name b.type)) (∅, ∅) with ⟨errs₀, params⟩
  rw [hp] at h
  intro b hb
  obtain ⟨w₁, w₂, h₁, h₂, h₃⟩ :=
    (foldlM_processBackendStep_ok env groupCR data users params _ hkeys _ w errs w' h herrs).2 b hb
  exact ⟨_, w₁, w₂, h₁, h₂, h₃⟩

end AllBackends

/-- A run of `processAllBackends` that reports no error, over backends with lawful clients and
distinct keys, leaves every declared backend outside LDAP-sync mode `TeamSynced`. -/
theorem processAllBackends_teamSynced (env : Env TeamMembers) {groupCR : Group}
    {data : StringMap LDAPUser} {users : List String}
    (hlawful : ∀ b ∈ groupCR.spec.backends, ∀ client,
      env.newClient b.name b.type = .ok client → LawfulClient client)
    (hkeys : (groupCR.spec.backends.map fun b => backendKey b.name b.type).Nodup)
    {w w' : World TeamMembers} {errs : BackendErrors}
    (h : (processAllBackends env groupCR data users).exec w = (.ok errs, w'))
    (herrs : errs.hasErrors = false) :
    ∀ b ∈ groupCR.spec.backends, ldapSyncConfigured env b.type b.name = false →
      TeamSynced groupCR.spec.groupName data users b w w' := fun b hb hsync => by
  obtain ⟨_, w₁, w₂, h₁, h₂, h₃⟩ := processAllBackends_ok env hkeys h herrs b hb
  exact ((processSingleBackend_ok env (hlawful b hb) h₂).1 hsync).keeps
    (congrArg Prod.fst h₁) h₃

end GroupReconciler

/-- What a reconcile of a Group with spec `spec` leaves, from `w` to `w'`, in every declared
backend outside LDAP-sync mode: the team recorded for the group holds the backend ids of the
group's members, less the usernames of the expansion that LDAP does not resolve and that were in
that team in `w`. -/
def TeamsMatchMembers (env : Env TeamMembers) (spec : GroupSpec) (w w' : World TeamMembers) :
    Prop :=
  ∀ b ∈ spec.backends, ldapSyncConfigured env b.type b.name = false →
    ∀ x, x ∈ w'.backends b (w'.store.group.getBackendID spec.groupName b.name b.type) ↔
      (∃ e ∈ w'.store.group.getMembers spec.groupName,
        w'.store.user.backendID e (backendKey b.name b.type) = x) ∧
      ¬((∃ all, expandGroupMembers env.groups spec.groupName = .ok all ∧ x ∈ all) ∧
        (env.ldap x).toOption = none ∧
        x ∈ w.backends b (w'.store.group.getBackendID spec.groupName b.name b.type))

namespace TeamsMatchMembers

variable {env : Env TeamMembers} {spec : GroupSpec} {w w₁ w₂ : World TeamMembers}

/-- The first world matters only through the backends' states. -/
theorem of_backends (h : w₁.backends = w.backends) (hm : TeamsMatchMembers env spec w₁ w₂) :
    TeamsMatchMembers env spec w w₂ := by
  rwa [TeamsMatchMembers, ← h]

/-- The last world matters only through the store and the backends' states. -/
theorem of_store (hm : TeamsMatchMembers env spec w w₁) (hs : w₂.store = w₁.store)
    (hb : w₂.backends = w₁.backends) : TeamsMatchMembers env spec w w₂ := by
  rwa [TeamsMatchMembers, hs, hb]

end TeamsMatchMembers

/-- Calls to the API server log nothing and leave the store and the backends as they were. -/
theorem apiWork_quiet : ApiWork ((WorldOrder.appends (σ := TeamMembers) fun e => e.isLog = false).inter
    (WorldOrder.keeping fun w => (w.store, w.backends))) fun _ => True where
  update _ _ _ _ := ⟨⟨[_], rfl, by simp [Event.isLog]⟩, rfl⟩
  statusUpdate _ _ _ _ := ⟨⟨[_], rfl, by simp [Event.isLog]⟩, rfl⟩

namespace GroupReconciler

variable (env : Env TeamMembers)

/-- The index update after a backend loop that left every backend `TeamSynced` records as the
group's members the emails of the users LDAP resolved, so that the teams match them. -/
theorem teamsMatchMembers_updateCacheIndexes {spec : GroupSpec} {all : List String}
    (hall : expandGroupMembers env.groups spec.groupName = .ok all) {w w' : World TeamMembers}
    (hsynced : ∀ b ∈ spec.backends, ldapSyncConfigured env b.type b.name = false →
      TeamSynced spec.groupName (fetchLDAPData env (deduplicateMembers all)).1
        (deduplicateMembers all) b w w') :
    TeamsMatchMembers env spec w { w' with
      store := updateCacheIndexes w'.store spec.groupName (fetchLDAPData env (deduplicateMembers all)).2 } := by
  intro b hb hsync x
  have hx := hsynced b hb hsync x
  simp only [updateCacheIndexes_group_getMembers, if_true]
  simp only [updateCacheIndexes, GroupStore.getBackendID_setMembers] at hx ⊢
  rw [hx, exists_lookup_fetchLDAPData_iff]
  refine and_congr_right fun _ => not_congr ?_
  simp only [mem_deduplicateMembers, hall, Except.ok.injEq, exists_eq_left']
  exact and_congr_right fun hxa => and_congr_left fun _ =>
    lookup_fetchLDAPData_eq_none env (mem_deduplicateMembers.mpr hxa)

/-- The success line of `reconcileMembers`: a run that logs `succeededIndexUpdate` relates its
first and last worlds by `Q` when the backend loop succeeded with no error entry, followed by
the index update, does, and the API calls after it keep `Q`. -/
theorem reconcileMembers_ifLogged {Q : World TeamMembers → World TeamMembers → Prop}
    {spec : GroupSpec} (groupCR : Group) (hspec : groupCR.spec = spec)
    (hsucc : ∀ (groupCR' : Group) all w errs w', groupCR'.spec = spec →
      expandGroupMembers env.groups spec.groupName = .ok all →
      (processAllBackends env groupCR' (fetchLDAPData env (deduplicateMembers all)).1
        (deduplicateMembers all)).exec w = (.ok errs, w') → errs.hasErrors = false →
      Q w { w' with
        store := updateCacheIndexes w'.store spec.groupName
          (fetchLDAPData env (deduplicateMembers all)).2 })
    (hQ : ∀ w w₁ w₂, Q w w₁ → (WorldOrder.keeping fun w => (w.store, w.backends)).rel w₁ w₂ →
      Q w w₂) :
    IfLogged succeededIndexUpdate Q (reconcileMembers env groupCR) := by
  subst hspec
  intro w
  unfold reconcileMembers
  refine LogsThen.bind (Moves.ofExcept' _) fun all w₁ hall => ?_
  simp only [exec_ofExcept, Prod.mk.injEq] at hall
  obtain ⟨hall, rfl⟩ := hall
  dsimp only
  refine LogsThen.bind ((processAllBackends_moves (backendWork_backendsOnly _) env _ rfl _ _).mono
    fun _ _ h => h.1) fun errs w₂ h₂ => ?_
  refine LogsThen.bind_right ?_ (fun _ => Moves.bind' (removeForceReconcileLabel_moves apiWork_quiet
    env _ _ trivial) fun _ => updateStatusAndHandleErrors_moves apiWork_quiet env _ _ fun _ _ => trivial)
    (hQ w)
  cases herrs : errs.hasErrors
  · exact ⟨[.log succeededIndexUpdate], rfl, fun _ => hQ w _ _ (hsucc _ all w errs w₂ rfl hall h₂ herrs) rfl⟩
  · refine ⟨[.log skippedIndexUpdate], rfl, fun hmem => ?_⟩
    simp [succeededIndexUpdate, skippedIndexUpdate] at hmem

/-- A run of `reconcileMembers` that logs `succeededIndexUpdate` leaves the teams matching the
group's members. -/
theorem reconcileMembers_teamsMatchMembers {spec : GroupSpec} (groupCR : Group)
    (hspec : groupCR.spec = spec)
    (hlawful : ∀ b ∈ spec.backends, ∀ client,
      env.newClient b.name b.type = .ok client → LawfulClient client)
    (hkeys : (spec.backends.map fun b => backendKey b.name b.type).Nodup) :
    IfLogged succeededIndexUpdate (TeamsMatchMembers env spec) (reconcileMembers env groupCR) := by
  refine reconcileMembers_ifLogged env groupCR hspec (fun groupCR' all w errs w' hspec' hall h herrs => ?_)
    fun _ _ _ hm h => hm.of_store (congrArg Prod.fst h) (congrArg Prod.snd h)
  subst hspec'
  exact teamsMatchMembers_updateCacheIndexes env hall fun b hb hs =>
    (processAllBackends_teamSynced env hlawful hkeys h herrs b hb hs).keeps rfl rfl

/-- A run of `reconcile` that logs `succeededIndexUpdate` leaves the teams matching the group's
members. -/
theorem reconcile_teamsMatchMembers (name : String) (groupCR : Group)
    (hget : env.groups.get name = .ok groupCR)
    (hlawful : ∀ b ∈ groupCR.spec.backends, ∀ client,
      env.newClient b.name b.type = .ok client → LawfulClient client)
    (hkeys : (groupCR.spec.backends.map fun b => backendKey b.name b.type).Nodup) :
    IfLogged succeededIndexUpdate (TeamsMatchMembers env groupCR.spec) (reconcile env name) :=
  reconcile_ifLogged env apiWork_quiet (fun _ _ _ h hm => hm.of_backends (congrArg Prod.snd h))
    name groupCR hget fun _ _ hspec => reconcileMembers_teamsMatchMembers env _ hspec hlawful hkeys

end GroupReconciler

/-- **Team membership.** Take backends that keep team membership as sets, a Group `name` whose
declared backends have distinct keys, and a reconcile of it that logged `succeededIndexUpdate`,
so that no backend and no group param failed. Then in every declared backend outside LDAP-sync
mode, the team the group records holds exactly the backend ids of the group's members, less the
usernames of the expansion that LDAP does not resolve and that were in that team before the
reconcile. -/
theorem reconcile_teamMembers (env : Env TeamMembers) (name : String) (groupCR : Group)
    (hget : env.groups.get name = .ok groupCR)
    (hlawful : ∀ b ∈ groupCR.spec.backends, ∀ client,
      env.newClient b.name b.type = .ok client → LawfulClient client)
    (hkeys : (groupCR.spec.backends.map fun b => backendKey b.name b.type).Nodup)
    (w : World TeamMembers)
    (hlog : Event.log succeededIndexUpdate ∈
      ((reconcile env name).exec w).2.events.drop w.events.length) :
    let w' := ((reconcile env name).exec w).2
    let groupName := groupCR.spec.groupName
    ∀ b ∈ groupCR.spec.backends, ldapSyncConfigured env b.type b.name = false →
      ∀ x, x ∈ w'.backends b (w'.store.group.getBackendID groupName b.name b.type) ↔
        (∃ e ∈ w'.store.group.getMembers groupName,
          w'.store.user.backendID e (backendKey b.name b.type) = x) ∧
        ¬((∃ all, expandGroupMembers env.groups groupName = .ok all ∧ x ∈ all) ∧
          (env.ldap x).toOption = none ∧
          x ∈ w.backends b (w'.store.group.getBackendID groupName b.name b.type)) := by
  obtain ⟨new, hev, himp⟩ := reconcile_teamsMatchMembers env name groupCR hget hlawful hkeys w
  rw [hev, List.drop_left] at hlog
  exact himp hlog

/-- A backend client that keeps team membership as sets, whose created teams get the id `T1`. -/
def setClient : Client TeamMembers where
  createTeam _ team s := (.ok { team with id := "T1" }, s)
  createUser _ user s := (.ok { user with id := user.userName }, s)
  fetchTeamMembersByTeamID teamID s := (.ok (s teamID), s)
  addUserToTeam teamID users s := (.ok (), Function.update s teamID (s teamID ∪ users))
  removeUserFromTeam teamID users s :=
    (.ok (), Function.update s teamID ((s teamID).filter (· ∉ users)))
  deleteTeamByID _ s := (.ok (), s)
  deleteUser _ s := (.ok (), s)
  isGitlab := false

/-- `setClient` keeps team membership as sets. -/
theorem setClient_lawful : LawfulClient setClient :=
  ⟨fun _ _ _ => rfl, fun _ _ _ => rfl, fun _ _ => rfl, fun _ _ _ => rfl, fun _ _ _ => rfl⟩

/-- A Group `g1` of the users `alice` and `u1` on one backend. -/
def collisionGroup : Group :=
  { metadata := ⟨"g1", "g1-uid", 1, none, [groupFinalizer], [], []⟩
    spec := ⟨"g1", ⟨["alice", "u1"], []⟩, [⟨"ftA", "fivetran"⟩], []⟩
    status := ⟨[], [], []⟩ }

/-- A namespace holding `collisionGroup`, where LDAP resolves `alice` only. -/
def collisionEnv : Env TeamMembers where
  groups := ⟨[collisionGroup]⟩
  update _ := .ok ()
  updateStatus _ := .ok ()
  backendMap := ∅
  transform _ groupName := .ok groupName
  ldap user := if user = "alice" then .ok ⟨"alice@example.com", "Alice", "A"⟩ else .error "no such user"
  newClient _ _ := .ok setClient
  forceReconcileLabel := "operator.dataverse.redhat.com/force-reconcile"
  accountReviewerRole := "reviewer"

/-- A cache where `alice`'s id in the backend is `u1`, and a backend whose team `T1` holds `u1`. -/
def collisionWorld : World TeamMembers :=
  ⟨{ Store.empty with
      user := Store.empty.user.setBackend "alice@example.com" (backendKey "ftA" "fivetran") "u1" },
    fun _ teamID => if teamID = "T1" then ["u1"] else [], []⟩

/-- Reconciling `collisionGroup`: no backend fails and the members are `alice@example.com`,
whose id is `u1`, but the team is left without `u1`, because `u1` is also an unresolved
username of the group and was in the team. -/
theorem reconcile_collision_dropsMember :
    let w' := ((reconcile collisionEnv "g1").exec collisionWorld).2
    Event.log succeededIndexUpdate ∈ w'.events ∧
      ldapSyncConfigured collisionEnv "fivetran" "ftA" = false ∧
      w'.store.group.getMembers "g1" = ["alice@example.com"] ∧
      w'.store.user.backendID "alice@example.com" (backendKey "ftA" "fivetran") = "u1" ∧
      "u1" ∉ w'.backends ⟨"ftA", "fivetran"⟩ (w'.store.group.getBackendID "g1" "ftA" "fivetran") := by
  decide

/-- The same run, where the team's members are the members' ids less the unresolved usernames
that were in the team: `u1` is the id of a member, but also a username of the expansion that
LDAP does not resolve and that was in the team, so it is not in the team. -/
theorem reconcile_collision_teamMembers :
    let w' := ((reconcile collisionEnv "g1").exec collisionWorld).2
    collisionEnv.groups.get "g1" = .ok collisionGroup ∧
      Event.log succeededIndexUpdate ∈ w'.events.drop collisionWorld.events.length ∧
      ("u1" ∈ w'.backends ⟨"ftA", "fivetran"⟩ (w'.store.group.getBackendID "g1" "ftA" "fivetran") ↔
        (∃ e ∈ w'.store.group.getMembers "g1",
          w'.store.user.backendID e (backendKey "ftA" "fivetran") = "u1") ∧
        ¬((∃ all, expandGroupMembers collisionEnv.groups "g1" = .ok all ∧ "u1" ∈ all) ∧
          (collisionEnv.ldap "u1").toOption = none ∧
          "u1" ∈ collisionWorld.backends ⟨"ftA", "fivetran"⟩
            (w'.store.group.getBackendID "g1" "ftA" "fivetran"))) :=
  ⟨rfl, by decide, reconcile_teamMembers collisionEnv "g1" collisionGroup rfl
    (fun _ _ _ h => by cases h; exact setClient_lawful) (by decide) collisionWorld (by decide)
    ⟨"ftA", "fivetran"⟩ (List.mem_singleton_self _) rfl "u1"⟩

end Usernaut
