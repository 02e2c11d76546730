import Usernaut.Clients.Ldap
import Usernaut.PeriodicJobs.Sweep

/-!
# The offboarding job over the LDAP client

`UserOffboardingJob` learns about a user from `GetUserLDAPDataByEmail` alone. `withLdap` gives
the job the client of `Clients/Ldap`, from the client's state when the job runs: each lookup
starts from the state the lookup before it left, so a closing connection that one lookup
redials serves the lookups after it (`getConn_exec`).

Whatever LDAP answers, `processUsers` accounts for every user it is given (`processUsers_accounts`):
it never fails, and each user is kept, offboarded or reported as an error, where only a user LDAP
reported active is kept and only one it reported inactive is offboarded. `checkUsers` lists the
answers the loop gets, in order, with the client's state carried from each lookup to the next.

Over the client, a user is active exactly when the search finds an entry and the client is
configured with some attribute (`isUserActiveInLDAP_withLdap`), which the job reads from the size
of the user's data. So:

* a client configured with no attribute finds every user inactive, those the directory knows
  included, and the job keeps no user: each is offboarded or reported
  (`processUsers_noAttributes`);
* with no connection to give, `nil` or a closing one that the directory refuses to redial, every
  lookup fails with `LDAP connection is nil` and leaves the client so (`lookup_of_cannotConnect`):
  a run changes nothing, and fails as soon as the cache lists a user (`run_noConnection`).

## Main definitions

* `UserOffboardingJob.withLdap`: the job over the LDAP client.
* `UserOffboardingJob.checkUsers`: the LDAP answers about some users, asked in turn.
* `UserOffboardingJob.Accounts`: what `processUsers` has collected after some users.

## Main results

* `processUsers_accounts`: the loop over the users never fails and accounts for each user.
* `isUserActiveInLDAP_withLdap`: the job's LDAP check, in terms of the client.
* `processUsers_noAttributes`, `run_noConnection`: the two configurations above.
-/

namespace Usernaut

variable {σ τ : Type}

namespace UserOffboardingJob

variable {δ : Type} (job : UserOffboardingJob σ δ)

/-! ## The loop over the users -/

/-- The LDAP client's answers about `userKeys`, asked one after another from the state `d`, each
with its user, and the client's state after the last: the checks `processUsers` makes. -/
def checkUsers (userKeys : List String) (d : δ) : List (String × Except String Bool) × δ :=
  userKeys.foldl (fun acc k =>
    (acc.1 ++ [(k, (job.isUserActiveInLDAP k acc.2).1)], (job.isUserActiveInLDAP k acc.2).2))
    ([], d)

@[simp] theorem checkUsers_nil (d : δ) : job.checkUsers [] d = ([], d) := rfl

theorem checkUsers_append_singleton (done : List String) (k : String) (d : δ) :
    job.checkUsers (done ++ [k]) d =
      ((job.checkUsers done d).1 ++ [(k, (job.isUserActiveInLDAP k (job.checkUsers done d).2).1)],
        (job.isUserActiveInLDAP k (job.checkUsers done d).2).2) := by
  simp [checkUsers, List.foldl_append]

/-- Each answer among the checks is the client's answer about its user from some state. -/
theorem answer_of_mem_checkUsers {c : String × Except String Bool} :
    ∀ {userKeys : List String} {d : δ}, c ∈ (job.checkUsers userKeys d).1 →
      ∃ d', c.2 = (job.isUserActiveInLDAP c.1 d').1 := by
  intro userKeys
  induction userKeys using List.reverseRecOn with
  | nil => simp
  | append_singleton done k ih =>
    intro d hc
    rw [checkUsers_append_singleton, List.mem_append, List.mem_singleton] at hc
    rcases hc with hc | rfl
    · exact ih hc
    · exact ⟨_, rfl⟩

/-- `processUser` when LDAP could not be asked: an error, and nothing changes. -/
theorem processUser_exec_of_error {userKey err : String} {d : δ}
    (h : (job.isUserActiveInLDAP userKey d).1 = .error err) (w : World σ) :
    (job.processUser userKey d).1.exec w =
      (.error ("failed to check LDAP for user " ++ userKey ++ ": " ++ err), w) := by
  simp [processUser, h]

/-- `processUser` keeps a user LDAP reports active, and changes nothing. -/
theorem processUser_exec_of_active {userKey : String} {d : δ}
    (h : (job.isUserActiveInLDAP userKey d).1 = .ok true) (w : World σ) :
    (job.processUser userKey d).1.exec w = (.ok false, w) := by
  simp [processUser, h]

/-- `processUser` never keeps a user LDAP reports inactive: it offboards the user or fails. -/
theorem processUser_of_inactive {userKey : String} {d : δ}
    (h : (job.isUserActiveInLDAP userKey d).1 = .ok false) (w : World σ) :
    ((job.processUser userKey d).1.exec w).1 ≠ .ok false := by
  simp only [processUser, h, exec_tryCatch, exec_bind, exec_pure]
  rcases (job.offboardUser userKey).exec w with ⟨_ | _, w'⟩ <;> simp

/-- One pass of `processUsers`' loop records what `processUser` did, and goes on from the LDAP
client's state after the check. -/
theorem processUsersStep_exec (result : ProcessingResult) (d : δ) (userKey : String)
    (w : World σ) :
    (job.processUsersStep (result, d) userKey).exec w =
      match (job.processUser userKey d).1.exec w with
      | (.ok true, w') => (.ok (result.addOffboarded userKey, (job.processUser userKey d).2), w')
      | (.ok false, w') => (.ok (result, (job.processUser userKey d).2), w')
      | (.error err, w') => (.ok (result.addError err, (job.processUser userKey d).2), w') := by
  simp only [processUsersStep, exec_tryCatch, exec_bind, exec_pure]
  rcases (job.processUser userKey d).1.exec w with ⟨_ | _ | _, w'⟩ <;> rfl

/-- What `processUsers` has collected after the users `done`, which the LDAP client checked in
turn from its state when the job runs: one count per offboarded user, only users LDAP reported
inactive offboarded, and every user kept because LDAP reported it active, offboarded, or
reported as an error. -/
structure Accounts (done : List String) (result : ProcessingResult) : Prop where
  count : result.offboardedCount = result.offboardedUsers.length
  inactive : List.Sublist result.offboardedUsers
    (((job.checkUsers done job.ldapState).1.filter fun c => c.2 = .ok false).map Prod.fst)
  total : result.offboardedUsers.length + result.errors.length +
    (job.checkUsers done job.ldapState).1.countP (fun c => c.2 = .ok true) = done.length

/-- One pass of the loop, from the client's state after the users `done`, keeps the accounts. -/
theorem Accounts.step {done : List String} {result : ProcessingResult}
    (h : job.Accounts done result) (userKey : String) (w : World σ) :
    ∃ result' w', (job.processUsersStep (result, (job.checkUsers done job.ldapState).2) userKey).exec w =
        (.ok (result', (job.checkUsers (done ++ [userKey]) job.ldapState).2), w') ∧
      job.Accounts (done ++ [userKey]) result' := by
  obtain ⟨hcount, hinactive, htotal⟩ := h
  have hchecks := job.checkUsers_append_singleton done userKey job.ldapState
  set d := (job.checkUsers done job.ldapState).2
  have hsub : List.Sublist
      (((job.checkUsers done job.ldapState).1.filter fun c => c.2 = .ok false).map Prod.fst)
      (((job.checkUsers (done ++ [userKey]) job.ldapState).1.filter
        fun c => c.2 = .ok false).map Prod.fst) := by
    rw [hchecks, List.filter_append, List.map_append]
    exact List.sublist_append_left _ _
  -- the user is counted once: kept as active, offboarded, or reported
  have htotal' : ∀ r : ProcessingResult, r.offboardedUsers.length + r.errors.length +
      (if (job.isUserActiveInLDAP userKey d).1 = .ok true then 1 else 0) =
        result.offboardedUsers.length + result.errors.length + 1 →
      r.offboardedUsers.length + r.errors.length + (job.checkUsers (done ++ [userKey])
        job.ldapState).1.countP (fun c => c.2 = .ok true) = (done ++ [userKey]).length := by
    intro r hr
    rw [hchecks, List.countP_append, List.countP_singleton, List.length_append,
      List.length_singleton]
    simp only [decide_eq_true_eq] at hr ⊢
    omega
  -- the user is reported: only the errors grow
  have hreport : ∀ err, (job.isUserActiveInLDAP userKey d).1 ≠ .ok true →
      job.Accounts (done ++ [userKey]) (result.addError err) := fun err hne =>
    ⟨hcount, hinactive.trans hsub, htotal' _ (by
      simp only [ProcessingResult.addError, List.length_append, List.length_singleton, if_neg hne]
      omega)⟩
  rw [processUsersStep_exec, hchecks]
  rcases hactive : (job.isUserActiveInLDAP userKey d).1 with err | _ | _
  · rw [processUser_exec_of_error job hactive]
    exact ⟨_, _, rfl, hreport _ (by simp [hactive])⟩
  · rcases hp : (job.processUser userKey d).1.exec w with ⟨err | _ | _, w'⟩
    · exact ⟨_, _, rfl, hreport err (by simp [hactive])⟩
    · exact absurd (by rw [hp]) (job.processUser_of_inactive hactive w)
    · -- the user is offboarded
      refine ⟨_, _, rfl, by simp [ProcessingResult.addOffboarded, hcount], ?_, htotal' _ (by
        simp only [ProcessingResult.addOffboarded, List.length_append, List.length_singleton,
          hactive, reduceCtorEq, Except.ok.injEq, Bool.false_eq_true, if_false]
        omega)⟩
      rw [hchecks]
      simp only [List.filter_append, List.filter_singleton, hactive, decide_True, cond_true,
        List.map_append, List.map_singleton]
      exact hinactive.append (List.Sublist.refl _)
  · -- the user is kept
    rw [processUser_exec_of_active job hactive]
    exact ⟨_, _, rfl, hcount, hinactive.trans hsub, htotal' _ (by rw [hactive, if_pos rfl])⟩

/-- The loop from any accounts keeps them, and never fails. -/
theorem accounts_foldlM : ∀ (userKeys done : List String) (result : ProcessingResult) (w : World σ),
    job.Accounts done result → ∃ result' w',
      (userKeys.foldlM job.processUsersStep (result, (job.checkUsers done job.ldapState).2)).exec w =
        (.ok (result', (job.checkUsers (done ++ userKeys) job.ldapState).2), w') ∧
        job.Accounts (done ++ userKeys) result'
  | [], done, result, w, h => ⟨result, w, by simp, by simpa using h⟩
  | userKey :: userKeys, done, result, w, h => by
    obtain ⟨result₁, w₁, hstep, h₁⟩ := h.step job userKey w
    obtain ⟨result', w', hfold, h'⟩ := accounts_foldlM userKeys _ result₁ w₁ h₁
    exact ⟨result', w', by simp [hstep, hfold], by simpa using h'⟩

/-- **`processUsers` accounts for every user.** Whatever LDAP answers, the loop over the users
never fails, and in its result each user was kept because LDAP reported it active, offboarded,
or reported as an error; only users LDAP reported inactive are offboarded, and each is counted
once. LDAP's answer about a user is the client's answer from the state the check before it
left. -/
theorem processUsers_accounts (userKeys : List String) (w : World σ) :
    ∃ result w', (job.processUsers userKeys).exec w = (.ok result, w') ∧
      job.Accounts userKeys result := by
  obtain ⟨result, w', hfold, h⟩ :=
    job.accounts_foldlM userKeys [] ⟨0, [], []⟩ w ⟨rfl, by simp, by simp⟩
  refine ⟨result, w', ?_, by simpa using h⟩
  simp only [processUsers, exec_map]
  rw [show ((⟨0, [], []⟩ : ProcessingResult), job.ldapState) =
    (⟨0, [], []⟩, (job.checkUsers [] job.ldapState).2) from rfl, hfold]

/-- When the LDAP client stays in states `Inv` where it cannot be asked about any user, the loop
reports each user and changes nothing. -/
theorem foldlM_processUsersStep_of_error {msg : String} {Inv : δ → Prop}
    (hcheck : ∀ k d, Inv d →
      (job.isUserActiveInLDAP k d).1 = .error msg ∧ Inv (job.isUserActiveInLDAP k d).2) :
    ∀ (userKeys : List String) (result : ProcessingResult) (d : δ) (w : World σ), Inv d →
      ∃ d', (userKeys.foldlM job.processUsersStep (result, d)).exec w =
        (.ok (⟨result.offboardedCount, result.offboardedUsers, result.errors ++
          userKeys.map fun k => "failed to check LDAP for user " ++ k ++ ": " ++ msg⟩, d'), w)
  | [], result, d, w, _ => ⟨d, by simp⟩
  | userKey :: userKeys, result, d, w, hd => by
    obtain ⟨herr, hd'⟩ := hcheck userKey d hd
    obtain ⟨d', hfold⟩ := foldlM_processUsersStep_of_error hcheck userKeys
      (result.addError ("failed to check LDAP for user " ++ userKey ++ ": " ++ msg)) _ w hd'
    refine ⟨d', ?_⟩
    rw [List.foldlM_cons, exec_bind, processUsersStep_exec, processUser_exec_of_error job herr]
    dsimp only
    rw [show (job.processUser userKey d).2 = (job.isUserActiveInLDAP userKey d).2 from rfl, hfold]
    simp [ProcessingResult.addError]

/-! ## Over the LDAP client -/

/-- A job with no backend client, whose map iteration visits `bob@x.com` first. -/
def exampleJob : UserOffboardingJob Unit Unit where
  getUserLDAPDataByEmail _ d := (.error .noUserFound, d)
  ldapState := ()
  backendClients := []
  iterate K := ["bob@x.com"].filter (· ∈ K)

/-- A cache that holds `bob@x.com`'s record, with no backend id. -/
def exampleWorld : World Unit :=
  ⟨{ Store.empty with user := ⟨(∅ : StringMap (StringMap String)).insert "bob@x.com" ∅⟩ },
    fun _ => (), []⟩

/-- The job with the LDAP client `l`, from the client's state `wl`: each lookup starts from the
state the lookup before it left, so a connection one lookup redials serves the next. -/
def withLdap (l : Ldap.LDAPConn τ) (wl : Ldap.World τ) : UserOffboardingJob σ (Ldap.World τ) :=
  ⟨l.lookup, wl, job.backendClients, job.iterate⟩

/-- **What `isUserActiveInLDAP` learns from the client.** From any state of the client, a user
is active exactly when the search finds an entry and the client is configured with some
attribute, inactive when the search finds nothing or the directory answers `NoSuchObject`, and
any other error is reported with its text. -/
theorem isUserActiveInLDAP_withLdap (l : Ldap.LDAPConn τ) (wl d : Ldap.World τ) (email : String) :
    ((job.withLdap l wl).isUserActiveInLDAP email d).1 =
      match ((l.getUserLDAPDataByEmail email).exec d).1 with
      | .ok _ => .ok (decide (l.attributes ≠ []))
      | .error .noUserFound => .ok false
      | .error err => .error err.text := by
  simp only [isUserActiveInLDAP, withLdap, Ldap.LDAPConn.lookup, Ldap.LDAPConn.lookupAt]
  rcases h : ((l.getUserLDAPDataByEmail email).exec d).1 with err | userData
  · have hclass := l.executeSearch_classify h
    rcases err with _ | (⟨resultCode, text⟩ | text) | text
    · rfl
    · by_cases h32 : resultCode = Ldap.ldapResultNoSuchObject
      · simp [Ldap.LdapErr.classify, h32] at hclass
      · simp [Ldap.LdapErr.classify, h32, Ldap.LdapErr.text]
    · rfl
    · rfl
  · obtain ⟨entry, rfl⟩ := l.executeSearch_ok h
    simp only [ne_eq, Ldap.sort_keys_parseLDAPEntry_eq_nil]

/-- **A client configured with no attribute offboards everyone.** It finds every user
inactive, those the directory knows included, so `processUsers` keeps no user: each is
offboarded or reported as an error. -/
theorem processUsers_noAttributes (l : Ldap.LDAPConn τ) (wl : Ldap.World τ)
    (hattrs : l.attributes = []) (userKeys : List String) (w : World σ) :
    ∃ result w', ((job.withLdap l wl).processUsers userKeys).exec w = (.ok result, w') ∧
      result.offboardedUsers.length + result.errors.length = userKeys.length := by
  obtain ⟨result, w', hrun, -, -, htotal⟩ := (job.withLdap l wl).processUsers_accounts userKeys w
  have hnone : ((job.withLdap l wl).checkUsers userKeys (job.withLdap l wl).ldapState).1.countP
      (fun c => c.2 = .ok true) = 0 := by
    rw [List.countP_eq_zero]
    intro c hc
    obtain ⟨d, hd⟩ := (job.withLdap l wl).answer_of_mem_checkUsers hc
    rw [hd, isUserActiveInLDAP_withLdap]
    split <;> simp [hattrs]
  rw [hnone, Nat.add_zero] at htotal
  exact ⟨result, w', hrun, htotal⟩

/-- `exampleServer` finds `bob@x.com`, and a client of it with no attribute configured still
has the job keep nobody. -/
theorem processUsers_noAttributes_exampleConn :
    (Ldap.exampleConn []).attributes = [] ∧
      ∃ result w', ((exampleJob.withLdap (Ldap.exampleConn []) ⟨some false, ()⟩).processUsers
          ["bob@x.com"]).exec exampleWorld = (.ok result, w') ∧
        result.offboardedUsers.length + result.errors.length = ["bob@x.com"].length :=
  ⟨rfl, exampleJob.processUsers_noAttributes _ _ rfl _ _⟩

/-- **With no connection, a run changes nothing.** When the client cannot give a connection, no
connection or a closing one that the directory refuses to redial, every lookup of the run fails
and leaves the client so: the run calls no backend and writes nothing to the cache, and it fails
exactly when the cache lists a user. -/
theorem run_noConnection (l : Ldap.LDAPConn τ) (wl : Ldap.World τ) (hconn : l.CannotConnect wl)
    (w : World σ) :
    ((job.withLdap l wl).run.exec w).2 = w ∧
      (((job.withLdap l wl).run.exec w).1 = .ok () ↔ (job.getUserListFromCache.exec w).1 = .ok []) := by
  -- each lookup fails and leaves the client unable to connect
  have hcheck : ∀ k d, l.CannotConnect d →
      ((job.withLdap l wl).isUserActiveInLDAP k d).1 = .error "LDAP connection is nil" ∧
        l.CannotConnect ((job.withLdap l wl).isUserActiveInLDAP k d).2 := fun k d hd => by
    obtain ⟨herr, hd'⟩ := l.lookup_of_cannotConnect hd k
    simp only [isUserActiveInLDAP, withLdap, herr]
    exact ⟨trivial, hd'⟩
  obtain ⟨d', hfold⟩ := (job.withLdap l wl).foldlM_processUsersStep_of_error hcheck
    ((job.iterate w.store.user.entries.keys).filter fun user => !"groups:".data.isPrefixOf user.data)
    ⟨0, [], []⟩ wl w hconn
  -- one error for each user the cache lists, and the world as it was
  simp only [run, processUsers, getUserListFromCache, withLdap, exec_bind, exec_getStore,
    exec_pure, exec_map] at hfold ⊢
  rw [hfold]
  by_cases hnil : (job.iterate w.store.user.entries.keys).filter
    (fun user => !"groups:".data.isPrefixOf user.data) = [] <;> simp [hnil]

/-- A closing connection to `exampleServer`, which refuses every new one: the run leaves the
cache with `bob@x.com`'s record, and fails. -/
theorem run_noConnection_exampleConn :
    (Ldap.exampleConn ["mail"]).CannotConnect ⟨some true, ()⟩ ∧
      ((exampleJob.withLdap (Ldap.exampleConn ["mail"]) ⟨some true, ()⟩).run.exec exampleWorld).2 =
          exampleWorld ∧
        (((exampleJob.withLdap (Ldap.exampleConn ["mail"]) ⟨some true, ()⟩).run.exec
          exampleWorld).1 = .ok () ↔ (exampleJob.getUserListFromCache.exec exampleWorld).1 = .ok []) :=
  have hconn : (Ldap.exampleConn ["mail"]).CannotConnect ⟨some true, ()⟩ :=
    .inr ⟨rfl, fun _ => ⟨_, rfl⟩⟩
  ⟨hconn, exampleJob.run_noConnection (Ldap.exampleConn ["mail"]) ⟨some true, ()⟩ hconn exampleWorld⟩

end UserOffboardingJob

end Usernaut
