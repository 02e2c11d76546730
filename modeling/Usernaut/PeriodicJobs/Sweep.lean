import Usernaut.PeriodicJobs.Offboarding
import Usernaut.Controller.Frame

/-!
# The offboarding sweep, step by step

`UserOffboardingJob.Run` holds the cache mutex only in places: the read lock to list the users
and to read a user's record, the write lock to delete the record, and nothing across the LDAP
queries and the `DeleteUser` calls. A reconcile holds the write lock for its whole cache-touching
region. So a sweep interleaves with reconciles at the boundaries of these regions.

`Sweep` is where the sweep stands between two of its atomic steps, and `Sweep.step` is one step:
the user list, one LDAP check, the read of one record, one `DeleteUser`, or the delete of one
record. Each state carries the LDAP client's state, which an LDAP check reads and leaves for the
next. Taken one after another with nothing in between, the steps compute `Run`
(`reaches_run`). `interleave` runs the sweep's steps and atomic reconciles in any order.

Between the read of a user's record and its delete, a reconcile may give the user a new backend
id. The sweep then deletes the record, new id included, without having deleted that account: the
mapping is lost (`interleave_lostMapping`).

## Main definitions

* `Sweep`, `Sweep.step`: the sweep as a sequence of atomic steps.
* `Sweep.Reaches`: the states the sweep reaches by its own steps.
* `Turn`, `interleave`: a schedule of sweep steps and reconciles.

## Main results

* `reaches_processUsersStep`: the steps of one user compute one pass of `processUsers`.
* `reaches_run`: the sweep's steps from the start compute `Run`.
* `interleave_lostMapping`: a reconcile between the read and the delete of a record loses a
  mapping the sweep did not offboard.
-/

namespace Usernaut

open UserOffboardingJob

variable {σ : Type}

/-- `processingResult` with one more error. -/
def ProcessingResult.addError (result : ProcessingResult) (err : String) : ProcessingResult :=
  { result with errors := result.errors ++ [err] }

/-- `processingResult` with one more offboarded user. -/
def ProcessingResult.addOffboarded (result : ProcessingResult) (userKey : String) :
    ProcessingResult :=
  { result with offboardedCount := result.offboardedCount + 1,
                offboardedUsers := result.offboardedUsers ++ [userKey] }

/-- Where the offboarding sweep stands between two of its atomic steps. `userKeys` are the users
still to process after the current one, `result` what `processUsers` has collected, and `d` the
LDAP client's state. -/
inductive Sweep (σ δ : Type)
  /-- Before `getUserListFromCache`. -/
  | start
  /-- Before the LDAP check of the first of `userKeys`. -/
  | next (userKeys : List String) (result : ProcessingResult) (d : δ)
  /-- LDAP reported `userKey` inactive; before `getUserDataFromCache`. -/
  | read (userKey : String) (userKeys : List String) (result : ProcessingResult) (d : δ)
  /-- Before the `DeleteUser` calls of `clients`, with the `errors` of the calls so far. -/
  | offboard (userKey userEmail : String) (userData : StringMap String)
      (clients : List (Backend × Client σ)) (errors : List String) (userKeys : List String)
      (result : ProcessingResult) (d : δ)
  /-- Every `DeleteUser` succeeded; before `User.Delete(userEmail)`. -/
  | delete (userKey userEmail : String) (userKeys : List String) (result : ProcessingResult) (d : δ)
  /-- The sweep is over. -/
  | finished (result : ProcessingResult)

namespace Sweep

variable {δ : Type} (job : UserOffboardingJob σ δ)

/-- One atomic step of the sweep. -/
def step : Sweep σ δ → ReconcileM σ (Sweep σ δ)
  | start => do return next (← job.getUserListFromCache) ⟨0, [], []⟩ job.ldapState
  | next [] result _ => pure (finished result)
  | next (userKey :: userKeys) result d => pure <|
    let check := job.isUserActiveInLDAP userKey d
    match check.1 with
    | .error err => next userKeys
      (result.addError ("failed to check LDAP for user " ++ userKey ++ ": " ++ err)) check.2
    | .ok true => next userKeys result check.2
    | .ok false => read userKey userKeys result check.2
  | read userKey userKeys result d =>
    tryCatch
      (do
        let (userData, userEmail) ← job.getUserDataFromCache userKey
        pure (offboard userKey userEmail userData job.backendClients [] userKeys result d))
      fun err => pure (next userKeys (result.addError ("failed to offboard user " ++ userKey ++
        ": " ++ ("failed to get user data from cache: " ++ err))) d)
  | offboard userKey userEmail userData (client :: clients) errors userKeys result d => do
    let errors ← offboardBackendStep userData errors client
    pure (offboard userKey userEmail userData clients errors userKeys result d)
  | offboard userKey userEmail _ [] errors userKeys result d => pure <|
    if errors ≠ [] then
      next userKeys (result.addError ("failed to offboard user " ++ userKey ++ ": " ++
        ("failed to offboard user " ++ userKey ++ " from backends: " ++
          ("failed to remove user from some backends: [" ++ " ".intercalate errors ++ "]")))) d
    else delete userKey userEmail userKeys result d
  | delete userKey userEmail userKeys result d => do
    modifyStore fun s => { s with user := s.user.delete userEmail }
    pure (next userKeys (result.addOffboarded userKey) d)
  | finished result => pure (finished result)

/-- The sweep and the world after one step of the sweep. -/
def advance (c : Sweep σ δ × World σ) : Sweep σ δ × World σ :=
  match (c.1.step job).exec c.2 with
  | (.ok sw, w) => (sw, w)
  | (.error _, w) => (c.1, w)

/-- `c'` is reached from `c` by steps of the sweep alone. -/
def Reaches (c c' : Sweep σ δ × World σ) : Prop :=
  Relation.ReflTransGen (fun c c' => c' = advance job c) c c'

theorem Reaches.step {c c' : Sweep σ δ × World σ} (h : (c.1.step job).exec c.2 = (.ok c'.1, c'.2)) :
    Reaches job c c' :=
  .single (by simp [advance, h])

end Sweep

namespace UserOffboardingJob

/-- A pass of `offboardUserFromAllBackends`' loop never fails: a failed `DeleteUser` is only
recorded. -/
theorem offboardBackendStep_succeeds (userData : StringMap String) (errors : List String)
    (client : Backend × Client σ) : Succeeds (offboardBackendStep userData errors client) := by
  unfold offboardBackendStep
  dsimp only
  split
  · exact Succeeds.pure' _
  refine Succeeds.ite' (Succeeds.pure' _) ?_
  split
  · exact Succeeds.pure' _
  · exact Succeeds.tryCatch' fun _ => Succeeds.pure' _

end UserOffboardingJob

open Sweep

section Refinement

variable {δ : Type} (job : UserOffboardingJob σ δ)

/-- The `DeleteUser` steps of one user compute `offboardUserFromAllBackends`' loop. -/
theorem reaches_offboard (userKey userEmail : String) (userData : StringMap String)
    (userKeys : List String) (result : ProcessingResult) (d : δ) :
    ∀ (clients : List (Backend × Client σ)) (errors : List String) (w : World σ),
      ∃ errors' w', (clients.foldlM (offboardBackendStep userData) errors).exec w =
          (.ok errors', w') ∧
        Reaches job (offboard userKey userEmail userData clients errors userKeys result d, w)
          (offboard userKey userEmail userData [] errors' userKeys result d, w')
  | [], errors, w => ⟨errors, w, rfl, .refl⟩
  | client :: clients, errors, w => by
    obtain ⟨errors₁, hstep⟩ := offboardBackendStep_succeeds userData errors client w
    rcases hx : (offboardBackendStep userData errors client).exec w with ⟨_ | errors₁', w₁⟩
    · simp [hx] at hstep
    obtain ⟨errors', w', hfold, hreach⟩ :=
      reaches_offboard userKey userEmail userData userKeys result d clients errors₁' w₁
    refine ⟨errors', w', by simpa [hx] using hfold, .head ?_ hreach⟩
    simp [advance, step, hx]

/-- The steps of one user compute one pass of `processUsers`' loop, LDAP client state
included. -/
theorem reaches_processUsersStep (userKey : String) (userKeys : List String)
    (result : ProcessingResult) (d : δ) (w : World σ) :
    ∃ acc w', (job.processUsersStep (result, d) userKey).exec w = (.ok acc, w') ∧
      Reaches job (next (userKey :: userKeys) result d, w) (next userKeys acc.1 acc.2, w') := by
  set d' := (job.isUserActiveInLDAP userKey d).2
  rcases hactive : (job.isUserActiveInLDAP userKey d).1 with err | _ | _
  · exact ⟨(result.addError ("failed to check LDAP for user " ++ userKey ++ ": " ++ err), d'), w,
      by simp [processUsersStep, processUser, hactive, ProcessingResult.addError, d'],
      Reaches.step job (by simp [step, hactive, d'])⟩
  · have hread : Reaches job (next (userKey :: userKeys) result d, w)
        (read userKey userKeys result d', w) :=
      Reaches.step job (by simp [step, hactive, d'])
    simp only [processUsersStep, processUser, hactive]
    rcases hpick : (job.iterate (matchingEmails w.store.user userKey)).head? with _ | userEmail
    · refine ⟨(result.addError ("failed to offboard user " ++ userKey ++ ": " ++
        ("failed to get user data from cache: " ++ ("No user found with username: " ++ userKey))), d'),
        w, ?_, hread.trans (Reaches.step job ?_)⟩
      · simp [offboardUser, getUserDataFromCache_exec, hpick, ProcessingResult.addError, d']
      · simp [step, getUserDataFromCache_exec, hpick]
    obtain ⟨errors', w', hfold, hreach⟩ := reaches_offboard job userKey userEmail
      (w.store.user.getBackends userEmail) userKeys result d' job.backendClients [] w
    have hoff : Reaches job (read userKey userKeys result d', w) (offboard userKey userEmail
        (w.store.user.getBackends userEmail) job.backendClients [] userKeys result d', w) :=
      Reaches.step job (by simp [step, getUserDataFromCache_exec, hpick])
    by_cases herr : errors' = []
    · subst herr
      have hdelete : Reaches job (offboard userKey userEmail (w.store.user.getBackends userEmail) []
          [] userKeys result d', w') (delete userKey userEmail userKeys result d', w') :=
        Reaches.step job (by simp [step])
      refine ⟨(result.addOffboarded userKey, d'),
        { w' with store := { w'.store with user := w'.store.user.delete userEmail } }, ?_,
        hread.trans (hoff.trans (hreach.trans (hdelete.trans (Reaches.step job (by simp [step])))))⟩
      simp [offboardUser, getUserDataFromCache_exec, hpick, offboardUserFromAllBackends, hfold,
        ProcessingResult.addOffboarded, d']
    · refine ⟨(result.addError ("failed to offboard user " ++ userKey ++ ": " ++
        ("failed to offboard user " ++ userKey ++ " from backends: " ++
          ("failed to remove user from some backends: [" ++ " ".intercalate errors' ++ "]"))), d'),
        w', ?_, hread.trans (hoff.trans (hreach.trans (Reaches.step job (by simp [step, herr]))))⟩
      simp [offboardUser, getUserDataFromCache_exec, hpick, offboardUserFromAllBackends, hfold, herr,
        ProcessingResult.addError, d']
  · exact ⟨(result, d'), w, by simp [processUsersStep, processUser, hactive, d'],
      Reaches.step job (by simp [step, hactive, d'])⟩

/-- The steps of every user in turn compute the loop of `processUsers`. -/
theorem reaches_processUsers :
    ∀ (userKeys : List String) (result : ProcessingResult) (d : δ) (w : World σ),
      ∃ acc w', (userKeys.foldlM job.processUsersStep (result, d)).exec w = (.ok acc, w') ∧
        Reaches job (next userKeys result d, w) (next [] acc.1 acc.2, w')
  | [], result, d, w => ⟨(result, d), w, rfl, .refl⟩
  | userKey :: userKeys, result, d, w => by
    obtain ⟨acc₁, w₁, hstep, hreach⟩ := reaches_processUsersStep job userKey userKeys result d w
    obtain ⟨acc', w', hfold, hreach'⟩ := reaches_processUsers userKeys acc₁.1 acc₁.2 w₁
    exact ⟨acc', w', by simp [hstep, hfold], hreach.trans hreach'⟩

/-- The sweep's steps from the start, with nothing in between, compute `Run`: they end in the
world `Run` leaves, with errors exactly when `Run` returns one. -/
theorem reaches_run (w : World σ) :
    ∃ result, Reaches job (start, w) (finished result, (job.run.exec w).2) ∧
      ((job.run.exec w).1 = .ok () ↔ result.errors = []) := by
  obtain ⟨⟨result, d⟩, w', hfold, hreach⟩ := reaches_processUsers job
    ((job.iterate w.store.user.entries.keys).filter fun user => !"groups:".data.isPrefixOf user.data)
    ⟨0, [], []⟩ job.ldapState w
  have hrun : job.run.exec w = (if result.errors ≠ [] then .error ("user offboarding completed with " ++
      toString result.errors.length ++ " errors: [" ++ " ".intercalate result.errors ++ "]")
      else .ok (), w') := by
    simp only [run, getUserListFromCache, processUsers, exec_bind, exec_getStore, exec_pure,
      exec_map, hfold]
    split_ifs <;> rfl
  refine ⟨result, ?_, by rw [hrun]; split_ifs <;> simp_all⟩
  rw [hrun]
  exact (Reaches.step job (by simp [step, getUserListFromCache])).trans
    (hreach.trans (Reaches.step job (by simp [step])))

end Refinement

/-- Who takes the next atomic step: the sweep, or a reconcile of the Group named `name` against
the cluster and outside world `env`. -/
inductive Turn (σ : Type)
  | sweep
  | reconcile (env : Env σ) (name : String)

/-- The sweep state and the world after the turns of `schedule`, from `c`. -/
def interleave {δ : Type} (job : UserOffboardingJob σ δ) :
    List (Turn σ) → Sweep σ δ × World σ → Sweep σ δ × World σ
  | [], c => c
  | .sweep :: schedule, c => interleave job schedule (advance job c)
  | .reconcile env name :: schedule, c =>
    interleave job schedule (c.1, ((GroupReconciler.reconcile env name).exec c.2).2)

/-- What the sweep reaches by its own steps, a schedule of sweep turns reaches. -/
theorem Sweep.Reaches.exists_interleave {δ : Type} {job : UserOffboardingJob σ δ}
    {c c' : Sweep σ δ × World σ}
    (h : Reaches job c c') : ∃ n, interleave job (List.replicate n .sweep) c = c' := by
  induction h using Relation.ReflTransGen.head_induction_on with
  | refl => exact ⟨0, rfl⟩
  | head hstep _ ih =>
    obtain ⟨n, hn⟩ := ih
    exact ⟨n + 1, by rw [List.replicate_succ, interleave, ← hstep, hn]⟩

/-- A schedule of sweep turns alone computes `Run`. -/
theorem interleave_sweeps_run {δ : Type} (job : UserOffboardingJob σ δ) (w : World σ) :
    ∃ n result, interleave job (List.replicate n .sweep) (.start, w) =
      (.finished result, (job.run.exec w).2) ∧ ((job.run.exec w).1 = .ok () ↔ result.errors = []) := by
  obtain ⟨result, hreach, herr⟩ := reaches_run job w
  obtain ⟨n, hn⟩ := hreach.exists_interleave
  exact ⟨n, result, hn, herr⟩

/-- `e` is a `DeleteUser` call with the id `userID`. -/
def Event.deletesUser (userID : String) : Event → Bool
  | .backend _ (.deleteUser id _) => id == userID
  | _ => false

/-- A backend client that gives a new user the id `U2`; every call succeeds. -/
def newUserClient : Client Unit :=
  { succeedingClient with createUser := fun _ user _ => (.ok { user with id := "U2" }, ()) }

/-- `bob@x.com` has the account `U1` on `ftA`. -/
def lostMappingStore : Store :=
  { Store.empty with
    user := ⟨(∅ : StringMap (StringMap String)).insert "bob@x.com"
      ((∅ : StringMap String).insert "ftA_fivetran" "U1")⟩ }

/-- LDAP no longer knows any email, and the job has clients for `ftA` and `ftB`. -/
def lostMappingJob : UserOffboardingJob Unit Unit where
  getUserLDAPDataByEmail _ d := (.error .noUserFound, d)
  ldapState := ()
  backendClients := [(⟨"ftA", "fivetran"⟩, newUserClient), (⟨"ftB", "fivetran"⟩, newUserClient)]
  iterate K := ["bob@x.com"].filter (· ∈ K)

/-- The Group `g1` lists the username `bob`, whom LDAP resolves to `bob@x.com`, on `ftB`. -/
def lostMappingEnv : Env Unit where
  groups := ⟨[{ metadata := ⟨"g1", "g1-uid", 1, none, [], [], []⟩
                spec := ⟨"g1", ⟨["bob"], []⟩, [⟨"ftB", "fivetran"⟩], []⟩
                status := ⟨[], [], []⟩ }]⟩
  update _ := .ok ()
  updateStatus _ := .ok ()
  backendMap := ∅
  transform _ groupName := .ok groupName
  ldap _ := .ok ⟨"bob@x.com", "Bob", "B"⟩
  newClient _ _ := .ok newUserClient
  forceReconcileLabel := "operator.dataverse.redhat.com/force-reconcile"
  accountReviewerRole := "reviewer"

/-- The sweep reads the record of `bob@x.com`, a reconcile of `g1` then creates `bob@x.com` on
`ftB` and records the id `U2`, and the sweep goes on: it deletes `U1` on `ftA`, skips `ftB`, for
which the record it read had no id, and deletes the record. The mapping `ftB_fivetran ↦ U2` is
gone, `U2` was never passed to `DeleteUser`, and the sweep reports `bob@x.com` offboarded. -/
theorem interleave_lostMapping :
    let w₀ : World Unit := ⟨lostMappingStore, fun _ => (), []⟩
    let read := interleave lostMappingJob [.sweep, .sweep, .sweep] (.start, w₀)
    let written := interleave lostMappingJob [.reconcile lostMappingEnv "g1"] read
    let finished := interleave lostMappingJob (List.replicate 5 .sweep) written
    ((read.2.store.user.getBackends "bob@x.com").lookup "ftB_fivetran").isNone ∧
      (written.2.store.user.getBackends "bob@x.com").lookup "ftB_fivetran" = some "U2" ∧
      ((finished.2.store.user.getBackends "bob@x.com").lookup "ftB_fivetran").isNone ∧
      finished.2.events.filter (·.deletesUser "U2") = [] ∧
      finished.1 = .finished ⟨1, ["bob@x.com"], []⟩ :=
  ⟨by decide, by decide, by decide, by decide, rfl⟩

end Usernaut
