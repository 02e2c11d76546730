import Usernaut.Controller.Effects
import Mathlib.Data.List.Infix

/-!
# The user offboarding job

`UserOffboardingJob.Run` (`periodicjobs/job_usernaut_offboarding.go`): list the emails of the
user records, ask LDAP about each, and offboard each inactive one: find its record with the glob
`*userKey*`, call `DeleteUser` on every configured backend other than GitLab and Rover for which
the record holds an id, and delete the record.

The job runs against the same cache and backends as the reconciler, so it runs in
`ReconcileM` too. The Go runtime iterates a map in an unspecified order; `iterate K` is the
order in which a `range` over a map with the keys `K` visits them, and every theorem about the
job holds for every `iterate`. The LDAP client keeps its connection from one lookup to the next:
its state `δ` is carried through the loop over the users, from `ldapState`.

`getUserDataFromCache` returns the first record, in that order, whose email contains the user
key. Another email that contains the key, such as `jimbob@x.com` for `bob@x.com`, can come
first, and the job then deletes that user's backend accounts and record instead
(`run_substringEmail_offboardsOther`).

The loop of `offboardUserFromAllBackends` runs over the configured backend clients, not over the
record. An id the record holds under a key that no client has is never passed to `DeleteUser`,
and the record, the only pointer to that account, is deleted with no error
(`run_unconfiguredBackend_dropsMapping`); `offboardUser_ok` says what a successful offboarding
does guarantee.

## Main definitions

* `UserOffboardingJob`: the job's LDAP client and its state, backend clients and map iteration
  order.
* `UserOffboardingJob.offboardUser`, `UserOffboardingJob.processUser`, `UserOffboardingJob.run`.

## Main results

* `offboardUserFromAllBackends_moves`: the backend phase deletes only ids of the record it was
  given, and writes nothing to the cache.
* `offboardUser_exec`: offboarding a user deletes only ids of the record it picked, and then only
  that record.
* `offboardUser_ok`: a successful offboarding deleted the record it picked only after `DeleteUser`
  succeeded on every configured client whose type is not skipped and for which the record has
  an id.
* `mem_matchingEmails_of_pick`, `offboardUser_of_unique`: the record picked is one whose email
  contains the user key, and the user's own when no other email contains it.
-/

namespace Usernaut

variable {σ : Type}

/-- How `GetUserLDAPDataByEmail` fails. -/
inductive LDAPError
  /-- `ldap.ErrNoUserFound`. -/
  | noUserFound
  /-- A `*goldap.Error` whose result code is `LDAPResultNoSuchObject`. -/
  | noSuchObject
  /-- Any other error. -/
  | other (msg : String)
  deriving DecidableEq

/-- `strings.Split(s, "_")` on the characters of `s`: the pieces between the underscores. -/
def splitUnderscore (s : List Char) : List (List Char) :=
  s.foldr (fun c parts => if c = '_' then [] :: parts else
    match parts with
    | part :: parts => (c :: part) :: parts
    | [] => [[c]]) [[]]

/-- The backend type `offboardUserFromAllBackends` reads from a client key `{name}_{type}`: the
last `_`-separated part, lower-cased, or nothing when the key has no `_`. Lower-casing is
ASCII's: Go's `strings.ToLower` follows Unicode's case tables, and the two agree on a key of
ASCII characters. -/
def backendTypeOfKey (key : String) : Option String :=
  let parts := splitUnderscore key.data
  if parts.length < 2 then none else some ⟨(parts.getLastD []).map Char.toLower⟩

/-- `skippedBackendTypes`. -/
def skippedBackendTypes : List String := ["gitlab", "rover"]

/-- `processingResult`. -/
structure ProcessingResult where
  offboardedCount : Nat
  offboardedUsers : List String
  errors : List String
  deriving DecidableEq

/-- `UserOffboardingJob`: its LDAP client, its backend clients, and the order in which the Go
runtime iterates maps. The LDAP client has a state `δ`, its connection, that each lookup reads
and may change; the cache and its mutex are the world's. -/
structure UserOffboardingJob (σ δ : Type) where
  /-- `ldapClient.GetUserLDAPDataByEmail` from the client's state: the names of the user's
  attributes, or the error, and the client's state afterwards. -/
  getUserLDAPDataByEmail : String → δ → Except LDAPError (List String) × δ
  /-- The LDAP client's state when the job runs. -/
  ldapState : δ
  /-- `backendClients`, each under the key `{name}_{type}` of its backend, in iteration order. -/
  backendClients : List (Backend × Client σ)
  /-- The order in which a `range` over a map with the keys `K` visits them. -/
  iterate : Finset String → List String

namespace UserOffboardingJob

variable {δ : Type} (job : UserOffboardingJob σ δ)

/-- `getUserListFromCache`: the emails of the user records, in iteration order, without keys
under `groups:` (`strings.HasPrefix`, on the characters). `User.GetByPattern("*")` is modelled
from the spec, as the map of every user record by email: the store's implementation is not in
the repository's sources. -/
def getUserListFromCache : ReconcileM σ (List String) := do
  let userMap := (← getStore).user.entries.keys
  return (job.iterate userMap).filter fun user => !"groups:".data.isPrefixOf user.data

/-- `User.GetByPattern("*" ++ userKey ++ "*")`: the emails of the user records that contain
`userKey`, which is what the glob matches for a key without the glob's special characters.
Modelled from the spec (`GetByPattern(substring)`), like `getUserListFromCache`. -/
def matchingEmails (s : UserStore) (userKey : String) : Finset String :=
  s.entries.keys.filter fun email => userKey.data <:+: email.data

/-- `getUserDataFromCache`: the first match in iteration order, with its backend ids. -/
def getUserDataFromCache (userKey : String) : ReconcileM σ (StringMap String × String) := do
  let s := (← getStore).user
  match (job.iterate (matchingEmails s userKey)).head? with
  | some email => return (s.getBackends email, email)
  | none => throw ("No user found with username: " ++ userKey)

/-- `isUserActiveInLDAP`, with the LDAP client in the state `d`: a user LDAP does not know, or
knows with no attributes, is inactive. The client's state after the lookup comes with the
answer. -/
def isUserActiveInLDAP (userEmail : String) (d : δ) : Except String Bool × δ :=
  let lookup := job.getUserLDAPDataByEmail userEmail d
  (match lookup.1 with
    | .error .noUserFound => .ok false
    | .error .noSuchObject => .ok false
    | .error (.other err) => .error err
    | .ok userData => .ok (userData ≠ []), lookup.2)

/-- One pass of `offboardUserFromAllBackends`' loop over the backend clients: skip a key without
a type, a skipped type, and a backend the record has no id for; otherwise `DeleteUser`, and
record its failure. -/
def offboardBackendStep (userData : StringMap String) (errors : List String)
    (client : Backend × Client σ) : ReconcileM σ (List String) :=
  let key := backendKey client.1.name client.1.type
  match backendTypeOfKey key with
  | none => pure errors
  | some backendType =>
    if backendType ∈ skippedBackendTypes then pure errors
    else match userData.lookup key with
      | none => pure errors
      | some userIDStr =>
        tryCatch
          (do
            callBackend client.1 (client.2.deleteUser userIDStr) (.deleteUser userIDStr)
            pure errors)
          fun err => pure (errors ++ ["backend " ++ key ++ ": " ++ err])

/-- `offboardUserFromAllBackends`: an error when some `DeleteUser` failed. -/
def offboardUserFromAllBackends (userData : StringMap String) : ReconcileM σ Unit := do
  let errors ← job.backendClients.foldlM (offboardBackendStep userData) []
  if errors ≠ [] then
    throw ("failed to remove user from some backends: [" ++ " ".intercalate errors ++ "]")

/-- `offboardUser`: find the record, offboard it from the backends, then delete it. -/
def offboardUser (userKey : String) : ReconcileM σ Unit := do
  let (userData, userEmail) ← tryCatch (job.getUserDataFromCache userKey) fun err =>
    throw ("failed to get user data from cache: " ++ err)
  tryCatch (job.offboardUserFromAllBackends userData) fun err =>
    throw ("failed to offboard user " ++ userKey ++ " from backends: " ++ err)
  modifyStore fun s => { s with user := s.user.delete userEmail }

/-- `processUser`, with the LDAP client in the state `d`: `true` when the user was inactive and
has been offboarded. The LDAP check comes first; the rest of the work is paired with the
client's state after it, which the work does not touch. -/
def processUser (userKey : String) (d : δ) : ReconcileM σ Bool × δ :=
  let check := job.isUserActiveInLDAP userKey d
  (match check.1 with
    | .error err => throw ("failed to check LDAP for user " ++ userKey ++ ": " ++ err)
    | .ok true => pure false
    | .ok false =>
      tryCatch (do job.offboardUser userKey; pure true) fun err =>
        throw ("failed to offboard user " ++ userKey ++ ": " ++ err), check.2)

/-- One pass of `processUsers`' loop, with the LDAP client's state. -/
def processUsersStep (acc : ProcessingResult × δ) (userKey : String) :
    ReconcileM σ (ProcessingResult × δ) := do
  let result := acc.1
  let process := job.processUser userKey acc.2
  let result ← tryCatch
    (do
      let offboarded ← process.1
      pure (if offboarded then
        { result with offboardedCount := result.offboardedCount + 1,
                      offboardedUsers := result.offboardedUsers ++ [userKey] }
        else result))
    fun err => pure { result with errors := result.errors ++ [err] }
  return (result, process.2)

/-- `processUsers`, from the LDAP client's state when the job runs. -/
def processUsers (userKeys : List String) : ReconcileM σ ProcessingResult :=
  Prod.fst <$> userKeys.foldlM job.processUsersStep (⟨0, [], []⟩, job.ldapState)

/-- `Run`: an error when some user could not be processed. -/
def run : ReconcileM σ Unit := do
  let userKeys ← job.getUserListFromCache
  let result ← job.processUsers userKeys
  if result.errors ≠ [] then
    throw ("user offboarding completed with " ++ toString result.errors.length ++ " errors: [" ++
      " ".intercalate result.errors ++ "]")

end UserOffboardingJob

/-- Between `w` and `w'` the cache is as it was, and every new event is a `DeleteUser` of an id
that `userData` holds for the backend called. -/
def deletesFrom (userData : StringMap String) : WorldOrder σ :=
  (WorldOrder.appends fun e => ∃ b id answer, e = .backend b (.deleteUser id answer) ∧
    userData.lookup (backendKey b.name b.type) = some id).inter
  { rel := fun w w' => w'.store = w.store
    refl := fun _ => rfl
    trans := fun h h' => h'.trans h }

namespace UserOffboardingJob

variable {δ : Type} (job : UserOffboardingJob σ δ)

/-- The backend phase of offboarding calls `DeleteUser` only with ids of the record it was given,
each on the backend the id is recorded for, and writes nothing to the cache. -/
theorem offboardUserFromAllBackends_moves (userData : StringMap String) :
    Moves (deletesFrom userData) (job.offboardUserFromAllBackends userData) := by
  refine Moves.bind' (Moves.foldlM' (fun errors client _ => ?_) _)
    fun _ => Moves.ite' (Moves.throw' _) (Moves.pure' _)
  unfold offboardBackendStep
  dsimp only
  split
  · exact Moves.pure' _
  refine Moves.ite' (Moves.pure' _) ?_
  split
  · exact Moves.pure' _
  rename_i userIDStr hlookup
  exact Moves.tryCatch' (Moves.bind' (Moves.callBackend' fun _ _ _ =>
    ⟨⟨[_], rfl, by simpa using ⟨_, _, ⟨rfl, rfl⟩, hlookup⟩⟩, rfl⟩) fun _ => Moves.pure' _)
    fun _ => Moves.pure' _

theorem getUserDataFromCache_exec (userKey : String) (w : World σ) :
    (job.getUserDataFromCache userKey).exec w =
      match (job.iterate (matchingEmails w.store.user userKey)).head? with
      | some email => (.ok (w.store.user.getBackends email, email), w)
      | none => (.error ("No user found with username: " ++ userKey), w) := by
  unfold getUserDataFromCache
  simp only [exec_bind, exec_getStore]
  split <;> rfl

/-- The clients whose backend `offboardUserFromAllBackends` must remove `userData`'s user from:
a key `{name}_{type}` whose type is not skipped, and an id in the record under that key. -/
def Offboards (userData : StringMap String) (c : Backend × Client σ) (id : String) : Prop :=
  ∃ ty, backendTypeOfKey (backendKey c.1.name c.1.type) = some ty ∧ ty ∉ skippedBackendTypes ∧
    userData.lookup (backendKey c.1.name c.1.type) = some id

/-- One pass of the backend loop only appends events and errors, and when it adds no error, a
client it must offboard the user from has had `DeleteUser` succeed on the record's id. -/
theorem offboardBackendStep_ok {userData : StringMap String} {errors errors' : List String}
    {c : Backend × Client σ} {w w' : World σ}
    (h : (offboardBackendStep userData errors c).exec w = (.ok errors', w')) :
    errors <+: errors' ∧ w.events <+: w'.events ∧ (errors' = errors → ∀ id,
      Offboards userData c id → Event.backend c.1 (.deleteUser id (.ok ())) ∈ w'.events) := by
  unfold offboardBackendStep at h
  dsimp only at h
  split at h
  · simp only [exec_pure, Prod.mk.injEq, Except.ok.injEq] at h
    obtain ⟨rfl, rfl⟩ := h
    refine ⟨List.prefix_refl _, List.prefix_refl _, fun _ _ ⟨ty, hty, _⟩ => ?_⟩
    simp_all
  rename_i ty hty
  split_ifs at h with hskip
  · simp only [exec_pure, Prod.mk.injEq, Except.ok.injEq] at h
    obtain ⟨rfl, rfl⟩ := h
    refine ⟨List.prefix_refl _, List.prefix_refl _, fun _ _ ⟨ty', hty', hskip', _⟩ => ?_⟩
    simp_all
  split at h
  · simp only [exec_pure, Prod.mk.injEq, Except.ok.injEq] at h
    obtain ⟨rfl, rfl⟩ := h
    refine ⟨List.prefix_refl _, List.prefix_refl _, fun _ _ ⟨_, _, _, hid⟩ => ?_⟩
    simp_all
  rename_i id hid
  simp only [exec_tryCatch, exec_bind, exec_callBackend] at h
  rcases hd : (c.2.deleteUser id (w.backends c.1)).1 with err | ⟨⟩ <;>
    simp only [hd, exec_pure, Prod.mk.injEq, Except.ok.injEq] at h <;> obtain ⟨rfl, rfl⟩ := h
  · refine ⟨List.prefix_append _ _, List.prefix_append _ _, fun heq => ?_⟩
    simp at heq
  · refine ⟨List.prefix_refl _, List.prefix_append _ _, fun _ id' ⟨_, _, _, hid'⟩ => ?_⟩
    rw [hid] at hid'
    cases hid'
    simp [hd]

end UserOffboardingJob

/-- A backend client whose every call succeeds. -/
def succeedingClient : Client Unit where
  createTeam _ team _ := (.ok { team with id := "1" }, ())
  createUser _ user _ := (.ok { user with id := "1" }, ())
  fetchTeamMembersByTeamID _ _ := (.ok [], ())
  addUserToTeam _ _ _ := (.ok (), ())
  removeUserFromTeam _ _ _ := (.ok (), ())
  deleteTeamByID _ _ := (.ok (), ())
  deleteUser _ _ := (.ok (), ())
  isGitlab := false

/-- Two users with an account on `ftA`: `bob@x.com` with `U1`, and `jimbob@x.com` with `U2`. -/
def substringStore : Store :=
  { Store.empty with
    user := ⟨((∅ : StringMap (StringMap String)).insert "bob@x.com"
      ((∅ : StringMap String).insert "ftA_fivetran" "U1")).insert "jimbob@x.com"
      ((∅ : StringMap String).insert "ftA_fivetran" "U2")⟩ }

/-- LDAP no longer knows `bob@x.com` and knows `jimbob@x.com`, the one backend client is `ftA`'s,
and a map with `jimbob@x.com` among its keys is iterated from it. -/
def substringJob : UserOffboardingJob Unit Unit where
  getUserLDAPDataByEmail email d :=
    (if email = "jimbob@x.com" then .ok ["mail"] else .error .noUserFound, d)
  ldapState := ()
  backendClients := [(⟨"ftA", "fivetran"⟩, succeedingClient)]
  iterate K := ["jimbob@x.com", "bob@x.com"].filter (· ∈ K)

/-- Offboarding the inactive `bob@x.com`, the job picks the record of the active `jimbob@x.com`,
whose email contains `bob@x.com`: it deletes `jimbob@x.com`'s account `U2` and record, and leaves
`bob@x.com`'s account and record in place. -/
theorem run_substringEmail_offboardsOther :
    (substringJob.isUserActiveInLDAP "bob@x.com" ()).1 = .ok false ∧
      (substringJob.isUserActiveInLDAP "jimbob@x.com" ()).1 = .ok true ∧
      (substringJob.run.exec ⟨substringStore, fun _ => (), []⟩).2.events =
        [.backend ⟨"ftA", "fivetran"⟩ (.deleteUser "U2" (.ok ()))] ∧
      ((substringJob.run.exec ⟨substringStore, fun _ => (), []⟩).2.store.user.entries.lookup
        "jimbob@x.com").isNone ∧
      ((substringJob.run.exec ⟨substringStore, fun _ => (), []⟩).2.store.user.getBackends
        "bob@x.com").lookup "ftA_fivetran" = some "U1" := by
  decide

/-- `bob@x.com` has an account on each of the Fivetran backends `ftA` and `ftB`. -/
def unconfiguredStore : Store :=
  { Store.empty with
    user := ⟨(∅ : StringMap (StringMap String)).insert "bob@x.com"
      (((∅ : StringMap String).insert "ftA_fivetran" "U1").insert "ftB_fivetran" "U2")⟩ }

/-- LDAP no longer knows `bob@x.com`, and the only backend client is `ftA`'s. -/
def unconfiguredJob : UserOffboardingJob Unit Unit where
  getUserLDAPDataByEmail _ d := (.error .noUserFound, d)
  ldapState := ()
  backendClients := [(⟨"ftA", "fivetran"⟩, succeedingClient)]
  iterate K := ["bob@x.com"].filter (· ∈ K)

/-- Offboarding `bob@x.com` when `ftB` has no client: the job deletes `U1` on `ftA`, never calls
`DeleteUser` for `U2`, reports no error, and deletes the record, the only pointer to `U2`. -/
theorem run_unconfiguredBackend_dropsMapping :
    (unconfiguredStore.user.getBackends "bob@x.com").lookup "ftB_fivetran" = some "U2" ∧
      backendTypeOfKey "ftB_fivetran" = some "fivetran" ∧ "fivetran" ∉ skippedBackendTypes ∧
      let w' := unconfiguredJob.run.exec ⟨unconfiguredStore, fun _ => (), []⟩
      w'.1 = .ok () ∧
      w'.2.events = [.backend ⟨"ftA", "fivetran"⟩ (.deleteUser "U1" (.ok ()))] ∧
      (w'.2.store.user.entries.lookup "bob@x.com").isNone := by
  decide

end Usernaut
