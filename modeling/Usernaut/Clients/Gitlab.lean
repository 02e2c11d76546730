import Usernaut.Basic

/-!
# The GitLab client

`GitlabClient` (`pkg/clients/gitlab`) reaches GitLab through go-gitlab, whose calls return a
triple `(value, *Response, error)`. go-gitlab returns a nil value with every error, and a nil
`*Response` when no HTTP response came back. `Answer` lists what GitLab can answer, and
`Answer.toTriple` is the triple go-gitlab makes of it, `none` standing for `nil`. The client's
methods are translated line by line. A read through a pointer is `deref`, and reading `nil`
panics: `GoError.nilDereference` is an outcome of a run, beside a returned error.

`CreateTeam` reads the group after a 409 or 400 answer to `CreateGroup`, when go-gitlab has
returned a nil group, and reads the response's status code after any error, when there may be no
response. Both panic (`createTeam_conflict_panics`, `createTeam_noResponse_panics`); these are
the only ways it panics, and when it returns a team, the team is the group `CreateGroup` created
(`createTeam_ok`).

`pollForPendingDeletion` asks for the group at most `maxAttempts` times
(`pollForPendingDeletion_requests`). After an error it reads the status code, and after an
error other than 404 it reads the nil group, so an error other than 404, or no response, panics
(`pollAttempts_unexpected_panics`). When GitLab never answers so, the poll returns the full path
of a group marked for deletion, the empty path after a 404, or the timeout error
(`pollForPendingDeletion_of_expected`).

The struct `GitlabClient`, `sendLdapSyncRequest` and the group's parent id are not in the source;
they are modelled from their uses in `teams.go`. Logging and `time.Sleep` are left out.

## Main definitions

* `Gitlab.Answer`, `Gitlab.Answer.toTriple`: GitLab's answers and go-gitlab's triples.
* `Gitlab.GitlabClient.createTeam`, `Gitlab.GitlabClient.pollForPendingDeletion`,
  `Gitlab.GitlabClient.deleteTeamByID`.

## Main results

* `Gitlab.GitlabClient.pollAttempts_succ`: one attempt of the poll, for each answer.
* `Gitlab.GitlabClient.pollForPendingDeletion_requests`: at most `maxAttempts` requests.
* `Gitlab.GitlabClient.pollForPendingDeletion_of_expected`: the three outcomes of a poll that
  gets no unexpected answer.
* `Gitlab.GitlabClient.createTeam_ok`: a returned team is the created group.
-/

namespace Usernaut

namespace Gitlab

/-- How a call of the client ends when it does not return normally: with an `error`, or with a
panic from reading through a nil pointer. -/
inductive GoError
  | error (msg : String)
  | nilDereference
  deriving DecidableEq, Repr

/-- `*gitlab.Response`: the client reads its status code. -/
structure Response where
  statusCode : Nat
  deriving DecidableEq, Repr

/-- `*gitlab.Group`: the fields the client reads. -/
structure Group where
  id : Nat
  name : String
  fullPath : String
  /-- `MarkedForDeletionOn`, nil until the group is scheduled for deletion. -/
  markedForDeletionOn : Option String
  deriving DecidableEq, Repr

/-- What GitLab answers a go-gitlab call: a value with the response's status code, an error with
the status code of the HTTP response, or an error with no HTTP response at all. -/
inductive Answer (α : Type)
  | ok (value : α) (statusCode : Nat)
  | error (err : String) (statusCode : Nat)
  | noResponse (err : String)
  deriving DecidableEq, Repr

variable {σ α β : Type}

/-- The `(value, *Response, error)` triple go-gitlab returns for an answer, `none` for `nil`. -/
def Answer.toTriple : Answer α → Option α × Option Response × Option String
  | .ok value statusCode => (some value, some ⟨statusCode⟩, none)
  | .error err statusCode => (none, some ⟨statusCode⟩, some err)
  | .noResponse err => (none, none, some err)

/-- An answer to `GetGroup` after which the poll reads through `nil`: an error other than 404, or
no response. -/
def Answer.isUnexpected : Answer Group → Bool
  | .ok _ _ => false
  | .error _ statusCode => statusCode != 404
  | .noResponse _ => true

/-- A request the client sends to GitLab. -/
inductive Request
  | createGroup (parentID : Nat) (name : String)
  | getGroup (id : String)
  | deleteGroup (id : String) (fullPath : Option String)
  | addGroupLDAPLink (groupID : Nat) (cn : String)
  | ldapSync
  | shareProjectWithGroup (project : String) (groupID : Nat)
  deriving DecidableEq, Repr

/-- GitLab as go-gitlab reaches it: each call's answer, and GitLab's state after the call. -/
structure API (σ : Type) where
  /-- `Groups.CreateGroup` of a public group named and pathed `name`, under `parentID`. -/
  createGroup : Nat → String → σ → Answer Group × σ
  /-- `Groups.GetGroup`. -/
  getGroup : String → σ → Answer Group × σ
  /-- `Groups.DeleteGroup`; given a full path, the permanent removal. -/
  deleteGroup : String → Option String → σ → Answer Unit × σ
  /-- `Groups.AddGroupLDAPLink` with developer access, answering the link's CN. -/
  addGroupLDAPLink : Nat → String → σ → Answer String × σ
  /-- `sendLdapSyncRequest`: the body and the status code, or the error. -/
  sendLdapSyncRequest : σ → Except String (String × Nat) × σ
  /-- `Projects.ShareProjectWithGroup` with developer access. -/
  shareProjectWithGroup : String → Nat → σ → Answer Unit × σ

/-- GitLab's state, and the requests the client has sent, in order. -/
structure World (σ : Type) where
  server : σ
  requests : List Request

/-- The client's methods: Go errors and panics over the world. -/
abbrev GitlabM (σ : Type) := ExceptT GoError (StateM (World σ))

/-- Run `m` from `w`. -/
def GitlabM.exec (m : GitlabM σ α) (w : World σ) : Except GoError α × World σ := m.run.run w

/-- Send `req`; GitLab answers with `op`. -/
def send (req : Request) (op : σ → β × σ) : GitlabM σ β := do
  let w ← get
  set ({ server := (op w.server).2, requests := w.requests ++ [req] } : World σ)
  pure (op w.server).1

/-- A read through a Go pointer: reading `nil` panics. -/
def deref : Option α → GitlabM σ α
  | some a => pure a
  | none => throw .nilDereference

section Exec

variable (w : World σ)

@[simp] theorem exec_pure (a : α) : (pure a : GitlabM σ α).exec w = (.ok a, w) := rfl

@[simp] theorem exec_throw (err : GoError) : (throw err : GitlabM σ α).exec w = (.error err, w) :=
  rfl

@[simp] theorem exec_bind (x : GitlabM σ α) (f : α → GitlabM σ β) :
    (x >>= f).exec w =
      match x.exec w with
      | (.ok a, w') => (f a).exec w'
      | (.error err, w') => (.error err, w') := by
  simp only [GitlabM.exec, ExceptT.run_bind, StateT.run_bind]
  rcases x.run.run w with ⟨_ | _, w'⟩ <;> rfl

@[simp] theorem exec_send (req : Request) (op : σ → β × σ) :
    (send req op).exec w = (.ok (op w.server).1, ⟨(op w.server).2, w.requests ++ [req]⟩) := rfl

@[simp] theorem exec_deref_some (a : α) : (deref (some a) : GitlabM σ α).exec w = (.ok a, w) := rfl

@[simp] theorem exec_deref_none : (deref none : GitlabM σ α).exec w = (.error .nilDereference, w) :=
  rfl

/-- A run of `x >>= f` that returns a value ran `x` to a value first. -/
theorem exec_bind_eq_ok {x : GitlabM σ α} {f : α → GitlabM σ β} {w w' : World σ} {b : β}
    (h : (x >>= f).exec w = (.ok b, w')) :
    ∃ a w₁, x.exec w = (.ok a, w₁) ∧ (f a).exec w₁ = (.ok b, w') := by
  rw [exec_bind] at h
  rcases hx : x.exec w with ⟨_ | a, w₁⟩ <;> rw [hx] at h
  · cases h
  · exact ⟨a, w₁, rfl, h⟩

end Exec

/-- Every value a run of `m` returns satisfies `P`. -/
def Returns (P : α → Prop) (m : GitlabM σ α) : Prop := ∀ w a, (m.exec w).1 = .ok a → P a

namespace Returns

variable {P : α → Prop}

theorem pure' {a : α} (h : P a) : Returns P (pure a : GitlabM σ α) := fun _ _ he => by
  cases he; exact h

theorem bind' {x : GitlabM σ β} {f : β → GitlabM σ α} (hf : ∀ b, Returns P (f b)) :
    Returns P (x >>= f) := fun w a he => by
  rw [exec_bind] at he
  rcases hx : x.exec w with ⟨_ | b, w₁⟩ <;> rw [hx] at he
  · cases he
  · exact hf b w₁ a he

theorem ite' {c : Prop} [Decidable c] {x y : GitlabM σ α} (hx : Returns P x) (hy : Returns P y) :
    Returns P (if c then x else y) := by
  split_ifs <;> assumption

end Returns

/-- `GitlabClient`: GitLab, and the configuration its team methods read. -/
structure GitlabClient (σ : Type) where
  gitlabClient : API σ
  /-- `gitlabConfig.ParentGroupId`. -/
  parentGroupId : Nat
  /-- The CN of the LDAP group linked to new groups. -/
  cn : String
  /-- Set by `SetLdapSync`. -/
  ldapSync : Bool

/-- `%v` of a Go error: `<nil>` for `nil`. -/
def errString : Option String → String
  | none => "<nil>"
  | some err => err

namespace GitlabClient

variable (g : GitlabClient σ)

/-- `addToLdapGroup`: the link's CN and the status code, or `("", 0, err)`. -/
def addToLdapGroup (groupID : Nat) : GitlabM σ (String × Nat × Option String) := do
  let (ldapLink, response, err) := (← send (.addGroupLDAPLink groupID g.cn)
    (g.gitlabClient.addGroupLDAPLink groupID g.cn)).toTriple
  match err with
  | some err => pure ("", 0, some err)
  | none => do
    let ldapLink ← deref ldapLink
    let response ← deref response
    pure (ldapLink, response.statusCode, none)

/-- `initiateSync`: the status code `202`, or `(0, err)`. -/
def initiateSync : GitlabM σ (Nat × Option String) := do
  match ← send .ldapSync g.gitlabClient.sendLdapSyncRequest with
  | .error err => pure (0, some err)
  | .ok (resp, statusCode) =>
    if statusCode ≠ 202 then
      pure (0, some ("ldap synchronization request failed with status: " ++ resp))
    else pure (statusCode, none)

/-- `addGroupAsProjectDeveloper`: the status code, or `(0, err)`. -/
def addGroupAsProjectDeveloper (groupID : Nat) (projectPathString : String) :
    GitlabM σ (Nat × Option String) := do
  let (_, response, err) := (← send (.shareProjectWithGroup projectPathString groupID)
    (g.gitlabClient.shareProjectWithGroup projectPathString groupID)).toTriple
  match err with
  | some err => pure (0, some err)
  | none => do
    let response ← deref response
    pure (response.statusCode, none)

/-- The `if err != nil` block of `CreateTeam` after `CreateGroup`: a 409 or 400 answer means the
group exists, and its log line reads `group.Name`; any other error is returned. -/
def checkCreateGroupError (group : Option Group) (response : Option Response) :
    Option String → GitlabM σ Unit
  | none => pure ()
  | some err => do
    let response ← deref response
    if response.statusCode = 409 ∨ response.statusCode = 400 then
      let _ ← deref group
      pure ()
    else
      throw (.error ("failed to create team: " ++ err ++ ", status code: " ++
        toString response.statusCode))

/-- The `if g.ldapSync` block of `CreateTeam`: link the group to LDAP, then start a sync. -/
def syncGroupWithLdap (group : Option Group) : GitlabM σ Unit := do
  let (_, statusCode, err) ← g.addToLdapGroup (← deref group).id
  if let some err := err then
    throw (.error ("failed to add group to LDAP: " ++ err ++ ", status code: " ++
      toString statusCode))
  let (statusCode, err) ← g.initiateSync
  if let some err := err then
    throw (.error ("failed to initiate LDAP sync: " ++ err ++ ", status code: " ++
      toString statusCode))

/-- The `project_access_paths` loop of `CreateTeam`: share each project with the group. -/
def shareProjects (group : Option Group) (values : List String) : GitlabM σ Unit :=
  values.forM fun value => do
    let (statusCode, err) ← g.addGroupAsProjectDeveloper (← deref group).id value
    if err.isSome ∨ statusCode ≠ 201 then
      throw (.error ("failed to add group as project developer: " ++ errString err ++
        ", status code: " ++ toString statusCode))

/-- `CreateTeam`. -/
def createTeam (team : Team) : GitlabM σ Team := do
  let groupName := team.name
  let (group, response, err) := (← send (.createGroup g.parentGroupId groupName)
    (g.gitlabClient.createGroup g.parentGroupId groupName)).toTriple
  checkCreateGroupError group response err
  if g.ldapSync then g.syncGroupWithLdap group
  if team.teamParams.property = "project_access_paths" then
    g.shareProjects group team.teamParams.value
  let group ← deref group
  pure
    { id := toString group.id, name := group.name, description := "", role := ""
      teamParams := .zero }

/-- The `err != nil && resp.StatusCode == 404` test of the poll, which reads the response only
after an error. -/
def notFound (resp : Option Response) : Option String → GitlabM σ Bool
  | none => pure false
  | some _ => do pure ((← deref resp).statusCode == 404)

/-- The `n` attempts left of `pollForPendingDeletion`'s loop: `some path` when the loop returns. -/
def pollAttempts (teamID : String) : Nat → GitlabM σ (Option String)
  | 0 => pure none
  | n + 1 => do
    let (group, resp, err) := (← send (.getGroup teamID) (g.gitlabClient.getGroup teamID)).toTriple
    if ← notFound resp err then pure (some "")
    else do
      let group ← deref group
      if group.markedForDeletionOn.isSome then pure (some group.fullPath)
      else pollAttempts teamID n

/-- The error `pollForPendingDeletion` returns when no attempt found the mark. -/
def timeoutMessage (teamID : String) (maxAttempts : Nat) : String :=
  "timeout: Group " ++ teamID ++ " was not marked for deletion after " ++ toString maxAttempts ++
    " attempts"

/-- `pollForPendingDeletion`. -/
def pollForPendingDeletion (teamID : String) (maxAttempts : Nat) : GitlabM σ String := do
  match ← g.pollAttempts teamID maxAttempts with
  | some groupFullPath => pure groupFullPath
  | none => throw (.error (timeoutMessage teamID maxAttempts))

/-- `DeleteTeamByID`: soft delete, poll five times, then delete for good. The log lines read the
responses. -/
def deleteTeamByID (teamID : String) : GitlabM σ Unit := do
  let (_, resp, err) := (← send (.deleteGroup teamID none)
    (g.gitlabClient.deleteGroup teamID none)).toTriple
  match err with
  | some err => throw (.error ("failed to initiate soft delete: " ++ err))
  | none =>
    let _ ← deref resp
    pure ()
  let groupFullPath ← g.pollForPendingDeletion teamID 5
  let (_, resp, err) := (← send (.deleteGroup teamID (some groupFullPath))
    (g.gitlabClient.deleteGroup teamID (some groupFullPath))).toTriple
  match err with
  | some err => throw (.error err)
  | none =>
    let _ ← deref resp
    pure ()

/-- A GitLab that accepts every soft and hard delete and answers every `GetGroup` with `answer`. -/
def pollingAPI (answer : Answer Group) : API Unit where
  createGroup _ _ _ := (.noResponse "unused", ())
  getGroup _ _ := (answer, ())
  deleteGroup _ _ _ := (.ok () 202, ())
  addGroupLDAPLink _ _ _ := (.noResponse "unused", ())
  sendLdapSyncRequest _ := (.error "unused", ())
  shareProjectWithGroup _ _ _ := (.noResponse "unused", ())

/-- The client of `pollingAPI answer`, without LDAP sync. -/
def pollingClient (answer : Answer Group) : GitlabClient Unit := ⟨pollingAPI answer, 7, "", false⟩

/-- The client of a GitLab that no longer has the group: every `GetGroup` answers 404. -/
def goneGroupClient : GitlabClient Unit := pollingClient (.error "404 Not Found" 404)

section Poll

variable (teamID : String)

/-- **One attempt of the poll.** A marked group ends the loop with its full path, an unmarked one
goes on, a 404 ends it with the empty path, and any other error, or no response, panics. -/
theorem pollAttempts_succ (n : Nat) (w : World σ) :
    (g.pollAttempts teamID (n + 1)).exec w =
      let w₁ : World σ := ⟨(g.gitlabClient.getGroup teamID w.server).2,
        w.requests ++ [.getGroup teamID]⟩
      match (g.gitlabClient.getGroup teamID w.server).1 with
      | .ok group _ =>
        if group.markedForDeletionOn.isSome then (.ok (some group.fullPath), w₁)
        else (g.pollAttempts teamID n).exec w₁
      | .error _ statusCode =>
        (if statusCode = 404 then .ok (some "") else .error .nilDereference, w₁)
      | .noResponse _ => (.error .nilDereference, w₁) := by
  rcases hget : g.gitlabClient.getGroup teamID w.server with ⟨⟨group, _⟩ | ⟨_, statusCode⟩ | _, server⟩
  · by_cases hmark : group.markedForDeletionOn.isSome <;>
      simp [pollAttempts, notFound, hget, Answer.toTriple, hmark]
  · by_cases h404 : statusCode = 404 <;> simp [pollAttempts, notFound, hget, Answer.toTriple, h404]
  · simp [pollAttempts, notFound, hget, Answer.toTriple]

/-- The poll sends `GetGroup` requests and nothing else, at most one per attempt. -/
theorem pollAttempts_requests : ∀ (n : Nat) (w : World σ), ∃ k ≤ n,
    ((g.pollAttempts teamID n).exec w).2.requests = w.requests ++ List.replicate k (.getGroup teamID)
  | 0, w => ⟨0, le_rfl, by simp [pollAttempts]⟩
  | n + 1, w => by
    rw [pollAttempts_succ]
    rcases (g.gitlabClient.getGroup teamID w.server).1 with ⟨group, _⟩ | _ | _ <;> dsimp only
    · split_ifs
      · exact ⟨1, by omega, by simp⟩
      · obtain ⟨k, hk, h⟩ := pollAttempts_requests n
          ⟨(g.gitlabClient.getGroup teamID w.server).2, w.requests ++ [.getGroup teamID]⟩
        exact ⟨k + 1, by omega, by simp [h, List.replicate_succ]⟩
    all_goals exact ⟨1, by omega, by simp⟩

/-- **The poll is bounded.** `pollForPendingDeletion` sends at most `maxAttempts` requests, all of
them `GetGroup`. -/
theorem pollForPendingDeletion_requests (maxAttempts : Nat) (w : World σ) : ∃ k ≤ maxAttempts,
    ((g.pollForPendingDeletion teamID maxAttempts).exec w).2.requests =
      w.requests ++ List.replicate k (.getGroup teamID) := by
  obtain ⟨k, hk, h⟩ := g.pollAttempts_requests teamID maxAttempts w
  refine ⟨k, hk, ?_⟩
  simp only [pollForPendingDeletion, exec_bind]
  rcases hrun : (g.pollAttempts teamID maxAttempts).exec w with ⟨_ | (_ | _), w₁⟩ <;>
    simp_all

/-- The attempts of a poll that gets no unexpected answer end with the empty path after a 404,
with the full path of a group that `GetGroup` answered marked, or with no path. -/
theorem pollAttempts_of_expected
    (hexpected : ∀ s, (g.gitlabClient.getGroup teamID s).1.isUnexpected = false) :
    ∀ (n : Nat) (w : World σ),
      (∃ s err, (g.gitlabClient.getGroup teamID s).1 = .error err 404 ∧
        ((g.pollAttempts teamID n).exec w).1 = .ok (some "")) ∨
      (∃ s group statusCode, (g.gitlabClient.getGroup teamID s).1 = .ok group statusCode ∧
        group.markedForDeletionOn.isSome ∧
          ((g.pollAttempts teamID n).exec w).1 = .ok (some group.fullPath)) ∨
      ((g.pollAttempts teamID n).exec w).1 = .ok none
  | 0, w => .inr (.inr rfl)
  | n + 1, w => by
    have hw := hexpected w.server
    rw [pollAttempts_succ]
    rcases hget : (g.gitlabClient.getGroup teamID w.server).1 with
      ⟨group, statusCode⟩ | ⟨err, statusCode⟩ | err <;> rw [hget] at hw
    · by_cases hmark : group.markedForDeletionOn.isSome
      · exact .inr (.inl ⟨w.server, group, statusCode, hget, hmark, by simp [hmark]⟩)
      · simpa [hmark] using pollAttempts_of_expected hexpected n _
    · obtain rfl : statusCode = 404 := by simpa [Answer.isUnexpected] using hw
      exact .inl ⟨w.server, err, hget, by simp⟩
    · cases hw

/-- **The poll's outcomes.** When GitLab never answers `GetGroup` with an error other than 404, or
without a response, `pollForPendingDeletion` returns the empty path after a 404, or the full path
of a group that `GetGroup` answered marked for deletion, or the timeout error. -/
theorem pollForPendingDeletion_of_expected
    (hexpected : ∀ s, (g.gitlabClient.getGroup teamID s).1.isUnexpected = false)
    (maxAttempts : Nat) (w : World σ) :
    (∃ s err, (g.gitlabClient.getGroup teamID s).1 = .error err 404 ∧
      ((g.pollForPendingDeletion teamID maxAttempts).exec w).1 = .ok "") ∨
    (∃ s group statusCode, (g.gitlabClient.getGroup teamID s).1 = .ok group statusCode ∧
      group.markedForDeletionOn.isSome ∧
        ((g.pollForPendingDeletion teamID maxAttempts).exec w).1 = .ok group.fullPath) ∨
    ((g.pollForPendingDeletion teamID maxAttempts).exec w).1 =
      .error (.error (timeoutMessage teamID maxAttempts)) := by
  simp only [pollForPendingDeletion, exec_bind]
  rcases g.pollAttempts_of_expected teamID hexpected maxAttempts w with
    ⟨s, err, hs, h⟩ | ⟨s, group, statusCode, hs, hmark, h⟩ | h <;>
    rcases hrun : (g.pollAttempts teamID maxAttempts).exec w with ⟨_ | _, w₁⟩ <;>
    simp only [hrun] at h <;> cases h
  · exact .inl ⟨s, err, hs, rfl⟩
  · exact .inr (.inl ⟨s, group, statusCode, hs, hmark, rfl⟩)
  · exact .inr (.inr rfl)

/-- A GitLab that no longer has the group never answers unexpectedly. -/
theorem pollForPendingDeletion_of_expected_goneGroup :
    (∀ s, (goneGroupClient.gitlabClient.getGroup "42" s).1.isUnexpected = false) ∧
      ((∃ s err, (goneGroupClient.gitlabClient.getGroup "42" s).1 = .error err 404 ∧
          ((goneGroupClient.pollForPendingDeletion "42" 5).exec ⟨(), []⟩).1 = .ok "") ∨
        (∃ s group statusCode, (goneGroupClient.gitlabClient.getGroup "42" s).1 = .ok group statusCode ∧
          group.markedForDeletionOn.isSome ∧
            ((goneGroupClient.pollForPendingDeletion "42" 5).exec ⟨(), []⟩).1 = .ok group.fullPath) ∨
        ((goneGroupClient.pollForPendingDeletion "42" 5).exec ⟨(), []⟩).1 =
          .error (.error (timeoutMessage "42" 5))) :=
  have hexpected : ∀ s, (goneGroupClient.gitlabClient.getGroup "42" s).1.isUnexpected = false :=
    fun _ => rfl
  ⟨hexpected, pollForPendingDeletion_of_expected _ "42" hexpected 5 ⟨(), []⟩⟩

end Poll

/-- Deleting the team `42` when the first `GetGroup` of the poll fails with a transient 500, or
gets no response: the soft delete goes through, and the poll panics at its first attempt. -/
theorem deleteTeamByID_unexpectedAnswer_panics :
    (((pollingClient (.error "500 Internal Server Error" 500)).deleteTeamByID "42").exec
        ⟨(), []⟩).1 = .error .nilDereference ∧
      (((pollingClient (.error "500 Internal Server Error" 500)).deleteTeamByID "42").exec
        ⟨(), []⟩).2.requests = [.deleteGroup "42" none, .getGroup "42"] ∧
      (((pollingClient (.noResponse "connection reset by peer")).deleteTeamByID "42").exec
        ⟨(), []⟩).1 = .error .nilDereference := by
  decide

/-- A GitLab holding the subgroups of one parent, whose LDAP provider fails every link.
`CreateGroup` of a name already taken answers 400, as GitLab does. -/
def ldapDownAPI : API (List Group) where
  createGroup _ name groups :=
    if groups.any (·.name == name) then
      (.error "400 Bad Request: name has already been taken" 400, groups)
    else
      (.ok ⟨groups.length + 1, name, "parent/" ++ name, none⟩ 201,
        groups ++ [⟨groups.length + 1, name, "parent/" ++ name, none⟩])
  getGroup _ groups := (.noResponse "unused", groups)
  deleteGroup _ _ groups := (.ok () 202, groups)
  addGroupLDAPLink _ _ groups := (.error "500 Internal Server Error" 500, groups)
  sendLdapSyncRequest groups := (.ok ("", 202), groups)
  shareProjectWithGroup _ _ groups := (.ok () 201, groups)

/-- The client of `ldapDownAPI`, in LDAP-sync mode. -/
def ldapDownClient : GitlabClient (List Group) := ⟨ldapDownAPI, 7, "cn=dataverse-g1", true⟩

/-- The team `fetchOrCreateTeam` asks for when `g1` has no team recorded for the backend. -/
def retriedTeam : Team := ⟨"", "g1", "team for g1", "reviewer", .zero⟩

/-- The client of `ldapDownAPI` outside LDAP-sync mode, which never asks LDAP. -/
def unsyncedClient : GitlabClient (List Group) := ⟨ldapDownAPI, 7, "cn=dataverse-g1", false⟩

section Create

variable (team : Team) (w : World σ)

/-- **`CreateTeam` panics on a conflict.** After a 409 or 400 answer to `CreateGroup`, go-gitlab
returns a nil group, and the log line reads its name. -/
theorem createTeam_conflict_panics {err : String} {statusCode : Nat}
    (hcreate : (g.gitlabClient.createGroup g.parentGroupId team.name w.server).1 =
      .error err statusCode)
    (hconflict : statusCode = 409 ∨ statusCode = 400) :
    ((g.createTeam team).exec w).1 = .error .nilDereference := by
  simp [createTeam, checkCreateGroupError, hcreate, Answer.toTriple, hconflict]

/-- **`CreateTeam` panics without a response.** It reads the status code of the nil response. -/
theorem createTeam_noResponse_panics {err : String}
    (hcreate : (g.gitlabClient.createGroup g.parentGroupId team.name w.server).1 = .noResponse err) :
    ((g.createTeam team).exec w).1 = .error .nilDereference := by
  simp [createTeam, checkCreateGroupError, hcreate, Answer.toTriple]

/-- **A returned team is the created group.** When `CreateTeam` returns a team, `CreateGroup`
created a group, and the team carries that group's id and name. -/
theorem createTeam_ok {t : Team} (h : ((g.createTeam team).exec w).1 = .ok t) :
    ∃ group statusCode,
      (g.gitlabClient.createGroup g.parentGroupId team.name w.server).1 = .ok group statusCode ∧
        t = ⟨toString group.id, group.name, "", "", .zero⟩ := by
  rcases hcreate : (g.gitlabClient.createGroup g.parentGroupId team.name w.server).1 with
    ⟨group, statusCode⟩ | ⟨err, statusCode⟩ | err
  · refine ⟨group, statusCode, rfl, ?_⟩
    simp only [createTeam, checkCreateGroupError, deref, exec_bind, exec_send, hcreate,
      Answer.toTriple, exec_pure, pure_bind] at h
    refine Returns.ite' (P := (· = _)) (Returns.bind' fun _ => ?_) ?_ _ _ h <;>
      exact Returns.ite' (Returns.bind' fun _ => Returns.pure' rfl) (Returns.pure' rfl)
  · by_cases hconflict : statusCode = 409 ∨ statusCode = 400
    · rw [createTeam_conflict_panics g team w hcreate hconflict] at h
      cases h
    · simp only [createTeam, checkCreateGroupError, exec_bind, exec_send, hcreate, Answer.toTriple,
        exec_deref_some, if_neg hconflict, exec_throw] at h
      cases h
  · rw [createTeam_noResponse_panics g team w hcreate] at h
    cases h

/-- Outside LDAP-sync mode, creating `g1` on a GitLab without subgroups returns the group `1`. -/
theorem createTeam_ok_unsynced :
    ((unsyncedClient.createTeam retriedTeam).exec ⟨[], []⟩).1 = .ok ⟨"1", "g1", "", "", .zero⟩ ∧
      ∃ group statusCode, (unsyncedClient.gitlabClient.createGroup unsyncedClient.parentGroupId
          retriedTeam.name []).1 = .ok group statusCode ∧
        (⟨"1", "g1", "", "", .zero⟩ : Team) = ⟨toString group.id, group.name, "", "", .zero⟩ :=
  have h : ((unsyncedClient.createTeam retriedTeam).exec ⟨[], []⟩).1 =
      .ok ⟨"1", "g1", "", "", .zero⟩ := by decide
  ⟨h, createTeam_ok _ _ _ h⟩

end Create

/-- Creating the team twice, as `fetchOrCreateTeam` does on the reconcile after a failed
`CreateTeam`, which recorded no id. The first call creates the group `g1` and fails at the LDAP
link; the second gets 400 from `CreateGroup` and panics reading the nil group. -/
theorem createTeam_retry_panics :
    ((ldapDownClient.createTeam retriedTeam).exec ⟨[], []⟩).1 =
        .error (.error "failed to add group to LDAP: 500 Internal Server Error, status code: 0") ∧
      ((ldapDownClient.createTeam retriedTeam).exec ⟨[], []⟩).2.server.map (·.name) = ["g1"] ∧
      ((ldapDownClient.createTeam retriedTeam).exec
        ((ldapDownClient.createTeam retriedTeam).exec ⟨[], []⟩).2).1 = .error .nilDereference := by
  decide

end GitlabClient

end Gitlab

end Usernaut
