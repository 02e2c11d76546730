import Usernaut.Controller.Backends

/-!
# The membership delta

`processUsers` turns a group's usernames and a team's current members into the ids to add to the
team and the ids to remove from it. Its first loop resolves each username through the LDAP data
and the user cache and collects the ids to keep (`userIDsToSync`). A username that LDAP does not
know and that is itself a key of the member map (a ghost) is removed at once. Then every member
that is not kept is removed, and every kept id that is not yet a member is added.

The delta always agrees with the member map: every id removed is a member, no id added is, and so
no id is both added and removed (`processUsers_delta`). It can repeat an id. A ghost that is not
also a kept id is removed twice, once by each loop, and two usernames that resolve to one id add
it twice. `processUsers_delta` says exactly when `usersToRemove` repeats an id, and that
`usersToAdd` does not when the kept ids are distinct.

## Main definitions

* `GroupReconciler.userIDsToSync`: the ids the first loop keeps.
* `GroupReconciler.ghosts`: the usernames the first loop removes.

## Main results

* `GroupReconciler.foldlM_processUsersStep_eq`: the first loop in closed form.
* `GroupReconciler.processUsers_eq_ok`: `processUsers` in closed form.
* `GroupReconciler.processUsers_delta`: the delta's well-formedness, and when it repeats an id.
-/

namespace Usernaut

namespace GroupReconciler

section Loop

variable (allLdapUserData : StringMap LDAPUser) (store : Store) (existingTeamMembers : List String)
  (key : String)

/-- The ids `processUsers` collects in `userIDsToSync` when it succeeds: each resolved username's
id for the backend, in the order of the usernames. -/
def userIDsToSync (groupUsers : List String) : List String :=
  groupUsers.filterMap fun user => (allLdapUserData.lookup user).map fun userDetails =>
    ((store.user.getBackends userDetails.email).lookup key).getD ""

/-- The usernames the first loop of `processUsers` removes: those LDAP does not resolve that are
keys of the member map. -/
def ghosts (groupUsers : List String) : List String :=
  groupUsers.filter fun user =>
    (allLdapUserData.lookup user).isNone && decide (user ∈ existingTeamMembers)

theorem userIDsToSync_append (users users' : List String) :
    userIDsToSync allLdapUserData store key (users ++ users') =
      userIDsToSync allLdapUserData store key users ++ userIDsToSync allLdapUserData store key users' :=
  List.filterMap_append _ _ _

theorem ghosts_append (users users' : List String) :
    ghosts allLdapUserData existingTeamMembers (users ++ users') =
      ghosts allLdapUserData existingTeamMembers users ++
        ghosts allLdapUserData existingTeamMembers users' :=
  List.filter_append _ _

/-- One pass of the first loop keeps the username's id, or removes the username, or fails. -/
theorem processUsersStep_eq_ok {acc acc' : List String × List String} {user : String}
    (h : processUsersStep allLdapUserData store existingTeamMembers key acc user = .ok acc') :
    acc' = (acc.1 ++ userIDsToSync allLdapUserData store key [user],
      acc.2 ++ ghosts allLdapUserData existingTeamMembers [user]) := by
  unfold processUsersStep at h
  split at h
  · rename_i hnone
    cases h
    by_cases hmem : user ∈ existingTeamMembers <;> simp [userIDsToSync, ghosts, hnone, hmem]
  · rename_i userDetails hsome
    dsimp only at h
    split_ifs at h
    cases h
    simp [userIDsToSync, ghosts, hsome]

/-- **The first loop in closed form.** When it succeeds, it has kept the id of every resolved
username and removed every ghost, in the order of the usernames. -/
theorem foldlM_processUsersStep_eq : ∀ (groupUsers : List String) (acc r : List String × List String),
    groupUsers.foldlM (processUsersStep allLdapUserData store existingTeamMembers key) acc = .ok r →
      r = (acc.1 ++ userIDsToSync allLdapUserData store key groupUsers,
        acc.2 ++ ghosts allLdapUserData existingTeamMembers groupUsers)
  | [], acc, r, h => by
    cases h
    simp [userIDsToSync, ghosts]
  | user :: rest, acc, r, h => by
    rw [List.foldlM_cons] at h
    rcases hstep : processUsersStep allLdapUserData store existingTeamMembers key acc user with
      _ | acc'
    · rw [hstep] at h
      cases h
    · rw [hstep] at h
      rw [foldlM_processUsersStep_eq rest acc' r h,
        processUsersStep_eq_ok allLdapUserData store existingTeamMembers key hstep]
      simp only [List.append_assoc, ← userIDsToSync_append, ← ghosts_append, List.singleton_append]

end Loop

variable (allLdapUserData : StringMap LDAPUser) (store : Store)

/-- **`processUsers` in closed form.** When it succeeds, it adds the kept ids that are not
members, and removes the ghosts and then the members that are not kept. -/
theorem processUsers_eq_ok {groupUsers existingTeamMembers usersToAdd usersToRemove : List String}
    {backendName backendType : String}
    (h : processUsers allLdapUserData store groupUsers existingTeamMembers backendName backendType =
      .ok (usersToAdd, usersToRemove)) :
    let kept := userIDsToSync allLdapUserData store (backendKey backendName backendType) groupUsers
    usersToAdd = kept.filter (· ∉ existingTeamMembers) ∧
      usersToRemove = ghosts allLdapUserData existingTeamMembers groupUsers ++
        existingTeamMembers.filter (· ∉ kept) := by
  unfold processUsers at h
  rcases hloop : groupUsers.foldlM (processUsersStep allLdapUserData store existingTeamMembers
    (backendKey backendName backendType)) ([], []) with _ | ⟨kept, removed⟩ <;> rw [hloop] at h
  · cases h
  · obtain ⟨rfl, rfl⟩ := Prod.mk.inj (foldlM_processUsersStep_eq allLdapUserData store
      existingTeamMembers _ groupUsers ([], []) _ hloop)
    cases h
    exact ⟨rfl, rfl⟩

/-- Every ghost is a member. -/
theorem mem_of_mem_ghosts {existingTeamMembers groupUsers : List String} {user : String}
    (h : user ∈ ghosts allLdapUserData existingTeamMembers groupUsers) :
    user ∈ existingTeamMembers := by
  simp only [ghosts, List.mem_filter, Bool.and_eq_true, decide_eq_true_eq] at h
  exact h.2.2

/-- **The membership delta is consistent with the member map.** Take distinct usernames and a
member map (its keys are distinct). When `processUsers` succeeds, every id it removes is a member,
no id it adds is, and none is both added and removed. `usersToAdd` repeats no id when the kept ids
are distinct, and `usersToRemove` repeats none exactly when every ghost is also a kept id. -/
theorem processUsers_delta {groupUsers existingTeamMembers usersToAdd usersToRemove : List String}
    {backendName backendType : String} (husers : groupUsers.Nodup)
    (hmembers : existingTeamMembers.Nodup)
    (h : processUsers allLdapUserData store groupUsers existingTeamMembers backendName backendType =
      .ok (usersToAdd, usersToRemove)) :
    (∀ id ∈ usersToRemove, id ∈ existingTeamMembers) ∧
      (∀ id ∈ usersToAdd, id ∉ existingTeamMembers) ∧
      (∀ id ∈ usersToAdd, id ∉ usersToRemove) ∧
      ((userIDsToSync allLdapUserData store (backendKey backendName backendType)
        groupUsers).Nodup → usersToAdd.Nodup) ∧
      (usersToRemove.Nodup ↔ ∀ user ∈ ghosts allLdapUserData existingTeamMembers groupUsers,
        user ∈ userIDsToSync allLdapUserData store (backendKey backendName backendType)
          groupUsers) := by
  obtain ⟨rfl, rfl⟩ := processUsers_eq_ok allLdapUserData store h
  have hremove : ∀ id ∈ ghosts allLdapUserData existingTeamMembers groupUsers ++
      existingTeamMembers.filter (· ∉ userIDsToSync allLdapUserData store
        (backendKey backendName backendType) groupUsers), id ∈ existingTeamMembers := by
    intro id hid
    rcases List.mem_append.mp hid with hid | hid
    · exact mem_of_mem_ghosts allLdapUserData hid
    · exact (List.mem_filter.mp hid).1
  have hadd : ∀ id ∈ (userIDsToSync allLdapUserData store (backendKey backendName backendType)
      groupUsers).filter (· ∉ existingTeamMembers), id ∉ existingTeamMembers := fun id hid => by
    simpa using (List.mem_filter.mp hid).2
  refine ⟨hremove, hadd, fun id hid hrem => hadd id hid (hremove id hrem),
    fun hkept => hkept.filter _, ?_⟩
  have hghosts : (ghosts allLdapUserData existingTeamMembers groupUsers).Nodup := husers.filter _
  rw [List.nodup_append, and_iff_right hghosts, and_iff_right (hmembers.filter _)]
  simp only [List.Disjoint, List.mem_filter, decide_eq_true_eq]
  exact ⟨fun hd user hu => of_not_not fun hk => hd hu ⟨mem_of_mem_ghosts allLdapUserData hu, hk⟩,
    fun hk user hu hmem => hmem.2 (hk user hu)⟩

/-- LDAP resolves `alice` and `bob`, and does not know `carol`. -/
def deltaLdapUserData : StringMap LDAPUser :=
  ((∅ : StringMap LDAPUser).insert "alice" ⟨"alice@x.com", "Alice", "A"⟩).insert "bob"
    ⟨"bob@x.com", "Bob", "B"⟩

/-- The cache gives both `alice@x.com` and `bob@x.com` the id `7` on the Fivetran backend `ftA`. -/
def deltaStore : Store :=
  { Store.empty with
    user := ⟨((∅ : StringMap (StringMap String)).insert "alice@x.com"
      ((∅ : StringMap String).insert "ftA_fivetran" "7")).insert "bob@x.com"
        ((∅ : StringMap String).insert "ftA_fivetran" "7")⟩ }

/-- `alice` on a team whose only member is `9`: `7` is added and `9` removed. -/
theorem processUsers_alice_delta :
    ["alice"].Nodup ∧ ["9"].Nodup ∧
      processUsers deltaLdapUserData deltaStore ["alice"] ["9"] "ftA" "fivetran" =
        .ok (["7"], ["9"]) ∧
      (∀ id ∈ ["9"], id ∈ ["9"]) ∧ (∀ id ∈ ["7"], id ∉ ["9"]) ∧ (∀ id ∈ ["7"], id ∉ ["9"]) ∧
      ((userIDsToSync deltaLdapUserData deltaStore (backendKey "ftA" "fivetran") ["alice"]).Nodup →
        ["7"].Nodup) ∧
      (["9"].Nodup ↔ ∀ user ∈ ghosts deltaLdapUserData ["9"] ["alice"],
        user ∈ userIDsToSync deltaLdapUserData deltaStore (backendKey "ftA" "fivetran") ["alice"]) :=
  ⟨by decide, by decide, by decide,
    processUsers_delta deltaLdapUserData deltaStore (by decide) (by decide) (by decide)⟩

/-- Both ways `processUsers` repeats an id. `carol`, unknown to LDAP, is a key of the member map
(as on a backend whose user ids are usernames), so both loops remove her. `alice` and `bob` share
the id `7`, which is added twice. -/
theorem processUsers_repeatsIDs :
    ["carol"].Nodup ∧
      processUsers deltaLdapUserData deltaStore ["carol"] ["carol"] "ftA" "fivetran" =
        .ok ([], ["carol", "carol"]) ∧
      ["alice", "bob"].Nodup ∧
      processUsers deltaLdapUserData deltaStore ["alice", "bob"] [] "ftA" "fivetran" =
        .ok (["7", "7"], []) := by
  decide

end GroupReconciler

end Usernaut
