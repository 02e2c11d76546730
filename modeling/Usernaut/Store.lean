import Usernaut.Basic

/-!
# The store layer

`pkg/store`: four prefixed views over the shared cache, `User` (`user:<email>`), `Team`
(`team:<transformed-team-name>`), `Group` (`group:<group-name>`) and `UserGroups`
(`user:groups:<email>`). The implementations of these views are not in the repository's
sources, only their interface (`pkg/store/interfaces.go`); each operation here follows its
interface documentation, with the store taken as a total in-memory map: a missing entry reads as
an empty map or list, and no operation fails.

Each view is a structure of its own, so that `s.user.getBackends e` reads as the Go
`r.Store.User.GetBackends(ctx, e)`. Every read is given its value after every write as a
`@[simp]` lemma, so that later proofs never unfold the views.
-/

namespace Usernaut

/-- `store.BackendInfo`: a backend recorded for a group. -/
structure BackendInfo where
  id : String
  name : String
  type : String
  deriving DecidableEq, Repr

/-- `store.GroupData`: the members (emails) and the backends of one group. -/
structure GroupData where
  members : List String
  backends : StringMap BackendInfo

/-- The record a missing `group:<name>` entry reads as. -/
def GroupData.empty : GroupData := ⟨[], ∅⟩

/-- `store.UserStore`: `user:<email>`, each email's backend user ids by backend key. -/
structure UserStore where
  entries : StringMap (StringMap String)

/-- `store.TeamStore`: `team:<transformed-team-name>`, the preloaded team ids by backend key. -/
structure TeamStore where
  entries : StringMap (StringMap String)

/-- `store.GroupStore`: `group:<group-name>`, the record the reconciler keeps per group. -/
structure GroupStore where
  entries : StringMap GroupData

/-- `store.UserGroupsStore`: `user:groups:<email>`, the reverse index from a user to groups. -/
structure UserGroupsStore where
  entries : StringMap (List String)

/-- `store.Store`. -/
structure Store where
  user : UserStore
  team : TeamStore
  group : GroupStore
  userGroups : UserGroupsStore

/-- The empty cache. -/
def Store.empty : Store := ⟨⟨∅⟩, ⟨∅⟩, ⟨∅⟩, ⟨∅⟩⟩

namespace UserStore

variable (s : UserStore)

/-- `GetBackends`: the user's backend ids, or the empty map for an unknown user. -/
def getBackends (email : String) : StringMap String := (s.entries.lookup email).getD ∅

/-- `SetBackend`: add or replace one backend id, creating the user if needed. -/
def setBackend (email backendKey backendID : String) : UserStore :=
  ⟨s.entries.insert email ((s.getBackends email).insert backendKey backendID)⟩

/-- `Delete`: remove the user's record. -/
def delete (email : String) : UserStore := ⟨s.entries.erase email⟩

@[simp] theorem getBackends_setBackend (email backendKey backendID e : String) :
    (s.setBackend email backendKey backendID).getBackends e =
      if e = email then (s.getBackends email).insert backendKey backendID
      else s.getBackends e := by
  by_cases h : e = email
  · subst h; simp [getBackends, setBackend]
  · simp [getBackends, setBackend, h]

@[simp] theorem getBackends_delete (email e : String) :
    (s.delete email).getBackends e = if e = email then ∅ else s.getBackends e := by
  by_cases h : e = email
  · subst h; simp [getBackends, delete]
  · simp [getBackends, delete, h]

/-- `GetBackends(email)[key]`: the user's id for the backend with key `key`, `""` if none. -/
def backendID (email key : String) : String := ((s.getBackends email).lookup key).getD ""

/-- The code reads a user's id for a backend from `GetBackends(email)` inline. -/
theorem getD_lookup_getBackends (email key : String) :
    ((s.getBackends email).lookup key).getD "" = s.backendID email key := rfl

@[simp] theorem backendID_setBackend (email backendKey backendID e k : String) :
    (s.setBackend email backendKey backendID).backendID e k =
      if e = email ∧ k = backendKey then backendID else s.backendID e k := by
  by_cases he : e = email
  · subst he
    by_cases hk : k = backendKey
    · subst hk
      simp [UserStore.backendID]
    · simp [UserStore.backendID, hk, Finmap.lookup_insert_of_ne _ hk]
  · simp [UserStore.backendID, he]

end UserStore

namespace TeamStore

variable (s : TeamStore)

/-- `GetBackends`: the team's preloaded backend ids, or the empty map. -/
def getBackends (teamName : String) : StringMap String := (s.entries.lookup teamName).getD ∅

/-- `Delete`: remove the team's record. -/
def delete (teamName : String) : TeamStore := ⟨s.entries.erase teamName⟩

end TeamStore

namespace GroupStore

variable (s : GroupStore)

/-- `Get`: the group's record, or the empty record for an unknown group. -/
def get (groupName : String) : GroupData := (s.entries.lookup groupName).getD .empty

/-- `GetMembers`: the group's member emails, `[]` for an unknown group. -/
def getMembers (groupName : String) : List String := (s.get groupName).members

/-- `SetMembers`: replace the members, keeping the backends. -/
def setMembers (groupName : String) (members : List String) : GroupStore :=
  ⟨s.entries.insert groupName { s.get groupName with members := members }⟩

/-- `GetBackends`: the group's backends by backend key. -/
def getBackends (groupName : String) : StringMap BackendInfo := (s.get groupName).backends

/-- `GetBackendID`: the team id recorded for a backend, `""` if none. -/
def getBackendID (groupName backendName backendType : String) : String :=
  (((s.getBackends groupName).lookup (backendKey backendName backendType)).map (·.id)).getD ""

/-- `SetBackend`: record a backend's team id, keeping the members. -/
def setBackend (groupName backendName backendType backendID : String) : GroupStore :=
  ⟨s.entries.insert groupName { s.get groupName with
    backends := (s.getBackends groupName).insert (backendKey backendName backendType)
      ⟨backendID, backendName, backendType⟩ }⟩

/-- `BackendExists`: whether the group records the backend at all. -/
def backendExists (groupName backendName backendType : String) : Bool :=
  decide (backendKey backendName backendType ∈ s.getBackends groupName)

/-- `Delete`: remove the group's record, members and backends together. -/
def delete (groupName : String) : GroupStore := ⟨s.entries.erase groupName⟩

@[simp] theorem get_setMembers (groupName : String) (members : List String) (g : String) :
    (s.setMembers groupName members).get g =
      if g = groupName then { s.get groupName with members := members } else s.get g := by
  by_cases h : g = groupName
  · subst h; simp [get, setMembers]
  · simp [get, setMembers, h]

@[simp] theorem get_setBackend (groupName backendName backendType backendID g : String) :
    (s.setBackend groupName backendName backendType backendID).get g =
      if g = groupName then { s.get groupName with
        backends := (s.getBackends groupName).insert (backendKey backendName backendType)
          ⟨backendID, backendName, backendType⟩ }
      else s.get g := by
  by_cases h : g = groupName
  · subst h; simp [get, setBackend]
  · simp [get, setBackend, h]

@[simp] theorem get_delete (groupName g : String) :
    (s.delete groupName).get g = if g = groupName then .empty else s.get g := by
  by_cases h : g = groupName
  · subst h; simp [get, delete]
  · simp [get, delete, h]

@[simp] theorem getMembers_setMembers (groupName : String) (members : List String) (g : String) :
    (s.setMembers groupName members).getMembers g =
      if g = groupName then members else s.getMembers g := by
  by_cases h : g = groupName <;> simp [getMembers, h]

/-- Recording for a recorded group the members it has changes nothing. -/
theorem setMembers_getMembers {groupName : String} (h : groupName ∈ s.entries) :
    s.setMembers groupName (s.getMembers groupName) = s := by
  obtain ⟨data, hdata⟩ := Finmap.mem_iff.mp h
  show GroupStore.mk _ = GroupStore.mk s.entries
  congr 1
  refine Finmap.ext_lookup fun g => ?_
  by_cases hg : g = groupName
  · subst hg; simp [getMembers, get, hdata]
  · simp [Finmap.lookup_insert_of_ne _ hg]

@[simp] theorem getMembers_setBackend (groupName backendName backendType backendID g : String) :
    (s.setBackend groupName backendName backendType backendID).getMembers g = s.getMembers g := by
  by_cases h : g = groupName <;> simp [getMembers, h]

@[simp] theorem getMembers_delete (groupName g : String) :
    (s.delete groupName).getMembers g = if g = groupName then [] else s.getMembers g := by
  by_cases h : g = groupName <;> simp [getMembers, h, GroupData.empty]

@[simp] theorem getBackends_setMembers (groupName : String) (members : List String) (g : String) :
    (s.setMembers groupName members).getBackends g = s.getBackends g := by
  by_cases h : g = groupName <;> simp [getBackends, h]

@[simp] theorem getBackends_setBackend (groupName backendName backendType backendID g : String) :
    (s.setBackend groupName backendName backendType backendID).getBackends g =
      if g = groupName then (s.getBackends groupName).insert (backendKey backendName backendType)
        ⟨backendID, backendName, backendType⟩
      else s.getBackends g := by
  by_cases h : g = groupName <;> simp [getBackends, h]

/-- A backend the group does not record has no team id. -/
theorem getBackendID_of_backendExists_eq_false {groupName backendName backendType : String}
    (h : s.backendExists groupName backendName backendType = false) :
    s.getBackendID groupName backendName backendType = "" := by
  simp only [backendExists, decide_eq_false_iff_not] at h
  simp [getBackendID, Finmap.lookup_eq_none.mpr h]

/-- The team id the group's record holds under the backend key `key`, `""` if none: the
`GetBackendID` of every backend whose key is `key`. -/
def teamIDAt (groupName key : String) : String :=
  (((s.getBackends groupName).lookup key).map (·.id)).getD ""

@[simp] theorem teamIDAt_backendKey (groupName n t : String) :
    s.teamIDAt groupName (backendKey n t) = s.getBackendID groupName n t := rfl

@[simp] theorem teamIDAt_setMembers (groupName : String) (members : List String) (g key : String) :
    (s.setMembers groupName members).teamIDAt g key = s.teamIDAt g key := by
  simp [teamIDAt]

theorem teamIDAt_setBackend (groupName n t id g key : String) :
    (s.setBackend groupName n t id).teamIDAt g key =
      if g = groupName ∧ key = backendKey n t then id else s.teamIDAt g key := by
  by_cases hg : g = groupName
  · subst hg
    by_cases hk : key = backendKey n t
    · subst hk
      simp [teamIDAt]
    · simp [teamIDAt, hk, Finmap.lookup_insert_of_ne _ hk]
  · simp [teamIDAt, hg]

@[simp] theorem getBackendID_setMembers (groupName : String) (members : List String)
    (g n t : String) :
    (s.setMembers groupName members).getBackendID g n t = s.getBackendID g n t :=
  teamIDAt_setMembers s groupName members g (backendKey n t)

@[simp] theorem getBackendID_setBackend (groupName n t id g n' t' : String) :
    (s.setBackend groupName n t id).getBackendID g n' t' =
      if g = groupName ∧ backendKey n' t' = backendKey n t then id else s.getBackendID g n' t' :=
  teamIDAt_setBackend s groupName n t id g (backendKey n' t')

/-- Recording a team id where the record holds none keeps every non-empty id. -/
theorem teamIDAt_setBackend_of_ne {groupName n t id key : String}
    (hid : s.getBackendID groupName n t = "") (hkey : s.teamIDAt groupName key ≠ "") :
    (s.setBackend groupName n t id).teamIDAt groupName key = s.teamIDAt groupName key := by
  rw [teamIDAt_setBackend, if_neg]
  rintro ⟨-, rfl⟩
  exact hkey hid

end GroupStore

namespace UserGroupsStore

variable (s : UserGroupsStore)

/-- `GetGroups`: the groups recorded for a user, `[]` for an unknown user. -/
def getGroups (email : String) : List String := (s.entries.lookup email).getD []

/-- `AddGroup`: append the group unless the user already has it. -/
def addGroup (email groupName : String) : UserGroupsStore :=
  if groupName ∈ s.getGroups email then s
  else ⟨s.entries.insert email (s.getGroups email ++ [groupName])⟩

/-- `RemoveGroup`: drop the group from the user's list, and the entry once the list is empty. -/
def removeGroup (email groupName : String) : UserGroupsStore :=
  let groups := (s.getGroups email).filter (· ≠ groupName)
  if groups = [] then ⟨s.entries.erase email⟩ else ⟨s.entries.insert email groups⟩

@[simp] theorem mem_getGroups_addGroup (email groupName e g : String) :
    g ∈ (s.addGroup email groupName).getGroups e ↔
      g ∈ s.getGroups e ∨ (e = email ∧ g = groupName) := by
  unfold addGroup
  by_cases he : e = email
  · subst he
    split_ifs with h
    · exact ⟨.inl, by rintro (hg | ⟨-, rfl⟩) <;> assumption⟩
    · simp [getGroups]
  · split_ifs <;> simp [getGroups, he]

@[simp] theorem mem_getGroups_removeGroup (email groupName e g : String) :
    g ∈ (s.removeGroup email groupName).getGroups e ↔
      g ∈ s.getGroups e ∧ ¬(e = email ∧ g = groupName) := by
  simp only [removeGroup]
  by_cases he : e = email
  · subst he
    split_ifs with h
    · simp only [getGroups, Finmap.lookup_erase, Option.getD_none, List.not_mem_nil, false_iff]
      rintro ⟨hg, hne⟩
      exact (List.filter_eq_nil_iff.mp h) g hg (by simpa using hne)
    · simp [getGroups]
  · split_ifs <;> simp [getGroups, he]

/-- Adding `groupName` for each of `emails` in turn. -/
theorem mem_getGroups_foldl_addGroup (emails : List String) (groupName e g : String) :
    g ∈ (emails.foldl (fun ug email => ug.addGroup email groupName) s).getGroups e ↔
      g ∈ s.getGroups e ∨ (e ∈ emails ∧ g = groupName) := by
  induction emails generalizing s with
  | nil => simp
  | cons email emails ih =>
    simp only [List.foldl_cons, ih, mem_getGroups_addGroup, List.mem_cons]
    tauto

/-- Removing `groupName` for each of `emails` in turn. -/
theorem mem_getGroups_foldl_removeGroup (emails : List String) (groupName e g : String) :
    g ∈ (emails.foldl (fun ug email => ug.removeGroup email groupName) s).getGroups e ↔
      g ∈ s.getGroups e ∧ ¬(e ∈ emails ∧ g = groupName) := by
  induction emails generalizing s with
  | nil => simp
  | cons email emails ih =>
    simp only [List.foldl_cons, ih, mem_getGroups_removeGroup, List.mem_cons]
    tauto

/-- Removing `groupName` for each of `emails` that `keep` does not hold of. -/
theorem mem_getGroups_foldl_removeGroup_unless (emails : List String) (keep : String → Prop)
    [DecidablePred keep] (groupName e g : String) :
    g ∈ (emails.foldl (fun ug email => if keep email then ug else ug.removeGroup email groupName)
      s).getGroups e ↔ g ∈ s.getGroups e ∧ ¬(e ∈ emails ∧ ¬keep e ∧ g = groupName) := by
  induction emails generalizing s with
  | nil => simp
  | cons email emails ih =>
    by_cases hk : keep email <;>
      simp only [List.foldl_cons, hk, if_true, if_false, ih, mem_getGroups_removeGroup,
        List.mem_cons] <;> aesop

/-- Adding a group the user already has changes nothing. -/
theorem addGroup_of_mem {email groupName : String} (h : groupName ∈ s.getGroups email) :
    s.addGroup email groupName = s := if_pos h

/-- Adding `groupName` for users who all have it changes nothing. -/
theorem foldl_addGroup_of_mem {emails : List String} {groupName : String}
    (h : ∀ e ∈ emails, groupName ∈ s.getGroups e) :
    emails.foldl (fun ug email => ug.addGroup email groupName) s = s := by
  induction emails with
  | nil => rfl
  | cons e emails ih =>
    rw [List.foldl_cons, addGroup_of_mem s (h e (List.mem_cons_self _ _))]
    exact ih fun e' he' => h e' (List.mem_cons_of_mem _ he')

end UserGroupsStore

end Usernaut
