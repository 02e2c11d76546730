import Usernaut.Clients.Gitlab
import Usernaut.Clients.Strconv

/-!
# The GitLab client: listings and users

`FetchAllTeams` and `FetchAllUsers` (`pkg/clients/gitlab`) read GitLab's offset pagination: list
a page, add its items to a map, and go on at the response's `NextPage` until it is `0`;
`FetchAllUsers` also stops at a page shorter than the 100 it asks for. The loop is `paginate`,
which the two methods instantiate. Go's loop has no bound; `paginate` has fuel, and answers
`none` when the fuel ends first. Over a GitLab that pages a list of items 100 at a time, enough
fuel lists every page, and the maps hold, under each key, the last item listed with that key
(`fetchAllTeams_offset`, `fetchAllUsers_offset`). So every subgroup is a team under its name and
every user is under its id, while users that share an email, such as the empty email GitLab
shows for a hidden one, keep one entry, the last.

`FetchUserDetails` reads a user id with `strconv.Atoi`: a number is fetched with `GetUser`, and
anything that is not a number is a username, searched with `ListUsers`. The ids the client
prints (`userDetails`) read back as themselves, so an id the client returned is fetched, and
deleted by `DeleteUser`, by that id (`fetchUserDetails_userDetails`).
A username that is itself a numeral is taken for an id too: in LDAP-sync mode `CreateUser`
fetches the user whose id is that number (`createUser_numericUsername`). Outside LDAP-sync mode,
`CreateUser` reads the status code of the response after an error, and panics when there is no
response (`createUser_noResponse_panics`).

These calls do not enter the request log of `World`, which records the team methods' requests.
`DisplayName` of `structs.User` is not kept.

## Main definitions

* `Gitlab.UsersAPI`: go-gitlab's listing and user calls.
* `Gitlab.UsersClient.paginate`: the loop of `FetchAllTeams` and `FetchAllUsers`.
* `Gitlab.UsersClient.fetchUserDetails`, `Gitlab.UsersClient.createUser`,
  `Gitlab.UsersClient.deleteUser`.

## Main results

* `Gitlab.UsersClient.paginate_offset`: over offset pagination, the loop folds every item.
* `Gitlab.UsersClient.fetchAllTeams_offset`, `Gitlab.UsersClient.fetchAllUsers_offset`.
* `Gitlab.UsersClient.fetchUserDetails_userDetails`: the printed id is fetched and deleted by id.
* `Gitlab.UsersClient.createUser_numericUsername`, `Gitlab.UsersClient.createUser_noResponse_panics`.
-/

namespace Usernaut

namespace Gitlab

variable {σ α β : Type}

/-- `*gitlab.User`: the fields `userDetails` reads. -/
structure User where
  id : Nat
  email : String
  username : String
  name : String
  deriving DecidableEq, Repr

/-- The go-gitlab calls of the listing and user methods. A listing answers the page's items and
the response's `NextPage`, which is `0` on the last page. -/
structure UsersAPI (σ : Type) where
  /-- `Groups.ListSubGroups(parent, opt)` at page `page`, 100 to a page. -/
  listSubGroups : Nat → Nat → σ → Answer (List Group × Nat) × σ
  /-- `Users.ListUsers` of the active humans at page `page`, 100 to a page. -/
  listActiveHumans : Nat → σ → Answer (List User × Nat) × σ
  /-- `Users.ListUsers(&ListUsersOptions{Username: &username})`. -/
  listUsersByUsername : String → σ → Answer (List User) × σ
  /-- `Users.GetUser(id, GetUsersOptions{})`. -/
  getUser : Int → σ → Answer User × σ
  /-- `Users.CreateUser` with the email, the username and the name. -/
  createUser : String → String → String → σ → Answer User × σ
  /-- `Users.DeleteUser`. -/
  deleteUser : Int → σ → Answer Unit × σ

/-- `GitlabClient` with the configuration its listing and user methods also read. -/
structure UsersClient (σ : Type) extends GitlabClient σ where
  users : UsersAPI σ
  /-- `dependantExists`: another backend depends on this GitLab for LDAP, and users come from
  there. -/
  dependantExists : Bool

/-- A go-gitlab call outside the request log. -/
def call (op : σ → β × σ) : GitlabM σ β := do
  let w ← get
  set ({ w with server := (op w.server).2 } : World σ)
  pure (op w.server).1

@[simp] theorem exec_call (op : σ → β × σ) (w : World σ) :
    (call op).exec w = (.ok (op w.server).1, { w with server := (op w.server).2 }) := rfl

/-- `userDetails`: the `structs.User` of a GitLab user. -/
def userDetails (u : User) : Usernaut.User :=
  { id := toString u.id, email := u.email, userName := u.username, role := "", firstName := ""
    lastName := "" }

/-- The `structs.Team` `FetchAllTeams` and `FetchTeamDetails` make of a group. -/
def teamOfGroup (group : Group) : Team :=
  { id := toString group.id, name := group.name, description := "", role := ""
    teamParams := .zero }

namespace UsersClient

variable (g : UsersClient σ)

/-- The loop of `FetchAllTeams` and `FetchAllUsers` from `page`, for at most `fuel` pages: list
the page, add its items to `acc`, and stop when `stop` holds of the page or `NextPage` is `0`,
else go on at `NextPage`. `none` when the fuel ends first. -/
def paginate (list : Nat → σ → Answer (List α × Nat) × σ) (stop : List α → Bool)
    (step : β → α → β) : Nat → Nat → β → GitlabM σ (Option β)
  | 0, _, _ => pure none
  | fuel + 1, page, acc => do
    let (items, _, err) := (← call (list page)).toTriple
    match err with
    | some err => throw (.error err)
    | none => do
      -- `resp.NextPage`, read after a call without error
      let (items, nextPage) ← deref items
      let acc := items.foldl step acc
      if stop items ∨ nextPage = 0 then pure (some acc)
      else paginate list stop step fuel nextPage acc

/-- `FetchAllTeams`: the parent group's subgroups as teams, by name. -/
def fetchAllTeams (fuel : Nat) : GitlabM σ (Option (StringMap Team)) :=
  paginate (g.users.listSubGroups g.parentGroupId) (fun _ => false)
    (fun teams group => teams.insert group.name (teamOfGroup group)) fuel 1 ∅

/-- `FetchTeamDetails`. -/
def fetchTeamDetails (teamID : String) : GitlabM σ Team := do
  let (group, _, err) := (← send (.getGroup teamID) (g.gitlabClient.getGroup teamID)).toTriple
  match err with
  | some err => throw (.error err)
  | none => pure (teamOfGroup (← deref group))

/-- `FetchAllUsers`: the active human users by email and by id, in that order; nothing when
another backend depends on this GitLab. -/
def fetchAllUsers (fuel : Nat) :
    GitlabM σ (Option (StringMap Usernaut.User × StringMap Usernaut.User)) :=
  if g.dependantExists then pure (some (∅, ∅))
  else
    paginate g.users.listActiveHumans (fun users => users.length < 100)
      (fun (maps : StringMap Usernaut.User × StringMap Usernaut.User) user =>
        (maps.1.insert user.email (userDetails user),
          maps.2.insert (toString user.id) (userDetails user))) fuel 1 (∅, ∅)

/-- `FetchUserDetails` of a number: `GetUser`. -/
def getUserByID (id : Int) : GitlabM σ Usernaut.User := do
  let (user, _, err) := (← call (g.users.getUser id)).toTriple
  match err with
  | some err => throw (.error err)
  | none => pure (userDetails (← deref user))

/-- `FetchUserDetails` of a username: the first user `ListUsers` finds, or, when it finds none,
a user whose id and username are the username. -/
def getUserByUsername (userID : String) : GitlabM σ Usernaut.User := do
  let (users, resp, err) := (← call (g.users.listUsersByUsername userID)).toTriple
  match err with
  | some err =>
    if resp.map (·.statusCode) = some 404 then
      throw (.error ("user " ++ userID ++ " not found in gitlab (404)"))
    else throw (.error err)
  | none =>
    let fallback : Usernaut.User :=
      { id := userID, email := "", userName := userID, role := "", firstName := "",
        lastName := "" }
    match users with
    | some (user :: _) =>
      if (← deref resp).statusCode = 200 then pure (userDetails user) else pure fallback
    | _ => pure fallback

/-- `FetchUserDetails`: a number is an id, a syntax error means a username, and a number out of
range is an error. -/
def fetchUserDetails (userID : String) : GitlabM σ Usernaut.User :=
  match Strconv.atoi userID with
  | .ok id => g.getUserByID id
  | .error .errSyntax => g.getUserByUsername userID
  | .error err => throw (.error ("invalid userID format: " ++ err.message userID))

/-- `CreateUser`. In LDAP-sync mode the user is fetched, and gets the email asked for when GitLab
shows none. Otherwise it is created; after an error the status code is read, only for a log
line. -/
def createUser (u : Usernaut.User) : GitlabM σ Usernaut.User := do
  if g.ldapSync then
    let user ← g.fetchUserDetails u.userName
    pure (if user.email = "" then { user with email := u.email } else user)
  else
    let (user, resp, err) := (← call (g.users.createUser u.email u.userName u.firstName)).toTriple
    match err with
    | some err => do
      -- `resp.StatusCode == http.StatusForbidden` only picks a log line
      let _ ← deref resp
      throw (.error err)
    | none => pure (userDetails (← deref user))

/-- `DeleteUser` of an id `Atoi` read. -/
def deleteUserByID (id : Int) : GitlabM σ Unit := do
  let (_, _, err) := (← call (g.users.deleteUser id)).toTriple
  match err with
  | some err => throw (.error err)
  | none => pure ()

/-- `DeleteUser`: nothing in LDAP-sync mode; otherwise the id is read with `Atoi`. -/
def deleteUser (userID : String) : GitlabM σ Unit :=
  if g.ldapSync then pure ()
  else
    match Strconv.atoi userID with
    | .error err => throw (.error (err.message userID))
    | .ok id => g.deleteUserByID id

/-! ## Offset pagination -/

/-- GitLab's listing of `items` by offset pagination, `perPage` to a page. -/
def offsetListing (items : List α) (perPage page : Nat) (s : σ) : Answer (List α × Nat) × σ :=
  (.ok ((items.drop ((page - 1) * perPage)).take perPage,
    if page * perPage < items.length then page + 1 else 0) 200, s)

/-- GitLab's offset pagination of `items`, `perPage` to a page: page `p + 1` holds the items from
`p * perPage` on, and its `NextPage` is `p + 2` while items remain after it. Listing changes
nothing. -/
def OffsetPages (list : Nat → σ → Answer (List α × Nat) × σ) (items : List α) (perPage : Nat) :
    Prop :=
  ∀ p s, list (p + 1) s =
    (.ok ((items.drop (p * perPage)).take perPage,
      if (p + 1) * perPage < items.length then p + 2 else 0) 200, s)

section Offset

variable {list : Nat → σ → Answer (List α × Nat) × σ} {items : List α} {perPage : Nat}
  {stop : List α → Bool}

/-- **The loop over offset pagination.** When a page shorter than `perPage` is the only kind
`stop` stops at, the loop from page `p + 1`, with fuel for the pages left, adds every item from
`p * perPage` on, and changes nothing. -/
theorem paginate_offset (hpages : OffsetPages list items perPage)
    (hstop : ∀ xs, stop xs = true → xs.length < perPage) (step : β → α → β) :
    ∀ (fuel p : Nat) (acc : β) (w : World σ), 0 < fuel → items.length ≤ (p + fuel) * perPage →
      (paginate list stop step fuel (p + 1) acc).exec w =
        (.ok (some ((items.drop (p * perPage)).foldl step acc)), w)
  | 0, _, _, _, hfuel, _ => absurd hfuel (lt_irrefl 0)
  | fuel + 1, p, acc, w, _, hlen => by
    have hsucc : (p + 1) * perPage = p * perPage + perPage := Nat.succ_mul p perPage
    simp only [paginate, exec_bind, exec_call, hpages p w.server, Answer.toTriple, exec_deref_some]
    by_cases hmore : (p + 1) * perPage < items.length
    · -- a full page, and the loop goes on at page `p + 2`
      have hfull : ((items.drop (p * perPage)).take perPage).length = perPage := by
        simp only [List.length_take, List.length_drop]
        omega
      have hgo : stop ((items.drop (p * perPage)).take perPage) = false :=
        Bool.eq_false_iff.mpr fun h => absurd (hstop _ h) (by omega)
      have hfuel : 0 < fuel := Nat.pos_of_ne_zero fun h0 => by
        subst h0
        rw [Nat.zero_add] at hlen
        omega
      rw [if_pos hmore, if_neg (by simp [hgo]),
        paginate_offset hpages hstop step fuel (p + 1) _ _ hfuel
          (by rw [show p + 1 + fuel = p + (fuel + 1) by omega]; exact hlen),
        ← List.foldl_append, hsucc, ← List.drop_drop, List.take_append_drop]
    · -- the last page holds every item left
      rw [if_neg hmore, List.take_of_length_le (by simp only [List.length_drop]; omega)]
      simp

theorem offsetPages_offsetListing (items : List α) (perPage : Nat) :
    OffsetPages (offsetListing (σ := σ) items perPage) items perPage := fun _ _ => rfl

end Offset

/-- A loop that adds its items to two maps adds them to each. -/
theorem foldl_prod_mk {γ δ : Type} (f : γ → α → γ) (f' : δ → α → δ) :
    ∀ (l : List α) (c : γ) (d : δ),
      l.foldl (fun (cd : γ × δ) a => (f cd.1 a, f' cd.2 a)) (c, d) = (l.foldl f c, l.foldl f' d)
  | [], _, _ => rfl
  | a :: l, c, d => foldl_prod_mk f f' l (f c a) (f' d a)

/-- **`FetchAllTeams` lists every subgroup.** Over a GitLab that pages the parent group's
subgroups 100 at a time, with fuel for every page, `FetchAllTeams` returns under each name the
team of the last subgroup listed with it, and nothing under another name. -/
theorem fetchAllTeams_offset {groups : List Group}
    (hpages : OffsetPages (g.users.listSubGroups g.parentGroupId) groups 100) {fuel : Nat}
    (hfuel : 0 < fuel) (hlen : groups.length ≤ fuel * 100) (w : World σ) :
    ∃ teams, (g.fetchAllTeams fuel).exec w = (.ok (some teams), w) ∧
      ∀ name, teams.lookup name = (groups.reverse.find? (·.name = name)).map teamOfGroup := by
  refine ⟨_, paginate_offset hpages (fun _ h => by cases h) _ fuel 0 ∅ w hfuel
    (by rwa [Nat.zero_add]), fun name => ?_⟩
  simp [StringMap.lookup_foldl_insert]

/-- Two subgroups of the parent `7`. -/
def listedGroups : List Group := [⟨11, "team-a", "parent/team-a", none⟩, ⟨12, "team-b", "parent/team-b", none⟩]

/-- Three active humans; GitLab hides the email of two of them. -/
def listedUsers : List User :=
  [⟨1, "ann@example.com", "ann", "Ann"⟩, ⟨2, "", "bob", "Bob"⟩, ⟨3, "", "cid", "Cid"⟩]

/-- A GitLab that pages `listedGroups` and `listedUsers`, knows every id, finds no username,
gives no response to `CreateUser`, and accepts every deletion. -/
def listingAPI : UsersAPI Unit where
  listSubGroups _ := offsetListing listedGroups 100
  listActiveHumans := offsetListing listedUsers 100
  listUsersByUsername _ s := (.ok [] 200, s)
  getUser id s := (.ok ⟨id.toNat, "", "user" ++ toString id, ""⟩ 200, s)
  createUser _ _ _ s := (.noResponse "connection reset by peer", s)
  deleteUser _ s := (.ok () 204, s)

/-- The client of `listingAPI`, under the parent group `7`, without LDAP sync. -/
def listingClient : UsersClient Unit :=
  { gitlabClient :=
      { createGroup := fun _ _ s => (.noResponse "unused", s)
        getGroup := fun _ s => (.noResponse "unused", s)
        deleteGroup := fun _ _ s => (.noResponse "unused", s)
        addGroupLDAPLink := fun _ _ s => (.noResponse "unused", s)
        sendLdapSyncRequest := fun s => (.error "unused", s)
        shareProjectWithGroup := fun _ _ s => (.noResponse "unused", s) }
    parentGroupId := 7, cn := "", ldapSync := false, users := listingAPI, dependantExists := false }

theorem fetchAllTeams_listingClient :
    OffsetPages (listingClient.users.listSubGroups listingClient.parentGroupId) listedGroups 100 ∧
      0 < 1 ∧ listedGroups.length ≤ 1 * 100 ∧
      ∃ teams, (listingClient.fetchAllTeams 1).exec ⟨(), []⟩ = (.ok (some teams), ⟨(), []⟩) ∧
        ∀ name, teams.lookup name = (listedGroups.reverse.find? (·.name = name)).map teamOfGroup :=
  ⟨offsetPages_offsetListing _ _, by decide, by decide,
    fetchAllTeams_offset listingClient (offsetPages_offsetListing _ _) (by decide) (by decide) _⟩

/-- **`FetchAllUsers` lists every user.** Over a GitLab that pages the active human users 100 at
a time, with no backend depending on it and fuel for every page, `FetchAllUsers` returns under
each email the last user listed with it, and under each id the last user with that id. -/
theorem fetchAllUsers_offset {users : List User}
    (hpages : OffsetPages g.users.listActiveHumans users 100) (hdep : g.dependantExists = false)
    {fuel : Nat} (hfuel : 0 < fuel) (hlen : users.length ≤ fuel * 100) (w : World σ) :
    ∃ byEmail byID, (g.fetchAllUsers fuel).exec w = (.ok (some (byEmail, byID)), w) ∧
      (∀ email, byEmail.lookup email =
        (users.reverse.find? (·.email = email)).map userDetails) ∧
      ∀ id, byID.lookup id = (users.reverse.find? (toString ·.id = id)).map userDetails := by
  have hstop : ∀ users : List User, decide (users.length < 100) = true → users.length < 100 :=
    fun _ => of_decide_eq_true
  have hrun := paginate_offset hpages hstop (fun (maps : StringMap Usernaut.User × StringMap Usernaut.User) user =>
      (maps.1.insert user.email (userDetails user),
        maps.2.insert (toString user.id) (userDetails user))) fuel 0 (∅, ∅) w hfuel
    (by rwa [Nat.zero_add])
  have hfold :=
    foldl_prod_mk (fun (m : StringMap Usernaut.User) user => m.insert user.email (userDetails user))
      (fun (m : StringMap Usernaut.User) user => m.insert (toString user.id) (userDetails user))
      users ∅ ∅
  beta_reduce at hfold
  rw [Nat.zero_mul, List.drop_zero, hfold] at hrun
  refine ⟨_, _, by rw [fetchAllUsers, if_neg (by simp [hdep])]; exact hrun, fun email => ?_,
    fun id => ?_⟩ <;>
  simp [StringMap.lookup_foldl_insert]

theorem fetchAllUsers_listingClient :
    OffsetPages listingClient.users.listActiveHumans listedUsers 100 ∧
      listingClient.dependantExists = false ∧ 0 < 1 ∧ listedUsers.length ≤ 1 * 100 ∧
      ∃ byEmail byID, (listingClient.fetchAllUsers 1).exec ⟨(), []⟩ =
          (.ok (some (byEmail, byID)), ⟨(), []⟩) ∧
        (∀ email, byEmail.lookup email =
          (listedUsers.reverse.find? (·.email = email)).map userDetails) ∧
        ∀ id, byID.lookup id = (listedUsers.reverse.find? (toString ·.id = id)).map userDetails :=
  ⟨offsetPages_offsetListing _ _, rfl, by decide, by decide,
    fetchAllUsers_offset listingClient (offsetPages_offsetListing _ _) rfl (by decide) (by decide)
      _⟩

/-! ## User ids -/

/-- **An id the client printed is read back as that id**: `FetchUserDetails` fetches the user
by it, and `DeleteUser` deletes by it outside LDAP-sync mode. -/
theorem fetchUserDetails_userDetails (u : User) (h : u.id < 2 ^ 63) :
    g.fetchUserDetails (userDetails u).id = g.getUserByID u.id ∧
      g.deleteUser (userDetails u).id = if g.ldapSync then pure () else g.deleteUserByID u.id := by
  simp [fetchUserDetails, deleteUser, userDetails, Strconv.atoi_toString h]

theorem fetchUserDetails_userDetails_ann :
    (⟨1, "ann@example.com", "ann", "Ann"⟩ : User).id < 2 ^ 63 ∧
      listingClient.fetchUserDetails (userDetails ⟨1, "ann@example.com", "ann", "Ann"⟩).id =
        listingClient.getUserByID 1 ∧
      listingClient.deleteUser (userDetails ⟨1, "ann@example.com", "ann", "Ann"⟩).id =
        if listingClient.ldapSync then pure () else listingClient.deleteUserByID 1 :=
  ⟨by decide, fetchUserDetails_userDetails listingClient _ (by decide)⟩

/-- **A numeric username is taken for an id.** In LDAP-sync mode, `CreateUser` of a user whose
username is the numeral of `n < 2⁶³` fetches GitLab's user `n` by id, and never searches for
the username. -/
theorem createUser_numericUsername (u : Usernaut.User) {n : Nat} (h : n < 2 ^ 63)
    (hname : u.userName = toString n) (hsync : g.ldapSync = true) :
    g.createUser u = (do
      let user ← g.getUserByID n
      pure (if user.email = "" then { user with email := u.email } else user)) := by
  simp only [createUser, hsync, if_true, fetchUserDetails, hname, Strconv.atoi_toString h]

/-- `listingClient` in LDAP-sync mode. -/
def ldapSyncListingClient : UsersClient Unit := { listingClient with ldapSync := true }

theorem createUser_numericUsername_1234 :
    (1234 : Nat) < 2 ^ 63 ∧
      (⟨"", "n@example.com", "1234", "", "", ""⟩ : Usernaut.User).userName = toString 1234 ∧
      ldapSyncListingClient.ldapSync = true ∧
      ldapSyncListingClient.createUser ⟨"", "n@example.com", "1234", "", "", ""⟩ = (do
        let user ← ldapSyncListingClient.getUserByID (1234 : Nat)
        pure (if user.email = "" then { user with email := "n@example.com" } else user)) :=
  ⟨by decide, rfl, rfl, createUser_numericUsername ldapSyncListingClient _ (by decide) rfl rfl⟩

/-- **`CreateUser` panics without a response.** Outside LDAP-sync mode, when `CreateUser` gets
no HTTP response, the client reads the status code of the nil response. -/
theorem createUser_noResponse_panics (u : Usernaut.User) (w : World σ) {err : String}
    (hsync : g.ldapSync = false)
    (h : (g.users.createUser u.email u.userName u.firstName w.server).1 = .noResponse err) :
    ((g.createUser u).exec w).1 = .error .nilDereference := by
  simp [createUser, hsync, h, Answer.toTriple]

example : ((listingClient.createUser ⟨"", "n@example.com", "nora", "", "Nora", ""⟩).exec
    ⟨(), []⟩).1 = .error .nilDereference :=
  createUser_noResponse_panics listingClient _ _ rfl rfl

end UsersClient

end Gitlab

end Usernaut
