import Usernaut.PeriodicJobs.Sweep
import Mathlib.Data.String.Basic

/-!
# The Snowflake client: users

`SnowflakeClient` (`pkg/clients/snowflake`) reaches Snowflake's REST API through two helpers
that are not in the sources, and are modelled from their use here: `fetchAllWithPagination`,
which hands the body of each page of a listing to a handler, in order, and returns the first
error, the handler's included; and `makeRequestWithPolling`, one request with its response's
body and status.

`FetchAllUsersWithCursor` lists every user into a map by id and a map by email, both keys
lower-cased, and returns the last name listed, which `FetchRemainingUsersAsync` takes as its
cursor: it lists the users after the cursor, `10000` at a time, sends each user on a channel,
and moves the cursor to the last name sent until a batch is short.

* The maps hold, under each key, the last user listed with that key, and the email map skips
  users without an email (`fetchAllUsersWithCursor_ok`).
* Over a Snowflake that lists its users in the order of their names, from the name after the
  cursor, the stream of `FetchRemainingUsersAsync` is every user after the cursor, once each and
  in order, however the batches are split into pages (`fetchRemainingUsers_cursor`). Started
  from the cursor `FetchAllUsersWithCursor` ends at, it sends exactly the users the preload did
  not list (`fetchRemainingUsers_afterPreload`).
* `DeleteUser` of a user Snowflake no longer has fails, as any status other than `200` and `204`
  does. A record holding such an id is never offboarded: `offboardUser` fails on it and keeps it
  (`offboardUser_snowflakeNotFound`).

`strings.ToLower` lower-cases by Unicode's case tables, which the model does not restate: the
client reads it from the API (`API.toLower`), and the examples, whose text is ASCII, lower-case
ASCII letters. The log lines, the context's cancellation and `DisplayName` are left
out; `Response.user` and `API.decodeUsers` stand for `json.Unmarshal` of a body.

## Main definitions

* `Snowflake.API`: the REST API as the client reaches it.
* `Snowflake.API.fetchAllUsersWithCursor`, `Snowflake.API.fetchRemainingUsers`,
  `Snowflake.API.createUser`, `Snowflake.API.fetchUserDetails`, `Snowflake.API.deleteUser`.
* `Snowflake.CursorListing`: a Snowflake that lists its users by name.
-/

namespace Usernaut

namespace Snowflake

variable {σ : Type}

/-- `SnowflakeUser`: the fields the client reads. -/
structure SnowflakeUser where
  name : String
  email : String
  deriving DecidableEq, Repr

/-- `snowflakeUserToStruct`, with `strings.ToLower` as `toLower`: the id and the username are
the lower-cased name. -/
def snowflakeUserToStruct (toLower : String → String) (user : SnowflakeUser) : User :=
  { id := toLower user.name, email := toLower user.email, userName := toLower user.name,
    role := "", firstName := "", lastName := "" }

/-- `snowflakeUsersPageLimit`. -/
def snowflakeUsersPageLimit : Nat := 10000

/-- A response of `makeRequestWithPolling`. -/
structure Response where
  body : String
  /-- `json.Unmarshal` of the body into a `SnowflakeUser`, or its error. -/
  user : Except String SnowflakeUser
  status : Nat

/-- Snowflake's REST API, against its state `σ`. -/
structure API (σ : Type) where
  /-- `fetchAllWithPagination(ctx, endpoint, handler)`: the bodies of the pages, in order, and
  the error that ended the listing, if any. -/
  fetchAllWithPagination : String → σ → (List String × Option String) × σ
  /-- `json.Unmarshal` of a page into `[]SnowflakeUser`, or its error. -/
  decodeUsers : String → Except String (List SnowflakeUser)
  /-- `makeRequestWithPolling(ctx, endpoint, method, payload)`. -/
  makeRequestWithPolling : String → String → List (String × String) → σ → Except String Response × σ
  /-- `http.StatusText`. -/
  statusText : Nat → String
  /-- `strings.ToLower`, which lower-cases by Unicode's case tables. -/
  toLower : String → String

namespace API

variable (api : API σ)

/-! ## `FetchAllUsersWithCursor` -/

/-- What `FetchAllUsersWithCursor` has collected: the map by id, the map by email, and the
last name listed. -/
abbrev Collected := StringMap User × StringMap User × String

/-- The handler's loop over a page's users: each user goes into the map by id, and into the
map by email when it has one; the cursor moves to its name. -/
def addUser (acc : Collected) (user : SnowflakeUser) : Collected :=
  let structUser := snowflakeUserToStruct api.toLower user
  (acc.1.insert structUser.id structUser,
    if structUser.email ≠ "" then acc.2.1.insert structUser.email structUser else acc.2.1,
    user.name)

/-- The handler of `FetchAllUsersWithCursor`: decode the page, then add its users. -/
def handlePage (acc : Collected) (page : String) : Except String Collected :=
  match api.decodeUsers page with
  | .error err => .error ("failed to parse users response: " ++ err)
  | .ok users => .ok (users.foldl api.addUser acc)

/-- `FetchAllUsersWithCursor`: the map by id, the map by email, and the last name listed. -/
def fetchAllUsersWithCursor (s : σ) : Except String Collected × σ :=
  match api.fetchAllWithPagination "/api/v2/users" s with
  | ((pages, err), s') =>
    match pages.foldlM api.handlePage (∅, ∅, "") with
    | .error err => (.error err, s')
    | .ok acc =>
      match err with
      | some err => (.error err, s')
      | none => (.ok acc, s')

/-- `FetchAllUsers`: the two maps of `FetchAllUsersWithCursor`. -/
def fetchAllUsers (s : σ) : Except String (StringMap User × StringMap User) × σ :=
  match api.fetchAllUsersWithCursor s with
  | (r, s') => (r.map fun acc => (acc.1, acc.2.1), s')

/-! ## `FetchRemainingUsersAsync` -/

/-- What `FetchRemainingUsersAsync` sends: the users on `userChan`, in order, then the error on
`errChan`, if any, before both are closed. -/
structure Stream where
  users : List User
  err : Option String
  deriving DecidableEq

/-- The endpoint of the batch after `cursor`. -/
def batchEndpoint (cursor : String) : String :=
  "/api/v2/users?showLimit=" ++ toString snowflakeUsersPageLimit ++ "&fromName=" ++ cursor

/-- The handler of one batch over its pages: each user is sent and counted, and the new cursor
is the last name sent. The users of the pages before a page that does not decode have been
sent. -/
def sendPages : List String → List User × Nat × String → (List User × Nat × String) × Option String
  | [], acc => (acc, none)
  | page :: pages, acc =>
    match api.decodeUsers page with
    | .error err => (acc, some ("failed to parse users: " ++ err))
    | .ok users =>
      sendPages pages (acc.1 ++ users.map (snowflakeUserToStruct api.toLower),
        acc.2.1 + users.length, (users.getLast?.map (·.name)).getD acc.2.2)

/-- `FetchRemainingUsersAsync(ctx, fromName)`, with `fuel` batches: `none` when the fuel ends
first. -/
def fetchRemainingUsers : Nat → String → σ → Option Stream × σ
  | 0, _, s => (none, s)
  | fuel + 1, cursor, s =>
    match api.fetchAllWithPagination (batchEndpoint cursor) s with
    | ((pages, perr), s') =>
      match api.sendPages pages ([], 0, "") with
      | ((sent, _, _), some err) => (some ⟨sent, some err⟩, s')
      | ((sent, batchCount, newCursor), none) =>
        match perr with
        | some err => (some ⟨sent, some err⟩, s')
        | none =>
          if batchCount < snowflakeUsersPageLimit then (some ⟨sent, none⟩, s')
          else
            match fetchRemainingUsers fuel newCursor s' with
            | (some rest, s'') => (some ⟨sent ++ rest.users, rest.err⟩, s'')
            | (none, s'') => (none, s'')

/-! ## Users one at a time -/

/-- `FetchUserDetails`: `GET /api/v2/users/<userID>`. -/
def fetchUserDetails (userID : String) (s : σ) : Except String User × σ :=
  match api.makeRequestWithPolling ("/api/v2/users/" ++ userID) "GET" [] s with
  | (.error err, s') => (.error err, s')
  | (.ok resp, s') =>
    if resp.status ≠ 200 then
      (.error ("failed to fetch user details, status: " ++ api.statusText resp.status ++
        ", body: " ++ resp.body), s')
    else
      match resp.user with
      | .error err => (.error ("failed to parse user response: " ++ err), s')
      | .ok user => (.ok (snowflakeUserToStruct api.toLower user), s')

/-- `CreateUser`: a conflict is an existing user, fetched by its username. `DisplayName` is
left out, and with it the payload's `displayName`. -/
def createUser (user : User) (s : σ) : Except String User × σ :=
  if user.email = "" ∨ user.userName = "" then
    (.error "email and username are required for Snowflake user creation", s)
  else
    match api.makeRequestWithPolling "/api/v2/users" "POST"
        [("name", user.userName), ("email", user.email)] s with
    | (.error err, s') => (.error err, s')
    | (.ok resp, s') =>
      if resp.status = 409 then api.fetchUserDetails user.userName s'
      else if resp.status ≠ 200 ∧ resp.status ≠ 201 then
        (.error ("failed to create user, status: " ++ api.statusText resp.status ++ ", body: " ++
          resp.body), s')
      else
        match resp.user with
        | .error err => (.error ("failed to parse create user response: " ++ err), s')
        | .ok created => (.ok (snowflakeUserToStruct api.toLower created), s')

/-- `DeleteUser`: `DELETE /api/v2/users/<userID>`, which succeeds on `200` and `204`. -/
def deleteUser (userID : String) (s : σ) : Except String Unit × σ :=
  match api.makeRequestWithPolling ("/api/v2/users/" ++ userID) "DELETE" [] s with
  | (.error err, s') => (.error ("failed to delete user: " ++ err), s')
  | (.ok resp, s') =>
    if resp.status ≠ 200 ∧ resp.status ≠ 204 then
      (.error ("failed to delete user, status: " ++ api.statusText resp.status ++ ", body: " ++
        resp.body), s')
    else (.ok (), s')

/-! ## The maps of `FetchAllUsersWithCursor` -/

/-- The handler's loop builds each map by inserts, the email map over the users with an email,
and ends at the last name. -/
theorem foldl_addUser : ∀ (users : List SnowflakeUser) (acc : Collected),
    users.foldl api.addUser acc =
      (users.foldl (fun m u => m.insert (snowflakeUserToStruct api.toLower u).id
          (snowflakeUserToStruct api.toLower u)) acc.1,
        (users.filter fun u => (snowflakeUserToStruct api.toLower u).email ≠ "").foldl
          (fun m u => m.insert (snowflakeUserToStruct api.toLower u).email
            (snowflakeUserToStruct api.toLower u)) acc.2.1,
        (users.getLast?.map (·.name)).getD acc.2.2)
  | [], _ => rfl
  | u :: users, acc => by
    rw [List.foldl_cons, foldl_addUser users]
    by_cases hemail : (snowflakeUserToStruct api.toLower u).email ≠ "" <;>
      simp [addUser, hemail, List.filter_cons, List.getLast?_cons]

/-- The handler over pages that decode is its loop over all their users. -/
theorem foldlM_handlePage : ∀ {pages : List String} {users : List (List SnowflakeUser)}
    (acc : Collected), List.Forall₂ (fun page us => api.decodeUsers page = .ok us) pages users →
      pages.foldlM api.handlePage acc = .ok (users.flatten.foldl api.addUser acc)
  | [], [], _, .nil => rfl
  | _ :: _, us :: _, acc, .cons hpage hrest => by
    rw [List.foldlM_cons, handlePage, hpage]
    exact (foldlM_handlePage _ hrest).trans (by rw [List.flatten_cons, List.foldl_append])

/-- When every page decodes, `FetchAllUsersWithCursor` is its handler's loop over all the users
listed. -/
theorem fetchAllUsersWithCursor_eq {s s' : σ} {pages : List String}
    {users : List (List SnowflakeUser)}
    (hlist : api.fetchAllWithPagination "/api/v2/users" s = ((pages, none), s'))
    (hdecode : List.Forall₂ (fun page us => api.decodeUsers page = .ok us) pages users) :
    api.fetchAllUsersWithCursor s = (.ok (users.flatten.foldl api.addUser (∅, ∅, "")), s') := by
  rw [fetchAllUsersWithCursor, hlist]
  dsimp only
  rw [api.foldlM_handlePage _ hdecode]

/-- **The maps of `FetchAllUsersWithCursor`.** When every page decodes, the map by id holds,
under each lower-cased name, the last user listed with that name; the map by email holds, under
each lower-cased email, the last user listed with it, and nothing under the empty email; and the
cursor is the last name listed. -/
theorem fetchAllUsersWithCursor_ok {s s' : σ} {pages : List String}
    {users : List (List SnowflakeUser)}
    (hlist : api.fetchAllWithPagination "/api/v2/users" s = ((pages, none), s'))
    (hdecode : List.Forall₂ (fun page us => api.decodeUsers page = .ok us) pages users) :
    ∃ byID byEmail, api.fetchAllUsersWithCursor s =
        (.ok (byID, byEmail, (users.flatten.getLast?.map (·.name)).getD ""), s') ∧
      (∀ id, byID.lookup id = (users.flatten.reverse.find? fun u => api.toLower u.name = id).map
        (snowflakeUserToStruct api.toLower)) ∧
      ∀ email, byEmail.lookup email = if email = "" then none else
        (users.flatten.reverse.find? fun u => api.toLower u.email = email).map
          (snowflakeUserToStruct api.toLower) := by
  rw [api.fetchAllUsersWithCursor_eq hlist hdecode, foldl_addUser]
  refine ⟨_, _, rfl, fun id => ?_, fun email => ?_⟩
  · rw [StringMap.lookup_foldl_insert]
    simp [snowflakeUserToStruct]
  · rw [StringMap.lookup_foldl_insert]
    split_ifs with hempty
    · subst hempty
      simp [snowflakeUserToStruct]
    · simp only [snowflakeUserToStruct, ← List.filter_reverse, List.find?_filter,
        Finmap.lookup_empty, Option.or_none]
      congr 2
      funext u
      by_cases hu : api.toLower u.email = email <;> simp [hu, hempty]

/-- `strings.ToLower` on ASCII text, which is all the examples' names and emails hold. -/
def asciiToLower (s : String) : String := ⟨s.data.map Char.toLower⟩

/-- Two pages: `Bob`, then `BOB` with no email. -/
def twoPages : List (List SnowflakeUser) := [[⟨"Bob", "Bob@x.com"⟩], [⟨"BOB", ""⟩]]

/-- A Snowflake that lists `twoPages`. -/
def twoPageAPI : API Unit where
  fetchAllWithPagination _ s := ((["page1", "page2"], none), s)
  decodeUsers page := .ok (if page = "page1" then twoPages.headD [] else twoPages.getLastD [])
  makeRequestWithPolling _ _ _ s := (.error "unused", s)
  statusText _ := ""
  toLower := asciiToLower

/-- `Bob` and `BOB` are one id, `bob`, under which the map keeps `BOB`; the email map keeps
`Bob` under `bob@x.com`. -/
theorem fetchAllUsersWithCursor_twoPages :
    twoPageAPI.fetchAllWithPagination "/api/v2/users" () = ((["page1", "page2"], none), ()) ∧
      List.Forall₂ (fun page us => twoPageAPI.decodeUsers page = .ok us) ["page1", "page2"]
        twoPages ∧
      ∃ byID byEmail, twoPageAPI.fetchAllUsersWithCursor () =
          (.ok (byID, byEmail, (twoPages.flatten.getLast?.map (·.name)).getD ""), ()) ∧
        (∀ id, byID.lookup id =
          (twoPages.flatten.reverse.find? fun u => twoPageAPI.toLower u.name = id).map
            (snowflakeUserToStruct twoPageAPI.toLower)) ∧
        ∀ email, byEmail.lookup email = if email = "" then none else
          (twoPages.flatten.reverse.find? fun u => twoPageAPI.toLower u.email = email).map
            (snowflakeUserToStruct twoPageAPI.toLower) :=
  have hlist : twoPageAPI.fetchAllWithPagination "/api/v2/users" () =
      ((["page1", "page2"], none), ()) := rfl
  have hdecode : List.Forall₂ (fun page us => twoPageAPI.decodeUsers page = .ok us)
      ["page1", "page2"] twoPages := .cons rfl (.cons rfl .nil)
  ⟨hlist, hdecode, twoPageAPI.fetchAllUsersWithCursor_ok hlist hdecode⟩

/-! ## The cursor of `FetchRemainingUsersAsync` -/

theorem getD_map_getLast?_append {α β : Type} (f : α → β) (l l' : List α) (d : β) :
    (((l ++ l').getLast?.map f).getD d) = (l'.getLast?.map f).getD ((l.getLast?.map f).getD d) := by
  rw [List.getLast?_append]
  cases l'.getLast? <;> rfl

/-- The handler over the pages of a batch that all decode sends every user of the batch,
counts them, and ends at the last name. -/
theorem sendPages_ok : ∀ {pages : List String} {users : List (List SnowflakeUser)}
    (acc : List User × Nat × String),
    List.Forall₂ (fun page us => api.decodeUsers page = .ok us) pages users →
      api.sendPages pages acc = ((acc.1 ++ users.flatten.map (snowflakeUserToStruct api.toLower),
        acc.2.1 + users.flatten.length, (users.flatten.getLast?.map (·.name)).getD acc.2.2), none)
  | [], [], acc, .nil => by simp [sendPages]
  | _ :: _, us :: _, acc, .cons hpage hrest => by
    rw [sendPages, hpage]
    dsimp only
    rw [sendPages_ok _ hrest, List.flatten_cons, List.map_append, List.length_append,
      getD_map_getLast?_append, List.append_assoc, Nat.add_assoc]

/-- The users whose names come after `cursor`, in order. -/
def after (cursor : String) (users : List SnowflakeUser) : List SnowflakeUser :=
  users.filter fun u => cursor < u.name

/-- Over users in the order of their names, the users after a user listed after the cursor are
those listed after it. -/
theorem after_of_eq_append {users : List SnowflakeUser}
    (hsorted : users.Pairwise fun u v => u.name < v.name) {cursor : String}
    {xs rest : List SnowflakeUser} {x : SnowflakeUser} (h : after cursor users = xs ++ x :: rest) :
    after x.name users = rest := by
  have hx : cursor < x.name := by
    have := List.mem_filter.mp (h ▸ List.mem_append_right xs (List.mem_cons_self x rest) :
      x ∈ after cursor users)
    simpa using this.2
  -- a name after `x`'s is after the cursor
  have hfilter : after x.name users = (after cursor users).filter fun u => x.name < u.name := by
    simp only [after, List.filter_filter]
    refine List.filter_congr fun u _ => ?_
    by_cases hu : x.name < u.name
    · simp [hu, hx.trans hu]
    · simp [hu]
  have hsorted' : (xs ++ x :: rest).Pairwise fun u v => u.name < v.name :=
    h ▸ hsorted.sublist (List.filter_sublist _)
  obtain ⟨hxs, hrest, hacross⟩ := List.pairwise_append.mp hsorted'
  rw [hfilter, h, List.filter_append, List.filter_cons, List.filter_eq_nil_iff.mpr, List.nil_append]
  · simp only [lt_irrefl, decide_False, Bool.false_eq_true, if_false]
    exact List.filter_eq_self.mpr fun u hu => by simpa using (List.pairwise_cons.mp hrest).1 u hu
  · intro u hu
    simpa using (hacross u hu x (List.mem_cons_self x rest)).le.not_lt

/-- Over users in the order of their names, a full batch after the cursor ends at a user after
whose name come exactly the users the batch left. -/
theorem after_getLast_take {users : List SnowflakeUser}
    (hsorted : users.Pairwise fun u v => u.name < v.name) {cursor : String} {n : Nat}
    (hfull : n ≤ (after cursor users).length) (hn : 0 < n) :
    ∃ x, ((after cursor users).take n).getLast? = some x ∧
      after x.name users = (after cursor users).drop n := by
  have hne : (after cursor users).take n ≠ [] := by
    rw [← List.length_pos, List.length_take]
    omega
  have hsplit : after cursor users = ((after cursor users).take n).dropLast ++
      ((after cursor users).take n).getLast hne :: (after cursor users).drop n := by
    conv_lhs => rw [← List.take_append_drop n (after cursor users),
      ← List.dropLast_append_getLast hne]
    rw [List.append_assoc, List.singleton_append]
  exact ⟨_, List.getLast?_eq_getLast _ hne, after_of_eq_append hsorted hsplit⟩

/-- A Snowflake whose users, in the order of their names, are `users`, and that lists the batch
after any cursor as the client asks for it: the first `showLimit` users after the cursor, in
pages of any size, each of which decodes to its users. -/
def CursorListing (users : List SnowflakeUser) : Prop :=
  users.Pairwise (fun u v => u.name < v.name) ∧
    ∀ cursor s, ∃ pages batch s', api.fetchAllWithPagination (batchEndpoint cursor) s =
        ((pages, none), s') ∧ List.Forall₂ (fun page us => api.decodeUsers page = .ok us) pages batch ∧
      batch.flatten = (after cursor users).take snowflakeUsersPageLimit

/-- The stream from a cursor, by induction on the batches: a short batch is the last, and a full
one moves the cursor to where the rest starts. -/
theorem fetchRemainingUsers_after {users : List SnowflakeUser} (hlist : api.CursorListing users) :
    ∀ (fuel : Nat) (cursor : String) (s : σ),
      (after cursor users).length < fuel * snowflakeUsersPageLimit →
      (api.fetchRemainingUsers fuel cursor s).1 =
        some ⟨(after cursor users).map (snowflakeUserToStruct api.toLower), none⟩
  | 0, _, _, hlen => absurd hlen (by simp)
  | fuel + 1, cursor, s, hlen => by
    obtain ⟨pages, batch, s', hfetch, hdecode, hbatch⟩ := hlist.2 cursor s
    rw [fetchRemainingUsers, hfetch]
    dsimp only
    rw [api.sendPages_ok _ hdecode, hbatch]
    dsimp only
    rw [List.nil_append, zero_add, List.length_take]
    by_cases hshort : (after cursor users).length < snowflakeUsersPageLimit
    · -- a short batch is the last
      rw [if_pos (by omega), List.take_of_length_le hshort.le]
    · -- the cursor moves to the batch's last name
      rw [if_neg (by omega)]
      obtain ⟨x, hlast, hnext⟩ := after_getLast_take hlist.1 (Nat.le_of_not_lt hshort)
        (by decide : 0 < snowflakeUsersPageLimit)
      have ih := fetchRemainingUsers_after hlist fuel x.name s' (by
        rw [hnext, List.length_drop]
        unfold snowflakeUsersPageLimit at hlen hshort ⊢
        omega)
      rw [hlast, Option.map_some', Option.getD_some]
      rcases hrest : api.fetchRemainingUsers fuel x.name s' with ⟨_ | r, s''⟩ <;>
        rw [hrest] at ih <;> simp only [Option.some.injEq, reduceCtorEq] at ih
      subst ih
      simp only [hnext, ← List.map_append, List.take_append_drop]

/-- **The cursor loses and repeats no user.** Over a Snowflake that lists its users by name,
the stream `FetchRemainingUsersAsync` sends from a cursor is every user after the cursor, once
each and in order, with no error, given a batch for every `10000` of them and one more. -/
theorem fetchRemainingUsers_cursor {users : List SnowflakeUser} (hlist : api.CursorListing users) :
    ∀ (fuel : Nat) (cursor : String) (s : σ),
      (after cursor users).length < fuel * snowflakeUsersPageLimit →
      (api.fetchRemainingUsers fuel cursor s).1 =
        some ⟨(after cursor users).map (snowflakeUserToStruct api.toLower), none⟩ :=
  api.fetchRemainingUsers_after hlist

theorem batchEndpoint_data (cursor : String) :
    (batchEndpoint cursor).data = (batchEndpoint "").data ++ cursor.data := by
  simp [batchEndpoint]

/-- Three users, in the order of their names. -/
def exampleUsers : List SnowflakeUser :=
  [⟨"ANN", "ann@x.com"⟩, ⟨"BOB", ""⟩, ⟨"CID", "cid@x.com"⟩]

/-- A Snowflake of `exampleUsers` that answers a batch with one page, the users after the
cursor it reads back from the endpoint. -/
def exampleAPI : API Unit where
  fetchAllWithPagination endpoint s := (([endpoint], none), s)
  decodeUsers page := .ok (after ⟨page.data.drop (batchEndpoint "").data.length⟩ exampleUsers)
  makeRequestWithPolling _ _ _ s := (.error "unused", s)
  statusText _ := ""
  toLower := asciiToLower

theorem cursorListing_exampleAPI : exampleAPI.CursorListing exampleUsers := by
  refine ⟨?_, fun cursor s => ⟨[batchEndpoint cursor], [after cursor exampleUsers], s, rfl,
    .cons ?_ .nil, ?_⟩⟩
  · simp only [exampleUsers, List.pairwise_cons, List.mem_cons, List.mem_singleton,
      forall_eq_or_imp, forall_eq, List.not_mem_nil, false_implies, implies_true,
      List.Pairwise.nil, and_true, String.lt_iff_toList_lt]
    decide
  · show Except.ok (after ⟨(batchEndpoint cursor).data.drop _⟩ exampleUsers) = _
    rw [batchEndpoint_data cursor, List.drop_left]
  · have hlen : (after cursor exampleUsers).length ≤ snowflakeUsersPageLimit :=
      le_trans (List.length_filter_le _ exampleUsers) (by decide)
    rw [List.flatten_cons, List.flatten_nil, List.append_nil, List.take_of_length_le hlen]

/-- From before the first name, the stream is all of `exampleUsers`, in one batch. -/
theorem fetchRemainingUsers_exampleAPI :
    exampleAPI.CursorListing exampleUsers ∧
      (after "" exampleUsers).length < 1 * snowflakeUsersPageLimit ∧
      (exampleAPI.fetchRemainingUsers 1 "" ()).1 =
        some ⟨(after "" exampleUsers).map (snowflakeUserToStruct exampleAPI.toLower), none⟩ :=
  have hlen : (after "" exampleUsers).length < 1 * snowflakeUsersPageLimit :=
    lt_of_le_of_lt (List.length_filter_le _ exampleUsers) (by decide)
  ⟨cursorListing_exampleAPI, hlen,
    exampleAPI.fetchRemainingUsers_cursor cursorListing_exampleAPI 1 "" () hlen⟩

/-! ## Preload, then the continuation -/

/-- With no empty name, every user comes after the empty cursor. -/
theorem after_empty {users : List SnowflakeUser} (hnames : ∀ u ∈ users, u.name ≠ "") :
    after "" users = users :=
  List.filter_eq_self.mpr fun u hu => by
    obtain ⟨c, cs, hc⟩ := List.exists_cons_of_ne_nil fun hd => hnames u hu (String.ext hd)
    simp [String.lt_iff_toList_lt, String.toList, hc, List.nil_lt_cons]

/-- Over users in the order of their names, none of them empty, the users after the cursor
`FetchAllUsersWithCursor` ends at, having listed the first `k`, are the others. -/
theorem after_lastName_take {users : List SnowflakeUser}
    (hsorted : users.Pairwise fun u v => u.name < v.name) (hnames : ∀ u ∈ users, u.name ≠ "")
    (k : Nat) : after (((users.take k).getLast?.map (·.name)).getD "") users = users.drop k := by
  rcases hlast : (users.take k).getLast? with _ | x
  · -- nothing listed: the cursor is empty
    rcases List.take_eq_nil_iff.mp (List.getLast?_eq_none_iff.mp hlast) with rfl | rfl
    · exact after_empty hnames
    · simp [after]
  · -- the cursor is the last name listed
    have hsplit : after "" users = (users.take k).dropLast ++ x :: users.drop k := by
      conv_lhs => rw [after_empty hnames, ← List.take_append_drop k users,
        ← List.dropLast_append_getLast? x hlast]
      rw [List.append_assoc, List.singleton_append]
    exact after_of_eq_append hsorted hsplit

/-- **Preload and its continuation list every user once.** Over a Snowflake that lists its
users by name, none of them with an empty name, and whose `/api/v2/users` lists the first `k`
of them: `FetchAllUsersWithCursor` collects those `k`, and ends at a cursor from which
`FetchRemainingUsersAsync` sends exactly the others, in order, given a batch for every `10000`
of them and one more. -/
theorem fetchRemainingUsers_afterPreload {users : List SnowflakeUser}
    (hlist : api.CursorListing users) (hnames : ∀ u ∈ users, u.name ≠ "") {k fuel : Nat}
    {s s₁ : σ} {pages : List String} {batches : List (List SnowflakeUser)}
    (hfirst : api.fetchAllWithPagination "/api/v2/users" s = ((pages, none), s₁))
    (hdecode : List.Forall₂ (fun page us => api.decodeUsers page = .ok us) pages batches)
    (hlisted : batches.flatten = users.take k)
    (hfuel : users.length - k < fuel * snowflakeUsersPageLimit) :
    ∃ acc, api.fetchAllUsersWithCursor s = (.ok acc, s₁) ∧
      acc = (users.take k).foldl api.addUser (∅, ∅, "") ∧
      (api.fetchRemainingUsers fuel acc.2.2 s₁).1 =
        some ⟨(users.drop k).map (snowflakeUserToStruct api.toLower), none⟩ := by
  have hcursor := after_lastName_take hlist.1 hnames k
  refine ⟨_, api.fetchAllUsersWithCursor_eq hfirst hdecode, by rw [hlisted], ?_⟩
  rw [hlisted, foldl_addUser, ← hcursor]
  exact api.fetchRemainingUsers_after hlist fuel _ s₁ (by rwa [hcursor, List.length_drop])

/-- On `exampleAPI`, `/api/v2/users` lists all three users, and the continuation from `CID` is
one empty batch. -/
theorem fetchRemainingUsers_afterPreload_exampleAPI :
    (∀ u ∈ exampleUsers, u.name ≠ "") ∧ exampleUsers.length - 3 < 1 * snowflakeUsersPageLimit ∧
      ∃ acc, exampleAPI.fetchAllUsersWithCursor () = (.ok acc, ()) ∧
        acc = (exampleUsers.take 3).foldl exampleAPI.addUser (∅, ∅, "") ∧
        (exampleAPI.fetchRemainingUsers 1 acc.2.2 ()).1 =
          some ⟨(exampleUsers.drop 3).map (snowflakeUserToStruct exampleAPI.toLower), none⟩ :=
  have hnames : ∀ u ∈ exampleUsers, u.name ≠ "" := by decide
  have hfuel : exampleUsers.length - 3 < 1 * snowflakeUsersPageLimit := by decide
  have hfirst : exampleAPI.fetchAllWithPagination "/api/v2/users" () =
      ((["/api/v2/users"], none), ()) := rfl
  -- the first listing reads the empty cursor back from its endpoint
  have hdecode : List.Forall₂ (fun page us => exampleAPI.decodeUsers page = .ok us)
      ["/api/v2/users"] [exampleUsers] := .cons (by
    show Except.ok (after ⟨_⟩ exampleUsers) = _
    rw [show (⟨("/api/v2/users" : String).data.drop (batchEndpoint "").data.length⟩ : String) = ""
      by decide, after_empty hnames]) .nil
  ⟨hnames, hfuel, exampleAPI.fetchRemainingUsers_afterPreload cursorListing_exampleAPI hnames hfirst
    hdecode rfl hfuel⟩

/-- `DeleteUser` of a user Snowflake answers `404 Not Found` for fails. -/
theorem deleteUser_notFound {userID : String} {s s' : σ} {resp : Response}
    (h : api.makeRequestWithPolling ("/api/v2/users/" ++ userID) "DELETE" [] s = (.ok resp, s'))
    (h404 : resp.status = 404) :
    api.deleteUser userID s = (.error ("failed to delete user, status: " ++ api.statusText 404 ++
      ", body: " ++ resp.body), s') := by
  simp [deleteUser, h, h404]

end API

/-- A Snowflake whose users are all gone: it lists none, and answers every request with
`404 Not Found`. -/
def goneAPI : API Unit where
  fetchAllWithPagination _ s := (([], none), s)
  decodeUsers _ := .ok []
  makeRequestWithPolling _ _ _ s := (.ok ⟨"User does not exist", .error "no user", 404⟩, s)
  statusText status := if status = 404 then "Not Found" else ""
  toLower := API.asciiToLower

/-- A Snowflake backend client of `goneAPI`. Snowflake's team methods are not in the sources;
these answer with success. -/
def goneClient : Client Unit where
  createTeam _ team s := (.ok team, s)
  createUser _ := goneAPI.createUser
  fetchTeamMembersByTeamID _ s := (.ok [], s)
  addUserToTeam _ _ s := (.ok (), s)
  removeUserFromTeam _ _ s := (.ok (), s)
  deleteTeamByID _ s := (.ok (), s)
  deleteUser := goneAPI.deleteUser
  isGitlab := false

end Snowflake

/-! ## Offboarding a user Snowflake no longer has -/

namespace UserOffboardingJob

/-- A pass of the backend loop only appends errors, and never fails. -/
theorem offboardBackendStep_exec_ok (userData : StringMap String) (errors : List String)
    (c : Backend × Client σ) (w : World σ) :
    ∃ errors' w', (offboardBackendStep userData errors c).exec w = (.ok errors', w') ∧
      errors <+: errors' := by
  obtain ⟨errors', hok⟩ := offboardBackendStep_succeeds userData errors c w
  have hexec : (offboardBackendStep userData errors c).exec w =
      (.ok errors', ((offboardBackendStep userData errors c).exec w).2) := Prod.ext hok rfl
  exact ⟨errors', _, hexec, (offboardBackendStep_ok hexec).1⟩

/-- A pass of the backend loop for a client the record must be offboarded from, and whose
`DeleteUser` of the record's id fails, records an error. -/
theorem offboardBackendStep_of_deleteUser_error {userData : StringMap String}
    {c : Backend × Client σ} {id : String} (hoff : Offboards userData c id)
    (hfail : ∀ s, ∃ err, (c.2.deleteUser id s).1 = .error err) (errors : List String)
    (w : World σ) :
    ∃ errors' w', (offboardBackendStep userData errors c).exec w = (.ok errors', w') ∧
      errors' ≠ [] := by
  obtain ⟨ty, hty, hskip, hid⟩ := hoff
  obtain ⟨err, herr⟩ := hfail (w.backends c.1)
  unfold offboardBackendStep
  simp only [hty, if_neg hskip, hid, exec_tryCatch, exec_bind, exec_callBackend, herr]
  exact ⟨_, _, rfl, by simp⟩

/-- Once the backend loop holds an error, it keeps one. -/
theorem foldlM_offboardBackendStep_ne_nil (userData : StringMap String) :
    ∀ (clients : List (Backend × Client σ)) (errors : List String) (w : World σ), errors ≠ [] →
      ∃ errors' w', (clients.foldlM (offboardBackendStep userData) errors).exec w =
        (.ok errors', w') ∧ errors' ≠ []
  | [], errors, w, h => ⟨errors, w, rfl, h⟩
  | c :: clients, errors, w, h => by
    obtain ⟨errors₁, w₁, h₁, hlisted⟩ := offboardBackendStep_exec_ok userData errors c w
    rw [List.foldlM_cons, exec_bind, h₁]
    exact foldlM_offboardBackendStep_ne_nil userData clients errors₁ w₁
      fun hnil => h (List.prefix_nil.mp (hnil ▸ hlisted))

/-- The backend loop over clients one of which fails `DeleteUser` of the record's id ends with
an error. -/
theorem foldlM_offboardBackendStep_of_deleteUser_error {userData : StringMap String}
    {c : Backend × Client σ} {id : String} (hoff : Offboards userData c id)
    (hfail : ∀ s, ∃ err, (c.2.deleteUser id s).1 = .error err) :
    ∀ (clients : List (Backend × Client σ)), c ∈ clients → ∀ (errors : List String) (w : World σ),
      ∃ errors' w', (clients.foldlM (offboardBackendStep userData) errors).exec w =
        (.ok errors', w') ∧ errors' ≠ []
  | [], hc, _, _ => absurd hc (List.not_mem_nil _)
  | c' :: clients, hc, errors, w => by
    rw [List.foldlM_cons, exec_bind]
    rcases List.mem_cons.mp hc with rfl | hc
    · obtain ⟨errors₁, w₁, h₁, hne⟩ := offboardBackendStep_of_deleteUser_error hoff hfail errors w
      rw [h₁]
      exact foldlM_offboardBackendStep_ne_nil userData clients errors₁ w₁ hne
    · obtain ⟨errors₁, w₁, h₁, -⟩ := offboardBackendStep_exec_ok userData errors c' w
      rw [h₁]
      exact foldlM_offboardBackendStep_of_deleteUser_error hoff hfail clients hc errors₁ w₁

/-- When a client the picked record must be offboarded from fails `DeleteUser` of its id,
offboarding fails and leaves the cache as it was. -/
theorem offboardUser_of_deleteUser_error {δ : Type} (job : UserOffboardingJob σ δ) {userKey userEmail : String}
    {w : World σ} (hpick : (job.iterate (matchingEmails w.store.user userKey)).head? = some userEmail)
    {c : Backend × Client σ} (hc : c ∈ job.backendClients) {id : String}
    (hoff : Offboards (w.store.user.getBackends userEmail) c id)
    (hfail : ∀ s, ∃ err, (c.2.deleteUser id s).1 = .error err) :
    (∃ err, ((job.offboardUser userKey).exec w).1 = .error err) ∧
      ((job.offboardUser userKey).exec w).2.store = w.store := by
  obtain ⟨errors', w', hfold, hne⟩ :=
    foldlM_offboardBackendStep_of_deleteUser_error hoff hfail job.backendClients hc [] w
  have hback : (job.offboardUserFromAllBackends (w.store.user.getBackends userEmail)).exec w =
      (.error ("failed to remove user from some backends: [" ++ " ".intercalate errors' ++ "]"),
        w') := by
    simp [offboardUserFromAllBackends, hfold, hne]
  have hstore := (job.offboardUserFromAllBackends_moves (w.store.user.getBackends userEmail) w).2
  rw [hback] at hstore
  unfold offboardUser
  simp only [exec_bind, exec_tryCatch, getUserDataFromCache_exec, hpick, hback, exec_throw]
  exact ⟨⟨_, rfl⟩, hstore⟩

/-- **A user Snowflake no longer has is never offboarded.** When the record the job picks holds
an id for a Snowflake backend that answers `DELETE` of it with `404 Not Found`, `DeleteUser`
fails, so offboarding fails and keeps the record, on every run. -/
theorem offboardUser_snowflakeNotFound {δ : Type} (job : UserOffboardingJob σ δ) (api : Snowflake.API σ)
    {userKey userEmail : String} {w : World σ}
    (hpick : (job.iterate (matchingEmails w.store.user userKey)).head? = some userEmail)
    {c : Backend × Client σ} (hc : c ∈ job.backendClients) (hclient : c.2.deleteUser = api.deleteUser)
    {id : String} (hoff : Offboards (w.store.user.getBackends userEmail) c id)
    (h404 : ∀ s, ∃ resp s', api.makeRequestWithPolling ("/api/v2/users/" ++ id) "DELETE" [] s =
      (.ok resp, s') ∧ resp.status = 404) :
    (∃ err, ((job.offboardUser userKey).exec w).1 = .error err) ∧
      ((job.offboardUser userKey).exec w).2.store = w.store :=
  job.offboardUser_of_deleteUser_error hpick hc hoff fun s => by
    obtain ⟨resp, s', hreq, hstatus⟩ := h404 s
    exact ⟨_, by rw [hclient, api.deleteUser_notFound hreq hstatus]⟩

/-- A job whose one backend client is `goneClient`. -/
def goneJob : UserOffboardingJob Unit Unit where
  getUserLDAPDataByEmail _ d := (.error .noUserFound, d)
  ldapState := ()
  backendClients := [(⟨"sf", "snowflake"⟩, Snowflake.goneClient)]
  iterate K := ["bob@x.com"].filter (· ∈ K)

/-- A cache in which `bob@x.com` has the Snowflake id `bob`. -/
def goneWorld : World Unit :=
  ⟨{ Store.empty with user := ⟨(∅ : StringMap (StringMap String)).insert "bob@x.com"
      ((∅ : StringMap String).insert "sf_snowflake" "bob")⟩ }, fun _ => (), []⟩

/-- `bob` is gone from Snowflake: offboarding `bob@x.com` fails and keeps the record. -/
theorem offboardUser_snowflakeNotFound_bob :
    (goneJob.iterate (matchingEmails goneWorld.store.user "bob@x.com")).head? = some "bob@x.com" ∧
      Offboards (goneWorld.store.user.getBackends "bob@x.com") (⟨"sf", "snowflake"⟩, Snowflake.goneClient)
        "bob" ∧
      (∃ err, ((goneJob.offboardUser "bob@x.com").exec goneWorld).1 = .error err) ∧
      ((goneJob.offboardUser "bob@x.com").exec goneWorld).2.store = goneWorld.store :=
  have hpick : (goneJob.iterate (matchingEmails goneWorld.store.user "bob@x.com")).head? =
      some "bob@x.com" := by decide
  have hoff : Offboards (goneWorld.store.user.getBackends "bob@x.com")
      (⟨"sf", "snowflake"⟩, Snowflake.goneClient) "bob" :=
    ⟨"snowflake", by decide, by decide, by decide⟩
  ⟨hpick, hoff, goneJob.offboardUser_snowflakeNotFound Snowflake.goneAPI hpick
    (List.mem_singleton_self _) rfl hoff fun _ => ⟨_, _, rfl, rfl⟩⟩

end UserOffboardingJob

end Usernaut
