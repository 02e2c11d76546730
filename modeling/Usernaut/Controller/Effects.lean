import Usernaut.Store
import Usernaut.Controller.Members

/-!
# The reconciler's effects

The Group controller runs against three things: the cache behind the store, the backends it
drives, and the Kubernetes API server. A `World` holds the store, the state of every backend,
and the `Event`s the controller has produced so far: the calls it made to backends and to the
API server with their answers, its reads of the Team preload store, and the log lines that mark
its decisions. The reconciler's functions run in `ReconcileM`, errors over state, so that what a
function changed before it returned an error stays changed, as in Go.

A backend is reached only through a `Client`, whose calls are arbitrary functions of the
backend's state: a backend may answer anything, fail anywhere, and change its state even when a
call fails. `Env` gathers what the reconciler reads and never changes.

`Moves R m` says that every run of `m` moves the world along the preorder `R`. It is closed
under the monad's operations and loops, so that a frame condition is proved once per primitive
and then holds of every function built from them.
-/

namespace Usernaut

/-- One call to a backend, with the backend's answer. -/
inductive BackendCall
  | createTeam (team : Team) (answer : Except String Team)
  | createUser (user : User) (answer : Except String User)
  | fetchTeamMembersByTeamID (teamID : String) (answer : Except String (List String))
  | addUserToTeam (teamID : String) (userIDs : List String) (answer : Except String Unit)
  | removeUserFromTeam (teamID : String) (userIDs : List String) (answer : Except String Unit)
  | deleteTeamByID (teamID : String) (answer : Except String Unit)
  | deleteUser (userID : String) (answer : Except String Unit)
  deriving DecidableEq

/-- What the controller does that someone else can observe, in the order it happens. -/
inductive Event
  /-- A call to the backend `b`. -/
  | backend (b : Backend) (call : BackendCall)
  /-- Working on `groupName`, the reconciler read the Team preload entry `teamName` and looked
  up `backendKey` in it. -/
  | teamStoreRead (groupName teamName backendKey : String)
  /-- `r.Update` of a Group's metadata. -/
  | update (obj : Group) (answer : Except String Unit)
  /-- `r.Status().Update` of a Group's status. -/
  | statusUpdate (obj : Group) (answer : Except String Unit)
  /-- A log line of the reconciler. -/
  | log (msg : String)
  deriving DecidableEq

/-- Whether an event is a log line. -/
def Event.isLog : Event → Bool
  | .log _ => true
  | _ => false

/-- Whether a call is a `CreateTeam`. -/
def BackendCall.isCreateTeam : BackendCall → Bool
  | .createTeam _ _ => true
  | _ => false

/-- The calls the controller makes on a `clients.Client`, against the state `σ` of the backend.
`createTeam` and `createUser` get the group name when the client is in LDAP-sync mode
(`SetLdapSync(true, groupName)`). -/
structure Client (σ : Type) where
  createTeam : Option String → Team → σ → Except String Team × σ
  createUser : Option String → User → σ → Except String User × σ
  /-- The keys of the member map, in the order the map is iterated. -/
  fetchTeamMembersByTeamID : String → σ → Except String (List String) × σ
  addUserToTeam : String → List String → σ → Except String Unit × σ
  removeUserFromTeam : String → List String → σ → Except String Unit × σ
  deleteTeamByID : String → σ → Except String Unit × σ
  deleteUser : String → σ → Except String Unit × σ
  /-- Whether the client is a `*gitlab.GitlabClient`. -/
  isGitlab : Bool

/-- What the reconciler reads and never changes. -/
structure Env (σ : Type) where
  /-- The Group resources of the watched namespace, as `r.Client.Get` finds them. -/
  groups : GroupList
  /-- The API server's answer to `r.Update` of a Group. -/
  update : Group → Except String Unit
  /-- The API server's answer to `r.Status().Update` of a Group. -/
  updateStatus : Group → Except String Unit
  /-- `AppConfig.BackendMap`: the backends' configuration, by type and then name. -/
  backendMap : StringMap (StringMap BackendConfig)
  /-- `utils.GetTransformedGroupName(AppConfig, backendType, groupName)`. -/
  transform : String → String → Except String String
  /-- `LdapConn.GetUserLDAPData` of a username, decoded by `utils.MapToStruct`. -/
  ldap : String → Except String LDAPUser
  /-- `clients.New(name, type, AppConfig.BackendMap)`. -/
  newClient : String → String → Except String (Client σ)
  /-- `constants.ForceReconcileLabel`. -/
  forceReconcileLabel : String
  /-- `fivetran.AccountReviewerRole`. -/
  accountReviewerRole : String

/-- The store, every backend's state, and the events so far. -/
structure World (σ : Type) where
  store : Store
  backends : Backend → σ
  events : List Event

/-- The reconciler's functions: errors over the world. -/
abbrev ReconcileM (σ : Type) := ExceptT String (StateM (World σ))

variable {σ α β : Type}

/-- Run a reconciler function from a world: its result and the world it leaves. -/
def ReconcileM.exec (m : ReconcileM σ α) (w : World σ) : Except String α × World σ :=
  m.run.run w

/-- Return a Go `(value, error)` pair. -/
def ofExcept : Except String α → ReconcileM σ α
  | .ok a => pure a
  | .error err => throw err

@[simp] theorem ofExcept_ok (a : α) : (ofExcept (.ok a) : ReconcileM σ α) = pure a := rfl

/-- The store as it is now. -/
def getStore : ReconcileM σ Store := return (← get).store

/-- Write to the store. -/
def modifyStore (f : Store → Store) : ReconcileM σ Unit :=
  modify fun w => { w with store := f w.store }

/-- The world with `e` appended to its events. -/
def World.record (w : World σ) (e : Event) : World σ := { w with events := w.events ++ [e] }

/-- Record an event. -/
def emit (e : Event) : ReconcileM σ Unit := modify (·.record e)

/-- The world after a call to `b` that left `b` in the state `s`, recorded as `c`. -/
def World.afterCall (w : World σ) (b : Backend) (s : σ) (c : BackendCall) : World σ :=
  { w with backends := Function.update w.backends b s, events := w.events ++ [.backend b c] }

@[simp] theorem World.record_store (w : World σ) (e : Event) : (w.record e).store = w.store := rfl

@[simp] theorem World.record_events (w : World σ) (e : Event) :
    (w.record e).events = w.events ++ [e] := rfl

@[simp] theorem World.afterCall_store (w : World σ) (b : Backend) (s : σ) (c : BackendCall) :
    (w.afterCall b s c).store = w.store := rfl

@[simp] theorem World.afterCall_events (w : World σ) (b : Backend) (s : σ) (c : BackendCall) :
    (w.afterCall b s c).events = w.events ++ [.backend b c] := rfl

@[simp] theorem World.record_backends (w : World σ) (e : Event) :
    (w.record e).backends = w.backends := rfl

@[simp] theorem World.afterCall_backends (w : World σ) (b : Backend) (s : σ) (c : BackendCall) :
    (w.afterCall b s c).backends = Function.update w.backends b s := rfl

/-- Make one call `op` of `b`'s client against `b`'s state, and record it with its answer. -/
def callBackend (b : Backend) (op : σ → Except String α × σ)
    (record : Except String α → BackendCall) : ReconcileM σ α := do
  let w ← get
  let result := op (w.backends b)
  set (w.afterCall b result.2 (record result.1))
  ofExcept result.1

section Exec

variable (w : World σ)

@[simp] theorem exec_pure (a : α) : (pure a : ReconcileM σ α).exec w = (.ok a, w) := rfl

@[simp] theorem exec_throw (err : String) :
    (throw err : ReconcileM σ α).exec w = (.error err, w) := rfl

@[simp] theorem exec_bind (x : ReconcileM σ α) (f : α → ReconcileM σ β) :
    (x >>= f).exec w =
      match x.exec w with
      | (.ok a, w') => (f a).exec w'
      | (.error err, w') => (.error err, w') := by
  simp only [ReconcileM.exec, ExceptT.run_bind, StateT.run_bind]
  rcases x.run.run w with ⟨_ | _, w'⟩ <;> rfl

@[simp] theorem exec_map (f : α → β) (x : ReconcileM σ α) :
    (f <$> x).exec w =
      match x.exec w with
      | (.ok a, w') => (.ok (f a), w')
      | (.error err, w') => (.error err, w') := by
  rw [← bind_pure_comp, exec_bind]
  rcases x.exec w with ⟨_ | _, w'⟩ <;> rfl

@[simp] theorem exec_tryCatch (x : ReconcileM σ α) (h : String → ReconcileM σ α) :
    (tryCatch x h).exec w =
      match x.exec w with
      | (.ok a, w') => (.ok a, w')
      | (.error err, w') => (h err).exec w' := by
  show (ExceptT.tryCatch x h).run.run w = _
  simp only [ExceptT.tryCatch, ExceptT.run_mk, StateT.run_bind, ReconcileM.exec]
  rcases hx : x.run.run w with ⟨_ | _, w'⟩
  all_goals simp only [ExceptT.run, StateT.run, bind, StateT.bind] at hx ⊢; rw [hx]
  rfl

@[simp] theorem exec_get : (get : ReconcileM σ (World σ)).exec w = (.ok w, w) := rfl

@[simp] theorem exec_set (w' : World σ) : (set w' : ReconcileM σ PUnit).exec w = (.ok (), w') := rfl

@[simp] theorem exec_ofExcept (r : Except String α) : (ofExcept r : ReconcileM σ α).exec w = (r, w) := by
  cases r <;> rfl

@[simp] theorem exec_getStore : (getStore : ReconcileM σ Store).exec w = (.ok w.store, w) := rfl

@[simp] theorem exec_modifyStore (f : Store → Store) :
    (modifyStore f : ReconcileM σ Unit).exec w = (.ok (), { w with store := f w.store }) := rfl

@[simp] theorem exec_emit (e : Event) : (emit e : ReconcileM σ Unit).exec w = (.ok (), w.record e) := rfl

@[simp] theorem exec_callBackend (b : Backend) (op : σ → Except String α × σ)
    (record : Except String α → BackendCall) :
    (callBackend b op record).exec w =
      ((op (w.backends b)).1, w.afterCall b (op (w.backends b)).2 (record (op (w.backends b)).1)) := by
  simp [callBackend]

/-- A run of `x >>= f` that returns a value ran `x` to a value first. -/
theorem exec_bind_eq_ok {x : ReconcileM σ α} {f : α → ReconcileM σ β} {w w' : World σ} {b : β}
    (h : (x >>= f).exec w = (.ok b, w')) :
    ∃ a w₁, x.exec w = (.ok a, w₁) ∧ (f a).exec w₁ = (.ok b, w') := by
  rw [exec_bind] at h
  rcases hx : x.exec w with ⟨_ | a, w₁⟩ <;> rw [hx] at h
  · cases h
  · exact ⟨a, w₁, rfl, h⟩

/-- When `x` returns a value, `x >>= f` goes on with `f` of it from where `x` left the world. -/
theorem exec_bind_of_ok {x : ReconcileM σ α} {f : α → ReconcileM σ β} {w : World σ} {a : α}
    (h : (x.exec w).1 = .ok a) : (x >>= f).exec w = (f a).exec (x.exec w).2 := by
  rw [exec_bind]
  rcases hx : x.exec w with ⟨_ | a', w₁⟩ <;> rw [hx] at h <;> cases h
  rfl

end Exec

/-- A preorder on worlds. -/
structure WorldOrder (σ : Type) where
  rel : World σ → World σ → Prop
  refl : ∀ w, rel w w
  trans : ∀ {a b c}, rel a b → rel b c → rel a c

namespace WorldOrder

/-- Both orders at once. -/
def inter (R S : WorldOrder σ) : WorldOrder σ where
  rel w w' := R.rel w w' ∧ S.rel w w'
  refl w := ⟨R.refl w, S.refl w⟩
  trans h h' := ⟨R.trans h.1 h'.1, S.trans h.2 h'.2⟩

/-- The events of `w'` are those of `w` followed by events that all satisfy `P`. -/
def appends (P : Event → Prop) : WorldOrder σ where
  rel w w' := ∃ new, w'.events = w.events ++ new ∧ ∀ e ∈ new, P e
  refl w := ⟨[], by simp, by simp⟩
  trans := by
    rintro _ _ _ ⟨new, h, hP⟩ ⟨new', h', hP'⟩
    exact ⟨new ++ new', by simp [h, h'], fun e he => (List.mem_append.mp he).elim (hP e) (hP' e)⟩

/-- The runs that leave `f` of the world as it is. -/
def keeping (f : World σ → β) : WorldOrder σ where
  rel w w' := f w' = f w
  refl _ := rfl
  trans h h' := h'.trans h

/-- A property of the store that holds after whenever it held before. -/
def preserving (Inv : Store → Prop) : WorldOrder σ where
  rel w w' := Inv w.store → Inv w'.store
  refl _ := id
  trans h h' := h' ∘ h

end WorldOrder

/-- Every run of `m` moves the world along `R`, whether it succeeds or fails. -/
def Moves (R : WorldOrder σ) (m : ReconcileM σ α) : Prop := ∀ w, R.rel w (m.exec w).2

namespace Moves

variable {R : WorldOrder σ}

theorem pure' (a : α) : Moves R (pure a : ReconcileM σ α) := fun w => R.refl w

theorem throw' (err : String) : Moves R (throw err : ReconcileM σ α) := fun w => R.refl w

theorem ofExcept' (r : Except String α) : Moves R (ofExcept r : ReconcileM σ α) := fun w => by
  simpa using R.refl w

theorem getStore' : Moves R (getStore : ReconcileM σ Store) := fun w => R.refl w

theorem bind' {x : ReconcileM σ α} {f : α → ReconcileM σ β} (hx : Moves R x)
    (hf : ∀ a, Moves R (f a)) : Moves R (x >>= f) := fun w => by
  rw [exec_bind]
  rcases h : x.exec w with ⟨_ | a, w'⟩
  · simpa [h] using hx w
  · exact R.trans (by simpa [h] using hx w) (hf a w')

theorem tryCatch' {x : ReconcileM σ α} {h : String → ReconcileM σ α} (hx : Moves R x)
    (hh : ∀ err, Moves R (h err)) : Moves R (tryCatch x h) := fun w => by
  rw [exec_tryCatch]
  rcases hr : x.exec w with ⟨err | _, w'⟩
  · exact R.trans (by simpa [hr] using hx w) (hh err w')
  · simpa [hr] using hx w

theorem ite' {c : Prop} [Decidable c] {x y : ReconcileM σ α} (hx : Moves R x) (hy : Moves R y) :
    Moves R (if c then x else y) := by
  split_ifs <;> assumption

theorem forM' {l : List α} {f : α → ReconcileM σ PUnit} (hf : ∀ a ∈ l, Moves R (f a)) :
    Moves R (l.forM f) := by
  induction l with
  | nil => exact pure' _
  | cons a l ih =>
    exact bind' (hf a (List.mem_cons_self _ _))
      fun _ => ih fun b hb => hf b (List.mem_cons_of_mem _ hb)

theorem foldlM' {l : List α} {f : β → α → ReconcileM σ β} (hf : ∀ b, ∀ a ∈ l, Moves R (f b a)) :
    ∀ b, Moves R (l.foldlM f b) := by
  induction l with
  | nil => exact fun b => pure' b
  | cons a l ih =>
    exact fun b => bind' (hf b a (List.mem_cons_self _ _))
      (ih fun b c hc => hf b c (List.mem_cons_of_mem _ hc))

theorem modifyStore' {f : Store → Store} (hf : ∀ w : World σ, R.rel w { w with store := f w.store }) :
    Moves R (modifyStore f) := hf

theorem emit' {e : Event} (he : ∀ w : World σ, R.rel w (w.record e)) : Moves R (emit e) := he

/-- A call, with the answer and the new state that `op` gives from the backend's state. -/
theorem callBackend_op {b : Backend} {op : σ → Except String α × σ}
    {record : Except String α → BackendCall}
    (hc : ∀ w : World σ, R.rel w (w.afterCall b (op (w.backends b)).2 (record (op (w.backends b)).1))) :
    Moves R (callBackend b op record) := fun w => by
  simpa using hc w

theorem callBackend' {b : Backend} {op : σ → Except String α × σ}
    {record : Except String α → BackendCall}
    (hc : ∀ (w : World σ) s a, R.rel w (w.afterCall b s (record a))) :
    Moves R (callBackend b op record) :=
  callBackend_op fun w => hc w _ _

/-- A step that may depend on the condition it is taken under. -/
theorem dite' {c : Prop} [Decidable c] {x y : ReconcileM σ α} (hx : c → Moves R x)
    (hy : ¬c → Moves R y) : Moves R (if c then x else y) := by
  split_ifs with h
  · exact hx h
  · exact hy h

/-- A run of a step that keeps `f` of the world ends where `f` is as it began. -/
theorem keeping_exec {f : World σ → β} {m : ReconcileM σ α} (hm : Moves (WorldOrder.keeping f) m)
    {w w' : World σ} {r : Except String α} (h : m.exec w = (r, w')) : f w' = f w := by
  simpa [h] using hm w

/-- A run that moves along `R` moves along every coarser order. -/
theorem mono {S : WorldOrder σ} {m : ReconcileM σ α} (hm : Moves R m)
    (hRS : ∀ w w', R.rel w w' → S.rel w w') : Moves S m := fun w => hRS _ _ (hm w)

end Moves

/-- Every value a run of `m` returns satisfies `P`. -/
def Returns (P : α → Prop) (m : ReconcileM σ α) : Prop :=
  ∀ w a w', m.exec w = (.ok a, w') → P a

namespace Returns

variable {P : α → Prop}

theorem pure' {a : α} (h : P a) : Returns P (pure a : ReconcileM σ α) := fun _ _ _ he => by
  cases he; exact h

theorem bind' {x : ReconcileM σ β} {f : β → ReconcileM σ α} (hf : ∀ b, Returns P (f b)) :
    Returns P (x >>= f) := fun w a w' he => by
  rw [exec_bind] at he
  rcases hx : x.exec w with ⟨_ | b, w₁⟩ <;> rw [hx] at he
  · cases he
  · exact hf b w₁ a w' he

theorem throw' (err : String) : Returns P (throw err : ReconcileM σ α) := fun _ _ _ he => by
  cases he

/-- A step whose values satisfy `Q`, then steps whose values satisfy `P` given that. -/
theorem bind {Q : β → Prop} {x : ReconcileM σ β} {f : β → ReconcileM σ α} (hx : Returns Q x)
    (hf : ∀ b, Q b → Returns P (f b)) : Returns P (x >>= f) := fun w a w' he => by
  obtain ⟨b, w₁, h₁, h₂⟩ := exec_bind_eq_ok he
  exact hf b (hx w b w₁ h₁) w₁ a w' h₂

theorem tryCatch' {x : ReconcileM σ α} {h : String → ReconcileM σ α} (hx : Returns P x)
    (hh : ∀ err, Returns P (h err)) : Returns P (tryCatch x h) := fun w a w' he => by
  rw [exec_tryCatch] at he
  rcases hr : x.exec w with ⟨err | b, w₁⟩ <;> rw [hr] at he
  · exact hh err w₁ a w' he
  · cases he
    exact hx w _ _ hr

theorem ite' {c : Prop} [Decidable c] {x y : ReconcileM σ α} (hx : Returns P x) (hy : Returns P y) :
    Returns P (if c then x else y) := by
  split_ifs <;> assumption

/-- A loop whose every step keeps `P` of the accumulator returns an accumulator satisfying `P`. -/
theorem foldlM' {l : List β} {f : α → β → ReconcileM σ α} (hf : ∀ a, P a → ∀ b ∈ l, Returns P (f a b)) :
    ∀ {init : α}, P init → Returns P (l.foldlM f init) := by
  induction l with
  | nil => exact fun hinit => pure' hinit
  | cons b l ih =>
    exact fun hinit => bind (hf _ hinit b (List.mem_cons_self _ _))
      fun _ ha => ih (fun a ha c hc => hf a ha c (List.mem_cons_of_mem _ hc)) ha

end Returns

/-- A step whose values satisfy `P`, then steps that may rely on it. -/
theorem Moves.bind_of_returns {R : WorldOrder σ} {x : ReconcileM σ α} {f : α → ReconcileM σ β}
    {P : α → Prop} (hx : Moves R x) (hP : Returns P x) (hf : ∀ a, P a → Moves R (f a)) :
    Moves R (x >>= f) := fun w => by
  rw [exec_bind]
  rcases h : x.exec w with ⟨_ | a, w'⟩
  · simpa [h] using hx w
  · exact R.trans (by simpa [h] using hx w) (hf a (hP w a w' h) w')

/-- Every run of `m` returns a value: `m` never fails. -/
def Succeeds (m : ReconcileM σ α) : Prop := ∀ w, ∃ a, (m.exec w).1 = .ok a

namespace Succeeds

theorem pure' (a : α) : Succeeds (pure a : ReconcileM σ α) := fun _ => ⟨a, rfl⟩

theorem getStore' : Succeeds (getStore : ReconcileM σ Store) := fun w => ⟨w.store, rfl⟩

theorem modifyStore' (f : Store → Store) : Succeeds (modifyStore f : ReconcileM σ Unit) :=
  fun _ => ⟨(), rfl⟩

theorem bind' {x : ReconcileM σ α} {f : α → ReconcileM σ β} (hx : Succeeds x)
    (hf : ∀ a, Succeeds (f a)) : Succeeds (x >>= f) := fun w => by
  obtain ⟨a, h⟩ := hx w
  rw [exec_bind]
  rcases hw : x.exec w with ⟨_ | a', w'⟩
  · simp [hw] at h
  · exact hf a' w'

/-- A failure that is caught by a handler that never fails. -/
theorem tryCatch' {x : ReconcileM σ α} {h : String → ReconcileM σ α}
    (hh : ∀ err, Succeeds (h err)) : Succeeds (tryCatch x h) := fun w => by
  rw [exec_tryCatch]
  rcases x.exec w with ⟨err | a, w'⟩
  · exact hh err w'
  · exact ⟨a, rfl⟩

theorem ite' {c : Prop} [Decidable c] {x y : ReconcileM σ α} (hx : Succeeds x) (hy : Succeeds y) :
    Succeeds (if c then x else y) := by
  split_ifs <;> assumption

theorem foldlM' {l : List α} {f : β → α → ReconcileM σ β} (hf : ∀ b a, Succeeds (f b a)) :
    ∀ b, Succeeds (l.foldlM f b) := by
  induction l with
  | nil => exact fun b => pure' b
  | cons a l ih => exact fun b => bind' (hf b a) ih

end Succeeds

/-! ### Guarded steps

A write the code makes only after reading the store and checking it, such as recording a team
id only where none is recorded, moves the world along `R` only from the stores the check lets
through. `MovesAt R s m` says so for runs of `m` from a world with store `s`; the reads, calls
and events between the check and the write leave the store as it is (`ReadsStore`), so the
check still holds at the write. -/

/-- `m` never writes the store. -/
def ReadsStore (m : ReconcileM σ α) : Prop := ∀ w, (m.exec w).2.store = w.store

/-- Every run of `m` from a world whose store is `s` moves the world along `R`. -/
def MovesAt (R : WorldOrder σ) (s : Store) (m : ReconcileM σ α) : Prop :=
  ∀ w : World σ, w.store = s → R.rel w (m.exec w).2

namespace ReadsStore

theorem pure' (a : α) : ReadsStore (pure a : ReconcileM σ α) := fun _ => rfl

theorem throw' (err : String) : ReadsStore (throw err : ReconcileM σ α) := fun _ => rfl

theorem ofExcept' (r : Except String α) : ReadsStore (ofExcept r : ReconcileM σ α) := fun _ => by
  simp

theorem emit' (e : Event) : ReadsStore (emit e : ReconcileM σ Unit) := fun _ => rfl

theorem callBackend' (b : Backend) (op : σ → Except String α × σ)
    (record : Except String α → BackendCall) : ReadsStore (callBackend b op record) := fun _ => by
  simp

end ReadsStore

namespace MovesAt

variable {R : WorldOrder σ} {s : Store}

theorem of_moves {m : ReconcileM σ α} (h : Moves R m) : MovesAt R s m := fun w _ => h w

/-- Reading the store where it is `s` reads `s`. -/
theorem getStore_bind {f : Store → ReconcileM σ α} (hf : MovesAt R s (f s)) :
    MovesAt R s (getStore >>= f) := fun w hw => by
  simpa [← hw] using hf w hw

/-- A step that leaves the store as it is, then one that still starts from `s`. -/
theorem bind_reads {x : ReconcileM σ α} {f : α → ReconcileM σ β} (hr : ReadsStore x)
    (hx : MovesAt R s x) (hf : ∀ a, MovesAt R s (f a)) : MovesAt R s (x >>= f) := fun w hw => by
  rw [exec_bind]
  rcases h : x.exec w with ⟨_ | a, w'⟩
  · simpa [h] using hx w hw
  · have hw' : w'.store = s := by rw [← hw, ← hr w, h]
    exact R.trans (by simpa [h] using hx w hw) (hf a w' hw')

/-- A step from `s`, then steps that move along `R` from anywhere. -/
theorem bind {x : ReconcileM σ α} {f : α → ReconcileM σ β} (hx : MovesAt R s x)
    (hf : ∀ a, Moves R (f a)) : MovesAt R s (x >>= f) := fun w hw => by
  rw [exec_bind]
  rcases h : x.exec w with ⟨_ | a, w'⟩
  · simpa [h] using hx w hw
  · exact R.trans (by simpa [h] using hx w hw) (hf a w')

theorem dite' {c : Prop} [Decidable c] {x y : ReconcileM σ α} (hx : c → MovesAt R s x)
    (hy : ¬c → MovesAt R s y) : MovesAt R s (if c then x else y) := by
  split_ifs with h
  · exact hx h
  · exact hy h

theorem emit' {e : Event} (he : ∀ w : World σ, w.store = s → R.rel w (w.record e)) :
    MovesAt R s (emit e) := he

theorem callBackend' {b : Backend} {op : σ → Except String α × σ}
    {record : Except String α → BackendCall}
    (hc : ∀ w : World σ, w.store = s → ∀ st a, R.rel w (w.afterCall b st (record a))) :
    MovesAt R s (callBackend b op record) := fun w hw => by
  simpa using hc w hw _ _

theorem modifyStore' {f : Store → Store}
    (hf : ∀ w : World σ, w.store = s → R.rel w { w with store := f w.store }) :
    MovesAt R s (modifyStore f) := hf

end MovesAt

/-- A read of the store, then steps that may rely on what was read. -/
theorem Moves.getStore_bind {R : WorldOrder σ} {f : Store → ReconcileM σ α}
    (hf : ∀ s, MovesAt R s (f s)) : Moves R (getStore >>= f) := fun w => by
  simpa using hf w.store w rfl

/-! ### Runs that log a decision

The reconciler logs a line when it decides whether to update the indexes. `IfLogged msg Q m`
says that every run of `m` only appends events, and that a run that logs `msg` relates the world
it started from to the world it left by `Q`. Steps that log nothing compose with it on either
side, so that the decision's line carries what held when it was logged to the end of the run. -/

/-- The run of `m` from `w` only appends events, and if it logs `msg`, the world it leaves
satisfies `P`. -/
def LogsThen (msg : String) (P : World σ → Prop) (m : ReconcileM σ α) (w : World σ) : Prop :=
  ∃ new, (m.exec w).2.events = w.events ++ new ∧ (Event.log msg ∈ new → P (m.exec w).2)

/-- Every run of `m` only appends events, and one that logs `msg` relates its first and last
worlds by `Q`. -/
def IfLogged (msg : String) (Q : World σ → World σ → Prop) (m : ReconcileM σ α) : Prop :=
  ∀ w, LogsThen msg (Q w) m w

namespace LogsThen

variable {msg : String} {P : World σ → Prop} {w : World σ}

/-- A step that logs nothing, then a run that logs `msg` only where `P` holds after it. -/
theorem bind {x : ReconcileM σ α} {f : α → ReconcileM σ β}
    (hx : Moves (WorldOrder.appends fun e => e.isLog = false) x)
    (hf : ∀ a w₁, x.exec w = (.ok a, w₁) → LogsThen msg P (f a) w₁) :
    LogsThen msg P (x >>= f) w := by
  obtain ⟨new₁, hev₁, hnew₁⟩ := hx w
  have hnot : Event.log msg ∉ new₁ := fun h => by simpa [Event.isLog] using hnew₁ _ h
  rw [LogsThen, exec_bind]
  rcases hr : x.exec w with ⟨_ | a, w₁⟩ <;> rw [hr] at hev₁
  · exact ⟨new₁, hev₁, fun h => absurd h hnot⟩
  · obtain ⟨new₂, hev₂, himp⟩ := hf a w₁ hr
    refine ⟨new₁ ++ new₂, by rw [hev₂, hev₁, List.append_assoc], fun hmem => himp ?_⟩
    exact (List.mem_append.mp hmem).resolve_left hnot

/-- A run that logs `msg` only where `P` holds, then steps that log nothing and keep `P`. -/
theorem bind_right {R : WorldOrder σ} {x : ReconcileM σ α} {f : α → ReconcileM σ β}
    (hx : LogsThen msg P x w)
    (hf : ∀ a, Moves ((WorldOrder.appends fun e => e.isLog = false).inter R) (f a))
    (hP : ∀ w₁ w₂, P w₁ → R.rel w₁ w₂ → P w₂) : LogsThen msg P (x >>= f) w := by
  obtain ⟨new₁, hev₁, himp⟩ := hx
  rw [LogsThen, exec_bind]
  rcases hr : x.exec w with ⟨_ | a, w₁⟩ <;> rw [hr] at hev₁ himp
  · exact ⟨new₁, hev₁, himp⟩
  · obtain ⟨⟨new₂, hev₂, hnew₂⟩, hR⟩ := hf a w₁
    refine ⟨new₁ ++ new₂, by rw [hev₂, hev₁, List.append_assoc], fun hmem => hP _ _ (himp ?_) hR⟩
    exact (List.mem_append.mp hmem).resolve_right fun h => by simpa [Event.isLog] using hnew₂ _ h

end LogsThen

namespace IfLogged

variable {msg : String} {Q : World σ → World σ → Prop}

/-- A run that logs nothing never logs `msg`. -/
theorem of_noLogs {m : ReconcileM σ α} (h : Moves (WorldOrder.appends fun e => e.isLog = false) m) :
    IfLogged msg Q m := fun w => by
  obtain ⟨new, hev, hnew⟩ := h w
  exact ⟨new, hev, fun hmem => by simpa [Event.isLog] using hnew _ hmem⟩

/-- A run that appends events and moves along `S` logs `msg` only as `Q` allows, when `Q`
holds wherever `S` does. -/
theorem of_moves {P : Event → Prop} {S : WorldOrder σ} {m : ReconcileM σ α}
    (h : Moves ((WorldOrder.appends P).inter S) m) (hQ : ∀ w w', S.rel w w' → Q w w') :
    IfLogged msg Q m := fun w => by
  obtain ⟨⟨new, hev, -⟩, hS⟩ := h w
  exact ⟨new, hev, fun _ => hQ _ _ hS⟩

/-- Steps that log nothing and move along `R`, then a run that logs `msg` only as `Q` allows,
where `Q` is closed under `R` before it. -/
theorem bind_left {R : WorldOrder σ} {x : ReconcileM σ α} {f : α → ReconcileM σ β}
    (hx : Moves ((WorldOrder.appends fun e => e.isLog = false).inter R) x)
    (hQ : ∀ w w₁ w₂, R.rel w w₁ → Q w₁ w₂ → Q w w₂) (hf : ∀ a, IfLogged msg Q (f a)) :
    IfLogged msg Q (x >>= f) := fun w =>
  LogsThen.bind (hx.mono fun _ _ h => h.1) fun a w₁ hr => by
    obtain ⟨new, hev, himp⟩ := hf a w₁
    exact ⟨new, hev, fun hmem => hQ w w₁ _ (by simpa [hr] using (hx w).2) (himp hmem)⟩

/-- A run that logs `msg` only as `Q` allows, then steps that log nothing and move along `R`,
where `Q` is closed under `R` after it. -/
theorem bind_right {R : WorldOrder σ} {x : ReconcileM σ α} {f : α → ReconcileM σ β}
    (hx : IfLogged msg Q x)
    (hf : ∀ a, Moves ((WorldOrder.appends fun e => e.isLog = false).inter R) (f a))
    (hQ : ∀ w w₁ w₂, Q w w₁ → R.rel w₁ w₂ → Q w w₂) : IfLogged msg Q (x >>= f) := fun w =>
  (hx w).bind_right hf (hQ w)

theorem ite' {c : Prop} [Decidable c] {x y : ReconcileM σ α} (hx : IfLogged msg Q x)
    (hy : IfLogged msg Q y) : IfLogged msg Q (if c then x else y) := by
  split_ifs <;> assumption

theorem dite' {c : Prop} [Decidable c] {x y : ReconcileM σ α} (hx : c → IfLogged msg Q x)
    (hy : ¬c → IfLogged msg Q y) : IfLogged msg Q (if c then x else y) := by
  split_ifs with h
  · exact hx h
  · exact hy h

/-- A weaker relation between the first and the last world. -/
theorem imp {Q' : World σ → World σ → Prop} {m : ReconcileM σ α} (h : IfLogged msg Q m)
    (hQ : ∀ w w', Q w w' → Q' w w') : IfLogged msg Q' m := fun w =>
  let ⟨new, hev, himp⟩ := h w
  ⟨new, hev, fun hmem => hQ _ _ (himp hmem)⟩

end IfLogged

/-! ### What a run appends

`RunAppends P m w` says that the run of `m` from `w` appends events, and that the events it
appends satisfy `P`: that they hold a log line, or end with a status update. Steps that return a
value before it, and steps after it, only add events around those it appends. -/

/-- The run of `m` from `w` appends events that satisfy `P`. -/
def RunAppends (P : List Event → Prop) (m : ReconcileM σ α) (w : World σ) : Prop :=
  ∃ new, (m.exec w).2.events = w.events ++ new ∧ P new

namespace RunAppends

variable {P : List Event → Prop} {w : World σ}

/-- A step that returns `a`, then a run from where it left the world, for a `P` that events
before it do not break. -/
theorem bind_left (hP : ∀ a b, P b → P (a ++ b)) {Q : Event → Prop} {x : ReconcileM σ α}
    {f : α → ReconcileM σ β} (hx : Moves (WorldOrder.appends Q) x) {a : α}
    (ha : (x.exec w).1 = .ok a) (hf : RunAppends P (f a) (x.exec w).2) :
    RunAppends P (x >>= f) w := by
  obtain ⟨new₁, hev₁, -⟩ := hx w
  obtain ⟨new₂, hev₂, hnew₂⟩ := hf
  exact ⟨new₁ ++ new₂, by rw [exec_bind_of_ok ha, hev₂, hev₁, List.append_assoc], hP _ _ hnew₂⟩

/-- A run, then steps that append only events satisfying `Q`, for a `P` that such events after
it do not break. -/
theorem bind_right {Q : Event → Prop} (hP : ∀ a b, P a → (∀ e ∈ b, Q e) → P (a ++ b))
    {x : ReconcileM σ α} {f : α → ReconcileM σ β} (hx : RunAppends P x w)
    (hf : ∀ a, Moves (WorldOrder.appends Q) (f a)) : RunAppends P (x >>= f) w := by
  obtain ⟨new₁, hev₁, hnew₁⟩ := hx
  rw [RunAppends, exec_bind]
  rcases hr : x.exec w with ⟨_ | a, w₁⟩ <;> rw [hr] at hev₁
  · exact ⟨new₁, hev₁, hnew₁⟩
  · obtain ⟨new₂, hev₂, hQ⟩ := hf a w₁
    exact ⟨new₁ ++ new₂, by rw [hev₂, hev₁, List.append_assoc], hP _ _ hnew₁ hQ⟩

/-- A run that goes on as the run of `m'` from a world `w₁` whose events extend those of `w`. -/
theorem of_exec_eq (hP : ∀ a b, P b → P (a ++ b)) {m : ReconcileM σ α} {m' : ReconcileM σ β}
    {w₁ : World σ} (hexec : (m.exec w).2 = (m'.exec w₁).2)
    (hw : ∃ new, w₁.events = w.events ++ new) (h : RunAppends P m' w₁) : RunAppends P m w := by
  obtain ⟨new₁, hev₁⟩ := hw
  obtain ⟨new₂, hev₂, hnew₂⟩ := h
  exact ⟨new₁ ++ new₂, by rw [hexec, hev₂, hev₁, List.append_assoc], hP _ _ hnew₂⟩

end RunAppends

/-! ### Runs from a class of worlds

`MovesFrom P R m` says that every run of `m` from a world where `P` holds moves along `R`. When
`R` keeps `P`, the steps of a run all start where `P` holds, and each may use the value the step
before it returned there. -/

/-- Every run of `m` from a world where `P` holds moves the world along `R`. -/
def MovesFrom (P : World σ → Prop) (R : WorldOrder σ) (m : ReconcileM σ α) : Prop :=
  ∀ w, P w → R.rel w (m.exec w).2

namespace MovesFrom

variable {P : World σ → Prop} {R : WorldOrder σ}

theorem of_moves {m : ReconcileM σ α} (h : Moves R m) : MovesFrom P R m := fun w _ => h w

/-- A step from `P`, then steps that may use the value it returned from a world in `P`, and
that it left the world in `P`. -/
theorem bind (hR : ∀ w w', P w → R.rel w w' → P w') {x : ReconcileM σ α}
    {f : α → ReconcileM σ β} (hx : MovesFrom P R x)
    (hf : ∀ w a w', P w → x.exec w = (.ok a, w') → P w' → MovesFrom P R (f a)) :
    MovesFrom P R (x >>= f) := fun w hw => by
  rw [exec_bind]
  rcases h : x.exec w with ⟨_ | a, w'⟩
  · simpa [h] using hx w hw
  · have h₁ : R.rel w w' := by simpa [h] using hx w hw
    exact R.trans h₁ (hf w a w' hw h (hR w w' hw h₁) w' (hR w w' hw h₁))

/-- A step that moves along `R` from anywhere, then steps from `P`. -/
theorem bind_of_moves (hR : ∀ w w', P w → R.rel w w' → P w') {x : ReconcileM σ α}
    {f : α → ReconcileM σ β} (hx : Moves R x) (hf : ∀ a, MovesFrom P R (f a)) :
    MovesFrom P R (x >>= f) :=
  bind hR (of_moves hx) fun _ a _ _ _ _ => hf a

theorem tryCatch' (hR : ∀ w w', P w → R.rel w w' → P w') {x : ReconcileM σ α}
    {h : String → ReconcileM σ α} (hx : MovesFrom P R x) (hh : ∀ err, MovesFrom P R (h err)) :
    MovesFrom P R (tryCatch x h) := fun w hw => by
  rw [exec_tryCatch]
  rcases hr : x.exec w with ⟨err | _, w'⟩
  · have h₁ : R.rel w w' := by simpa [hr] using hx w hw
    exact R.trans h₁ (hh err w' (hR w w' hw h₁))
  · simpa [hr] using hx w hw

theorem dite' {c : Prop} [Decidable c] {x y : ReconcileM σ α} (hx : c → MovesFrom P R x)
    (hy : ¬c → MovesFrom P R y) : MovesFrom P R (if c then x else y) := by
  split_ifs with h
  · exact hx h
  · exact hy h

theorem foldlM' (hR : ∀ w w', P w → R.rel w w' → P w') {l : List α}
    {f : β → α → ReconcileM σ β} (hf : ∀ b, ∀ a ∈ l, MovesFrom P R (f b a)) :
    ∀ b, MovesFrom P R (l.foldlM f b) := by
  induction l with
  | nil => exact fun b => of_moves (Moves.pure' b)
  | cons a l ih =>
    exact fun b => bind hR (hf b a (List.mem_cons_self _ _))
      fun _ c _ _ _ _ => ih (fun b d hd => hf b d (List.mem_cons_of_mem _ hd)) c

theorem forM' (hR : ∀ w w', P w → R.rel w w' → P w') {l : List α}
    {f : α → ReconcileM σ PUnit} (hf : ∀ a ∈ l, MovesFrom P R (f a)) :
    MovesFrom P R (l.forM f) := by
  induction l with
  | nil => exact of_moves (Moves.pure' _)
  | cons a l ih =>
    exact bind hR (hf a (List.mem_cons_self _ _))
      fun _ _ _ _ _ _ => ih fun b hb => hf b (List.mem_cons_of_mem _ hb)

end MovesFrom

end Usernaut
