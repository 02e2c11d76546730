import Usernaut.Controller.ReverseIndex

/-!
# What a reconcile writes to the API server

A reconcile writes its Group back with `r.Update` (the finalizer, the owner references, the
removal of the force-reconcile label) and with `r.Status().Update` (the Waiting condition, the
reconciled users, the backends' statuses). Each write is an `Event` of the run, with the object
written. This module says which objects those are.

* The status a reconcile writes last carries the deduplicated expansion as `ReconciledUsers`
  when the Group has no force-reconcile label (`reconcile_storesReconciledUsers`). When it has
  one, the label's removal writes the Group with `r.Update`, whose reply brings back the status
  the server holds, and the status written last carries the stored `ReconciledUsers` instead
  (`reconcile_endsWithStatus`, `reconcile_forceReconcile_staleReconciledUsers`).
* Every object it writes has the Group's generation, and the Group's labels up to the removal
  of the force-reconcile label and without that label after it (`WritesAs`). So a reconcile
  never adds the label, which is what the watch module needs.

## Main definitions

* `EndsWithStatus users`: events that end with a status update carrying `users`.
* `WritesAs generation labels`: an event that writes nothing, or writes an object with this
  generation and these labels.
* `Phased PA PB m`: every run of `m` appends events satisfying `PA`, then events satisfying `PB`.

## Main results

* `reconcile_endsWithStatus`: the `ReconciledUsers` of the status a reconcile writes last.
* `reconcile_storesReconciledUsers`: without the label, the expansion's semantics, and that it
  is what a reconcile stores.
* `reconcile_phased`: a reconcile's writes keep the generation and never add the label.
-/

namespace Usernaut

open GroupReconciler

variable {σ : Type}

section ReconciledUsers

/-- The last of `events` is a status update of a Group whose reconciled users are `users`. -/
def EndsWithStatus (users : List String) (events : List Event) : Prop :=
  ∃ obj answer pre, events = pre ++ [.statusUpdate obj answer] ∧ obj.status.reconciledUsers = users

theorem EndsWithStatus.append_left {users : List String} (a : List Event) {b : List Event}
    (h : EndsWithStatus users b) : EndsWithStatus users (a ++ b) :=
  let ⟨obj, answer, pre, hb, hu⟩ := h
  ⟨obj, answer, a ++ pre, by rw [hb, List.append_assoc], hu⟩

variable (env : Env σ)

/-- `r.Status().Update` appends the status update, whatever the server answers. -/
theorem updateGroupStatus_endsWithStatus {users : List String} (obj : Group) (w : World σ)
    (h : obj.status.reconciledUsers = users) :
    RunAppends (EndsWithStatus users) (updateGroupStatus env obj) w :=
  ⟨[.statusUpdate obj (env.updateStatus obj)], by
    simp only [updateGroupStatus, exec_bind, exec_emit, exec_ofExcept]
    cases env.updateStatus obj <;> rfl, obj, _, [], rfl, h⟩

/-- `updateStatusAndHandleErrors` writes one status update, of the Group with its reconciled
users, and nothing else. -/
theorem updateStatusAndHandleErrors_endsWithStatus {users : List String} (groupCR : Group)
    (errs : BackendErrors) (w : World σ) (h : groupCR.status.reconciledUsers = users) :
    RunAppends (EndsWithStatus users) (updateStatusAndHandleErrors env groupCR errs) w := by
  unfold updateStatusAndHandleErrors
  refine .bind_right (Q := fun _ => False) (fun _ _ h hb => by
    rwa [List.eq_nil_iff_forall_not_mem.mpr hb, List.append_nil]) ?_ fun _ =>
      Moves.ite' (Moves.throw' _) (Moves.pure' _)
  exact updateGroupStatus_endsWithStatus env _ w (by split_ifs <;> exact h)

/-- **The status a reconcile writes last**, once the members of `groupCR` expand to `ms`: its
reconciled users are `deduplicateMembers ms` when the Group has no force-reconcile label, and,
when it has one, the reconciled users the server held, which the reply of the label removal
brings back. -/
theorem reconcileMembers_endsWithStatus (groupCR : Group) (ms : List String)
    (hms : expandGroupMembers env.groups groupCR.spec.groupName = .ok ms)
    (hupd : env.forceReconcileLabel ∈ groupCR.metadata.labels → ∀ obj, env.update obj = .ok ())
    (w : World σ) :
    RunAppends (EndsWithStatus (if env.forceReconcileLabel ∈ groupCR.metadata.labels then
      groupCR.status.reconciledUsers else deduplicateMembers ms)) (reconcileMembers env groupCR) w := by
  unfold reconcileMembers
  simp only [hms, ofExcept_ok, pure_bind]
  obtain ⟨errs, herrs⟩ := processAllBackends_succeeds env _ _ _ w
  refine .bind_left EndsWithStatus.append_left (processAllBackends_moves
    (backendWork_appends (σ := σ) groupCR.spec.groupName) env _ rfl _ _) herrs ?_
  -- the index decision logs a line, and may update the indexes
  refine .bind_left EndsWithStatus.append_left (Q := fun _ => True)
    (Moves.ite' (Moves.bind' (Moves.emit' fun _ => ⟨[_], rfl, by simp⟩) fun _ =>
      Moves.modifyStore' fun _ => ⟨[], by simp, by simp⟩) (Moves.emit' fun _ => ⟨[_], rfl, by simp⟩))
    (by split <;> rfl) ?_
  refine .bind_left EndsWithStatus.append_left (removeForceReconcileLabel_moves apiWork_noLogs env _ _
    trivial) (removeForceReconcileLabel_exec env _ _ ?_ _) ?_
  · exact hupd
  · exact updateStatusAndHandleErrors_endsWithStatus env _ errs _ (by split_ifs <;> rfl)

/-- The same from the start of a reconcile that gets past the configurability gate. -/
theorem reconcile_endsWithStatus (name : String) (groupCR : Group)
    (hget : env.groups.get name = .ok groupCR) (w : World σ) (refs : List OwnerReference)
    (hreach : ReachesMembers env groupCR w refs) (ms : List String)
    (hms : expandGroupMembers env.groups groupCR.spec.groupName = .ok ms)
    (hupd : env.forceReconcileLabel ∈ groupCR.metadata.labels → ∀ obj, env.update obj = .ok ()) :
    RunAppends (EndsWithStatus (if env.forceReconcileLabel ∈ groupCR.metadata.labels then
      groupCR.status.reconciledUsers else deduplicateMembers ms)) (reconcile env name) w := by
  have h := reconcileMembers_endsWithStatus env (waitingGroup groupCR refs) ms (by simpa using hms)
    (by simpa using hupd) ((prepareGroup env groupCR).exec w).2
  simp only [waitingGroup_labels, waitingGroup_reconciledUsers] at h
  exact hreach.runAppends EndsWithStatus.append_left hget h

/-- **Nested member expansion is what a reconcile stores.** A reconcile of a Group without the
force-reconcile label that gets past the configurability gate, and whose members expand to `ms`,
writes last a status whose `ReconciledUsers` is `deduplicateMembers ms`: the users of the groups
reachable from the Group through `members.groups`, itself included, each once. -/
theorem reconcile_storesReconciledUsers (name : String) (groupCR : Group)
    (hget : env.groups.get name = .ok groupCR) (w : World σ) (refs : List OwnerReference)
    (hreach : ReachesMembers env groupCR w refs) (ms : List String)
    (hms : expandGroupMembers env.groups groupCR.spec.groupName = .ok ms)
    (hlabel : env.forceReconcileLabel ∉ groupCR.metadata.labels) :
    (∀ u, u ∈ deduplicateMembers ms ↔
      ∃ b, Relation.ReflTransGen env.groups.Child groupCR.spec.groupName b ∧
        env.groups.HasUser b u) ∧
      (deduplicateMembers ms).Nodup ∧
      RunAppends (EndsWithStatus (deduplicateMembers ms)) (reconcile env name) w := by
  obtain ⟨hmem, -, hnodup, hsame⟩ := (expandGroupMembers_spec env.groups _).2 ms hms
  refine ⟨fun u => (hsame u).trans (hmem u), hnodup, ?_⟩
  simpa [hlabel] using reconcile_endsWithStatus env name groupCR hget w refs hreach ms hms
    fun h => absurd h hlabel

/-- The labels of a Group someone asked to reconcile again. -/
def forcedLabels : List String := ["operator.dataverse.redhat.com/force-reconcile"]

/-- The Group `g1`, with the labels `labels`, of the user `alice` on `ftA`, whose status as the
server holds it still names `bob`, the member an earlier reconcile stored before `alice` took
that place. -/
def memberChangedGroup (labels : List String) : Group :=
  { metadata := ⟨"g1", "g1-uid", 2, none, [groupFinalizer], labels, []⟩
    spec := ⟨"g1", ⟨["alice"], []⟩, [⟨"ftA", "fivetran"⟩], []⟩
    status := ⟨["bob"], [], []⟩ }

/-- A namespace holding `memberChangedGroup labels`, whose API server and backend accept every
call. -/
def memberChangedEnv (labels : List String) : Env Unit where
  groups := ⟨[memberChangedGroup labels]⟩
  update _ := .ok ()
  updateStatus _ := .ok ()
  backendMap := ∅
  transform _ groupName := .ok groupName
  ldap _ := .ok ⟨"alice@example.com", "Alice", "A"⟩
  newClient _ _ := .ok acceptingClient
  forceReconcileLabel := "operator.dataverse.redhat.com/force-reconcile"
  accountReviewerRole := "reviewer"

/-- Without the force-reconcile label, the reconcile of `g1` stores `alice`. -/
theorem reconcile_storesReconciledUsers_memberChanged :
    (memberChangedEnv []).groups.get "g1" = .ok (memberChangedGroup []) ∧
      ReachesMembers (memberChangedEnv []) (memberChangedGroup []) ⟨Store.empty, fun _ => (), []⟩ [] ∧
      expandGroupMembers (memberChangedEnv []).groups (memberChangedGroup []).spec.groupName =
        .ok ["alice"] ∧
      (memberChangedEnv []).forceReconcileLabel ∉ (memberChangedGroup []).metadata.labels ∧
      (∀ u, u ∈ deduplicateMembers ["alice"] ↔
        ∃ b, Relation.ReflTransGen (memberChangedEnv []).groups.Child
          (memberChangedGroup []).spec.groupName b ∧ (memberChangedEnv []).groups.HasUser b u) ∧
      (deduplicateMembers ["alice"]).Nodup ∧
      RunAppends (EndsWithStatus (deduplicateMembers ["alice"])) (reconcile (memberChangedEnv []) "g1")
        ⟨Store.empty, fun _ => (), []⟩ :=
  have hreach : ReachesMembers (memberChangedEnv []) (memberChangedGroup [])
      ⟨Store.empty, fun _ => (), []⟩ [] := ⟨rfl, rfl, rfl⟩
  ⟨rfl, hreach, rfl, by decide, reconcile_storesReconciledUsers (memberChangedEnv []) "g1"
    (memberChangedGroup []) rfl _ _ hreach ["alice"] rfl (by decide)⟩

/-- With the force-reconcile label, the reconcile of `g1` succeeds on every backend and returns no
error, yet the status it writes last names `bob`, whom the server held, and not `alice`, to whom
the members expand: the reply of the label removal brought the stored status back. -/
theorem reconcile_forceReconcile_staleReconciledUsers :
    (memberChangedEnv forcedLabels).forceReconcileLabel ∈
        (memberChangedGroup forcedLabels).metadata.labels ∧
      expandGroupMembers (memberChangedEnv forcedLabels).groups "g1" = .ok ["alice"] ∧
      ((reconcile (memberChangedEnv forcedLabels) "g1").exec ⟨Store.empty, fun _ => (), []⟩).1 =
        .ok () ∧
      RunAppends (EndsWithStatus ["bob"]) (reconcile (memberChangedEnv forcedLabels) "g1")
        ⟨Store.empty, fun _ => (), []⟩ :=
  ⟨by decide, rfl, by decide, by
    simpa [memberChangedGroup, forcedLabels, memberChangedEnv] using
      reconcile_endsWithStatus (memberChangedEnv forcedLabels) "g1" _ rfl _ []
        ⟨rfl, rfl, rfl⟩ ["alice"] rfl fun _ _ => rfl⟩

end ReconciledUsers

/-! ### Generation and labels of the written objects -/

/-- An event that writes no Group, or writes one with generation `generation` and labels
`labels`. -/
def WritesAs (generation : Nat) (labels : List String) : Event → Prop
  | .update obj _ | .statusUpdate obj _ =>
    obj.metadata.generation = generation ∧ obj.metadata.labels = labels
  | _ => True

/-- Every run of `m` appends events satisfying `PA`, then events satisfying `PB`. -/
def Phased (PA PB : Event → Prop) (m : ReconcileM σ α) : Prop :=
  ∀ w, ∃ a b, (m.exec w).2.events = w.events ++ a ++ b ∧ (∀ e ∈ a, PA e) ∧ ∀ e ∈ b, PB e

namespace Phased

variable {α β : Type} {PA PB : Event → Prop}

theorem of_first {m : ReconcileM σ α} (h : Moves (WorldOrder.appends PA) m) : Phased PA PB m :=
  fun w => by
    obtain ⟨a, hev, ha⟩ := h w
    exact ⟨a, [], by simpa using hev, ha, by simp⟩

theorem of_second {m : ReconcileM σ α} (h : Moves (WorldOrder.appends PB) m) : Phased PA PB m :=
  fun w => by
    obtain ⟨b, hev, hb⟩ := h w
    exact ⟨[], b, by simpa using hev, by simp, hb⟩

/-- Steps of the first phase, then a phased run. -/
theorem bind_first {x : ReconcileM σ α} {f : α → ReconcileM σ β}
    (hx : Moves (WorldOrder.appends PA) x) (hf : ∀ a, Phased PA PB (f a)) :
    Phased PA PB (x >>= f) := fun w => by
  obtain ⟨a₁, hev₁, ha₁⟩ := hx w
  rw [exec_bind]
  rcases hr : x.exec w with ⟨_ | v, w₁⟩ <;> rw [hr] at hev₁
  · exact ⟨a₁, [], by simpa using hev₁, ha₁, by simp⟩
  · obtain ⟨a₂, b, hev₂, ha₂, hb⟩ := hf v w₁
    refine ⟨a₁ ++ a₂, b, by rw [hev₂, show w₁.events = _ from hev₁]; simp, ?_, hb⟩
    exact fun e he => (List.mem_append.mp he).elim (ha₁ e) (ha₂ e)

theorem ite' {c : Prop} [Decidable c] {x y : ReconcileM σ α} (hx : Phased PA PB x)
    (hy : Phased PA PB y) : Phased PA PB (if c then x else y) := by
  split_ifs <;> assumption

end Phased

section Phases

variable (generation : Nat) (labels : List String)

theorem apiWork_writesAs :
    ApiWork (WorldOrder.appends (σ := σ) (WritesAs generation labels))
      fun obj => obj.metadata.generation = generation ∧ obj.metadata.labels = labels where
  update _ _ _ h := ⟨[_], rfl, by simpa [WritesAs] using h⟩
  statusUpdate _ _ _ h := ⟨[_], rfl, by simpa [WritesAs] using h⟩

theorem backendWork_writesAs (groupName : String) (backend : Backend) :
    BackendWork (WorldOrder.appends (σ := σ) (WritesAs generation labels)) groupName backend where
  call _ _ _ _ := ⟨[_], rfl, by simp [WritesAs]⟩
  createTeam _ _ _ _ _ :=
    World.afterCreateTeam_of ⟨[_], rfl, by simp [WritesAs]⟩ fun _ => ⟨[], by simp, by simp⟩
  teamStoreRead _ _ _ _ _ := ⟨[_], rfl, by simp [WritesAs]⟩
  setUser _ _ _ _ := ⟨[], by simp, by simp⟩
  setTeamID _ _ _ := ⟨[], by simp, by simp⟩

theorem deletionWork_writesAs :
    DeletionWork (WorldOrder.appends (σ := σ) (WritesAs generation labels)) where
  call _ _ _ _ := ⟨[_], rfl, by simp [WritesAs]⟩
  deleteTeam _ _ := ⟨[], by simp, by simp⟩

variable (env : Env σ)

/-- After the configurability gate, the writes carry the Group's generation and labels until
the label removal, and the labels without the force-reconcile label from it on. -/
theorem reconcileMembers_phased (groupCR : Group) (hgen : groupCR.metadata.generation = generation)
    (hlabels : groupCR.metadata.labels = labels) :
    Phased (WritesAs generation labels)
      (WritesAs generation (labels.filter (· ≠ env.forceReconcileLabel)))
      (reconcileMembers env groupCR) := by
  subst hgen hlabels
  have hA := apiWork_writesAs (σ := σ) groupCR.metadata.generation
    (groupCR.metadata.labels.filter (· ≠ env.forceReconcileLabel))
  unfold reconcileMembers
  refine .bind_first (Moves.ofExcept' _) fun _ => ?_
  dsimp only
  refine .bind_first (processAllBackends_moves (backendWork_writesAs _ _ _) env _ rfl _ _)
    fun _ => .bind_first (Moves.ite' (Moves.bind' (Moves.emit' fun _ => ⟨[_], rfl, by simp [WritesAs]⟩)
      fun _ => Moves.modifyStore' fun _ => ⟨[], by simp, by simp⟩)
      (Moves.emit' fun _ => ⟨[_], rfl, by simp [WritesAs]⟩)) fun _ => .of_second ?_
  exact Moves.bind_of_returns (removeForceReconcileLabel_moves hA env _ _ ⟨rfl, rfl⟩)
    (removeForceReconcileLabel_returns env _ _) fun _ h =>
      h ▸ updateStatusAndHandleErrors_moves hA env _ _ fun _ _ => ⟨rfl, rfl⟩

end Phases

variable (env : Env σ)

/-- A reconcile writes its Group with the stored generation and labels, until it removes the
force-reconcile label, and without the label from then on. -/
theorem reconcile_phased (name : String) (stored : Group) (hget : env.groups.get name = .ok stored) :
    Phased (WritesAs stored.metadata.generation stored.metadata.labels)
      (WritesAs stored.metadata.generation
        (stored.metadata.labels.filter (· ≠ env.forceReconcileLabel)))
      (reconcile env name) := by
  have hA := apiWork_writesAs (σ := σ) stored.metadata.generation stored.metadata.labels
  unfold reconcile
  simp only [hget]
  refine .ite' (.of_first (handleDeletion_moves (deletionWork_writesAs _ _) env hA _ ⟨rfl, rfl⟩
    (fun _ => ⟨[], by simp, by simp⟩) fun _ => ⟨[], by simp, by simp⟩)) ?_
  refine .bind_first (prepareGroup_moves hA env _ (by simp) (fun _ => by simp) fun _ => by simp)
    fun _ => .ite' (.of_first (updateGroupStatus_moves hA env (by simp))) ?_
  exact reconcileMembers_phased _ _ env _ (by simp) (by simp)

end Usernaut
