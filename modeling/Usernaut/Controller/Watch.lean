import Usernaut.Controller.Writes

/-!
# Which Groups a change of a Group reconciles

`SetupWithManager` watches Groups twice: `For`, which enqueues the changed Group, and `Watches`
with `mapFunc`, which enqueues every Group that lists the changed one in `spec.members.groups`.
`WithEventFilter` puts both behind one filter: an update passes it only when the generation
changed (`GenerationChangedPredicate`) or the force-reconcile label was added
(`CustomLabelKeyChangedPredicate`).

A reconcile writes only its Group's metadata and status, with the generation it read and
never adding the label (`reconcile_phased`). The update events its writes cause never pass the
filter, so they enqueue nothing. The Groups a change reconciles are then exactly the changed
Group and the Groups that list it directly. A Group that includes the changed one only through
another Group is not reconciled, and its expanded membership goes stale until something else
triggers it.

## Main definitions

* `updatePredicate`, `mapFunc`, `updateRequests`: the event filter and the two watches.
* `writeEvents`: the update events of a run's writes, replayed on the stored Group.
* `Reconciled`: the Groups reconciled as a result of an update, closed under the updates their
  reconciles cause.

## Main results

* `writeEvents_filtered`: the writes of a reconcile never pass the event filter.
* `reconciled_iff_mem_updateRequests`: a change reconciles exactly the changed Group and its
  direct referencers.
* `reconciled_chain_counterexample`: with `g1 → g2 → g3`, a change of `g3` does not reconcile
  `g1`.
-/

namespace Usernaut

open GroupReconciler

/-- `predicate.Or(GenerationChangedPredicate{}, ForceReconcilePredicate())` on an update of a
Group from `old` to `new`: the generation changed, or the label was added. -/
def updatePredicate (forceReconcileLabel : String) (old new : Group) : Bool :=
  old.metadata.generation ≠ new.metadata.generation ||
    (forceReconcileLabel ∉ old.metadata.labels && forceReconcileLabel ∈ new.metadata.labels)

/-- `mapFunc`: the Groups whose `spec.members.groups` index lists the changed Group's name. -/
def mapFunc (groups : GroupList) (obj : Group) : List String :=
  (groups.items.filter fun g => obj.metadata.name ∈ g.spec.members.groups).map (·.metadata.name)

/-- The requests an update of a Group from `old` to `new` enqueues: the Group itself (`For`) and
its referencers (`Watches` with `mapFunc`), when the update passes the event filter. -/
def updateRequests (groups : GroupList) (forceReconcileLabel : String) (old new : Group) :
    List String :=
  if updatePredicate forceReconcileLabel old new then new.metadata.name :: mapFunc groups new
  else []

/-- The update events the API server sends for the writes among `events`, replayed from the
Group as stored before them: `r.Update` stores the written metadata and spec and keeps the
stored status, `r.Status().Update` stores the written status and keeps the rest, and a failed
write stores nothing. This is the API server's behaviour as the spec assumes it; the server is
not part of the repository. -/
def writeEvents : Group → List Event → List (Group × Group)
  | _, [] => []
  | stored, .update obj (.ok _) :: events =>
    (stored, { obj with status := stored.status }) ::
      writeEvents { obj with status := stored.status } events
  | stored, .statusUpdate obj (.ok _) :: events =>
    (stored, { stored with status := obj.status }) ::
      writeEvents { stored with status := obj.status } events
  | stored, _ :: events => writeEvents stored events

/-- Writes without the label, of the stored generation, never pass the filter. -/
theorem writeEvents_filtered_of_unlabelled {forceReconcileLabel : String} {generation : Nat}
    {labels : List String} (hforce : forceReconcileLabel ∉ labels) :
    ∀ (stored : Group) (events : List Event), stored.metadata.generation = generation →
      (∀ e ∈ events, WritesAs generation labels e) →
      ∀ p ∈ writeEvents stored events, updatePredicate forceReconcileLabel p.1 p.2 = false := by
  intro stored events
  induction stored, events using writeEvents.induct with
  | case1 => simp [writeEvents]
  | case2 stored obj _ events ih =>
    intro hgen hes p hp
    obtain ⟨hobj, hlabels⟩ : obj.metadata.generation = generation ∧ obj.metadata.labels = labels :=
      hes _ (List.mem_cons_self _ _)
    rcases List.mem_cons.mp hp with rfl | hp
    · simp [updatePredicate, hgen, hobj, hlabels, hforce]
    · exact ih hobj (fun e he => hes e (List.mem_cons_of_mem _ he)) p hp
  | case3 stored obj _ events ih =>
    intro hgen hes p hp
    rcases List.mem_cons.mp hp with rfl | hp
    · simp [updatePredicate]
    · exact ih hgen (fun e he => hes e (List.mem_cons_of_mem _ he)) p hp
  | case4 stored e events _ _ ih =>
    intro hgen hes p hp
    simp only [writeEvents] at hp
    exact ih hgen (fun e he => hes e (List.mem_cons_of_mem _ he)) p hp

/-- Writes with the stored generation and labels, then writes without the label, never pass the
filter: the label is never added. -/
theorem writeEvents_filtered_of_phases {forceReconcileLabel : String} {generation : Nat}
    {labels : List String} (before after : List Event)
    (hbefore : ∀ e ∈ before, WritesAs generation labels e)
    (hafter : ∀ e ∈ after, WritesAs generation (labels.filter (· ≠ forceReconcileLabel)) e) :
    ∀ stored : Group, stored.metadata.generation = generation → stored.metadata.labels = labels →
      ∀ p ∈ writeEvents stored (before ++ after),
        updatePredicate forceReconcileLabel p.1 p.2 = false := by
  induction before with
  | nil =>
    intro stored hgen _
    exact writeEvents_filtered_of_unlabelled (by simp) stored after hgen hafter
  | cons e before ih =>
    have hrest := ih fun e' he' => hbefore e' (List.mem_cons_of_mem _ he')
    intro stored hgen hlabels p hp
    have he := hbefore e (List.mem_cons_self _ _)
    cases e with
    | update obj answer =>
      obtain ⟨hobj, hobjLabels⟩ := he
      cases answer with
      | error _ => exact hrest stored hgen hlabels p hp
      | ok _ =>
        rcases List.mem_cons.mp hp with rfl | hp
        · simp [updatePredicate, hgen, hobj, hlabels, hobjLabels]
        · exact hrest { obj with status := stored.status } hobj hobjLabels p hp
    | statusUpdate obj answer =>
      cases answer with
      | error _ => exact hrest stored hgen hlabels p hp
      | ok _ =>
        rcases List.mem_cons.mp hp with rfl | hp
        · simp [updatePredicate]
        · exact hrest { stored with status := obj.status } hgen hlabels p hp
    | backend | teamStoreRead | log => exact hrest stored hgen hlabels p hp

/-- The update events of a reconcile's writes never pass the event filter. -/
theorem writeEvents_filtered {σ : Type} (env : Env σ) (name : String) (stored : Group)
    (hget : env.groups.get name = .ok stored) (w : World σ) :
    ∀ p ∈ writeEvents stored (((reconcile env name).exec w).2.events.drop w.events.length),
      updatePredicate env.forceReconcileLabel p.1 p.2 = false := by
  obtain ⟨before, after, hev, hbefore, hafter⟩ := reconcile_phased env name stored hget w
  rw [hev, List.append_assoc, List.drop_left]
  exact writeEvents_filtered_of_phases before after hbefore hafter stored rfl rfl

/-- The Groups reconciled as a result of an update of a Group from `old` to `new` in the
namespace `groups`: those the update enqueues, and those enqueued by the update events of the
writes of any reconcile of them, whatever the backends, the directory and the API server answer
in that reconcile. -/
inductive Reconciled (groups : GroupList) (forceReconcileLabel : String) (old new : Group) :
    String → Prop
  | requested {name : String} :
    name ∈ updateRequests groups forceReconcileLabel old new →
      Reconciled groups forceReconcileLabel old new name
  | cascade {σ : Type} {r name : String} (env : Env σ) (w : World σ) {stored : Group}
      {p : Group × Group} :
    Reconciled groups forceReconcileLabel old new r → env.groups = groups →
      env.forceReconcileLabel = forceReconcileLabel → groups.get r = .ok stored →
      p ∈ writeEvents stored (((reconcile env r).exec w).2.events.drop w.events.length) →
      name ∈ updateRequests groups forceReconcileLabel p.1 p.2 →
      Reconciled groups forceReconcileLabel old new name

/-- Every reconciled Group was enqueued by the update itself. -/
theorem mem_updateRequests_of_reconciled {groups : GroupList} {forceReconcileLabel : String}
    {old new : Group} {name : String} (h : Reconciled groups forceReconcileLabel old new name) :
    name ∈ updateRequests groups forceReconcileLabel old new := by
  induction h with
  | requested h => exact h
  | cascade env w _ hgroups hlabel hget hp hname =>
    subst hgroups hlabel
    simp [updateRequests, writeEvents_filtered env _ _ hget w _ hp] at hname

/-- A change of a Group reconciles exactly the Group itself and the Groups that list it
directly in `spec.members.groups`, when the change passes the event filter, and nothing else. -/
theorem reconciled_iff_mem_updateRequests (groups : GroupList) (forceReconcileLabel : String)
    (old new : Group) (name : String) :
    Reconciled groups forceReconcileLabel old new name ↔
      name ∈ updateRequests groups forceReconcileLabel old new :=
  ⟨mem_updateRequests_of_reconciled, .requested⟩

/-- A Group with generation `generation`, users `users` and subgroups `subgroups`. -/
def chainGroup (name : String) (generation : Nat) (users subgroups : List String) : Group :=
  { metadata := ⟨name, name ++ "-uid", generation, none, [groupFinalizer], [], []⟩
    spec := ⟨name, ⟨users, subgroups⟩, [], []⟩
    status := ⟨[], [], []⟩ }

/-- `g1` includes `g2`, which includes `g3`, whose spec has just changed: `carol` was added. -/
def chainGroups : GroupList :=
  ⟨[chainGroup "g1" 1 ["alice"] ["g2"], chainGroup "g2" 1 ["bob"] ["g3"],
    chainGroup "g3" 2 ["carol"] []]⟩

/-- With `g1 → g2 → g3`, the change of `g3`'s spec reaches `g1` through `members.groups`, but
`g1` is never reconciled: only `g3` and `g2` are. -/
theorem reconciled_chain_counterexample :
    Relation.ReflTransGen chainGroups.Child "g1" "g3" ∧
      ¬Reconciled chainGroups "operator.dataverse.redhat.com/force-reconcile"
        (chainGroup "g3" 1 [] []) (chainGroup "g3" 2 ["carol"] []) "g1" := by
  have h12 : chainGroups.Child "g1" "g2" := ⟨chainGroup "g1" 1 ["alice"] ["g2"], rfl, by decide⟩
  have h23 : chainGroups.Child "g2" "g3" := ⟨chainGroup "g2" 1 ["bob"] ["g3"], rfl, by decide⟩
  refine ⟨.head h12 (.head h23 .refl), fun h => ?_⟩
  have := mem_updateRequests_of_reconciled h
  revert this
  decide

end Usernaut
