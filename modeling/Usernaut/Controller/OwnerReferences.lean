import Usernaut.Controller.Reconcile

/-!
# Owner references

`setOwnerReference` reads, for each name in a Group's own `spec.members.groups`, the Group of that
name, and makes it an owner of kind Group of the Group being reconciled. The names it reads are the
groups the Group includes, its children, although the code calls them parents. When it returns,
the Group's owner references of kind Group name exactly the children's UIDs, and its other owner
references are the ones it had (`setOwnerReference_ok`).

So a Group is owned by the groups it includes. The Group that includes another is not among the
included Group's owners; the included Group is among its owners, with `blockOwnerDeletion`, so the
orchestrator's garbage collection of a deleted sub-group reaches every group that includes it
(`setOwnerReference_ownedByChild`).

## Main results

* `GroupReconciler.foldlM_desiredOwnerRefs`: the desired references, one per child's UID.
* `GroupReconciler.setOwnerReference_ok`: the owner references after `setOwnerReference`.
-/

namespace Usernaut

namespace GroupReconciler

variable {σ : Type} (env : Env σ)

/-- Whether an owner reference is of kind Group, the test `setOwnerReference` makes. -/
def IsGroupRef (ref : OwnerReference) : Prop := ref.kind = "Group" ∧ ref.apiVersion = groupVersion

/-- **The desired references.** The loop over `spec.members.groups` adds, under the UID of each
Group it names, a reference of kind Group to that UID, and keeps the references it started
with. -/
theorem foldlM_desiredOwnerRefs : ∀ (names : List String)
    (init desired : AList fun _ : String => OwnerReference) (w w' : World σ),
    (names.foldlM (fun (desired : AList fun _ : String => OwnerReference) parentGroupName => do
      let parentGroupCR ← ofExcept (env.groups.get parentGroupName)
      pure (desired.insert parentGroupCR.metadata.uid
        ({ apiVersion := groupVersion, kind := "Group", name := parentGroupCR.metadata.name,
           uid := parentGroupCR.metadata.uid, blockOwnerDeletion := true } : OwnerReference)))
        init).exec w =
        (.ok desired, w') →
      (∀ uid ref, desired.lookup uid = some ref →
        init.lookup uid = some ref ∨ (IsGroupRef ref ∧ ref.uid = uid)) ∧
      ∀ uid, uid ∈ desired ↔ uid ∈ init ∨
        ∃ name ∈ names, ∃ child, env.groups.get name = .ok child ∧ child.metadata.uid = uid
  | [], init, desired, w, w', h => by
    cases h
    exact ⟨fun _ _ h => .inl h, by simp⟩
  | name :: names, init, desired, w, w', h => by
    rw [List.foldlM_cons] at h
    obtain ⟨desired₁, w₁, h₁, h₂⟩ := exec_bind_eq_ok h
    rcases hget : env.groups.get name with _ | child <;>
      simp only [exec_bind, exec_ofExcept, hget, exec_pure, Prod.mk.injEq, Except.ok.injEq] at h₁
    · cases h₁.1
    obtain ⟨rfl, rfl⟩ := h₁
    obtain ⟨hlookup, hkeys⟩ := foldlM_desiredOwnerRefs names _ desired w w' h₂
    refine ⟨fun uid ref href => ?_, fun uid => ?_⟩
    · rcases hlookup uid ref href with h | h
      · by_cases huid : uid = child.metadata.uid
        · subst huid
          rw [AList.lookup_insert, Option.some.injEq] at h
          subst h
          exact .inr ⟨⟨rfl, rfl⟩, rfl⟩
        · exact .inl (by rwa [AList.lookup_insert_ne huid] at h)
      · exact .inr h
    · simp only [hkeys, AList.mem_insert, List.mem_cons, exists_eq_or_imp, hget, Except.ok.injEq,
        exists_eq_left', @eq_comm _ uid]
      rw [or_assoc, or_left_comm]

/-- The Boolean test `setOwnerReference` makes is `IsGroupRef`. -/
@[simp] theorem isGroupRef_eq_true (ref : OwnerReference) :
    (decide (ref.kind = "Group") && decide (ref.apiVersion = groupVersion)) = true ↔ IsGroupRef ref := by
  simp [IsGroupRef]

/-- When every desired reference is of kind Group under its own UID, the UIDs it holds are those
of the references of kind Group among its values. -/
theorem mem_desired_iff {desired : AList fun _ : String => OwnerReference}
    (hlookup : ∀ uid ref, desired.lookup uid = some ref → IsGroupRef ref ∧ ref.uid = uid)
    (uid : String) :
    uid ∈ desired ↔ ∃ ref ∈ desired.entries.map (·.2), IsGroupRef ref ∧ ref.uid = uid := by
  simp only [List.mem_map]
  constructor
  · intro huid
    obtain ⟨ref, href⟩ := Option.isSome_iff_exists.mp (AList.lookup_isSome.mpr huid)
    exact ⟨ref, ⟨⟨uid, ref⟩, AList.mem_lookup_iff.mp href, rfl⟩, hlookup uid ref href⟩
  · rintro ⟨_, ⟨⟨uid', ref⟩, hmem, rfl⟩, -, rfl⟩
    rw [(hlookup uid' ref (AList.mem_lookup_iff.mpr hmem)).2]
    exact AList.mem_keys.mpr (List.mem_keys_of_mem hmem)

/-- **Owner references after `setOwnerReference`.** When it returns, the Group's owner references
of kind Group carry exactly the UIDs of the Groups its own `spec.members.groups` names, and its
other owner references are the ones it had. -/
theorem setOwnerReference_ok {groupCR : Group} {w w' : World σ} {refs : List OwnerReference}
    (h : (setOwnerReference env groupCR).exec w = (.ok refs, w')) :
    (∀ ref, ref ∈ refs ∧ ¬IsGroupRef ref ↔
      ref ∈ groupCR.metadata.ownerReferences ∧ ¬IsGroupRef ref) ∧
    ∀ uid, (∃ ref ∈ refs, IsGroupRef ref ∧ ref.uid = uid) ↔
      ∃ name ∈ groupCR.spec.members.groups, ∃ child,
        env.groups.get name = .ok child ∧ child.metadata.uid = uid := by
  unfold setOwnerReference at h
  obtain ⟨desired, w₁, hloop, hrest⟩ := exec_bind_eq_ok h
  obtain ⟨hlookup, hkeys⟩ := foldlM_desiredOwnerRefs env _ ∅ desired w w₁ hloop
  simp only [AList.lookup_empty, reduceCtorEq, false_or, AList.not_mem_empty] at hlookup hkeys
  simp only [← hkeys]
  dsimp only at hrest
  split_ifs at hrest with hneeds
  · -- the references change: the other references, then the desired ones
    obtain ⟨_, w₂, -, h₂⟩ := exec_bind_eq_ok hrest
    obtain ⟨_, w₃, -, h₃⟩ := exec_bind_eq_ok h₂
    simp only [exec_pure, Prod.mk.injEq, Except.ok.injEq] at h₃
    obtain ⟨rfl, -⟩ := h₃
    have hvalues : ∀ ref ∈ desired.entries.map (·.2), IsGroupRef ref := by
      simp only [List.mem_map]
      rintro _ ⟨⟨uid, ref⟩, hmem, rfl⟩
      exact (hlookup uid ref (AList.mem_lookup_iff.mpr hmem)).1
    simp only [mem_desired_iff hlookup, List.mem_append, List.mem_filter, Bool.not_eq_true',
      Bool.eq_false_iff, ne_eq, isGroupRef_eq_true]
    refine ⟨fun ref => ⟨fun ⟨href, hnot⟩ => href.resolve_right fun hv => hnot (hvalues _ hv),
        fun href => ⟨.inl href, href.2⟩⟩,
      fun uid => ⟨?_, fun ⟨ref, href, hgroup⟩ => ?_⟩⟩
    · rintro ⟨ref, href, hgroup, rfl⟩
      exact ⟨ref, href.resolve_left fun h => h.2 hgroup, hgroup, rfl⟩
    · exact ⟨ref, .inr href, hgroup⟩
  · -- the references are kept: those of kind Group already carry the desired UIDs
    simp only [exec_pure, Prod.mk.injEq, Except.ok.injEq] at hrest
    obtain ⟨rfl, -⟩ := hrest
    push_neg at hneeds
    obtain ⟨hlen, hsub⟩ := hneeds
    have hexisting := Finset.eq_of_subset_of_card_le
      (fun uid h => hsub uid (List.mem_toFinset.mp h))
      (by rw [List.toFinset_card_of_nodup desired.keys_nodup, hlen])
    refine ⟨fun _ => Iff.rfl, fun uid => ?_⟩
    rw [AList.mem_keys, ← List.mem_toFinset, hexisting]
    simp [IsGroupRef, and_assoc]

/-- `p` includes `c`: it lists `c` in its `members.groups`. -/
def includingGroup : Group :=
  { metadata := ⟨"p", "p-uid", 1, none, [groupFinalizer], [], []⟩
    spec := ⟨"p", ⟨[], ["c"]⟩, [], []⟩
    status := ⟨[], [], []⟩ }

/-- `c` includes no group. -/
def includedGroup : Group :=
  { metadata := ⟨"c", "c-uid", 1, none, [groupFinalizer], [], []⟩
    spec := ⟨"c", ⟨["alice"], []⟩, [], []⟩
    status := ⟨[], [], []⟩ }

/-- A namespace holding `p` and `c`, whose API server accepts every write. -/
def nestedGroupsEnv : Env Unit where
  groups := ⟨[includingGroup, includedGroup]⟩
  update _ := .ok ()
  updateStatus _ := .ok ()
  backendMap := ∅
  transform _ groupName := .ok groupName
  ldap _ := .ok ⟨"alice@example.com", "Alice", "A"⟩
  newClient _ _ := .error "no backend is configured"
  forceReconcileLabel := "operator.dataverse.redhat.com/force-reconcile"
  accountReviewerRole := "reviewer"

/-- `p` includes `c`, yet `setOwnerReference` gives `c` no owner of kind Group, and makes `c` an
owner of `p`, with `blockOwnerDeletion`. -/
theorem setOwnerReference_ownedByChild :
    nestedGroupsEnv.groups.Child "p" "c" ∧
      ((setOwnerReference nestedGroupsEnv includedGroup).exec ⟨Store.empty, fun _ => (), []⟩).1 =
        .ok [] ∧
      ((setOwnerReference nestedGroupsEnv includingGroup).exec ⟨Store.empty, fun _ => (), []⟩).1 =
        .ok [⟨groupVersion, "Group", "c", "c-uid", true⟩] :=
  ⟨⟨includingGroup, rfl, by decide⟩, by decide, by decide⟩

end GroupReconciler

end Usernaut
