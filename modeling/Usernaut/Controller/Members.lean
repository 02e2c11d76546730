import Usernaut.Basic
import Mathlib.Logic.Relation
import Mathlib.Data.Finset.Card

/-!
# Nested member expansion

`GroupReconciler.fetchUniqueGroupMembers` walks `spec.members.groups` depth first. It keeps the
groups of the current recursion path in the map `visitedOnPath`, which every call shares: a call
returns at once when its group is on the path, and otherwise adds the group and removes it again
with a deferred `delete` on every return. `deduplicateMembers` then keeps the first occurrence of
each username.

The Go recursion has no bound of its own; the model runs it with a call stack of `depth` frames
and answers `none` when the recursion would need more. The main results are that `depth` larger
than the number of Groups always suffices, that every return restores the path, and that the
members found are those of every group reachable from the start.

## Main definitions

* `GroupList.get`: `r.Client.Get` of a Group by name.
* `fetchUniqueGroupMembers`, `deduplicateMembers`: the two functions of the controller.
* `GroupList.Child`: the `members.groups` edges of the namespace.

## Main results

* `fetchUniqueGroupMembers_eq_some`: enough stack gives one answer, and the path back.
* `fetchUniqueGroupMembers_error_iff`, `mem_fetchUniqueGroupMembers_iff`: the answer is an error
  exactly when a reachable group is missing, and otherwise lists the users of every reachable group.
* `deduplicateMembers_append_singleton`: deduplication keeps first occurrences, in order.
-/

namespace Usernaut

/-- The Group resources of the watched namespace, `usernautdevv1alpha1.GroupList`. -/
structure GroupList where
  items : List Group

/-- Kubernetes' NotFound error for a Group name. -/
def notFoundError (name : String) : String :=
  "groups.operator.dataverse.redhat.com \"" ++ name ++ "\" not found"

namespace GroupList

variable (groups : GroupList)

/-- `r.Client.Get` of the Group named `name`. -/
def get (name : String) : Except String Group :=
  match groups.items.find? (·.metadata.name = name) with
  | some groupCR => .ok groupCR
  | none => .error (notFoundError name)

/-- The names of the Groups that exist. -/
def names : Finset String := (groups.items.map (·.metadata.name)).toFinset

/-- `a` lists `b` in its `members.groups`. -/
def Child (a b : String) : Prop :=
  ∃ groupCR, groups.get a = .ok groupCR ∧ b ∈ groupCR.spec.members.groups

/-- `name` does not exist. -/
def Missing (name : String) : Prop := ∃ err, groups.get name = .error err

/-- The group `name` exists and lists `user` in its `members.users`. -/
def HasUser (name user : String) : Prop :=
  ∃ groupCR, groups.get name = .ok groupCR ∧ user ∈ groupCR.spec.members.users

theorem mem_names_of_get {name : String} {groupCR : Group} (h : groups.get name = .ok groupCR) :
    name ∈ groups.names := by
  unfold get at h
  split at h
  · rename_i hfind
    have := List.find?_some hfind
    simp only [decide_eq_true_eq] at this
    exact List.mem_toFinset.mpr (List.mem_map.mpr ⟨_, List.mem_of_find?_eq_some hfind, this⟩)
  · cases h

theorem card_names_le : groups.names.card ≤ groups.items.length :=
  (List.toFinset_card_le _).trans (List.length_map _ _).le

/-- An edge to a group that is not on the path `p`. -/
def EdgeOff (p : Finset String) (a b : String) : Prop := groups.Child a b ∧ b ∉ p

/-- `b` is reachable from `a` through groups none of which is on the path `p`. -/
def ReachOff (p : Finset String) (a b : String) : Prop :=
  a ∉ p ∧ Relation.ReflTransGen (groups.EdgeOff p) a b

theorem reachOff_empty {a b : String} :
    groups.ReachOff ∅ a b ↔ Relation.ReflTransGen groups.Child a b := by
  have : groups.EdgeOff ∅ = groups.Child := by funext x y; simp [EdgeOff]
  simp [ReachOff, this]

/-- A path off `p` from an existing group `g` is either empty, or leaves `g` for one of its
children and never comes back to `g`: a walk that revisits `g` is cut at its last visit. -/
theorem reachOff_cases {p : Finset String} {g b : String} {groupCR : Group}
    (hget : groups.get g = .ok groupCR) (hreach : groups.ReachOff p g b) :
    b = g ∨ ∃ s ∈ groupCR.spec.members.groups, groups.ReachOff (insert g p) s b := by
  obtain ⟨-, hpath⟩ := hreach
  induction hpath with
  | refl => exact .inl rfl
  | @tail x c _ hedge ih =>
    obtain ⟨⟨cr, hx, hc⟩, hcp⟩ := hedge
    by_cases hcg : c = g
    · exact .inl hcg
    have hcq : c ∉ insert g p := by simp [hcg, hcp]
    rcases ih with rfl | ⟨s, hs, hsq, hpath⟩
    · rw [hget] at hx
      cases hx
      exact .inr ⟨c, hc, hcq, .refl⟩
    · exact .inr ⟨s, hs, hsq, hpath.tail ⟨⟨cr, hx, hc⟩, hcq⟩⟩

/-- A child's path off `insert g p` extends to a path off `p` from `g`. -/
theorem reachOff_of_child {p : Finset String} {g s b : String} {groupCR : Group}
    (hget : groups.get g = .ok groupCR) (hg : g ∉ p) (hs : s ∈ groupCR.spec.members.groups)
    (hreach : groups.ReachOff (insert g p) s b) : groups.ReachOff p g b := by
  obtain ⟨hsq, hpath⟩ := hreach
  have hmono : ∀ x y, groups.EdgeOff (insert g p) x y → groups.EdgeOff p x y :=
    fun x y h => ⟨h.1, fun hy => h.2 (Finset.mem_insert_of_mem hy)⟩
  refine ⟨hg, .head ⟨⟨groupCR, hget, hs⟩, fun hsp => hsq (Finset.mem_insert_of_mem hsp)⟩ ?_⟩
  exact hpath.mono hmono

/-- Adding an existing group that is not on the path leaves one group fewer off the path. -/
theorem card_sdiff_insert_lt {p : Finset String} {g : String} (hg : g ∉ p) (hname : g ∈ groups.names) :
    (groups.names \ insert g p).card < (groups.names \ p).card := by
  rw [Finset.sdiff_insert]
  exact Finset.card_erase_lt_of_mem (Finset.mem_sdiff.mpr ⟨hname, hg⟩)

end GroupList

/-- One call's answer: the members found or the error, and the path map after the return. -/
abbrev Expansion := Option (Except String (List String) × Finset String)

/-- The loop of `fetchUniqueGroupMembers` over `groupCR.Spec.Members.Groups`: `fetch` is the
recursive call, `members` the list built so far, and the path map is passed on from each call to
the next, as the Go map is shared. -/
def fetchSubGroupMembers (fetch : String → Finset String → Expansion) :
    List String → List String → Finset String → Expansion
  | [], members, visitedOnPath => some (.ok members, visitedOnPath)
  | subGroup :: rest, members, visitedOnPath =>
    match fetch subGroup visitedOnPath with
    | none => none
    | some (.error err, visitedOnPath) => some (.error err, visitedOnPath)
    | some (.ok subMembers, visitedOnPath) =>
      fetchSubGroupMembers fetch rest (members ++ subMembers) visitedOnPath

/-- `GroupReconciler.fetchUniqueGroupMembers`, run with a call stack of `depth` frames. The path
gets `groupName` on entry, and the deferred `delete` takes it out again on every return. -/
def fetchUniqueGroupMembers (groups : GroupList) :
    Nat → String → Finset String → Expansion
  | 0, _, _ => none
  | depth + 1, groupName, visitedOnPath =>
    if groupName ∈ visitedOnPath then some (.ok [], visitedOnPath)
    else
      let result : Expansion := match groups.get groupName with
        | .error err => some (.error err, insert groupName visitedOnPath)
        | .ok groupCR =>
          fetchSubGroupMembers (fetchUniqueGroupMembers groups depth)
            groupCR.spec.members.groups groupCR.spec.members.users
            (insert groupName visitedOnPath)
      result.map fun (r, visitedOnPath) => (r, Finset.erase visitedOnPath groupName)

section Expansion

variable {groups : GroupList} {fetch : String → Finset String → Expansion}

/-- The loop, when every call it makes at the path `q` returns with `q`: it returns with `q`, it
fails exactly when one of the calls fails, and otherwise it collects the calls' members. -/
theorem fetchSubGroupMembers_spec {q : Finset String} :
    ∀ (subs members : List String), (∀ s ∈ subs, ∃ r, fetch s q = some (r, q)) →
      ∃ r, fetchSubGroupMembers fetch subs members q = some (r, q) ∧
        ((∃ err, r = .error err) ↔ ∃ s ∈ subs, ∃ err, fetch s q = some (.error err, q)) ∧
        ∀ ms, r = .ok ms → ∀ u, u ∈ ms ↔
          u ∈ members ∨ ∃ s ∈ subs, ∃ xs, fetch s q = some (.ok xs, q) ∧ u ∈ xs
  | [], members, _ => ⟨.ok members, rfl, by simp, by simp⟩
  | s :: rest, members, hres => by
    obtain ⟨rs, hs⟩ := hres s (List.mem_cons_self _ _)
    cases rs with
    | error err =>
      refine ⟨.error err, by simp [fetchSubGroupMembers, hs], ⟨fun _ => ⟨s, by simp, err, hs⟩,
        fun _ => ⟨err, rfl⟩⟩, by simp⟩
    | ok xs =>
      obtain ⟨r, hrun, herr, hmem⟩ := fetchSubGroupMembers_spec rest (members ++ xs)
        fun t ht => hres t (List.mem_cons_of_mem _ ht)
      refine ⟨r, by simp [fetchSubGroupMembers, hs, hrun], ?_, fun ms hms u => ?_⟩
      · rw [herr]
        simp [hs]
      · rw [hmem ms hms u]
        simp only [List.mem_cons, or_and_right, exists_or, exists_eq_left, hs, List.mem_append,
          Option.some.injEq, Prod.mk.injEq, Except.ok.injEq, and_true, exists_eq_left', or_assoc]

/-- `fetchSubGroupMembers` only looks at the calls it makes, which all have the path `q`. -/
theorem fetchSubGroupMembers_congr {fetch' : String → Finset String → Expansion}
    {q : Finset String} :
    ∀ {subs : List String} (members : List String), (∀ s ∈ subs, fetch s q = fetch' s q) →
      (∀ s ∈ subs, ∃ r, fetch s q = some (r, q)) →
      fetchSubGroupMembers fetch subs members q = fetchSubGroupMembers fetch' subs members q
  | [], _, _, _ => rfl
  | s :: rest, members, heq, hres => by
    obtain ⟨rs, hs⟩ := hres s (List.mem_cons_self _ _)
    have hs' := (heq s (List.mem_cons_self _ _)).symm.trans hs
    cases rs with
    | error err => simp [fetchSubGroupMembers, hs, hs']
    | ok xs =>
      simp only [fetchSubGroupMembers, hs, hs']
      exact fetchSubGroupMembers_congr _ (fun t ht => heq t (List.mem_cons_of_mem _ ht))
        fun t ht => hres t (List.mem_cons_of_mem _ ht)

theorem fetchUniqueGroupMembers_of_mem {depth : Nat} {g : String} {p : Finset String}
    (h : g ∈ p) : fetchUniqueGroupMembers groups (depth + 1) g p = some (.ok [], p) := by
  simp [fetchUniqueGroupMembers, h]

theorem fetchUniqueGroupMembers_of_error {depth : Nat} {g err : String} {p : Finset String}
    (hg : g ∉ p) (hget : groups.get g = .error err) :
    fetchUniqueGroupMembers groups (depth + 1) g p = some (.error err, p) := by
  simp [fetchUniqueGroupMembers, hg, hget, Finset.erase_insert hg]

theorem fetchUniqueGroupMembers_of_ok {depth : Nat} {g : String} {p : Finset String}
    {groupCR : Group} (hg : g ∉ p) (hget : groups.get g = .ok groupCR) :
    fetchUniqueGroupMembers groups (depth + 1) g p =
      (fetchSubGroupMembers (fetchUniqueGroupMembers groups depth) groupCR.spec.members.groups
        groupCR.spec.members.users (insert g p)).map
        fun x => (x.1, x.2.erase g) := by
  simp [fetchUniqueGroupMembers, hg, hget]

/-- With more stack than there are groups off the path, `fetchUniqueGroupMembers` returns, hands
the path back as it found it, fails exactly when a group reachable off the path is missing, and
otherwise lists the users of every group reachable off the path. -/
theorem fetchUniqueGroupMembers_spec :
    ∀ {depth : Nat} (g : String) (p : Finset String), (groups.names \ p).card < depth →
      ∃ r, fetchUniqueGroupMembers groups depth g p = some (r, p) ∧
        ((∃ err, r = .error err) ↔ ∃ b, groups.ReachOff p g b ∧ groups.Missing b) ∧
        ∀ ms, r = .ok ms → ∀ u, u ∈ ms ↔ ∃ b, groups.ReachOff p g b ∧ groups.HasUser b u
  | 0, _, _, h => absurd h (Nat.not_lt_zero _)
  | depth + 1, g, p, hdepth => by
    by_cases hg : g ∈ p
    · refine ⟨.ok [], fetchUniqueGroupMembers_of_mem hg, ?_, ?_⟩ <;>
        simp [GroupList.ReachOff, hg]
    cases hget : groups.get g with
    | error err =>
      refine ⟨.error err, fetchUniqueGroupMembers_of_error hg hget,
        ⟨fun _ => ⟨g, ⟨hg, .refl⟩, err, hget⟩, fun _ => ⟨err, rfl⟩⟩, by simp⟩
    | ok groupCR =>
      have hlt : (groups.names \ insert g p).card < depth := by
        have := groups.card_sdiff_insert_lt hg (groups.mem_names_of_get hget)
        omega
      have ih := fun s => fetchUniqueGroupMembers_spec s (insert g p) hlt
      obtain ⟨r, hrun, herr, hmem⟩ := fetchSubGroupMembers_spec groupCR.spec.members.groups
        groupCR.spec.members.users fun s _ => (ih s).imp fun _ h => h.1
      refine ⟨r, by simp [fetchUniqueGroupMembers_of_ok hg hget, hrun, Finset.erase_insert hg],
        ?_, fun ms hms u => ?_⟩
      · rw [herr]
        constructor
        · rintro ⟨s, hs, err, hfs⟩
          obtain ⟨rs, hrs, hrerr, -⟩ := ih s
          rw [hfs] at hrs
          cases hrs
          obtain ⟨b, hb, hmiss⟩ := hrerr.mp ⟨err, rfl⟩
          exact ⟨b, groups.reachOff_of_child hget hg hs hb, hmiss⟩
        · rintro ⟨b, hb, err, hmiss⟩
          rcases groups.reachOff_cases hget hb with rfl | ⟨s, hs, hsb⟩
          · rw [hget] at hmiss; cases hmiss
          obtain ⟨rs, hrs, hrerr, -⟩ := ih s
          obtain ⟨err', rfl⟩ := hrerr.mpr ⟨b, hsb, err, hmiss⟩
          exact ⟨s, hs, err', hrs⟩
      · -- no sub-call failed, since the loop returned members
        have hok : ∀ s ∈ groupCR.spec.members.groups, ∃ xs,
            fetchUniqueGroupMembers groups depth s (insert g p) = some (.ok xs, insert g p) := by
          intro s hs
          obtain ⟨rs, hrs, -, -⟩ := ih s
          cases rs with
          | ok xs => exact ⟨xs, hrs⟩
          | error err =>
            obtain ⟨e, he⟩ := herr.mpr ⟨s, hs, err, hrs⟩
            cases hms.symm.trans he
        rw [hmem ms hms u]
        constructor
        · rintro (hu | ⟨s, hs, xs, hxs, hu⟩)
          · exact ⟨g, ⟨hg, .refl⟩, groupCR, hget, hu⟩
          · obtain ⟨rs, hrs, -, hrmem⟩ := ih s
            rw [hxs] at hrs
            cases hrs
            obtain ⟨b, hb, hub⟩ := (hrmem xs rfl u).mp hu
            exact ⟨b, groups.reachOff_of_child hget hg hs hb, hub⟩
        · rintro ⟨b, hb, cr, hcr, hu⟩
          rcases groups.reachOff_cases hget hb with rfl | ⟨s, hs, hsb⟩
          · rw [hget] at hcr
            cases hcr
            exact .inl hu
          obtain ⟨xs, hxs⟩ := hok s hs
          obtain ⟨rs, hrs, -, hrmem⟩ := ih s
          rw [hxs] at hrs
          cases hrs
          exact .inr ⟨s, hs, xs, hxs, (hrmem xs rfl u).mpr ⟨b, hsb, cr, hcr, hu⟩⟩

/-- Once the stack is deeper than the groups off the path, one more frame changes nothing. -/
theorem fetchUniqueGroupMembers_succ_eq :
    ∀ {depth : Nat} (g : String) (p : Finset String), (groups.names \ p).card < depth →
      fetchUniqueGroupMembers groups (depth + 1) g p = fetchUniqueGroupMembers groups depth g p
  | 0, _, _, h => absurd h (Nat.not_lt_zero _)
  | depth + 1, g, p, hdepth => by
    by_cases hg : g ∈ p
    · rw [fetchUniqueGroupMembers_of_mem hg, fetchUniqueGroupMembers_of_mem hg]
    cases hget : groups.get g with
    | error err => rw [fetchUniqueGroupMembers_of_error hg hget, fetchUniqueGroupMembers_of_error hg hget]
    | ok groupCR =>
      have hlt : (groups.names \ insert g p).card < depth := by
        have := groups.card_sdiff_insert_lt hg (groups.mem_names_of_get hget)
        omega
      rw [fetchUniqueGroupMembers_of_ok hg hget, fetchUniqueGroupMembers_of_ok hg hget,
        fetchSubGroupMembers_congr _ (fun s _ => fetchUniqueGroupMembers_succ_eq s _ hlt)
          fun s _ => (fetchUniqueGroupMembers_spec s _ (Nat.lt_succ_of_lt hlt)).imp fun _ h => h.1]

/-- Every stack deeper than the groups off the path gives the same answer, with the path back. -/
theorem fetchUniqueGroupMembers_eq_some (g : String) (p : Finset String) :
    ∃ r, ∀ depth, (groups.names \ p).card < depth →
      fetchUniqueGroupMembers groups depth g p = some (r, p) := by
  obtain ⟨r, hr, -⟩ := fetchUniqueGroupMembers_spec g p (Nat.lt_succ_self (groups.names \ p).card)
  refine ⟨r, fun depth hdepth => ?_⟩
  induction depth, hdepth using Nat.le_induction with
  | base => exact hr
  | succ depth hle ih => rw [fetchUniqueGroupMembers_succ_eq g p hle, ih]

/-- The loop returns with the path it was given when every call does. -/
theorem fetchSubGroupMembers_restores
    (hfetch : ∀ s q q' r, fetch s q = some (r, q') → q' = q) :
    ∀ (subs members : List String) (q q' : Finset String) r,
      fetchSubGroupMembers fetch subs members q = some (r, q') → q' = q
  | [], _, _, _, _, h => by cases h; rfl
  | s :: rest, members, q, q', r, h => by
    simp only [fetchSubGroupMembers] at h
    split at h
    · cases h
    · cases h; exact hfetch _ _ _ _ ‹_›
    · rename_i q'' hs
      exact (fetchSubGroupMembers_restores hfetch rest _ _ _ _ h).trans (hfetch _ _ _ _ hs)

/-- Whatever the stack, a call that returns restores the path it was given. -/
theorem fetchUniqueGroupMembers_restores :
    ∀ (depth : Nat) (g : String) (p p' : Finset String) r,
      fetchUniqueGroupMembers groups depth g p = some (r, p') → p' = p
  | 0, _, _, _, _, h => by cases h
  | depth + 1, g, p, p', r, h => by
    by_cases hg : g ∈ p
    · rw [fetchUniqueGroupMembers_of_mem hg] at h; cases h; rfl
    cases hget : groups.get g with
    | error err => rw [fetchUniqueGroupMembers_of_error hg hget] at h; cases h; rfl
    | ok groupCR =>
      rw [fetchUniqueGroupMembers_of_ok hg hget] at h
      obtain ⟨⟨r', q⟩, hsub, hq⟩ := Option.map_eq_some'.mp h
      cases hq
      rw [fetchSubGroupMembers_restores (fetchUniqueGroupMembers_restores depth) _ _ _ _ _ hsub,
        Finset.erase_insert hg]

end Expansion

/-- `fetchUniqueGroupMembers` terminates on every namespace: a call stack one frame deeper than
there are Groups always suffices, every deeper stack gives the same answer, and every call that
returns, with members or with an error, leaves `visitedOnPath` as it found it. -/
theorem fetchUniqueGroupMembers_terminates (groups : GroupList) (groupName : String)
    (visitedOnPath : Finset String) :
    (∃ r, ∀ depth, groups.items.length + 1 ≤ depth →
      fetchUniqueGroupMembers groups depth groupName visitedOnPath = some (r, visitedOnPath)) ∧
    ∀ depth r path, fetchUniqueGroupMembers groups depth groupName visitedOnPath = some (r, path) →
      path = visitedOnPath := by
  refine ⟨?_, fun depth r path => fetchUniqueGroupMembers_restores depth _ _ _ r⟩
  have hcard : (groups.names \ visitedOnPath).card ≤ groups.items.length :=
    (Finset.card_le_card Finset.sdiff_subset).trans groups.card_names_le
  exact (fetchUniqueGroupMembers_eq_some groupName visitedOnPath).imp
    fun r hr depth hdepth => hr depth (by omega)

/-- `fetchUniqueGroupMembers` as `Reconcile` calls it: from an empty path, with a call stack one
frame deeper than there are Groups, which `fetchUniqueGroupMembers_terminates` shows is always
enough, so that the `none` case below never arises. -/
def expandGroupMembers (groups : GroupList) (groupName : String) : Except String (List String) :=
  match fetchUniqueGroupMembers groups (groups.items.length + 1) groupName ∅ with
  | some (r, _) => r
  | none => .ok []

/-- One pass of `deduplicateMembers`' loop over its state `(uniqueMembersMap, uniqueMembers)`:
append the name unless it has been seen. -/
def dedupStep (acc : Finset String × List String) (member : String) : Finset String × List String :=
  if member ∈ acc.1 then acc else (insert member acc.1, acc.2 ++ [member])

/-- `GroupReconciler.deduplicateMembers`. -/
def deduplicateMembers (members : List String) : List String :=
  (members.foldl dedupStep (∅, [])).2

/-- The loop's set of seen names is the set of names read so far. -/
theorem foldl_dedupStep_fst (l : List String) (acc : Finset String × List String) :
    (l.foldl dedupStep acc).1 = acc.1 ∪ l.toFinset := by
  induction l generalizing acc with
  | nil => simp
  | cons x l ih =>
    rw [List.foldl_cons, ih]
    ext u
    by_cases hx : x ∈ acc.1 <;> by_cases hu : u = x <;> simp [dedupStep, hx, hu]

/-- Deduplication reads the list left to right and appends a name the first time it appears:
it keeps first occurrences, in their order. -/
theorem deduplicateMembers_append_singleton (l : List String) (x : String) :
    deduplicateMembers (l ++ [x]) =
      if x ∈ l then deduplicateMembers l else deduplicateMembers l ++ [x] := by
  simp only [deduplicateMembers, List.foldl_append, List.foldl_cons, List.foldl_nil, dedupStep,
    foldl_dedupStep_fst]
  by_cases hx : x ∈ l <;> simp [hx]

@[simp] theorem mem_deduplicateMembers {l : List String} {u : String} :
    u ∈ deduplicateMembers l ↔ u ∈ l := by
  induction l using List.reverseRecOn with
  | nil => simp [deduplicateMembers]
  | append_singleton l x ih =>
    rw [deduplicateMembers_append_singleton]
    by_cases hx : x ∈ l
    · simp only [hx, if_true, ih, List.mem_append, List.mem_singleton]
      exact ⟨.inl, by rintro (h | rfl) <;> assumption⟩
    · simp [hx, ih]

theorem nodup_deduplicateMembers (l : List String) : (deduplicateMembers l).Nodup := by
  induction l using List.reverseRecOn with
  | nil => simp [deduplicateMembers]
  | append_singleton l x ih =>
    rw [deduplicateMembers_append_singleton]
    split_ifs with hx
    · exact ih
    · exact ih.append (List.nodup_singleton x) (by simpa using hx)

/-- The deduplication loop, from a state whose list is `acc` and whose set holds the names of
`acc`, runs as the core library's `List.eraseDups` loop does from `acc`. -/
theorem foldl_dedupStep_eq_loop (l acc : List String) :
    (l.foldl dedupStep (acc.toFinset, acc)).2 = List.eraseDups.loop l acc.reverse := by
  induction l generalizing acc with
  | nil => simp [List.eraseDups.loop]
  | cons a l ih =>
    by_cases ha : a ∈ acc
    · have he : List.elem a acc.reverse = true :=
        List.elem_eq_true_of_mem (List.mem_reverse.mpr ha)
      simp only [List.foldl_cons, dedupStep, List.mem_toFinset, ha, if_true, List.eraseDups.loop,
        he, ih]
    · have he : List.elem a acc.reverse = false := by simpa [List.elem_iff] using ha
      have hs : insert a acc.toFinset = (acc ++ [a]).toFinset := by ext; simp [or_comm]
      simp only [List.foldl_cons, dedupStep, List.mem_toFinset, ha, if_false, List.eraseDups.loop,
        he, hs, ih, List.reverse_append, List.reverse_singleton, List.singleton_append]

/-- `deduplicateMembers` keeps the first occurrence of each name, in order: it is `eraseDups`. -/
theorem deduplicateMembers_eq_eraseDups (l : List String) : deduplicateMembers l = l.eraseDups :=
  foldl_dedupStep_eq_loop l []

/-- **Nested member expansion.** Expanding `groupName` from an empty path fails exactly when some
group reachable from it through `members.groups` does not exist. Otherwise it lists exactly the
users of the groups reachable from it, itself included, and deduplication keeps the first
occurrence of each, in order, with no repetition and nothing lost. -/
theorem expandGroupMembers_spec (groups : GroupList) (groupName : String) :
    ((∃ err, expandGroupMembers groups groupName = .error err) ↔
      ∃ b, Relation.ReflTransGen groups.Child groupName b ∧ groups.Missing b) ∧
    ∀ ms, expandGroupMembers groups groupName = .ok ms →
      (∀ u, u ∈ ms ↔ ∃ b, Relation.ReflTransGen groups.Child groupName b ∧ groups.HasUser b u) ∧
      deduplicateMembers ms = ms.eraseDups ∧ (deduplicateMembers ms).Nodup ∧
      ∀ u, u ∈ deduplicateMembers ms ↔ u ∈ ms := by
  have hcard : (groups.names \ ∅).card < groups.items.length + 1 := by
    simpa using Nat.lt_succ_of_le groups.card_names_le
  obtain ⟨r, hr, herr, hok⟩ := fetchUniqueGroupMembers_spec groupName ∅ hcard
  simp only [GroupList.reachOff_empty] at herr hok
  simp only [expandGroupMembers, hr]
  exact ⟨herr, fun ms hms => ⟨hok ms hms, deduplicateMembers_eq_eraseDups ms,
    nodup_deduplicateMembers ms, fun _ => mem_deduplicateMembers⟩⟩

end Usernaut
