import Usernaut.Controller.ReverseIndex

/-!
# Group params

`processAllBackends` first validates the Group's `group_params`. A param is invalid when it names
a backend the Group does not declare, or when its property is empty. An invalid param is recorded
in `backendErrors` under its backend type and name and left out of `groupParamsByBackend`. Then
every declared backend is processed, with its params if it has valid ones and with Go's zero
`TeamParams` otherwise.

The validation loop records exactly the invalid params (`foldl_groupParamStep_entry`), and no later
step removes an entry, so every invalid param has an entry in the errors `processAllBackends`
returns (`processAllBackends_recordsInvalidParams`). The second loop, though, runs over every
declared backend whatever its params. A backend whose param has an empty property is still
processed, and its team is created without the param
(`processAllBackends_emptyProperty_processesBackend`).

## Main definitions

* `GroupParam.IsInvalid`: the param names an undeclared backend or has an empty property.

## Main results

* `GroupReconciler.foldl_groupParamStep_entry`: the validation loop's errors are the invalid params.
* `GroupReconciler.processAllBackends_recordsInvalidParams`: every invalid param is in the errors
  `processAllBackends` returns.
-/

namespace Usernaut

/-- A param `processAllBackends` rejects: its backend key is not among `validBackends`, or its
property is empty. -/
def GroupParam.IsInvalid (validBackends : List String) (param : GroupParam) : Prop :=
  backendKey param.name param.backend ∉ validBackends ∨ param.property = ""

instance (validBackends : List String) (param : GroupParam) :
    Decidable (param.IsInvalid validBackends) :=
  inferInstanceAs (Decidable (_ ∨ _))

namespace GroupReconciler

section Validation

variable (validBackends : List String)

/-- One step of the validation loop adds an entry exactly for an invalid param. -/
theorem groupParamStep_entry (acc : BackendErrors × StringMap TeamParams) (param : GroupParam)
    (type name : String) :
    ((groupParamStep validBackends acc param).1.entry type name).isSome ↔
      (acc.1.entry type name).isSome ∨
        (param.IsInvalid validBackends ∧ type = param.backend ∧ name = param.name) := by
  by_cases hkey : type = param.backend ∧ name = param.name
  · obtain ⟨rfl, rfl⟩ := hkey
    unfold groupParamStep GroupParam.IsInvalid
    split_ifs <;> simp_all [BackendErrors.entry_record]
  · rw [or_iff_left fun h => hkey h.2]
    unfold groupParamStep
    split_ifs <;> simp [BackendErrors.entry_record, if_neg hkey]

/-- **The validation loop records exactly the invalid params**, keeping the entries it started
with. -/
theorem foldl_groupParamStep_entry : ∀ (params : List GroupParam)
    (acc : BackendErrors × StringMap TeamParams) (type name : String),
    (((params.foldl (groupParamStep validBackends) acc).1.entry type name).isSome ↔
      (acc.1.entry type name).isSome ∨
        ∃ param ∈ params, param.IsInvalid validBackends ∧ type = param.backend ∧ name = param.name)
  | [], acc, type, name => by simp
  | param :: params, acc, type, name => by
    rw [List.foldl_cons, foldl_groupParamStep_entry params, groupParamStep_entry]
    simp only [List.mem_cons, exists_eq_or_imp, or_assoc]

end Validation

variable {σ : Type} (env : Env σ)

/-- A backend's processing keeps every entry of the errors: a failure adds or replaces its own. -/
theorem processBackendStep_keepsEntries (groupCR : Group) (allLdapUserData : StringMap LDAPUser)
    (uniqueMembers : List String) (groupParamsByBackend : StringMap TeamParams)
    (backendErrors : BackendErrors) (backend : Backend) :
    Returns (fun errs => ∀ type name, (backendErrors.entry type name).isSome →
        (errs.entry type name).isSome)
      (processBackendStep env groupCR allLdapUserData uniqueMembers groupParamsByBackend
        backendErrors backend) :=
  Returns.tryCatch' (Returns.bind' fun _ => Returns.pure' fun _ _ h => h) fun _ =>
    Returns.pure' fun type name h => by
      rw [BackendErrors.entry_record]
      split_ifs <;> simp [h]

/-- The loop over the backends keeps every entry of the errors it starts with. -/
theorem foldlM_processBackendStep_keepsEntries (groupCR : Group)
    (allLdapUserData : StringMap LDAPUser) (uniqueMembers : List String)
    (groupParamsByBackend : StringMap TeamParams) (backends : List Backend) (init : BackendErrors) :
    Returns (fun errs => ∀ type name, (init.entry type name).isSome → (errs.entry type name).isSome)
      (backends.foldlM
        (processBackendStep env groupCR allLdapUserData uniqueMembers groupParamsByBackend) init) :=
  Returns.foldlM'
    (P := fun errs => ∀ type name, (init.entry type name).isSome → (errs.entry type name).isSome)
    (fun errs herrs backend _ w errs' w' h type name hinit =>
    processBackendStep_keepsEntries env groupCR allLdapUserData uniqueMembers groupParamsByBackend
      errs backend w errs' w' h type name (herrs type name hinit)) fun _ _ h => h

/-- **Invalid params are recorded.** Every group param that names an undeclared backend or has
an empty property has an entry, under its backend type and name, in the errors
`processAllBackends` returns. -/
theorem processAllBackends_recordsInvalidParams (groupCR : Group)
    (allLdapUserData : StringMap LDAPUser) (uniqueMembers : List String) :
    Returns (fun backendErrors => ∀ param ∈ groupCR.spec.groupParams,
        param.IsInvalid (groupCR.spec.backends.map fun backend => backendKey backend.name backend.type) →
          (backendErrors.entry param.backend param.name).isSome)
      (processAllBackends env groupCR allLdapUserData uniqueMembers) := by
  unfold processAllBackends
  dsimp only
  intro w errs w' h param hp hinv
  exact foldlM_processBackendStep_keepsEntries env groupCR allLdapUserData uniqueMembers _ _ _ w
    errs w' h _ _ ((foldl_groupParamStep_entry _ groupCR.spec.groupParams (∅, ∅) param.backend
      param.name).mpr (.inr ⟨param, hp, hinv, rfl, rfl⟩))

/-- `g1` declares the Fivetran backend `ftA`, and its one group param, for `ftA`, has an empty
property. -/
def emptyPropertyGroup : Group :=
  { metadata := ⟨"g1", "g1-uid", 1, none, [groupFinalizer], [], []⟩
    spec := ⟨"g1", ⟨[], []⟩, [⟨"ftA", "fivetran"⟩], [⟨"fivetran", "ftA", "", ["x"]⟩]⟩
    status := ⟨[], [], []⟩ }

/-- Processing `g1`'s backends from an empty cache records the empty-property param as an error
and still processes `ftA`: its team is created, with Go's zero `TeamParams`. -/
theorem processAllBackends_emptyProperty_processesBackend :
    (⟨"fivetran", "ftA", "", ["x"]⟩ : GroupParam).IsInvalid
        (emptyPropertyGroup.spec.backends.map fun backend => backendKey backend.name backend.type) ∧
      let run := (processAllBackends onboardingEnv emptyPropertyGroup ∅ []).exec
        ⟨Store.empty, fun _ => (), []⟩
      run.1.toOption.bind (·.entry "fivetran" "ftA") =
          some "group param property is empty for backend: fivetran/ftA" ∧
        Event.backend ⟨"ftA", "fivetran"⟩ (.createTeam ⟨"", "g1", "team for g1", "reviewer", .zero⟩
          (.ok ⟨"1", "g1", "team for g1", "reviewer", .zero⟩)) ∈ run.2.events := by
  decide

end GroupReconciler

end Usernaut
