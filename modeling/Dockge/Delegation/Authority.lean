import Dockge.Delegation.Policy

namespace Dockge.Delegation

open Dockge.Data Dockge.Mcp

/-! What the checks of both panels leave of a call. -/

/-- The fields that name the stack of a call. -/
def stackFields (action : String) (arguments : Fields) : Option Fields :=
  if action = "operation_prepare" then asObject (arguments.get "parameters") else some arguments

/-- The stack a call names, or that of the operation it refers to. -/
def Touches (action : String) (arguments : Fields) (target : Option OperationTarget) (stack : String) : Prop :=
  (∃ fields, stackFields action arguments = some fields ∧ textOf fields "stack_id" = some stack) ∨
    ∃ operation, target = some operation ∧ operation.stackId = stack

/-- The assertion stays within what the peer was granted, and the call within the assertion. -/
structure Authority (assertion : Assertion) (target : Option OperationTarget) (trust : DelegationPeer)
    (arguments : Fields) : Prop where
  stack : ∀ stack, Touches assertion.action arguments target stack →
    stack ∈ trust.allowedStackIds ∧ stack ∈ assertion.identity.stackIds
  scope : ∀ stack ∈ assertion.identity.stackIds,
    stack ∈ trust.allowedStackIds ∧ assertion.identity.resources.includes assertion.audience stack = true
  tool : assertion.action ∈ trust.actions
  operators : assertion.action ∉ mcpReadTools →
    assertion.identity.role = .operator ∧ trust.role = .operator ∧ assertion.identity.mode ≠ some .readonly
  permission : assertion.action ∉ mcpReadTools → assertion.action ∉ operationTools →
    ∃ action permission, assertion.writes = some action ∧ action ∈ trust.actions ∧
      remotePermissions.lookup action = some permission ∧ assertion.identity.holds permission = true
  deployment : assertion.action ∉ mcpReadTools → assertion.action ∉ operationTools →
    assertion.writes = some "git_apply" → ∀ fields, assertion.parameters = some fields → deploys fields = true →
      "stack_deploy" ∈ trust.actions ∧ assertion.identity.holds "deploy" = true
  referenced : ∀ operation, target = some operation →
    operation.action ∈ trust.actions ∧ ∀ action ∈ operation.additionalActions.getD [], action ∈ trust.actions

/-- What the identity that is handed over can do. -/
structure HandsOver (assertion : Assertion) (identity : DelegatedIdentity) : Prop where
  stackIds : identity.stackIds = assertion.identity.stackIds
  resources : ∀ server stack, identity.resources.includes server stack = true →
    stack ∈ assertion.identity.stackIds
  observer : assertion.action ∈ mcpReadTools → identity.role = .viewer ∧ identity.actions = some []
  actions : ∀ action, identity.holds action = true → assertion.identity.holds action = true

/-- A key that still is what was asserted of it. -/
structure StillHolds (assertion : Assertion) (identity : DelegatedIdentity) : Prop where
  key : identity.keyId = assertion.identity.keyId ∧ identity.userId = assertion.identity.userId
  role : identity.role = assertion.identity.role
  mode : identity.mode = assertion.identity.mode
  policyVersion : identity.policyVersion = assertion.identity.policyVersion
  actions : ∀ action, assertion.identity.holds action = true → identity.holds action = true
  server : assertion.audience ∈ identity.servers
  stackIds : ∀ stack ∈ assertion.identity.stackIds, identity.resources.includes assertion.audience stack = true

/-- The same peer with fewer grants. -/
structure DelegationPeer.Within (less more : DelegationPeer) : Prop where
  key : less.publicKey = more.publicKey
  stackIds : ∀ stack ∈ less.allowedStackIds, stack ∈ more.allowedStackIds
  actions : ∀ action ∈ less.actions, action ∈ more.actions
  role : less.role = .operator → more.role = .operator

section
variable {isUuid : String → Bool} {now : Int} {assertion : Assertion} {peer trust less more : DelegationPeer}
  {fresh config : DelegationConfig} {target : Option OperationTarget} {key text : String} {fields : Fields}

theorem get_of_textOf (found : textOf fields key = some text) : fields.get key = some (.str text) := by
  unfold textOf at found
  split at found
  · rename_i held stored
    simp only [Option.some.injEq] at found
    rw [stored, found]
  · cases found

theorem mem_keys_of_get {value : Json} (found : fields.get key = some value) : key ∈ fields.keys := by
  induction fields with
  | nil => simp at found
  | cons field rest ih =>
      obtain ⟨held, stored⟩ := field
      rw [Fields.get_cons] at found
      by_cases same : key = held
      · simp [Fields.keys, same]
      · rw [if_neg same] at found
        exact List.mem_cons_of_mem _ (ih found)

/-- The way an accepted assertion was accepted. -/
theorem allowed_cases (accepted : allowed isUuid now assertion peer = true) :
    allowedEnvelope now assertion peer = true ∧
      ((assertion.action ∈ mcpReadTools ∧ allowedRead isUuid assertion = true) ∨
        (assertion.action ∉ mcpReadTools ∧ assertion.identity.role = .operator ∧ peer.role = .operator ∧
          assertion.identity.mode ≠ some .readonly ∧
          ((assertion.action ∈ operationTools ∧ allowedOperationReference isUuid assertion = true) ∨
            (assertion.action ∉ operationTools ∧ allowedWrite assertion peer = true)))) := by
  unfold allowed at accepted
  split at accepted
  · cases accepted
  · rename_i envelope
    refine ⟨by simpa using envelope, ?_⟩
    split at accepted
    · rename_i reads
      exact .inl ⟨reads, accepted⟩
    · rename_i reads
      split at accepted
      · cases accepted
      · rename_i roles
        simp only [Bool.or_eq_true, decide_eq_true_eq, not_or, Decidable.not_not] at roles
        obtain ⟨⟨subject, granted⟩, mode⟩ := roles
        refine .inr ⟨reads, subject, granted, mode, ?_⟩
        split at accepted
        · rename_i reference
          exact .inl ⟨reference, accepted⟩
        · rename_i reference
          exact .inr ⟨reference, accepted⟩

theorem allowedEnvelope_grants (accepted : allowedEnvelope now assertion peer = true) :
    assertion.action ∈ peer.actions ∧ ∀ stack ∈ assertion.identity.stackIds,
      stack ∈ peer.allowedStackIds ∧ assertion.identity.resources.includes assertion.audience stack = true := by
  simp only [allowedEnvelope, Bool.and_eq_true, decide_eq_true_eq, List.all_eq_true] at accepted
  obtain ⟨⟨⟨_, stackIds⟩, tool⟩, _⟩ := accepted
  exact ⟨tool, stackIds⟩

/-- A reading call names only a stack of the assertion. -/
theorem allowedRead_stack (accepted : allowedRead isUuid assertion = true)
    (named : textOf assertion.args "stack_id" = some text) : text ∈ assertion.identity.stackIds := by
  unfold allowedRead at accepted
  split at accepted
  · cases accepted
  · rename_i parsed success
    have stackId : parsed.stackId = some text := by
      simp only [argsSchema, Option.bind_eq_bind, Option.bind_eq_some_iff] at success
      obtain ⟨serverId, _, stackId, stackField, containerId, _, windowHours, _, strict⟩ := success
      rw [get_of_textOf named] at stackField
      simp only [optionalField, parseText, Option.map_eq_some_iff] at stackField
      obtain ⟨found, checked, same⟩ := stackField
      split at strict
      · cases strict
        split at checked
        · cases checked
          exact same.symm
        · cases checked
      · cases strict
    simp only [Bool.and_eq_true] at accepted
    obtain ⟨⟨⟨⟨member, _⟩, _⟩, _⟩, _⟩ := accepted
    simpa [stackId] using member

theorem allowedOperationReference_keys (accepted : allowedOperationReference isUuid assertion = true) :
    ∀ key ∈ assertion.args.keys, key = "server_id" ∨ key = "operation_id" ∨ key = "parameters_hash" := by
  intro key member
  simp only [allowedOperationReference, Bool.and_eq_true, List.all_eq_true] at accepted
  have permitted := accepted.1 key member
  split at permitted <;> simp at permitted <;> tauto

structure WriteGranted (assertion : Assertion) (peer : DelegationPeer) (action : String) (fields : Fields) : Prop where
  writes : assertion.writes = some action
  parameters : assertion.parameters = some fields
  granted : action ∈ peer.actions
  permission : ∃ permission, remotePermissions.lookup action = some permission ∧
    assertion.identity.holds permission = true
  deployment : action = "git_apply" → deploys fields = true →
    "stack_deploy" ∈ peer.actions ∧ assertion.identity.holds "deploy" = true
  stack : ∃ stack ∈ assertion.identity.stackIds, textOf fields "stack_id" = some stack

theorem allowedWrite_cases (accepted : allowedWrite assertion peer = true) :
    ∃ action fields, WriteGranted assertion peer action fields := by
  unfold allowedWrite at accepted
  split at accepted
  · rename_i action fields writes parameters
    simp only [Bool.and_eq_true, decide_eq_true_eq, Option.any_eq_true_iff_get] at accepted
    obtain ⟨⟨⟨⟨⟨granted, permission⟩, deployment⟩, _⟩, stack⟩, _⟩ := accepted
    refine ⟨action, fields, writes, parameters, granted, ?_, ?_, ?_⟩
    · obtain ⟨present, held⟩ := permission
      exact ⟨_, (Option.some_get present).symm, held⟩
    · intro apply deploy
      simpa [apply, deploy] using deployment
    · obtain ⟨present, member⟩ := stack
      exact ⟨_, member, (Option.some_get present).symm⟩
  · cases accepted

/-! ### The arguments handed over -/

theorem textOf_congr {left right : Fields} (same : left.get key = right.get key) : textOf left key = textOf right key := by
  simp [textOf, same]

/-- Fields that name a stack are those of an object. -/
theorem spread_asObject {value : Option Json} {stack : String} (found : asObject value = some fields)
    (named : textOf fields "stack_id" = some stack) : spread value = fields := by
  unfold asObject at found
  split at found
  · cases found
    rfl
  · cases found
    simp [textOf] at named
  · cases found

theorem stackFields_local_of_prepare (prepares : assertion.action = "operation_prepare") :
    stackFields assertion.action (localArguments assertion) =
      some ((spread (assertion.args.get "parameters")).set "server_id" (.str "local")) := by
  simp [stackFields, localArguments, prepares, asObject]

theorem stackFields_local_of_reference (reference : assertion.action ∈ operationTools) :
    stackFields assertion.action (localArguments assertion) = some (assertion.args.erase "server_id") := by
  have direct : assertion.action ≠ "operation_prepare" := by
    intro same
    rw [same] at reference
    exact absurd reference (by decide)
  simp [stackFields, localArguments, direct, reference]

theorem stackFields_local_of_direct (direct : assertion.action ≠ "operation_prepare")
    (reference : assertion.action ∉ operationTools) :
    stackFields assertion.action (localArguments assertion) =
      some (assertion.args.set "server_id" (.str "local")) := by
  simp [stackFields, localArguments, direct, reference]

/-- The stack that the arguments handed over name is one of the assertion. -/
theorem local_stack_mem (accepted : allowed isUuid now assertion peer = true) {stack : String}
    (found : stackFields assertion.action (localArguments assertion) = some fields)
    (named : textOf fields "stack_id" = some stack) : stack ∈ assertion.identity.stackIds := by
  obtain ⟨_, cases⟩ := allowed_cases accepted
  rcases cases with ⟨reads, read⟩ | ⟨_, _, _, _, ⟨reference, shape⟩ | ⟨direct, write⟩⟩
  · have plain : assertion.action ≠ "operation_prepare" ∧ assertion.action ∉ operationTools := by
      simp only [mcpReadTools, List.mem_cons, List.not_mem_nil, or_false] at reads
      rcases reads with same | same | same | same | same <;> rw [same] <;> decide
    rw [stackFields_local_of_direct plain.1 plain.2] at found
    cases found
    apply allowedRead_stack read
    rw [← named]
    apply textOf_congr
    simp
  · rw [stackFields_local_of_reference reference] at found
    cases found
    have stored := get_of_textOf named
    rw [Fields.get_erase, if_neg (by decide)] at stored
    have permitted := allowedOperationReference_keys shape _ (mem_keys_of_get stored)
    simp at permitted
  · obtain ⟨action, target, granted⟩ := allowedWrite_cases write
    obtain ⟨other, member, asserted⟩ := granted.stack
    have parameters := granted.parameters
    unfold Assertion.parameters at parameters
    have same : textOf fields "stack_id" = textOf target "stack_id" := by
      by_cases prepares : assertion.action = "operation_prepare"
      · rw [if_pos prepares] at parameters
        rw [stackFields_local_of_prepare prepares, spread_asObject parameters asserted] at found
        cases found
        apply textOf_congr
        simp
      · rw [if_neg prepares] at parameters
        rw [stackFields_local_of_direct prepares direct] at found
        cases found
        cases parameters
        apply textOf_congr
        simp
    rw [same, asserted] at named
    cases named
    exact member

/-- What the panel that serves a call made sure of. -/
theorem authority_of_trustUnchanged
    (unchanged : trustUnchanged isUuid now fresh trust peer config assertion target = true) :
    Authority assertion target trust (localArguments assertion) := by
  simp only [trustUnchanged, Bool.and_eq_true, decide_eq_true_eq, Option.all_eq_true, List.all_eq_true]
    at unchanged
  obtain ⟨⟨⟨_, _⟩, accepted⟩, targets⟩ := unchanged
  obtain ⟨envelope, cases⟩ := allowed_cases accepted
  obtain ⟨tool, scope⟩ := allowedEnvelope_grants envelope
  have writes : assertion.action ∉ mcpReadTools → assertion.action ∉ operationTools →
      ∃ action fields, WriteGranted assertion trust action fields := by
    intro mutation direct
    rcases cases with ⟨reads, _⟩ | ⟨_, _, _, _, ⟨reference, _⟩ | ⟨_, write⟩⟩
    · exact absurd reads mutation
    · exact absurd reference direct
    · exact allowedWrite_cases write
  refine ⟨?_, scope, tool, ?_, ?_, ?_, ?_⟩
  · intro stack touched
    have asserted : stack ∈ assertion.identity.stackIds := by
      rcases touched with ⟨fields, found, named⟩ | ⟨operation, present, same⟩
      · exact local_stack_mem accepted found named
      · exact same ▸ (targets operation present).2
    exact ⟨(scope stack asserted).1, asserted⟩
  · intro mutation
    rcases cases with ⟨reads, _⟩ | ⟨_, subject, granted, mode, _⟩
    · exact absurd reads mutation
    · exact ⟨subject, granted, mode⟩
  · intro mutation direct
    obtain ⟨action, fields, granted⟩ := writes mutation direct
    obtain ⟨permission, known, held⟩ := granted.permission
    exact ⟨action, permission, granted.writes, granted.granted, known, held⟩
  · intro mutation direct apply fields parameters deploy
    obtain ⟨action, target, granted⟩ := writes mutation direct
    have same : action = "git_apply" := Option.some.inj (granted.writes.symm.trans apply)
    have fieldsSame : target = fields := Option.some.inj (granted.parameters.symm.trans parameters)
    exact granted.deployment same (fieldsSame ▸ deploy)
  · intro operation present
    obtain ⟨⟨⟨action, additional⟩, _⟩, _⟩ := targets operation present
    exact ⟨action, additional⟩

theorem effectiveIdentity_handsOver (subjectId : String) :
    HandsOver assertion (effectiveIdentity subjectId assertion (decide (assertion.action ∈ mcpReadTools))) where
  stackIds := rfl
  resources := by
    intro server stack granted
    simp only [effectiveIdentity, Resources.includes, Bool.and_eq_true, decide_eq_true_eq] at granted
    exact granted.2
  observer := by
    intro reads
    simp [effectiveIdentity, reads]
  actions := by
    intro action held
    by_cases reads : assertion.action ∈ mcpReadTools
    · simp [effectiveIdentity, reads, DelegatedIdentity.holds] at held
    · cases asserted : assertion.identity.actions with
      | none => simp [effectiveIdentity, reads, DelegatedIdentity.holds, asserted] at held
      | some actions => simpa [effectiveIdentity, reads, DelegatedIdentity.holds, asserted] using held

theorem stillHolds_of_identityStillAllows {identity : DelegatedIdentity}
    (allows : identityStillAllows (some identity) assertion = true) : StillHolds assertion identity := by
  simp only [identityStillAllows, Bool.and_eq_true, decide_eq_true_eq, List.all_eq_true] at allows
  obtain ⟨⟨⟨⟨⟨⟨⟨key, user⟩, version⟩, role⟩, mode⟩, actions⟩, server⟩, stackIds⟩ := allows
  refine ⟨⟨key, user⟩, role, mode, version, ?_, server, stackIds⟩
  intro action held
  simp only [DelegatedIdentity.holds, Option.any_eq_true] at held
  obtain ⟨asserted, present, member⟩ := held
  apply actions
  simpa [present] using member

/-! ### Fewer grants -/

theorem allowed_mono (fewer : less.Within more) (accepted : allowed isUuid now assertion less = true) :
    allowed isUuid now assertion more = true := by
  have envelope : allowedEnvelope now assertion less = true → allowedEnvelope now assertion more = true := by
    simp only [allowedEnvelope, Bool.and_eq_true, decide_eq_true_eq, List.all_eq_true]
    intro checks
    obtain ⟨⟨⟨addressed, scope⟩, tool⟩, server⟩ := checks
    exact ⟨⟨⟨addressed, fun stack member => ⟨fewer.stackIds stack (scope stack member).1, (scope stack member).2⟩⟩,
      fewer.actions _ tool⟩, server⟩
  have write : allowedWrite assertion less = true → allowedWrite assertion more = true := by
    unfold allowedWrite
    split
    · simp only [Bool.and_eq_true, Bool.not_eq_true', decide_eq_true_eq, Bool.and_eq_false_iff,
        Bool.or_eq_false_iff, decide_eq_false_iff_not, Decidable.not_not]
      intro checks
      obtain ⟨⟨⟨⟨⟨granted, permission⟩, deployment⟩, server⟩, stack⟩, keys⟩ := checks
      refine ⟨⟨⟨⟨⟨fewer.actions _ granted, permission⟩, ?_⟩, server⟩, stack⟩, keys⟩
      exact deployment.imp_right fun both => ⟨fewer.actions _ both.1, both.2⟩
    · exact id
  obtain ⟨lessEnvelope, cases⟩ := allowed_cases accepted
  unfold allowed
  rcases cases with ⟨reads, read⟩ | ⟨mutation, subject, granted, mode, ⟨reference, shape⟩ | ⟨direct, writes⟩⟩
  · simp [envelope lessEnvelope, reads, read]
  · simp [envelope lessEnvelope, mutation, subject, fewer.role granted, mode, reference, shape]
  · simp [envelope lessEnvelope, mutation, subject, fewer.role granted, mode, direct, write writes]

/-- Taking a grant from the peer lets nothing through that was refused. -/
theorem trustUnchanged_mono (fewer : less.Within more)
    (unchanged : trustUnchanged isUuid now fresh less peer config assertion target = true) :
    trustUnchanged isUuid now fresh more peer config assertion target = true := by
  simp only [trustUnchanged, Bool.and_eq_true, decide_eq_true_eq, Option.all_eq_true, List.all_eq_true]
    at unchanged ⊢
  obtain ⟨⟨⟨key, server⟩, accepted⟩, targets⟩ := unchanged
  refine ⟨⟨⟨fewer.key ▸ key, server⟩, allowed_mono fewer accepted⟩, ?_⟩
  intro operation present
  obtain ⟨⟨⟨action, additional⟩, stack⟩, asserted⟩ := targets operation present
  exact ⟨⟨⟨fewer.actions _ action, fun other member => fewer.actions _ (additional other member)⟩,
    fewer.stackIds _ stack⟩, asserted⟩

end

end Dockge.Delegation
