import Dockge.Delegation.Serving

namespace Dockge.Delegation

open Dockge.Data Dockge.Mcp

/-! What a panel may do for another, and how often. -/

def Entry.call? : Entry → Option Call
  | .called call => some call
  | _ => none

/-- The calls of a log, the last one first. -/
def calls (log : List Entry) : List Call := log.filterMap Entry.call?

/-- The same call twice cannot both be the first to claim the nonce. -/
theorem FirstClaim.once {later earlier : Call} {log past : List Entry} (first : FirstClaim later log)
    (before : FirstClaim earlier past) (follows : ∃ since, log = since ++ .called earlier :: past) :
    ¬ (later.url = earlier.url ∧ later.assertion = earlier.assertion) := by
  intro same
  obtain ⟨recent, old, split, alone, silent⟩ := first
  obtain ⟨recent', old', split', alone', _⟩ := before
  obtain ⟨since, follows⟩ := follows
  rw [same.1, same.2] at split alone
  have both : recent ++ .claimed later.task earlier.url earlier.assertion.issuer (.read earlier.assertion) :: old =
      (since ++ .called earlier :: recent') ++
        .claimed earlier.task earlier.url earlier.assertion.issuer (.read earlier.assertion) :: old' := by
    rw [← split, follows, split']
    simp
  rcases List.append_eq_append_iff.mp both with ⟨gap, longer, rest⟩ | ⟨gap, longer, rest⟩
  · cases gap with
    | nil =>
        simp only [List.nil_append, List.cons.injEq, Entry.claimed.injEq] at rest
        rw [List.append_nil] at longer
        apply silent earlier ?_ rest.1.1.symm
        simp [← longer]
    | cons head gap =>
        simp only [List.cons_append, List.cons.injEq] at rest
        apply alone earlier.task
        rw [rest.2]
        simp
  · cases gap with
    | nil =>
        simp only [List.nil_append, List.cons.injEq, Entry.claimed.injEq] at rest
        rw [List.append_nil] at longer
        apply silent earlier ?_ rest.1.1
        simp [longer]
    | cons head gap =>
        simp only [List.cons_append, List.cons.injEq] at rest
        apply alone' later.task
        rw [rest.2]
        simp

/-- Calls that are all first claims are of different envelopes. -/
theorem calls_pairwise {log : List Entry}
    (first : ∀ later call past, log = later ++ .called call :: past → FirstClaim call past) :
    (calls log).Pairwise fun later earlier => ¬ (later.url = earlier.url ∧ later.assertion = earlier.assertion) := by
  induction log with
  | nil => exact .nil
  | cons entry rest ih =>
      have tail := ih fun later call past split => first (entry :: later) call past (by rw [split, List.cons_append])
      cases entry with
      | called call =>
          have claimed := first [] call rest rfl
          change (call :: calls rest).Pairwise _
          refine List.Pairwise.cons ?_ tail
          intro earlier member
          simp only [calls, List.mem_filterMap] at member
          obtain ⟨held, member, same⟩ := member
          cases held with
          | called other =>
              cases same
              obtain ⟨since, past, split⟩ := List.append_of_mem member
              have before := first (.called call :: since) earlier past (by rw [split, List.cons_append])
              exact claimed.once before ⟨since, split⟩
          | _ => cases same
      | _ => exact tail

/-- Whatever requests arrive, and however their steps interleave, a panel calls its services at most
once for the same signed envelope. -/
theorem served_at_most_once {Body : Type} (library : Library Body) (panels : String → Panel)
    (history : List (Event Body)) :
    (calls (run library panels history).log).Pairwise fun later earlier =>
      ¬ (later.url = earlier.url ∧ later.assertion = earlier.assertion) := by
  apply calls_pairwise
  intro later call past split
  exact ((run_sound library panels history).behind later call past split).2

/-- A call stays within what both panels granted when it was made, and fewer grants let nothing more
through. -/
theorem delegation_never_amplifies {Body : Type} (library : Library Body) (panels : String → Panel)
    (history : List (Event Body)) :
    (∀ later call past, (run library panels history).log = later ++ .called call :: past →
      ∃ fresh trust, Behind library call fresh trust past) ∧
    ∀ now fresh (less more peer : DelegationPeer) config assertion target, less.Within more →
      trustUnchanged library.isUuid now fresh less peer config assertion target = true →
      trustUnchanged library.isUuid now fresh more peer config assertion target = true := by
  constructor
  · intro later call past split
    exact ((run_sound library panels history).behind later call past split).1
  · intro now fresh less more peer config assertion target fewer unchanged
    exact trustUnchanged_mono fewer unchanged

/-- The action a call carries out: that of the operation it refers to, or its own. -/
def Call.carriesOut (call : Call) : Option String :=
  match call.target with
  | some operation => some operation.action
  | none => call.assertion.writes

/-- The permission behind a call is in the asserted actions. -/
def Call.permissionAsserted (call : Call) : Bool :=
  (call.carriesOut.bind fun action => remotePermissions.lookup action).any call.assertion.identity.holds

/-! ### A key that lost its permission applies what it prepared before -/

def sampleStack : String := "0a0b0c0d-0000-4000-8000-000000000001"

def sampleOperation : String := "0a0b0c0d-0000-4000-8000-000000000002"

def sampleLibrary : Library (Assertion ⊕ Validation) where
  readSchema := Sum.getLeft?
  validationSchema := Sum.getRight?
  stringify := .inr
  parsed := by
    intro validation other read
    cases read
    rfl
  sign := fun _ _ => String.ofList (List.replicate 86 's')
  verify := fun _ _ signature => signature = String.ofList (List.replicate 86 's')
  isUuid := fun text => text.length = 36
  peerURL := some
  delegatedSubjectId := fun issuer keyId => issuer ++ keyId
  text := fun _ => ""
  byteLength := fun _ => 4

def sampleIdentity : DelegatedIdentity where
  keyId := "00000000000000000000000000000001"
  userId := "1"
  role := .operator
  servers := ["away"]
  stackIds := [sampleStack]
  resources := { servers := ["away"], of := fun _ => [sampleStack] }
  policyVersion := 2
  actions := some ["logs:read"]
  mode := some .automatic

def sampleApply : Assertion where
  issuer := "home"
  audience := "away"
  requestId := "0a0b0c0d-0000-4000-8000-000000000003"
  issuedAt := 0
  expiresAt := 150000
  identity := sampleIdentity
  action := "operation_apply"
  args := [("server_id", .str "away"), ("operation_id", .str sampleOperation), ("parameters_hash", .str "00")]

def samplePeer (id : String) : DelegationPeer where
  id := id
  url := id
  publicKey := id
  allowedStackIds := [sampleStack]
  actions := ["operation_prepare", "operation_apply", "stack_start"]
  role := .operator
  ownerId := "1"

def samplePanel (id peer : String) : Panel where
  services :=
    { config := some { serverId := id, privateKey := id, peers := [samplePeer peer] }
      resolveIdentity := fun _ => some sampleIdentity
      authorizePeer := fun _ => true
      operationTarget := fun _ _ => some { action := "stack_start", stackId := sampleStack, additionalActions := some [] }
      dispatches := true }
  now := 0
  seen := []
  active := 0

def samplePanels (url : String) : Panel :=
  if url = "home" then samplePanel "home" "away" else samplePanel "away" "home"

def sampleHistory : List (Event (Assertion ⊕ Validation)) :=
  .start
    { url := "away", operation := "read"
      request :=
        { authorization := false, cookie := false, origin := false, query := false
          body := some (.inl sampleApply), signature := some (String.ofList (List.replicate 86 's')) } } ::
    List.replicate 24 (.advance 0 { works := true })

theorem applied_without_permission :
    ∃ call ∈ calls (run sampleLibrary samplePanels sampleHistory).log,
      call.assertion.action = "operation_apply" ∧ call.permissionAsserted = false := by
  decide +kernel

end Dockge.Delegation
