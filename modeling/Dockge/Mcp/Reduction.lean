import Dockge.Mcp.Keys

namespace Dockge.Mcp

open Dockge.Data

/-! Which runs of the calls on one key only ever take authority from it. -/

def Mode.rank : Mode → Nat
  | .readonly => 0
  | .approval => 1
  | .automatic => 2

/-- The one key may do nothing that the other may not. -/
structure KeyRow.Within (less more : KeyRow) : Prop where
  role : less.role = .operator → more.role = .operator
  actions : ∀ action ∈ less.actions, action ∈ more.actions
  resources : ∀ server stack, less.resources.includes server stack = true →
    more.resources.includes server stack = true
  mode : less.mode.rank ≤ more.mode.rank
  expiresAt : less.expiresAt ≤ more.expiresAt
  revokedAt : more.revokedAt.isSome → less.revokedAt.isSome

theorem KeyRow.Within.refl (row : KeyRow) : row.Within row :=
  ⟨id, fun _ => id, fun _ _ => id, Nat.le_refl _, Nat.le_refl _, id⟩

theorem KeyRow.Within.trans {first second third : KeyRow} (upper : second.Within first)
    (lower : third.Within second) : third.Within first where
  role := fun held => upper.role (lower.role held)
  actions := fun action member => upper.actions action (lower.actions action member)
  resources := fun server stack member => upper.resources server stack (lower.resources server stack member)
  mode := Nat.le_trans lower.mode upper.mode
  expiresAt := Nat.le_trans lower.expiresAt upper.expiresAt
  revokedAt := fun gone => lower.revokedAt (upper.revokedAt gone)

/-- The three parts of a scope within those of another one. -/
structure KeyRow.ScopeWithin (less more : KeyRow) : Prop where
  servers : ∀ server ∈ less.servers, server ∈ more.servers
  stackIds : ∀ stack ∈ less.stackIds, stack ∈ more.stackIds
  resources : ∀ server stack, less.resources.includes server stack = true →
    more.resources.includes server stack = true

/-- The resources of a key name its servers and its stacks. -/
structure KeyRow.WellFormed (row : KeyRow) : Prop where
  servers : ∀ server ∈ row.resources.servers, server ∈ row.servers
  stackIds : ∀ stack ∈ row.resources.flat, stack ∈ row.stackIds

theorem Resources.mem_flat {resources : Resources} {stack : String} :
    stack ∈ resources.flat ↔ ∃ server, resources.includes server stack = true := by
  simp [Resources.flat, Resources.includes, List.mem_flatMap]

/-- What grants of a row no reissue and no revocation touches. -/
structure KeyRow.SameGrants (row other : KeyRow) : Prop where
  role : row.role = other.role
  servers : row.servers = other.servers
  stackIds : row.stackIds = other.stackIds
  resources : row.resources = other.resources
  actions : row.actions = other.actions
  mode : row.mode = other.mode

/-! ### One reduction -/

section
variable {row read : KeyRow} {data : IssueKey} {now : Nat}

theorem acceptsReduction_wellFormed (accepted : acceptsReduction read data = true) :
    (row.reduced read data now).WellFormed := by
  simp only [acceptsReduction, scopeWithin, Bool.and_eq_true, List.all_eq_true, decide_eq_true_eq]
    at accepted
  obtain ⟨⟨⟨_, ⟨⟨⟨_, known⟩, _⟩, _⟩, flat⟩, _⟩, _⟩ := accepted
  exact ⟨fun server member => (known server member).1, flat⟩

/-- Every server of an accepted reduction that has an entry of its own was granted before. -/
theorem acceptsReduction_scope (accepted : acceptsReduction read data = true)
    (wellFormed : read.WellFormed) (own : ∀ server ∈ data.servers, server ∈ data.granted.servers) :
    (row.reduced read data now).ScopeWithin read := by
  simp only [acceptsReduction, scopeWithin, Bool.and_eq_true, List.all_eq_true, decide_eq_true_eq]
    at accepted
  obtain ⟨⟨⟨_, ⟨⟨⟨_, known⟩, nonempty⟩, stackIds⟩, _⟩, _⟩, _⟩ := accepted
  have resources : ∀ server stack, data.granted.includes server stack = true →
      read.resources.includes server stack = true := by
    intro server stack member
    simp only [Resources.includes, Bool.and_eq_true, decide_eq_true_eq] at member
    exact (known server member.1).2 stack member.2
  refine ⟨?_, ?_, resources⟩
  · intro server member
    have present := own server member
    have filled := nonempty server member
    rw [Resources.hasLength, if_pos present] at filled
    obtain ⟨stack, named⟩ : ∃ stack, stack ∈ data.granted.of server := by
      cases held : data.granted.of server with
      | nil => simp [held] at filled
      | cons stack rest => exact ⟨stack, List.mem_cons_self⟩
    have granted := (known server present).2 stack named
    simp only [Resources.includes, Bool.and_eq_true, decide_eq_true_eq] at granted
    exact wellFormed.servers server granted.1
  · intro stack member
    obtain ⟨server, granted⟩ := Resources.mem_flat.mp (stackIds stack member)
    exact wellFormed.stackIds stack (Resources.mem_flat.mpr ⟨server, resources server stack granted⟩)

theorem acceptsReduction_within (accepted : acceptsReduction read data = true)
    (same : read.SameGrants row) (lifetime : min read.expiresAt (data.endsAt now) ≤ row.expiresAt) :
    (row.reduced read data now).Within row := by
  simp only [acceptsReduction, scopeWithin, modeWithin, Bool.and_eq_true, List.all_eq_true,
    decide_eq_true_eq, Bool.not_eq_true', Bool.and_eq_false_iff, decide_eq_false_iff_not] at accepted
  obtain ⟨⟨⟨⟨_, role⟩, ⟨⟨⟨_, known⟩, _⟩, _⟩, _⟩, actions⟩, ⟨automatic, readonly⟩, _⟩ := accepted
  refine ⟨?_, ?_, ?_, ?_, lifetime, id⟩
  · intro operator
    rw [← same.role]
    rcases role with role | role
    · exact absurd operator role
    · exact not_not.mp role
  · intro action member
    rw [← same.actions]
    exact actions action member
  · intro server stack member
    rw [← same.resources]
    change data.granted.includes server stack = true at member
    simp only [Resources.includes, Bool.and_eq_true, decide_eq_true_eq] at member
    exact (known server member.1).2 stack member.2
  · rw [← same.mode]
    change data.mode.rank ≤ read.mode.rank
    cases before : read.mode <;> cases after : data.mode <;> simp_all [Mode.rank]

end

/-! ### All runs -/

/-- The statement does not undo what another call did since the row was read, and a reduction names
no server without an entry of its own. -/
def KeyStage.NotOvertaken (row : KeyRow) : KeyStage → Prop
  | .reducing data read now => row.policyVersion = read.policyVersion ∧
      (read.expiresAt ≤ row.expiresAt ∨ data.endsAt now ≤ row.expiresAt) ∧
      ∀ server ∈ data.servers, server ∈ data.granted.servers
  | .retiring read now => read.expiresAt ≤ row.expiresAt ∨ now + reissueOverlapMs ≤ row.expiresAt
  | _ => True

def KeyEvent.NotOvertaken (state : KeyState) : KeyEvent → Prop
  | .start _ => True
  | .advance index _ works => works = true → ∀ stage ∈ state.calls[index]?, stage.NotOvertaken state.row

/-- A reduction that is about to be written was accepted for the row as it is, unless another one
was written since. -/
def KeyStage.Known (row : KeyRow) : KeyStage → Prop
  | .reducing data read _ => acceptsReduction read data = true ∧ read.WellFormed ∧
      read.policyVersion ≤ row.policyVersion ∧ (row.policyVersion = read.policyVersion → read.SameGrants row)
  | _ => True

structure KeyState.Sound (state : KeyState) : Prop where
  wellFormed : state.row.WellFormed
  known : ∀ stage ∈ state.calls, stage.Known state.row

/-- What one step makes of the row. -/
structure KeyRow.Steps (before after : KeyRow) : Prop where
  within : after.Within before
  version : before.policyVersion ≤ after.policyVersion
  grants : after.policyVersion = before.policyVersion → before.SameGrants after

theorem KeyRow.Steps.refl (row : KeyRow) : row.Steps row :=
  ⟨.refl row, Nat.le_refl _, fun _ => ⟨rfl, rfl, rfl, rfl, rfl, rfl⟩⟩

theorem KeyStage.Known.step {before after : KeyRow} {stage : KeyStage} (steps : before.Steps after)
    (known : stage.Known before) : stage.Known after := by
  cases stage with
  | reducing data read now =>
      obtain ⟨accepted, wellFormed, version, same⟩ := known
      refine ⟨accepted, wellFormed, Nat.le_trans version steps.version, ?_⟩
      intro unchanged
      have versions := steps.version
      have middle := same (by omega)
      have last := steps.grants (by omega)
      exact ⟨middle.role.trans last.role, middle.servers.trans last.servers, middle.stackIds.trans last.stackIds,
        middle.resources.trans last.resources, middle.actions.trans last.actions, middle.mode.trans last.mode⟩
  | _ => trivial

theorem resume_steps {row : KeyRow} {stage : KeyStage} {now : Nat} (known : stage.Known row)
    (notOvertaken : stage.NotOvertaken row) : row.Steps (stage.resume row now).1 := by
  cases stage with
  | reducing data read decided =>
      obtain ⟨accepted, _, _, same⟩ := known
      obtain ⟨version, lifetime, _⟩ := notOvertaken
      have shorter : min read.expiresAt (data.endsAt decided) ≤ row.expiresAt := by omega
      refine ⟨acceptsReduction_within accepted (same version) shorter, ?_, ?_⟩
      · change row.policyVersion ≤ read.policyVersion + 1
        omega
      · intro unchanged
        change read.policyVersion + 1 = row.policyVersion at unchanged
        omega
  | retiring read decided =>
      have shorter : min read.expiresAt (decided + reissueOverlapMs) ≤ row.expiresAt := by
        change read.expiresAt ≤ row.expiresAt ∨ decided + reissueOverlapMs ≤ row.expiresAt at notOvertaken
        omega
      refine ⟨⟨id, fun _ => id, fun _ _ => id, Nat.le_refl _, shorter, id⟩, Nat.le_refl _, ?_⟩
      exact fun _ => ⟨rfl, rfl, rfl, rfl, rfl, rfl⟩
  | revoking =>
      refine ⟨⟨id, fun _ => id, fun _ _ => id, Nat.le_refl _, Nat.le_refl _, fun _ => rfl⟩, Nat.le_refl _, ?_⟩
      exact fun _ => ⟨rfl, rfl, rfl, rfl, rfl, rfl⟩
  | _ => exact .refl row

theorem resume_wellFormed {row : KeyRow} {stage : KeyStage} {now : Nat} (wellFormed : row.WellFormed)
    (known : stage.Known row) : (stage.resume row now).1.WellFormed := by
  cases stage with
  | reducing data read decided => exact acceptsReduction_wellFormed known.1
  | _ => exact ⟨wellFormed.servers, wellFormed.stackIds⟩

/-- A call that goes on has read the row as it is, or nothing. -/
theorem resume_known {row : KeyRow} {stage : KeyStage} {now : Nat} (wellFormed : row.WellFormed) :
    (stage.resume row now).2.Known (stage.resume row now).1 := by
  cases stage with
  | reading call =>
      cases call with
      | reduce data =>
          unfold KeyStage.resume KeyCall.afterRead
          dsimp only
          split
          · rename_i accepted
            exact ⟨accepted, wellFormed, Nat.le_refl _, fun _ => ⟨rfl, rfl, rfl, rfl, rfl, rfl⟩⟩
          · trivial
      | reissue =>
          unfold KeyStage.resume KeyCall.afterRead
          dsimp only
          split <;> trivial
      | revoke => trivial
  | _ => trivial

theorem keyStep_sound {state : KeyState} {event : KeyEvent} (sound : state.Sound)
    (notOvertaken : event.NotOvertaken state) :
    (keyStep state event).Sound ∧ state.row.Steps (keyStep state event).row := by
  cases event with
  | start call =>
      refine ⟨⟨sound.wellFormed, ?_⟩, .refl _⟩
      intro stage member
      rcases List.mem_append.mp member with earlier | new
      · exact sound.known stage earlier
      · obtain rfl := List.mem_singleton.mp new
        cases call <;> trivial
  | advance index now works =>
      unfold keyStep
      dsimp only
      split
      · exact ⟨sound, .refl _⟩
      · rename_i stage found
        have known := sound.known stage (List.mem_of_getElem? found)
        split
        · rename_i worked
          have steps : state.row.Steps (stage.resume state.row now).1 :=
            resume_steps known (notOvertaken worked stage found)
          refine ⟨⟨resume_wellFormed sound.wellFormed known, ?_⟩, steps⟩
          intro other member
          rcases List.mem_or_eq_of_mem_set member with earlier | rfl
          · exact (sound.known other earlier).step steps
          · exact resume_known sound.wellFormed
        · refine ⟨⟨sound.wellFormed, ?_⟩, .refl _⟩
          intro other member
          rcases List.mem_or_eq_of_mem_set member with earlier | rfl
          · exact sound.known other earlier
          · cases stage <;> trivial

/-- The call is about to store a reduction it accepted. -/
def Reduces (state : KeyState) (index : Nat) : Prop :=
  ∃ data read now, state.calls[index]? = some (.reducing data read now)

theorem reduces_narrows {state : KeyState} {index now : Nat} (sound : state.Sound)
    (reduces : Reduces state index) (notOvertaken : (KeyEvent.advance index now true).NotOvertaken state) :
    (keyStep state (.advance index now true)).row.ScopeWithin state.row ∧
      state.row.policyVersion < (keyStep state (.advance index now true)).row.policyVersion := by
  obtain ⟨data, read, decided, found⟩ := reduces
  obtain ⟨accepted, wellFormed, _, same⟩ := sound.known _ (List.mem_of_getElem? found)
  obtain ⟨version, _, own⟩ := notOvertaken rfl _ found
  have stored : (keyStep state (.advance index now true)).row = state.row.reduced read data decided := by
    simp [keyStep, found, KeyStage.resume]
  rw [stored]
  constructor
  · have scope : (state.row.reduced read data decided).ScopeWithin read :=
      acceptsReduction_scope accepted wellFormed own
    have grants := same version
    refine ⟨?_, ?_, ?_⟩
    · rw [← grants.servers]
      exact scope.servers
    · rw [← grants.stackIds]
      exact scope.stackIds
    · rw [← grants.resources]
      exact scope.resources
  · change state.row.policyVersion < read.policyVersion + 1
    omega

/-- As long as a run goes on so, the key loses authority and its version grows. -/
theorem replay_steps {state : KeyState} {history : List KeyEvent} (sound : state.Sound)
    (met : Along keyStep (fun state event => event.NotOvertaken state) state history) :
    (replay keyStep state history).Sound ∧
      (replay keyStep state history).row.Within state.row ∧
      state.row.policyVersion ≤ (replay keyStep state history).row.policyVersion := by
  induction history generalizing state with
  | nil => exact ⟨sound, .refl _, Nat.le_refl _⟩
  | cons event rest ih =>
      obtain ⟨next, steps⟩ := keyStep_sound sound met.1
      obtain ⟨final, within, version⟩ := ih next met.2
      exact ⟨final, steps.within.trans within, Nat.le_trans steps.version version⟩

/-- In every run in which no statement is overtaken, the authority of a key never grows, and every
accepted reduction narrows its scope and gives it a version above all earlier ones. -/
theorem key_only_loses_authority (row : KeyRow) (wellFormed : row.WellFormed) (earlier later : List KeyEvent)
    (met : Along keyStep (fun state event => event.NotOvertaken state) (.initial row) (earlier ++ later)) :
    let before := replay keyStep (.initial row) earlier
    let after := replay keyStep (.initial row) (earlier ++ later)
    after.row.Within before.row ∧
      ∀ index now past, later = past ++ [.advance index now true] →
        Reduces (replay keyStep (.initial row) (earlier ++ past)) index →
        after.row.ScopeWithin (replay keyStep (.initial row) (earlier ++ past)).row ∧
          before.row.policyVersion < after.row.policyVersion := by
  have start : (KeyState.initial row).Sound := ⟨wellFormed, by simp [KeyState.initial]⟩
  have reached := replay_steps start met.append_left
  have rest := replay_steps reached.1 met.append_right
  refine ⟨by rw [replay_append]; exact rest.2.1, ?_⟩
  intro index now past same reduces
  subst same
  rw [← List.append_assoc] at met ⊢
  have passed := replay_steps reached.1 met.append_left.append_right
  rw [replay_append earlier past] at reduces ⊢
  have narrows := reduces_narrows passed.1 reduces (by simpa using met.last)
  rw [replay_append, replay_append]
  exact ⟨narrows.1, Nat.lt_of_le_of_lt passed.2.2 narrows.2⟩

/-! One key, and two owners who reduce it. -/

def sampleStack : String := "11111111-1111-4111-8111-111111111111"

def sampleRow : KeyRow :=
  { name := "agent"
    userId := "1"
    role := .operator
    servers := ["local"]
    stackIds := [sampleStack]
    resources := { servers := ["local"], of := fun _ => [sampleStack] }
    actions := ["logs:read", "deploy"]
    mode := .automatic
    expiresAt := 30 * millisPerDay
    revokedAt := none
    policyVersion := 1 }

/-- A reduction to these actions on these servers. -/
def sampleReduction (actions servers : List String) : IssueKey :=
  { name := "agent"
    userId := "1"
    role := .operator
    actions
    mode := .automatic
    resources := some { servers := ["local"], of := fun _ => [sampleStack] }
    servers
    stackIds := [sampleStack]
    days := 30 }

theorem sampleRow_wellFormed : sampleRow.WellFormed := ⟨fun _ => id, fun _ member => by
  simpa [sampleRow, Resources.flat] using member⟩

instance (row : KeyRow) (stage : KeyStage) : Decidable (stage.NotOvertaken row) :=
  match stage with
  | .reducing data read now => inferInstanceAs (Decidable (row.policyVersion = read.policyVersion ∧
      (read.expiresAt ≤ row.expiresAt ∨ data.endsAt now ≤ row.expiresAt) ∧
      ∀ server ∈ data.servers, server ∈ data.granted.servers))
  | .retiring read now => inferInstanceAs (Decidable
      (read.expiresAt ≤ row.expiresAt ∨ now + reissueOverlapMs ≤ row.expiresAt))
  | .reading _ => isTrue trivial
  | .issuing _ => isTrue trivial
  | .revoking => isTrue trivial
  | .auditing => isTrue trivial
  | .returned => isTrue trivial
  | .rejected => isTrue trivial

instance (state : KeyState) (event : KeyEvent) : Decidable (event.NotOvertaken state) :=
  match event with
  | .start _ => isTrue trivial
  | .advance index _ works =>
      inferInstanceAs (Decidable (works = true → ∀ stage ∈ state.calls[index]?, stage.NotOvertaken state.row))

/-- One reduction takes an action and leaves a newer version. -/
theorem key_only_loses_authority_once :
    let calls := [KeyEvent.start (.reduce (sampleReduction ["logs:read"] ["local"]))]
    let later := [KeyEvent.advance 0 0 true, .advance 0 0 true]
    (replay keyStep (.initial sampleRow) calls).row.policyVersion <
      (replay keyStep (.initial sampleRow) (calls ++ later)).row.policyVersion := by
  intro calls later
  have met : Along keyStep (fun state event => event.NotOvertaken state) (.initial sampleRow)
      (calls ++ later) := by decide +kernel
  have accepted : acceptsReduction sampleRow (sampleReduction ["logs:read"] ["local"]) = true := by
    decide +kernel
  have reduces : Reduces (replay keyStep (.initial sampleRow) (calls ++ [.advance 0 0 true])) 0 := by
    refine ⟨sampleReduction ["logs:read"] ["local"], sampleRow, 0, ?_⟩
    simp [calls, replay, keyStep, KeyState.initial, KeyCall.first, KeyStage.resume, KeyCall.afterRead, accepted]
  have loses := key_only_loses_authority sampleRow sampleRow_wellFormed calls later met
  exact (loses.2 0 0 [.advance 0 0 true] rfl reduces).2

/-- Two reductions are accepted for one row, and the second one gives back what the first one took.
And a server that was never granted is accepted where every object has a function of its name. -/
theorem key_regains_authority :
    let start (actions servers : List String) := KeyEvent.start (.reduce (sampleReduction actions servers))
    let run (calls : List KeyEvent) := (replay keyStep (.initial sampleRow) calls).row
    let calls := [start ["logs:read"] ["local"], start ["logs:read", "deploy"] ["local"],
      .advance 0 0 true, .advance 1 0 true, .advance 0 0 true]
    ((run calls).actions = ["logs:read"] ∧ (run calls).policyVersion = 2) ∧
      ((run (calls ++ [.advance 1 0 true])).actions = ["logs:read", "deploy"] ∧
        (run (calls ++ [.advance 1 0 true])).policyVersion = 2) ∧
      (run [start ["logs:read"] ["local", "constructor"], .advance 0 0 true, .advance 0 0 true]).servers =
        ["local", "constructor"] := by
  decide +kernel

end Dockge.Mcp
