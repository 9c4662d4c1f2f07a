import Dockge.Agents.Manager

namespace Dockge.Agents

open Data AgentManager

/-! Which clients a browser connection can have, and what is left of an agent that was removed. -/

structure AgentManager.Sound (manager : AgentManager) : Prop where
  listed : ∀ (endpoint : String) (id : Nat), manager.agentSocketList endpoint = some id →
    ∃ client, manager.clients[id]? = some client ∧ client.endpoint = endpoint
  live : ∀ (id : Nat) (client : Client), manager.clients[id]? = some client → client.active = true →
    manager.agentSocketList client.endpoint = some id

/-- Nothing is left of the agents that were removed. -/
def AgentManager.Quiet (manager : AgentManager) : Prop :=
  ∀ endpoint, manager.removed endpoint = true → manager.agentSocketList endpoint = none ∧
    ∀ client ∈ manager.clients, client.endpoint = endpoint → client.active = false

/-- No sign-in succeeds for an agent that was removed since, while the browser is there and nobody asked again. -/
def Timely (manager : AgentManager) : Event → Prop
  | .connectAnswered call true => ∀ endpoint, manager.connects[call]? = some { endpoint, waiting := true } →
      manager.connected = true → manager.removed endpoint = false
  | _ => True

variable {manager : AgentManager} {id : Nat}

theorem AgentManager.Sound.quiet_iff (sound : manager.Sound) :
    manager.Quiet ↔ ∀ endpoint, manager.removed endpoint = true → manager.agentSocketList endpoint = none := by
  refine ⟨fun quiet endpoint removed => (quiet endpoint removed).1, fun free endpoint removed => ⟨free endpoint removed, ?_⟩⟩
  intro client member own
  obtain ⟨id, found⟩ := List.mem_iff_getElem?.mp member
  cases active : client.active with
  | false => rfl
  | true =>
      have listed := sound.live id client found active
      rw [own, free endpoint removed] at listed
      cases listed

section

variable {update : Client → Client}

theorem changeClient_get (manager : AgentManager) (id other : Nat) (update : Client → Client) :
    (manager.changeClient id update).clients[other]? =
      if id = other then manager.clients[other]?.map update else manager.clients[other]? := by
  rw [changeClient, List.getElem?_modify]
  split <;> simp_all

theorem changeClient_cases {other : Nat} {client : Client}
    (found : (manager.changeClient id update).clients[other]? = some client) :
    ∃ earlier, manager.clients[other]? = some earlier ∧ (client = earlier ∨ other = id ∧ client = update earlier) := by
  rw [changeClient_get] at found
  split at found
  next same =>
    obtain ⟨earlier, held, rfl⟩ := Option.map_eq_some_iff.mp found
    exact ⟨earlier, held, .inr ⟨same.symm, rfl⟩⟩
  next => exact ⟨client, found, .inl rfl⟩

/-- A client only becomes active again while it is the one of its agent. -/
theorem AgentManager.Sound.changeClient (sound : manager.Sound) (endpoint : ∀ client, (update client).endpoint = client.endpoint)
    (active : ∀ client, manager.clients[id]? = some client → (update client).active = true → client.active = true ∨
      manager.agentSocketList client.endpoint = some id) : (manager.changeClient id update).Sound where
  listed named other found := by
    obtain ⟨client, held, own⟩ := sound.listed named other found
    rw [changeClient_get, held]
    split
    · exact ⟨update client, rfl, (endpoint client).trans own⟩
    · exact ⟨client, rfl, own⟩
  live other client found on := by
    obtain ⟨earlier, held, rfl | ⟨rfl, rfl⟩⟩ := changeClient_cases found
    · exact sound.live other _ held on
    · rw [endpoint]
      obtain before | listed := active earlier held on
      · exact sound.live _ earlier held before
      · exact listed

theorem off_sound (sound : manager.Sound) (id : Nat) : (manager.changeClient id Client.off).Sound :=
  sound.changeClient (fun _ => rfl) fun _ _ on => by cases on

end

theorem renewSession_sound (sound : manager.Sound) (id : Nat) : (manager.renewSession id).Sound := by
  unfold renewSession
  split
  next client found =>
    split
    next => exact sound
    next => exact sound.changeClient (fun _ => rfl) fun _ _ on => by cases on
  next => exact sound

theorem renewAnswered_sound (sound : manager.Sound) (id : Nat) (signedIn : Bool) : (manager.renewAnswered id signedIn).Sound := by
  unfold renewAnswered
  split
  next client found =>
    split
    next =>
      refine sound.changeClient (fun _ => rfl) fun other held on => ?_
      obtain rfl : client = other := Option.some.inj (found.symm.trans held)
      obtain before | again := Bool.or_eq_true_iff.mp on
      · exact .inl before
      · exact .inr (of_decide_eq_true (Bool.and_eq_true_iff.mp again).2)
    next => exact sound
  next => exact sound

theorem disconnect_sound (sound : manager.Sound) (endpoint : String) : (manager.disconnect endpoint).Sound := by
  unfold disconnect
  split
  · exact off_sound sound _
  · exact sound

theorem disconnect_list (manager : AgentManager) (endpoint : String) :
    (manager.disconnect endpoint).agentSocketList = manager.agentSocketList := by
  unfold disconnect
  split <;> rfl

theorem disconnect_removed (manager : AgentManager) (endpoint : String) :
    (manager.disconnect endpoint).removed = manager.removed := by
  unfold disconnect
  split <;> rfl

/-- Nobody is left of an agent that was disconnected. -/
theorem disconnect_off (sound : manager.Sound) {endpoint : String} {client : Client}
    (found : (manager.disconnect endpoint).clients[id]? = some client) (own : client.endpoint = endpoint) :
    client.active = false := by
  cases on : client.active with
  | false => rfl
  | true =>
      have listed := (disconnect_sound sound endpoint).live id client found on
      rw [disconnect_list, own] at listed
      unfold disconnect at found
      split at found
      next other held =>
        obtain rfl : other = id := Option.some.inj (held.symm.trans listed)
        rw [changeClient_get, if_pos rfl] at found
        obtain ⟨earlier, -, rfl⟩ := Option.map_eq_some_iff.mp found
        cases on
      next none_ => exact absurd (none_.symm.trans listed) nofun

theorem removeAnswered_sound (sound : manager.Sound) (call : Nat) (found : Bool) : (manager.removeAnswered call found).Sound := by
  unfold removeAnswered
  split
  next endpoint waits =>
    have waiting : Sound { manager with removals := manager.removals.modify call fun call => { call with waiting := false } } :=
      ⟨sound.listed, sound.live⟩
    dsimp only
    split
    next => exact waiting
    next =>
      have after := disconnect_sound waiting endpoint
      constructor
      · intro named id held
        by_cases same : named = endpoint
        · rw [same] at held
          dsimp only at held
          rw [Function.update_self] at held
          cases held
        · dsimp only at held
          rw [Function.update_of_ne same] at held
          exact after.listed named id held
      · intro id client held on
        by_cases same : client.endpoint = endpoint
        · rw [disconnect_off waiting held same] at on
          cases on
        · dsimp only
          rw [Function.update_of_ne same]
          exact after.live id client held on
  next => exact sound

theorem connectAnswered_sound (sound : manager.Sound) (call : Nat) (signedIn : Bool) :
    (manager.connectAnswered call signedIn).Sound := by
  unfold connectAnswered
  split
  next endpoint waits =>
    have waiting : Sound { manager with connects := manager.connects.modify call fun call => { call with waiting := false } } :=
      ⟨sound.listed, sound.live⟩
    dsimp only
    split
    next => exact waiting
    next =>
      split
      next => exact waiting
      next free =>
        have none_ : manager.agentSocketList endpoint = none := by
          simp only [Bool.or_eq_true, Option.isSome_iff_ne_none, not_or, not_not] at free
          exact free.2
        have kept {other : Nat} {client : Client} (held : manager.clients[other]? = some client) :
            (manager.clients ++ [({ endpoint } : Client)])[other]? = some client := by
          rw [List.getElem?_append_left (List.getElem?_eq_some_iff.mp held).1]
          exact held
        constructor
        · intro named id held
          dsimp only at held ⊢
          by_cases same : named = endpoint
          · rw [same, Function.update_self] at held
            obtain rfl : manager.clients.length = id := Option.some.inj held
            exact ⟨{ endpoint }, List.getElem?_concat_length, same.symm⟩
          · rw [Function.update_of_ne same] at held
            obtain ⟨client, found, own⟩ := sound.listed named id held
            exact ⟨client, kept found, own⟩
        · intro id client found on
          dsimp only at found ⊢
          rw [List.getElem?_append] at found
          split at found
          next =>
            have listed := sound.live id client found on
            have differs : client.endpoint ≠ endpoint := by
              intro same
              rw [same, none_] at listed
              cases listed
            rw [Function.update_of_ne differs]
            exact listed
          next late =>
            rw [List.getElem?_singleton] at found
            split at found
            next first =>
              obtain rfl := Option.some.inj found
              rw [Function.update_self]
              exact congrArg some (by omega)
            next => cases found
  next => exact sound

theorem disconnectAll_sound (sound : manager.Sound) : manager.disconnectAll.Sound := by
  have cases_ {other : Nat} {client : Client} (found : manager.disconnectAll.clients[other]? = some client) :
      ∃ earlier, manager.clients[other]? = some earlier ∧ client.endpoint = earlier.endpoint ∧
        (client.active = true → earlier.active = true) := by
    rw [disconnectAll, List.getElem?_map, List.getElem?_zipIdx] at found
    obtain ⟨pair, held, rfl⟩ := Option.map_eq_some_iff.mp found
    obtain ⟨earlier, held_, rfl⟩ := Option.map_eq_some_iff.mp held
    refine ⟨earlier, held_, ?_⟩
    dsimp only
    split
    · exact ⟨rfl, fun on => by cases on⟩
    · exact ⟨rfl, id⟩
  constructor
  · intro endpoint other listed
    obtain ⟨client, held, own⟩ := sound.listed endpoint other listed
    have within : other < manager.disconnectAll.clients.length := by
      rw [disconnectAll, List.length_map, List.length_zipIdx]
      exact (List.getElem?_eq_some_iff.mp held).1
    obtain ⟨earlier, held_, same, -⟩ := cases_ (List.getElem?_eq_getElem within)
    obtain rfl : client = earlier := Option.some.inj (held.symm.trans held_)
    exact ⟨_, List.getElem?_eq_getElem within, same.trans own⟩
  · intro other client found on
    obtain ⟨earlier, held, same, before⟩ := cases_ found
    rw [same]
    exact sound.live other earlier held (before on)

theorem step_sound (sound : manager.Sound) (event : Event) : (step manager event).Sound := by
  cases event with
  | connect endpoint =>
      rw [step, connect]
      dsimp only
      split
      · exact ⟨sound.listed, sound.live⟩
      · exact ⟨sound.listed, sound.live⟩
  | connectAnswered call signedIn => exact connectAnswered_sound sound call signedIn
  | remove => exact ⟨sound.listed, sound.live⟩
  | removeAnswered call found => exact removeAnswered_sound sound call found
  | needAuth id => exact renewSession_sound sound id
  | serverDisconnect id => exact renewSession_sound (off_sound sound id) id
  | renewAnswered id signedIn => exact renewAnswered_sound sound id signedIn
  | tooOld id => exact off_sound sound id
  | browserDisconnects => exact ⟨sound.listed, sound.live⟩
  | disconnectAll => exact disconnectAll_sound sound

/-! ## Removed agents -/

theorem renewSession_frame (manager : AgentManager) (id : Nat) :
    (manager.renewSession id).agentSocketList = manager.agentSocketList ∧ (manager.renewSession id).removed = manager.removed := by
  unfold renewSession
  split
  · split
    · exact ⟨rfl, rfl⟩
    · exact ⟨rfl, rfl⟩
  · exact ⟨rfl, rfl⟩

theorem renewAnswered_frame (manager : AgentManager) (id : Nat) (signedIn : Bool) :
    (manager.renewAnswered id signedIn).agentSocketList = manager.agentSocketList ∧
      (manager.renewAnswered id signedIn).removed = manager.removed := by
  unfold renewAnswered
  split
  · split
    · exact ⟨rfl, rfl⟩
    · exact ⟨rfl, rfl⟩
  · exact ⟨rfl, rfl⟩

/-- The list and the removed agents as they were -/
theorem quiet_of_frame {later : AgentManager} (sound : manager.Sound) (later_ : later.Sound) (quiet : manager.Quiet)
    (same : later.agentSocketList = manager.agentSocketList ∧ later.removed = manager.removed) : later.Quiet := by
  rw [later_.quiet_iff, same.1, same.2]
  exact sound.quiet_iff.mp quiet

theorem connectAnswered_quiet_iff (sound : manager.Sound) (quiet : manager.Quiet) (call : Nat) (signedIn : Bool) :
    (manager.connectAnswered call signedIn).Quiet ↔ Timely manager (.connectAnswered call signedIn) := by
  rw [(connectAnswered_sound sound call signedIn).quiet_iff]
  have free := sound.quiet_iff.mp quiet
  unfold connectAnswered
  cases signedIn with
  | false =>
      refine ⟨fun _ => trivial, fun _ => ?_⟩
      split
      · exact free
      · exact free
  | true =>
      split
      next endpoint waits =>
        have timely : Timely manager (.connectAnswered call true) ↔
            (manager.connected = true → manager.removed endpoint = false) := by
          refine ⟨fun timely => timely endpoint waits, fun held other waits_ => ?_⟩
          have same := Option.some.inj (waits.symm.trans waits_)
          simp only [Call.mk.injEq, and_true] at same
          exact same ▸ held
        rw [timely]
        dsimp only
        rw [if_neg (by simp)]
        split
        next busy =>
          refine ⟨fun _ here => ?_, fun _ => free⟩
          rw [here, Bool.not_true, Bool.false_or] at busy
          cases removed : manager.removed endpoint with
          | false => rfl
          | true =>
              rw [free endpoint removed] at busy
              cases busy
        next open_ =>
          dsimp only
          constructor
          · intro held _
            cases removed : manager.removed endpoint with
            | false => rfl
            | true =>
                have none_ := held endpoint removed
                rw [Function.update_self] at none_
                cases none_
          · intro held other removed
            have here : manager.connected = true := by
              simp only [Bool.or_eq_true, Bool.not_eq_true', not_or, Bool.not_eq_false] at open_
              exact open_.1
            have differs : other ≠ endpoint := by
              intro same
              rw [same, held here] at removed
              cases removed
            rw [Function.update_of_ne differs]
            exact free other removed
      next other =>
        refine ⟨fun _ endpoint waits => absurd waits (other endpoint), fun _ => free⟩

theorem removeAnswered_quiet (sound : manager.Sound) (quiet : manager.Quiet) (call : Nat) (found : Bool) :
    (manager.removeAnswered call found).Quiet := by
  rw [(removeAnswered_sound sound call found).quiet_iff]
  have free := sound.quiet_iff.mp quiet
  unfold removeAnswered
  split
  next endpoint waits =>
    dsimp only
    split
    · exact free
    · intro named removed
      dsimp only at removed ⊢
      by_cases same : named = endpoint
      · rw [same, Function.update_self]
      · rw [Function.update_of_ne same] at removed ⊢
        rw [disconnect_list]
        rw [disconnect_removed] at removed
        exact free named removed
  next => exact free

theorem step_quiet_iff (sound : manager.Sound) (quiet : manager.Quiet) (event : Event) :
    (step manager event).Quiet ↔ Timely manager event := by
  have free := sound.quiet_iff.mp quiet
  cases event with
  | connect endpoint =>
      refine ⟨fun _ => trivial, fun _ => ?_⟩
      rw [(step_sound sound (.connect endpoint)).quiet_iff, step, connect]
      have kept : ∀ named, Function.update manager.removed endpoint false named = true → manager.agentSocketList named = none := by
        intro named removed
        by_cases same : named = endpoint
        · rw [same, Function.update_self] at removed
          cases removed
        · rw [Function.update_of_ne same] at removed
          exact free named removed
      dsimp only
      split
      · exact kept
      · exact kept
  | connectAnswered call signedIn => exact connectAnswered_quiet_iff sound quiet call signedIn
  | remove endpoint => exact ⟨fun _ => trivial, fun _ => quiet⟩
  | removeAnswered call found => exact ⟨fun _ => trivial, fun _ => removeAnswered_quiet sound quiet call found⟩
  | needAuth id =>
      exact ⟨fun _ => trivial, fun _ => quiet_of_frame sound (step_sound sound (.needAuth id)) quiet (renewSession_frame manager id)⟩
  | serverDisconnect id =>
      exact ⟨fun _ => trivial, fun _ => quiet_of_frame sound (step_sound sound (.serverDisconnect id)) quiet
        (renewSession_frame (manager.changeClient id Client.off) id)⟩
  | renewAnswered id signedIn =>
      exact ⟨fun _ => trivial, fun _ => quiet_of_frame sound (step_sound sound (.renewAnswered id signedIn)) quiet
        (renewAnswered_frame manager id signedIn)⟩
  | tooOld id => exact ⟨fun _ => trivial, fun _ => quiet_of_frame sound (step_sound sound (.tooOld id)) quiet ⟨rfl, rfl⟩⟩
  | browserDisconnects => exact ⟨fun _ => trivial, fun _ => quiet⟩
  | disconnectAll => exact ⟨fun _ => trivial, fun _ => quiet_of_frame sound (step_sound sound .disconnectAll) quiet ⟨rfl, rfl⟩⟩

/-! ## Without a browser -/

/-- No client that was not there before, and none that connects again -/
structure Fewer (before after : AgentManager) : Prop where
  gone : after.connected = false
  count : after.clients.length = before.clients.length
  active : ∀ (id : Nat) (client : Client), after.clients[id]? = some client → client.active = true →
    ∃ earlier, before.clients[id]? = some earlier ∧ earlier.active = true

theorem Fewer.trans {first second third : AgentManager} (one : Fewer first second) (two : Fewer second third) : Fewer first third where
  gone := two.gone
  count := two.count.trans one.count
  active id client found on := by
    obtain ⟨earlier, held, before⟩ := two.active id client found on
    exact one.active id earlier held before

theorem changeClient_fewer (gone : manager.connected = false) {update : Client → Client}
    (active : ∀ client, (update client).active = true → client.active = true) : Fewer manager (manager.changeClient id update) where
  gone := gone
  count := List.length_modify _ _ _
  active other client found on := by
    obtain ⟨earlier, held, rfl | ⟨-, rfl⟩⟩ := changeClient_cases found
    · exact ⟨client, held, on⟩
    · exact ⟨earlier, held, active earlier on⟩

theorem Fewer.same {later : AgentManager} (gone : later.connected = false) (clients : later.clients = manager.clients) :
    Fewer manager later where
  gone := gone
  count := by rw [clients]
  active id client found on := ⟨client, clients ▸ found, on⟩

theorem disconnect_fewer (gone : manager.connected = false) (endpoint : String) : Fewer manager (manager.disconnect endpoint) := by
  unfold disconnect
  split
  · exact changeClient_fewer gone fun _ on => by cases on
  · exact Fewer.same gone rfl

theorem renewSession_fewer (gone : manager.connected = false) (id : Nat) : Fewer manager (manager.renewSession id) := by
  unfold renewSession
  split
  next client found =>
    rw [if_pos (by rw [gone, Bool.not_false, Bool.or_true])]
    exact Fewer.same gone rfl
  next => exact Fewer.same gone rfl

theorem renewAnswered_fewer (gone : manager.connected = false) (id : Nat) (signedIn : Bool) :
    Fewer manager (manager.renewAnswered id signedIn) := by
  unfold renewAnswered
  split
  next client found =>
    split
    next =>
      refine changeClient_fewer gone fun other on => ?_
      simpa [gone] using on
    next => exact Fewer.same gone rfl
  next => exact Fewer.same gone rfl

theorem step_fewer (gone : manager.connected = false) (event : Event) : Fewer manager (step manager event) := by
  cases event with
  | connect endpoint =>
      rw [step, connect]
      dsimp only
      split
      · exact Fewer.same gone rfl
      · exact Fewer.same gone rfl
  | connectAnswered call signedIn =>
      rw [step, connectAnswered]
      split
      next =>
        dsimp only
        split
        · exact Fewer.same gone rfl
        · rw [if_pos (by rw [gone]; rfl)]
          exact Fewer.same gone rfl
      next => exact Fewer.same gone rfl
  | remove endpoint => exact Fewer.same gone rfl
  | removeAnswered call found =>
      rw [step, removeAnswered]
      split
      next endpoint _ =>
        dsimp only
        split
        · exact Fewer.same gone rfl
        · have off := @disconnect_fewer { manager with removals := manager.removals.modify call fun call =>
            { call with waiting := false } } gone endpoint
          exact ⟨off.gone, off.count, off.active⟩
      next => exact Fewer.same gone rfl
  | needAuth id => exact renewSession_fewer gone id
  | serverDisconnect id =>
      have off : Fewer manager (manager.changeClient id Client.off) := changeClient_fewer gone fun _ on => by cases on
      exact off.trans (renewSession_fewer off.gone id)
  | renewAnswered id signedIn => exact renewAnswered_fewer gone id signedIn
  | tooOld id => exact changeClient_fewer gone fun _ on => by cases on
  | browserDisconnects => exact Fewer.same rfl rfl
  | disconnectAll =>
      refine ⟨gone, by rw [step, disconnectAll, List.length_map, List.length_zipIdx], fun other client found on => ?_⟩
      rw [step, disconnectAll, List.getElem?_map, List.getElem?_zipIdx] at found
      obtain ⟨pair, held, rfl⟩ := Option.map_eq_some_iff.mp found
      obtain ⟨earlier, held_, rfl⟩ := Option.map_eq_some_iff.mp held
      dsimp only at on
      split at on
      · cases on
      · exact ⟨earlier, held_, on⟩

/-! ## Runs -/

theorem empty_sound : ({} : AgentManager).Sound where
  listed _ _ found := by cases found
  live _ _ found := by simp at found

/-- In every run an agent has one live client at most, and without a browser no client is created or connected again.
Of an agent that was removed nothing is left, in every state of a run, if and only if no sign-in from before succeeds
while it stays removed. -/
theorem removed_stays_disconnected (history : List Event) :
    (∀ (first second : Nat) (one other : Client), (replay step {} history).clients[first]? = some one →
      (replay step {} history).clients[second]? = some other → one.endpoint = other.endpoint →
      one.active = true → other.active = true → first = second) ∧
    (∀ before after, history = before ++ .browserDisconnects :: after →
      Fewer (replay step {} before) (replay step {} history)) ∧
    ((∀ before after, history = before ++ after → (replay step {} before).Quiet) ↔ Along step Timely {} history) := by
  refine ⟨?_, ?_, ?_⟩
  · intro first second one other found found_ same on on_
    have sound := replay_invariant empty_sound (fun _ event sound => step_sound sound event) history
    have listed := sound.live first one found on
    have listed_ := sound.live second other found_ on_
    rw [← same] at listed_
    exact Option.some.inj (listed.symm.trans listed_)
  · intro before after same
    subst same
    rw [replay_append, replay_cons]
    have first : Fewer (replay step {} before) (step (replay step {} before) .browserDisconnects) := Fewer.same rfl rfl
    refine first.trans ?_
    have gone := first.gone
    generalize step (replay step {} before) .browserDisconnects = state at gone
    induction after generalizing state with
    | nil => exact Fewer.same gone rfl
    | cons event rest ih =>
        have one := step_fewer gone event
        exact one.trans (ih _ one.gone)
  · have fresh : ({} : AgentManager).Quiet := fun _ removed => by cases removed
    exact Along.every_iff empty_sound fresh (fun _ event sound => step_sound sound event)
      fun _ event sound quiet => step_quiet_iff sound quiet event

/-- `connect` waits for the sign-in while the agent is removed. -/
def removedWhileSigningIn : List Event :=
  [.connect "agent", .remove "agent", .removeAnswered 0 true, .connectAnswered 0 true]

theorem removed_connects : (replay step {} removedWhileSigningIn).agentSocketList "agent" = some 0 ∧
    (replay step {} removedWhileSigningIn).removed "agent" = true ∧ ¬ (replay step {} removedWhileSigningIn).Quiet := by
  have listed : (replay step {} removedWhileSigningIn).agentSocketList "agent" = some 0 := by decide
  have removed : (replay step {} removedWhileSigningIn).removed "agent" = true := by decide
  refine ⟨listed, removed, fun quiet => ?_⟩
  have none_ := (quiet "agent" removed).1
  rw [listed] at none_
  cases none_

end Dockge.Agents
