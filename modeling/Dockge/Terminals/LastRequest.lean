import Dockge.Terminals.LogJoins

namespace Dockge.Terminals

open Data

/-! Whatever order the lookups resolve in, the last request for a stack decides. -/

variable {endpoint : String} {socket : Nat} {readers : LogReaders}

theorem getCombinedTerminalName_inj {first second : String}
    (same : getCombinedTerminalName endpoint first = getCombinedTerminalName endpoint second) : first = second := by
  have chars := congrArg String.toList same
  simp only [getCombinedTerminalName, String.toList_append] at chars
  exact String.toList_inj.mp (List.append_cancel_left chars)

namespace LogReaders

/-! ## Readers of a log -/

theorem hasClient_of_terminals {other : LogReaders} (same : other.terminals = readers.terminals) (stack : String) :
    other.hasClient endpoint socket stack = readers.hasClient endpoint socket stack := by
  rw [hasClient, same, ← hasClient]

theorem hasClient_update (stack other : String) (terminal : Option (List Nat)) :
    ({ readers with
        terminals := Function.update readers.terminals (getCombinedTerminalName endpoint stack) terminal } : LogReaders).hasClient
          endpoint socket other =
      if other = stack then (terminal.getD []).contains socket else readers.hasClient endpoint socket other := by
  unfold hasClient
  dsimp only
  by_cases same : other = stack
  · rw [if_pos same, same, Function.update_self]
  · rw [if_neg same, Function.update_of_ne fun equal => same (getCombinedTerminalName_inj equal)]

theorem hasClient_join (stack other : String) (client : Nat) (starts : Bool) :
    (readers.joinCombinedTerminal endpoint stack client starts).hasClient endpoint socket other = true →
      readers.hasClient endpoint socket other = true ∨ other = stack ∧ client = socket := by
  rw [joinCombinedTerminal, hasClient_update]
  by_cases same : other = stack
  · subst same
    rw [if_pos rfl, hasClient]
    cases readers.terminals (getCombinedTerminalName endpoint other) with
    | none =>
        cases starts with
        | true =>
            intro member
            exact .inr ⟨rfl, (List.mem_singleton.mp (List.contains_iff_mem.mp member)).symm⟩
        | false =>
            intro never
            cases never
    | some clients =>
        intro member
        obtain equal | earlier := List.mem_insert_iff.mp (List.contains_iff_mem.mp member)
        · exact .inr ⟨rfl, equal.symm⟩
        · exact .inl (List.contains_iff_mem.mpr earlier)
  · rw [if_neg same]
    exact .inl

theorem hasClient_joined (stack : String) :
    (readers.joinCombinedTerminal endpoint stack socket true).hasClient endpoint socket stack = true := by
  rw [joinCombinedTerminal, hasClient_update, if_pos rfl, List.contains_iff_mem]
  cases readers.terminals (getCombinedTerminalName endpoint stack) with
  | none => exact List.mem_singleton_self _
  | some clients => exact List.mem_insert_self

theorem hasClient_join_kept {other : String} (held : readers.hasClient endpoint socket other = true) (stack : String)
    (client : Nat) : (readers.joinCombinedTerminal endpoint stack client true).hasClient endpoint socket other = true := by
  rw [joinCombinedTerminal, hasClient_update]
  split
  next same =>
    rw [hasClient, same] at held
    cases found : readers.terminals (getCombinedTerminalName endpoint stack) with
    | none =>
        rw [found] at held
        cases held
    | some clients =>
        rw [found] at held
        exact List.contains_iff_mem.mpr (List.mem_insert_of_mem (List.contains_iff_mem.mp held))
  next => exact held

theorem hasClient_leave (stack other : String) (client : Nat) :
    (readers.leaveCombinedTerminal endpoint stack client).hasClient endpoint socket other = true ↔
      readers.hasClient endpoint socket other = true ∧ ¬(other = stack ∧ client = socket) := by
  rw [leaveCombinedTerminal, hasClient_update]
  by_cases same : other = stack
  · subst same
    rw [if_pos rfl, hasClient]
    cases readers.terminals (getCombinedTerminalName endpoint other) with
    | none => simp
    | some clients =>
        rw [Option.map_some, Option.getD_some, Option.getD_some, List.contains_iff_mem, List.contains_iff_mem,
          List.mem_filter, decide_eq_true_eq]
        apply and_congr_right
        intro _
        exact ⟨fun different both => different both.2.symm, fun never equal => never ⟨rfl, equal.symm⟩⟩
  · rw [if_neg same]
    exact (and_iff_left fun never => same never.1).symm

/-! ## Lookups -/

theorem settle_none {token : Nat} (missing : ∀ request ∈ readers.lookups, request.token ≠ token)
    (resolve : LogRequest → LogReaders → LogReaders) : readers.settle token resolve = readers := by
  have none_ : (readers.lookups.find? fun request => request.token = token) = none := by
    rw [List.find?_eq_none]
    intro request member
    rw [decide_eq_true_eq]
    exact missing request member
  rw [settle, none_]

theorem settle_some {request : LogRequest} (distinct : (readers.lookups.map LogRequest.token).Nodup)
    (member : request ∈ readers.lookups) (resolve : LogRequest → LogReaders → LogReaders) :
    readers.settle request.token resolve =
      resolve request { readers with lookups := readers.lookups.filter fun other => other.token ≠ request.token } := by
  have found : (readers.lookups.find? fun other => other.token = request.token) = some request := by
    cases found : readers.lookups.find? fun (other : LogRequest) => other.token = request.token with
    | none =>
        have never := List.find?_eq_none.mp found request member
        rw [decide_eq_true_eq] at never
        exact absurd rfl never
    | some other =>
        have met := List.find?_some found
        have same : other.token = request.token := of_decide_eq_true met
        rw [List.inj_on_of_nodup_map distinct (List.mem_of_find?_eq_some found) member same]
  rw [settle, found]

/-- Resolving a request touches no lookups, and nothing but the log it is about. -/
theorem continued_frame (request : LogRequest) (managed starts : Bool) :
    (readers.continued endpoint socket request managed starts).logJoins = readers.logJoins ∧
      (readers.continued endpoint socket request managed starts).lookups = readers.lookups ∧
      (readers.continued endpoint socket request managed starts).nextToken = readers.nextToken ∧
      (readers.continued endpoint socket request managed starts).connected = readers.connected ∧
      ∀ stack, stack ≠ request.stackName →
        (readers.continued endpoint socket request managed starts).hasClient endpoint socket stack =
          readers.hasClient endpoint socket stack := by
  unfold continued
  split
  next =>
    split
    next =>
      refine ⟨rfl, rfl, rfl, rfl, ?_⟩
      intro stack other
      rw [joinCombinedTerminal, hasClient_update, if_neg other]
    next => exact ⟨rfl, rfl, rfl, rfl, fun _ _ => rfl⟩
  next =>
    split
    next =>
      refine ⟨rfl, rfl, rfl, rfl, ?_⟩
      intro stack other
      rw [leaveCombinedTerminal, hasClient_update, if_neg other]
    next => exact ⟨rfl, rfl, rfl, rfl, fun _ _ => rfl⟩

end LogReaders

/-! ## One connected socket -/

theorem lastRequest_append (stackName : String) (history : List LogEvent) (event : LogEvent) :
    lastRequest stackName (history ++ [event]) = (event.asks stackName).or (lastRequest stackName history) :=
  List.foldl_concat _ _ _ _

/-- What a socket reads is what it asked for last, or a lookup for that is still on its way. -/
structure Following (endpoint : String) (socket : Nat) (history : List LogEvent) (readers : LogReaders) : Prop where
  distinct : (readers.lookups.map LogRequest.token).Nodup
  known : ∀ request ∈ readers.lookups, request.token < readers.nextToken
  connected : readers.connected = true
  joined : ∀ stack, lastRequest stack history = some true → ∃ token, readers.logJoins stack = some token ∧
    (readers.hasClient endpoint socket stack = true ∨ ⟨token, true, stack⟩ ∈ readers.lookups)
  left : ∀ stack, lastRequest stack history = some false → readers.logJoins stack = none ∧
    (readers.hasClient endpoint socket stack = false ∨ ∃ token, ⟨token, false, stack⟩ ∈ readers.lookups)
  unasked : ∀ stack, lastRequest stack history = none → readers.logJoins stack = none ∧
    readers.hasClient endpoint socket stack = false ∧ ∀ request ∈ readers.lookups, request.stackName ≠ stack

variable {history : List LogEvent}

theorem Following.request {after : LogReaders} {stack : String} {event : LogEvent}
    (following : Following endpoint socket history readers) (joins : Bool)
    (asks : ∀ other, event.asks other = if stack = other then some joins else none)
    (same : after.terminals = readers.terminals ∧ after.connected = readers.connected)
    (tokens : after.logJoins = Function.update readers.logJoins stack (if joins then some readers.nextToken else none))
    (next_ : after.nextToken = readers.nextToken + 1)
    (lookups : after.lookups = readers.lookups ++ [⟨readers.nextToken, joins, stack⟩]) :
    Following endpoint socket (history ++ [event]) after := by
  obtain ⟨terminals, connected⟩ := same
  have client (other : String) : after.hasClient endpoint socket other = readers.hasClient endpoint socket other :=
    LogReaders.hasClient_of_terminals terminals other
  have last (other : String) : lastRequest other (history ++ [event]) =
      if stack = other then some joins else lastRequest other history := by
    rw [lastRequest_append, asks]
    split <;> rfl
  have here : (⟨readers.nextToken, joins, stack⟩ : LogRequest) ∈ after.lookups := by
    rw [lookups]
    exact List.mem_append_right _ (List.mem_singleton_self _)
  have earlier {request : LogRequest} (member : request ∈ readers.lookups) : request ∈ after.lookups := by
    rw [lookups]
    exact List.mem_append_left _ member
  constructor
  · rw [lookups, List.map_append, List.map_singleton, List.nodup_append]
    refine ⟨following.distinct, List.nodup_singleton _, ?_⟩
    intro token member other single equal
    obtain ⟨request, inside, rfl⟩ := List.mem_map.mp member
    rw [List.mem_singleton.mp single] at equal
    exact absurd equal (Nat.ne_of_lt (following.known request inside))
  · intro request member
    rw [lookups, List.mem_append, List.mem_singleton] at member
    rw [next_]
    obtain inside | rfl := member
    · exact Nat.lt_succ_of_lt (following.known request inside)
    · exact Nat.lt_succ_self _
  · exact connected.trans following.connected
  · intro other asked
    rw [last] at asked
    rw [tokens, client]
    split at asked
    next equal =>
      subst equal
      rw [Option.some.inj asked] at here ⊢
      rw [Function.update_self, if_pos rfl]
      exact ⟨_, rfl, .inr here⟩
    next different =>
      rw [Function.update_of_ne (Ne.symm different)]
      obtain ⟨token, found, rest⟩ := following.joined other asked
      exact ⟨token, found, rest.imp_right earlier⟩
  · intro other asked
    rw [last] at asked
    rw [tokens, client]
    split at asked
    next equal =>
      subst equal
      rw [Option.some.inj asked] at here ⊢
      rw [Function.update_self, if_neg (by decide)]
      exact ⟨rfl, .inr ⟨_, here⟩⟩
    next different =>
      rw [Function.update_of_ne (Ne.symm different)]
      obtain ⟨found, rest⟩ := following.left other asked
      exact ⟨found, rest.imp_right fun ⟨token, inside⟩ => ⟨token, earlier inside⟩⟩
  · intro other asked
    rw [last] at asked
    split at asked
    next => cases asked
    next different =>
      obtain ⟨found, away, others⟩ := following.unasked other asked
      rw [tokens, client, Function.update_of_ne (Ne.symm different)]
      refine ⟨found, away, ?_⟩
      intro request member
      rw [lookups, List.mem_append, List.mem_singleton] at member
      obtain inside | rfl := member
      · exact others request inside
      · exact different

/-- Other sockets come and go. -/
theorem Following.keep {after : LogReaders} {event : LogEvent} (following : Following endpoint socket history readers)
    (asks : ∀ stack, event.asks stack = none)
    (same : after.logJoins = readers.logJoins ∧ after.nextToken = readers.nextToken ∧ after.lookups = readers.lookups ∧
      after.connected = readers.connected)
    (client : ∀ stack, after.hasClient endpoint socket stack = readers.hasClient endpoint socket stack) :
    Following endpoint socket (history ++ [event]) after := by
  obtain ⟨tokens, next_, lookups, connected⟩ := same
  have last (stack : String) : lastRequest stack (history ++ [event]) = lastRequest stack history := by
    rw [lastRequest_append, asks, Option.none_or]
  constructor
  · rw [lookups]
    exact following.distinct
  · rw [lookups, next_]
    exact following.known
  · exact connected.trans following.connected
  · intro stack
    rw [last, tokens, client, lookups]
    exact following.joined stack
  · intro stack
    rw [last, tokens, client, lookups]
    exact following.left stack
  · intro stack
    rw [last, tokens, client, lookups]
    exact following.unasked stack

theorem Following.resolve {request : LogRequest} {event : LogEvent}
    (following : Following endpoint socket history readers) (member : request ∈ readers.lookups)
    (asks : ∀ stack, event.asks stack = none) :
    Following endpoint socket (history ++ [event])
      (LogReaders.continued endpoint socket request true true
        { readers with lookups := readers.lookups.filter fun other => other.token ≠ request.token }) := by
  have last (stack : String) : lastRequest stack (history ++ [event]) = lastRequest stack history := by
    rw [lastRequest_append, asks, Option.none_or]
  have kept {other : LogRequest} (inside : other ∈ readers.lookups) (different : other ≠ request) :
      other ∈ readers.lookups.filter fun other => other.token ≠ request.token := by
    rw [List.mem_filter, decide_eq_true_eq]
    exact ⟨inside, fun same => different (List.inj_on_of_nodup_map following.distinct inside member same)⟩
  generalize found : { readers with lookups := readers.lookups.filter fun other => other.token ≠ request.token } = waiting
  obtain ⟨tokens, lookups, next_, connected, client⟩ :=
    @LogReaders.continued_frame endpoint socket waiting request true true
  have same : waiting.logJoins = readers.logJoins ∧ waiting.connected = true ∧ waiting.terminals = readers.terminals ∧
      waiting.nextToken = readers.nextToken ∧
      waiting.lookups = readers.lookups.filter fun other => other.token ≠ request.token := by
    rw [← found]
    exact ⟨rfl, following.connected, rfl, rfl, rfl⟩
  obtain ⟨tokens_, connected_, terminals_, token_, lookups_⟩ := same
  rw [← lookups_] at kept
  have client_ (stack : String) : waiting.hasClient endpoint socket stack = readers.hasClient endpoint socket stack :=
    LogReaders.hasClient_of_terminals terminals_ stack
  have fewer : waiting.lookups.Sublist readers.lookups := lookups_ ▸ List.filter_sublist
  constructor
  · rw [lookups]
    exact following.distinct.sublist (fewer.map LogRequest.token)
  · rw [lookups, next_, token_]
    exact fun other inside => following.known other (fewer.subset inside)
  · exact connected.trans connected_
  · intro stack asked
    rw [last] at asked
    obtain ⟨token, held, rest⟩ := following.joined stack asked
    rw [tokens, tokens_, lookups]
    refine ⟨token, held, ?_⟩
    by_cases here : stack = request.stackName
    · by_cases mine : (⟨token, true, stack⟩ : LogRequest) = request
      · left
        have joins : request.joins = true := by rw [← mine]
        have latest : waiting.logJoins request.stackName = some request.token := by rw [tokens_, ← mine, held]
        rw [LogReaders.continued, if_pos joins, latest, connected_, if_pos (by simp), here]
        exact LogReaders.hasClient_joined _
      · have unchanged : LogReaders.continued endpoint socket request true true waiting = waiting := by
          unfold LogReaders.continued
          rw [tokens_, ← here, held]
          split
          next joins =>
            rw [if_neg]
            intro both
            simp only [Bool.true_and, Bool.and_eq_true, decide_eq_true_eq, Option.some.injEq] at both
            apply mine
            obtain ⟨number, kind, name⟩ := request
            dsimp only at joins here both
            rw [joins, here, both.1]
          next => exact if_neg (Option.some_ne_none token)
        rw [unchanged, client_]
        exact rest.imp_right fun inside => kept inside mine
    · rw [client stack here, client_]
      exact rest.imp_right fun inside => kept inside fun same => here (by rw [← same])
  · intro stack asked
    rw [last] at asked
    obtain ⟨held, rest⟩ := following.left stack asked
    rw [tokens, tokens_, lookups]
    refine ⟨held, ?_⟩
    by_cases here : stack = request.stackName
    · cases joins : request.joins with
      | true =>
          have unchanged : LogReaders.continued endpoint socket request true true waiting = waiting := by
            rw [LogReaders.continued, if_pos joins, tokens_, ← here, held, if_neg (by simp)]
          rw [unchanged, client_]
          refine rest.imp_right ?_
          intro ⟨token, inside⟩
          refine ⟨token, kept inside ?_⟩
          intro same
          rw [← same] at joins
          cases joins
      | false =>
          left
          rw [LogReaders.continued, if_neg (by rw [joins]; decide), tokens_, ← here, if_pos held, ← Bool.not_eq_true,
            LogReaders.hasClient_leave]
          exact fun both => both.2 ⟨rfl, rfl⟩
    · rw [client stack here, client_]
      refine rest.imp_right ?_
      intro ⟨token, inside⟩
      exact ⟨token, kept inside fun same => here (by rw [← same])⟩
  · intro stack asked
    rw [last] at asked
    obtain ⟨held, away, others⟩ := following.unasked stack asked
    rw [tokens, tokens_, lookups, client stack (others request member).symm, client_]
    exact ⟨held, away, fun other inside => others other (fewer.subset inside)⟩

theorem Following.step {event : LogEvent} (following : Following endpoint socket history readers)
    (succeeds : event.succeeds = true) :
    Following endpoint socket (history ++ [event]) (readers.step endpoint socket event) := by
  cases event with
  | join stack =>
      refine following.request true (fun _ => rfl) ⟨rfl, rfl⟩ ?_ rfl rfl
      rw [if_pos rfl]
      rfl
  | leave stack =>
      refine following.request false (fun _ => rfl) ⟨rfl, rfl⟩ ?_ rfl rfl
      rw [if_neg (by decide)]
      rfl
  | resolves token managed starts =>
      rw [LogEvent.succeeds, Bool.and_eq_true] at succeeds
      obtain ⟨rfl, rfl⟩ := succeeds
      rw [LogReaders.step]
      by_cases there : ∃ request ∈ readers.lookups, request.token = token
      · obtain ⟨request, member, rfl⟩ := there
        rw [LogReaders.settle_some following.distinct member]
        exact following.resolve member fun _ => rfl
      · push Not at there
        rw [LogReaders.settle_none there]
        exact following.keep (fun _ => rfl) ⟨rfl, rfl, rfl, rfl⟩ fun _ => rfl
  | fails token => cases succeeds
  | disconnects => cases succeeds
  | exits stack => cases succeeds
  | others stack client joins =>
      rw [LogReaders.step]
      split
      next => exact following.keep (fun _ => rfl) ⟨rfl, rfl, rfl, rfl⟩ fun _ => rfl
      next other =>
        split
        next =>
          refine following.keep (fun _ => rfl) ⟨rfl, rfl, rfl, rfl⟩ ?_
          intro name
          rw [Bool.eq_iff_iff]
          constructor
          · intro held
            exact (LogReaders.hasClient_join stack name client true held).resolve_right fun both => other both.2
          · exact fun held => LogReaders.hasClient_join_kept held stack client
        next =>
          refine following.keep (fun _ => rfl) ⟨rfl, rfl, rfl, rfl⟩ ?_
          intro name
          rw [Bool.eq_iff_iff, LogReaders.hasClient_leave]
          exact and_iff_left fun both => other both.2

theorem following (endpoint : String) (socket : Nat) (history : List LogEvent)
    (succeed : ∀ event ∈ history, event.succeeds = true) :
    Following endpoint socket history (replay (LogReaders.step endpoint socket) {} history) := by
  induction history using List.reverseRecOn with
  | nil =>
      refine ⟨List.nodup_nil, fun _ never => (by cases never), rfl, fun _ never => (by cases never),
        fun _ never => (by cases never), fun _ _ => ⟨rfl, rfl, fun _ never => (by cases never)⟩⟩
  | append_singleton past event ih =>
      rw [List.forall_mem_append, List.forall_mem_singleton] at succeed
      rw [replay_append, replay_cons, replay_nil]
      exact (ih succeed.1).step succeed.2

/-! ## A socket that is gone -/

theorem step_disconnected (event : LogEvent) (gone : readers.connected = false) :
    (readers.step endpoint socket event).connected = false ∧ ∀ stack,
      (readers.step endpoint socket event).hasClient endpoint socket stack = true →
        readers.hasClient endpoint socket stack = true := by
  cases event with
  | join stack => exact ⟨gone, fun _ held => held⟩
  | leave stack => exact ⟨gone, fun _ held => held⟩
  | resolves token managed starts =>
      rw [LogReaders.step, LogReaders.settle]
      split
      next => exact ⟨gone, fun _ held => held⟩
      next request _ =>
        refine ⟨(LogReaders.continued_frame request managed starts).2.2.2.1.trans gone, ?_⟩
        intro stack held
        rw [LogReaders.continued] at held
        split at held
        next =>
          rw [if_neg (by rw [gone, Bool.and_false]; decide)] at held
          exact held
        next =>
          split at held
          next => exact ((LogReaders.hasClient_leave _ _ _).mp held).1
          next => exact held
  | fails token =>
      rw [LogReaders.step, LogReaders.settle]
      split <;> exact ⟨gone, fun _ held => held⟩
  | disconnects => exact ⟨rfl, fun _ held => held⟩
  | exits stack =>
      refine ⟨gone, ?_⟩
      intro other held
      rw [LogReaders.step, LogReaders.hasClient_update] at held
      split at held
      next => cases held
      next => exact held
  | others stack client joins =>
      rw [LogReaders.step]
      split
      next => exact ⟨gone, fun _ held => held⟩
      next other =>
        split
        next =>
          refine ⟨gone, ?_⟩
          intro name held
          exact (LogReaders.hasClient_join stack name client true held).resolve_right fun both => other both.2
        next => exact ⟨gone, fun _ held => ((LogReaders.hasClient_leave _ _ _).mp held).1⟩

theorem replay_disconnected (later : List LogEvent) (gone : readers.connected = false) (stack : String)
    (held : (replay (LogReaders.step endpoint socket) readers later).hasClient endpoint socket stack = true) :
    readers.hasClient endpoint socket stack = true := by
  induction later generalizing readers with
  | nil => exact held
  | cons event rest ih =>
      obtain ⟨still, earlier⟩ := @step_disconnected endpoint socket readers event gone
      exact earlier stack (ih still held)

/-- The last request for a stack decides who reads its log, and a socket that is gone is attached to nothing. -/
theorem last_request_decides (endpoint : String) (socket : Nat) (history : List LogEvent) :
    ((∀ event ∈ history, event.succeeds = true) →
        (replay (LogReaders.step endpoint socket) {} history).lookups = [] →
        ∀ stack, (replay (LogReaders.step endpoint socket) {} history).hasClient endpoint socket stack = true ↔
          lastRequest stack history = some true) ∧
      ∀ before after stack, history = before ++ after →
        (replay (LogReaders.step endpoint socket) {} before).connected = false →
        (replay (LogReaders.step endpoint socket) {} history).hasClient endpoint socket stack = true →
        (replay (LogReaders.step endpoint socket) {} before).hasClient endpoint socket stack = true := by
  constructor
  · intro succeed settled stack
    have held := following endpoint socket history succeed
    cases last : lastRequest stack history with
    | none =>
        rw [(held.unasked stack last).2.1]
        exact ⟨fun never => (by cases never), fun never => (by cases never)⟩
    | some joins =>
        cases joins with
        | true =>
            obtain ⟨token, -, attached | waiting⟩ := held.joined stack last
            · exact ⟨fun _ => rfl, fun _ => attached⟩
            · rw [settled] at waiting
              cases waiting
        | false =>
            obtain ⟨-, away | ⟨token, waiting⟩⟩ := held.left stack last
            · rw [away]
              exact ⟨fun never => (by cases never), fun never => (by cases never)⟩
            · rw [settled] at waiting
              cases waiting
  · intro before after stack same gone attached
    rw [same, replay_append] at attached
    exact replay_disconnected after gone stack attached

end Dockge.Terminals
