import Dockge.Mcp.Audit
import Mathlib.Algebra.Order.BigOperators.Group.List

namespace Dockge.Mcp.Audit

open Data

/-! What the rows of a key add up to when a flush has resolved. -/

namespace Group

/-- The attempts that a write on its way brings into the row -/
def carried (group : Group) : Option Nat :=
  match group.stage with
  | .idle => none
  | .sent attempts _ => some attempts
  | .executed attempts => some attempts
  | .pruning attempts => some attempts

/-- The row of a group, which holds what was written, or what is being written -/
def Filed (group : Group) : Prop :=
  match group.stage with
  | .executed attempts => (group.id = none ∨ group.id = some 0) ∧ ∃ at_, group.rows = [{ at_, attempts }]
  | .pruning attempts => group.id = some 0 ∧ ∃ at_, group.rows = [{ at_, attempts }]
  | _ => group.id = none ∧ group.rows = [] ∧ group.written = 0 ∨
      group.id = some 0 ∧ ∃ at_, group.rows = [{ at_, attempts := group.written }]

structure Sound (group : Group) : Prop where
  finished : group.finished ≤ group.chain.length
  runs : group.stage ≠ .idle → group.finished < group.chain.length
  written : group.written ≤ group.attempts
  /-- Nothing was counted since the last link was added, unless there is a timer. -/
  last : group.timer = false → group.chain.getLast? = some group.attempts
  added : ∀ attempts ∈ group.chain, attempts ≤ group.attempts
  covered : ∀ index attempts, group.chain[index]? = some attempts → index < group.finished → attempts ≤ group.written
  carried : ∀ attempts, group.carried = some attempts → group.written ≤ attempts ∧ attempts ≤ group.attempts ∧
    ∀ counted, group.chain[group.finished]? = some counted → counted ≤ attempts
  filed : group.Filed

/-- What a step can have done to a group -/
structure Grows (before after : Group) : Prop where
  key : after.key = before.key
  attempts : before.attempts ≤ after.attempts
  logged : before.logged ≤ after.logged
  chain : before.chain <+: after.chain

variable {group after : Group}

theorem Sound.rows (sound : group.Sound) : group.rows.length ≤ 1 ∧ group.written ≤ group.logged ∧ group.logged ≤ group.attempts := by
  have filed := sound.filed
  have carried := sound.carried
  have bound := sound.written
  unfold Filed at filed
  unfold Group.carried at carried
  unfold logged
  cases stage : group.stage with
  | idle | sent =>
      simp only [stage] at filed
      obtain ⟨-, none_, zero⟩ | ⟨-, at_, one⟩ := filed
      · simp [none_, zero]
      · simp [one, bound]
  | executed attempts | pruning attempts =>
      simp only [stage] at filed carried
      obtain ⟨-, at_, one⟩ := filed
      obtain ⟨least, most, -⟩ := carried attempts rfl
      simp [one, least, most]

theorem Grows.refl (group : Group) : Grows group group :=
  ⟨rfl, Nat.le_refl _, Nat.le_refl _, List.prefix_refl _⟩

/-- It stays sound, and grows. -/
def Moves (before after : Group) : Prop := before.Sound → after.Sound ∧ Grows before after

theorem Moves.refl (group : Group) : Moves group group := fun sound => ⟨sound, Grows.refl group⟩

theorem count_moves (group : Group) (now : Int) : Moves group (group.count now) := by
  intro sound
  refine ⟨⟨sound.finished, sound.runs, Nat.le_succ_of_le sound.written, nofun, ?_, sound.covered, ?_, sound.filed⟩,
    ⟨rfl, Nat.le_succ _, Nat.le_refl _, List.prefix_refl _⟩⟩
  · exact fun attempts member => Nat.le_succ_of_le (sound.added attempts member)
  · intro attempts found
    obtain ⟨least, most, rest⟩ := sound.carried attempts found
    exact ⟨least, Nat.le_succ_of_le most, rest⟩

theorem enqueue_moves (group : Group) : Moves group group.enqueue := by
  intro sound
  have earlier {index attempts : Nat} (found : (group.chain ++ [group.attempts])[index]? = some attempts)
      (within : index < group.chain.length) : group.chain[index]? = some attempts := by
    rw [List.getElem?_append_left within] at found
    exact found
  refine ⟨⟨?_, ?_, sound.written, fun _ => List.getLast?_concat, ?_, ?_, ?_, sound.filed⟩,
    ⟨rfl, Nat.le_refl _, Nat.le_refl _, List.prefix_append _ _⟩⟩
  · exact Nat.le_trans sound.finished (by simp [enqueue])
  · intro busy
    exact Nat.lt_of_lt_of_le (sound.runs busy) (by simp [enqueue])
  · intro attempts member
    obtain held | same := List.mem_append.mp member
    · exact sound.added attempts held
    · exact Nat.le_of_eq (List.mem_singleton.mp same)
  · intro index attempts found within
    exact sound.covered index attempts (earlier found (Nat.lt_of_lt_of_le within sound.finished)) within
  · intro attempts found
    obtain ⟨least, most, rest⟩ := sound.carried attempts found
    refine ⟨least, most, fun counted next => rest counted (earlier next (sound.runs fun idle => ?_))⟩
    have none_ : group.carried = none := by rw [Group.carried, idle]
    exact absurd (found.symm.trans none_) nofun

theorem fires_moves (group : Group) : Moves group group.fires := by
  unfold fires
  split
  · exact enqueue_moves group
  · exact Moves.refl group

theorem begins_moves (group : Group) : Moves group group.begins := by
  intro sound
  unfold begins
  split
  next ready =>
    obtain ⟨idle, more⟩ := ready
    have filed := sound.filed
    simp only [Filed, idle] at filed
    split
    next same =>
      refine ⟨⟨more, fun busy => absurd rfl busy, sound.written, sound.last, sound.added, ?_, nofun, filed⟩,
        ⟨rfl, Nat.le_refl _, Nat.le_refl _, List.prefix_refl _⟩⟩
      intro index attempts found _
      have bound := sound.added attempts (List.mem_of_getElem? found)
      show attempts ≤ group.written
      rw [same]
      exact bound
    next =>
      refine ⟨⟨sound.finished, fun _ => more, sound.written, sound.last, sound.added, sound.covered, ?_, filed⟩,
        ⟨rfl, Nat.le_refl _, Nat.le_refl _, List.prefix_refl _⟩⟩
      intro attempts found
      obtain rfl : group.attempts = attempts := Option.some.inj found
      exact ⟨sound.written, Nat.le_refl _, fun counted next => sound.added counted (List.mem_of_getElem? next)⟩
  next => exact ⟨sound, Grows.refl group⟩

theorem executes_eq {attempts : Nat} {at_ : Int} (stage : group.stage = .sent attempts at_) (filed : group.Filed) :
    group.executes = { group with stage := .executed attempts, rows := [{ at_, attempts }] } := by
  simp only [Filed, stage] at filed
  obtain ⟨given, none_, -⟩ | ⟨given, before, row⟩ := filed
  · simp [executes, stage, given, none_]
  · simp [executes, stage, given, row]

theorem executes_moves (group : Group) : Moves group group.executes := by
  intro sound
  cases stage : group.stage with
  | idle | executed | pruning =>
      have same : group.executes = group := by simp [executes, stage]
      rw [same]
      exact ⟨sound, Grows.refl group⟩
  | sent attempts at_ =>
      have carried := sound.carried attempts (by rw [Group.carried, stage])
      have busy := sound.runs (by rw [stage]; nofun)
      rw [executes_eq stage sound.filed]
      have filed := sound.filed
      simp only [Filed, stage] at filed
      refine ⟨⟨sound.finished, fun _ => busy, sound.written, sound.last, sound.added, sound.covered, ?_, ?_⟩,
        ⟨rfl, Nat.le_refl _, ?_, List.prefix_refl _⟩⟩
      · intro other found
        obtain rfl : attempts = other := Option.some.inj found
        exact carried
      · obtain ⟨given, -⟩ | ⟨given, -⟩ := filed
        · exact ⟨.inl given, at_, rfl⟩
        · exact ⟨.inr given, at_, rfl⟩
      · obtain ⟨-, none_, -⟩ | ⟨-, before, row⟩ := filed
        · simp [logged, none_]
        · simpa [logged, row] using carried.1

theorem ends_moves {attempts : Nat} (carries : group.carried = some attempts) (given : group.id = some 0)
    (row : ∃ at_, group.rows = [{ at_, attempts }]) : Moves group (group.ends attempts) := by
  intro sound
  obtain ⟨least, most, counted⟩ := sound.carried attempts carries
  have busy : group.finished < group.chain.length := by
    refine sound.runs fun idle => ?_
    have none_ : group.carried = none := by rw [Group.carried, idle]
    exact absurd (carries.symm.trans none_) nofun
  refine ⟨⟨busy, fun busy => absurd rfl busy, most, sound.last, sound.added, ?_, nofun, .inr ⟨given, row⟩⟩,
    ⟨rfl, Nat.le_refl _, Nat.le_refl _, List.prefix_refl _⟩⟩
  intro index other found within
  obtain earlier | same := Nat.lt_succ_iff_lt_or_eq.mp within
  · exact Nat.le_trans (sound.covered index other found earlier) least
  · exact counted other (same ▸ found)

theorem answered_moves (group : Group) : Moves group group.answered := by
  unfold answered
  split
  next attempts stage =>
    intro sound
    have filed := sound.filed
    simp only [Filed, stage] at filed
    obtain ⟨ids, at_, row⟩ := filed
    have carries : group.carried = some attempts := by rw [Group.carried, stage]
    split
    next fresh =>
      refine ⟨⟨sound.finished, fun _ => sound.runs (by rw [stage]; nofun), sound.written, sound.last, sound.added,
        sound.covered, fun other found => ?_, ?_⟩, ⟨rfl, Nat.le_refl _, Nat.le_refl _, List.prefix_refl _⟩⟩
      · obtain rfl : attempts = other := Option.some.inj found
        exact sound.carried attempts carries
      · exact ⟨by simp [row], at_, row⟩
    next number given =>
      obtain none_ | zero := ids
      · rw [given] at none_
        cases none_
      · exact ends_moves carries zero ⟨at_, row⟩ sound
  next => exact Moves.refl group

theorem pruned_moves (group : Group) : Moves group group.pruned := by
  unfold pruned
  split
  next attempts stage =>
    intro sound
    have filed := sound.filed
    simp only [Filed, stage] at filed
    obtain ⟨given, row⟩ := filed
    exact ends_moves (by rw [Group.carried, stage]) given row sound
  next => exact Moves.refl group

theorem new_sound (key : String) (now : Int) : (Group.count { key, startedAt := now, lastAt := now } now).Sound where
  finished := Nat.le_refl _
  runs busy := absurd rfl busy
  written := Nat.zero_le _
  last never := by cases never
  added _ member := by cases member
  covered _ _ found := by simp [count, schedule] at found
  carried _ found := by cases found
  filed := .inl ⟨rfl, rfl, rfl⟩

end Group

/-! ## Totals -/

section

variable {groups later : List Group} {key : String} {amount other : Group → Nat}

theorem total_cons (group : Group) (groups : List Group) (key : String) (amount : Group → Nat) :
    total key amount (group :: groups) = (if group.key = key then amount group else 0) + total key amount groups := by
  rw [total, List.map_cons, List.sum_cons, total]

/-- Groups that were there before are found again, with no less. -/
theorem total_le (found : ∀ (index : Nat) (before : Group), groups[index]? = some before → ∃ after : Group, later[index]? = some after ∧
    after.key = before.key ∧ amount before ≤ other after) : total key amount groups ≤ total key other later := by
  induction groups generalizing later with
  | nil => exact Nat.zero_le _
  | cons group rest ih =>
      obtain ⟨after, first, same, least⟩ := found 0 group rfl
      cases later with
      | nil => cases first
      | cons head tail =>
          obtain rfl : head = after := Option.some.inj first
          rw [total_cons, total_cons, same]
          have more := @ih tail fun index before held => found (index + 1) before held
          split
          · exact Nat.add_le_add least more
          · exact Nat.add_le_add (Nat.le_refl 0) more

theorem total_modify {index : Nat} {update : Group → Group} {group : Group} (found : groups[index]? = some group)
    (same : (update group).key = group.key) (more : Nat) (amount_ : amount (update group) = amount group + more) :
    total key amount (groups.modify index update) = total key amount groups + if group.key = key then more else 0 := by
  induction groups generalizing index with
  | nil => cases found
  | cons head rest ih =>
      cases index with
      | zero =>
          obtain rfl : head = group := Option.some.inj found
          rw [List.modify_zero_cons, total_cons, total_cons, same, amount_]
          split <;> omega
      | succ index =>
          rw [List.modify_succ_cons, total_cons, total_cons, ih found]
          omega

theorem total_append (group : Group) : total key amount (groups ++ [group]) =
    total key amount groups + if group.key = key then amount group else 0 := by
  induction groups with
  | nil => simp [total]
  | cons head rest ih =>
      rw [List.cons_append, total_cons, total_cons, ih]
      omega

end

/-! ## The log -/

/-- What a flush has seen is in the rows, or in a link of a chain it waits for. -/
structure Flush.Sound (flush : Flush) (log : Log) : Prop where
  calls : ∀ key, flush.calls key ≤ log.calls key
  seen : ∀ key, flush.calls key = total key Group.attempts flush.seen
  kept : ∀ (index : Nat) (before : Group), flush.seen[index]? = some before → ∃ group : Group, log.groups[index]? = some group ∧
    group.key = before.key ∧ (before.attempts ≤ group.logged ∨
      ∃ place counted, (index, place + 1) ∈ flush.waits ∧ group.chain[place]? = some counted ∧ before.attempts ≤ counted)

structure Log.Sound (log : Log) : Prop where
  groups : ∀ group ∈ log.groups, group.Sound
  current : ∀ entry ∈ log.current, ∃ group : Group, log.groups[entry.2]? = some group ∧ group.key = entry.1
  calls : ∀ key, total key Group.attempts log.groups ≤ log.calls key

/-- Every call was counted, and every flush can be relied on. -/
structure Log.Counted (log : Log) : Prop where
  all : ∀ key, total key Group.attempts log.groups = log.calls key
  flushes : ∀ flush ∈ log.flushes, flush.Sound log

/-- There is room for the group of a key, and whatever is not in its row belongs to a group that is still to write. -/
def Settled (log : Log) : Event → Prop
  | .record key now =>
      ((log.current.lookup key).filter (log.live now)).isSome = true ∨
        (log.current.filter fun entry => log.live now entry.2).length < maxGroups
  | .flush => ∀ group ∈ log.groups, group.unwritten = false → group.attempts ≤ group.logged
  | _ => True

variable {log : Log} {index : Nat}

theorem Log.change_get (log : Log) (index other : Nat) (update : Group → Group) :
    (log.change index update).groups[other]? =
      if index = other then log.groups[other]?.map update else log.groups[other]? := by
  rw [change, List.getElem?_modify]
  split <;> simp_all

/-- Where a group is changed, every group is found again. -/
theorem change_grows (sound : log.Sound) {update : Group → Group} (moves : ∀ group : Group, group.Moves (update group))
    {other : Nat} {before : Group} (found : log.groups[other]? = some before) :
    ∃ after, (log.change index update).groups[other]? = some after ∧ after.Sound ∧ before.Grows after := by
  rw [Log.change_get, found]
  have held := sound.groups before (List.mem_of_getElem? found)
  split
  · exact ⟨update before, rfl, moves before held⟩
  · exact ⟨before, rfl, held, Group.Grows.refl before⟩

theorem change_cases {update : Group → Group} {group : Group} (member : group ∈ (log.change index update).groups) :
    group ∈ log.groups ∨ ∃ before ∈ log.groups, group = update before := by
  obtain ⟨other, found⟩ := List.mem_iff_getElem?.mp member
  rw [Log.change_get] at found
  split at found
  · obtain ⟨before, held, same⟩ := Option.map_eq_some_iff.mp found
    exact .inr ⟨before, List.mem_of_getElem? held, same.symm⟩
  · exact .inl (List.mem_of_getElem? found)

/-- Groups that are found again keep what a flush has seen. -/
theorem Flush.Sound.grows {flush : Flush} {later : Log} (sound : flush.Sound log) (calls : ∀ key, log.calls key ≤ later.calls key)
    (found : ∀ (index : Nat) (before : Group), log.groups[index]? = some before →
      ∃ after : Group, later.groups[index]? = some after ∧ before.Grows after) :
    flush.Sound later where
  calls key := Nat.le_trans (sound.calls key) (calls key)
  seen := sound.seen
  kept index before listed := by
    obtain ⟨group, held, key, covered⟩ := sound.kept index before listed
    obtain ⟨after, held_, grows⟩ := found index group held
    refine ⟨after, held_, grows.key.trans key, ?_⟩
    obtain logged | ⟨place, counted, waits, link, least⟩ := covered
    · exact .inl (Nat.le_trans logged grows.logged)
    · obtain ⟨rest, same⟩ := grows.chain
      have within := (List.getElem?_eq_some_iff.mp link).1
      refine .inr ⟨place, counted, waits, ?_, least⟩
      rw [← same, List.getElem?_append_left within]
      exact link

/-- A group that writes neither counts nor forgets what was counted. -/
theorem change_sound (sound : log.Sound) {update : Group → Group} (moves : ∀ group : Group, group.Moves (update group))
    (same : ∀ group : Group, (update group).attempts = group.attempts) : (log.change index update).Sound where
  groups group member := by
    obtain held | ⟨before, held, rfl⟩ := change_cases member
    · exact sound.groups group held
    · exact (moves before (sound.groups before held)).1
  current entry listed := by
    obtain ⟨group, found, key⟩ := sound.current entry listed
    obtain ⟨after, found_, -, grows⟩ := @change_grows _ index sound _ moves _ _ found
    exact ⟨after, found_, grows.key.trans key⟩
  calls key := by
    refine Nat.le_trans ?_ (sound.calls key)
    refine total_le fun other after found => ?_
    rw [Log.change_get] at found
    split at found
    · obtain ⟨before, held, rfl⟩ := Option.map_eq_some_iff.mp found
      have moved := (moves before (sound.groups before (List.mem_of_getElem? held))).2
      exact ⟨before, held, moved.key.symm, Nat.le_of_eq (same before)⟩
    · exact ⟨after, found, rfl, Nat.le_refl _⟩

theorem change_counted (sound : log.Sound) (counted : log.Counted) {update : Group → Group}
    (moves : ∀ group : Group, group.Moves (update group)) (same : ∀ group : Group, (update group).attempts = group.attempts) :
    (log.change index update).Counted where
  all key := by
    refine Nat.le_antisymm ((change_sound sound moves same).calls key) ?_
    rw [show (log.change index update).calls = log.calls from rfl, ← counted.all key]
    refine total_le fun other before found => ?_
    obtain ⟨after, found_, -, grows⟩ := @change_grows _ index sound _ moves _ _ found
    exact ⟨after, found_, grows.key, grows.attempts⟩
  flushes flush listed := by
    refine (counted.flushes flush listed).grows (fun _ => Nat.le_refl _) fun other before found => ?_
    obtain ⟨after, found_, -, grows⟩ := @change_grows _ index sound _ moves _ _ found
    exact ⟨after, found_, grows⟩

/-! ## Recording and flushing -/

theorem called_sound (sound : log.Sound) (key : String) : (log.called key).Sound where
  groups := sound.groups
  current := sound.current
  calls other := Nat.le_trans (sound.calls other) (Nat.le_add_right _ _)

/-- A repeat of a key is counted in a group of that key. -/
theorem count_total {key : String} {now : Int} {group : Group} (found : log.groups[index]? = some group)
    (own : group.key = key) (other : String) :
    total other Group.attempts ((log.called key).change index (·.count now)).groups =
      total other Group.attempts log.groups + if other = key then 1 else 0 := by
  have more := @total_modify log.groups other Group.attempts index (·.count now) group found rfl 1 rfl
  rw [own] at more
  simp only [eq_comm (a := other)]
  exact more

/-- What a call of `recordMcpRepeated` can have done -/
theorem record_cases (log : Log) (key : String) (now : Int) :
    (∃ index, (log.current.lookup key).filter (log.live now) = some index ∧
      log.recordMcpRepeated key now = (log.called key).change index (·.count now)) ∨
    ((log.current.lookup key).filter (log.live now) = none ∧ ∃ current, (∀ entry ∈ current, entry ∈ log.current) ∧
      (current = log.current.filter fun entry => log.live now entry.2) ∧
      (maxGroups ≤ current.length ∧ log.recordMcpRepeated key now = { log.called key with current } ∨
        current.length < maxGroups ∧ log.recordMcpRepeated key now =
          { log.called key with
            current := current ++ [(key, log.groups.length)]
            groups := log.groups ++ [Group.count { key, startedAt := now, lastAt := now } now] })) := by
  cases found : (log.current.lookup key).filter (log.live now) with
  | some index =>
      refine .inl ⟨index, rfl, ?_⟩
      have same : ((log.called key).current.lookup key).filter ((log.called key).live now) = some index := found
      simp only [Log.recordMcpRepeated, same]
  | none =>
      have same : ((log.called key).current.lookup key).filter ((log.called key).live now) = none := found
      refine .inr ⟨rfl, _, fun entry member => List.mem_of_mem_filter member, rfl, ?_⟩
      simp only [Log.recordMcpRepeated, same]
      by_cases full : maxGroups ≤ (log.current.filter fun entry => log.live now entry.2).length
      · exact .inl ⟨full, if_pos full⟩
      · exact .inr ⟨Nat.lt_of_not_le full, if_neg full⟩

/-- The group a key is counted in is one of that key. -/
theorem current_own (sound : log.Sound) {key : String} {now : Int}
    (found : (log.current.lookup key).filter (log.live now) = some index) :
    ∃ group, log.groups[index]? = some group ∧ group.key = key := by
  obtain ⟨front, back, same, -⟩ := List.lookup_eq_some_iff.mp (Option.eq_some_of_filter_eq_some found)
  exact sound.current (key, index) (same ▸ List.mem_append_right front List.mem_cons_self)

theorem new_found (log : Log) (key : String) (now : Int) {other : Nat} {before : Group} (found : log.groups[other]? = some before) :
    (log.groups ++ [Group.count { key, startedAt := now, lastAt := now } now])[other]? = some before := by
  have within := (List.getElem?_eq_some_iff.mp found).1
  rw [List.getElem?_append_left within]
  exact found

theorem record_sound (sound : log.Sound) (key : String) (now : Int) : (log.recordMcpRepeated key now).Sound := by
  have called := called_sound sound key
  obtain ⟨index, found, same⟩ | ⟨-, current, within, -, ⟨-, same⟩ | ⟨-, same⟩⟩ := record_cases log key now
  · obtain ⟨group, held, own⟩ := current_own sound found
    rw [same]
    constructor
    · intro after member
      obtain held | ⟨before, held, rfl⟩ := change_cases member
      · exact sound.groups after held
      · exact (Group.count_moves before now (sound.groups before held)).1
    · intro entry listed
      obtain ⟨before, found, key_⟩ := sound.current entry listed
      obtain ⟨after, found_, -, grows⟩ := @change_grows _ index called _ (Group.count_moves · now) _ _ found
      exact ⟨after, found_, grows.key.trans key_⟩
    · intro other
      rw [count_total held own]
      exact Nat.add_le_add_right (sound.calls other) _
  · rw [same]
    exact ⟨sound.groups, fun entry member => sound.current entry (within entry member), called.calls⟩
  · rw [same]
    constructor
    · intro group member
      obtain held | new := List.mem_append.mp member
      · exact sound.groups group held
      · rw [List.mem_singleton.mp new]
        exact Group.new_sound key now
    · intro entry listed
      obtain held | new := List.mem_append.mp listed
      · obtain ⟨before, found, key_⟩ := sound.current entry (within entry held)
        exact ⟨before, new_found log key now found, key_⟩
      · rw [List.mem_singleton.mp new]
        exact ⟨_, List.getElem?_concat_length, rfl⟩
    · intro other
      show total other Group.attempts (log.groups ++ [_]) ≤ log.calls other + if other = key then 1 else 0
      rw [total_append]
      refine Nat.add_le_add (sound.calls other) (Nat.le_of_eq ?_)
      simp only [eq_comm (a := other)]
      rfl

theorem record_counted (sound : log.Sound) (counted : log.Counted) {key : String} {now : Int}
    (settled : Settled log (.record key now)) : (log.recordMcpRepeated key now).Counted := by
  have more (other : String) : log.calls other ≤ (log.called key).calls other := Nat.le_add_right _ _
  obtain ⟨index, found, same⟩ | ⟨none_, current, -, rooms, ⟨full, -⟩ | ⟨-, same⟩⟩ := record_cases log key now
  · obtain ⟨group, held, own⟩ := current_own sound found
    rw [same]
    constructor
    · intro other
      rw [count_total held own, counted.all other]
      rfl
    · intro flush listed
      refine (counted.flushes flush listed).grows more fun other before found => ?_
      obtain ⟨after, found_, -, grows⟩ := @change_grows _ index (called_sound sound key) _ (Group.count_moves · now) _ _ found
      exact ⟨after, found_, grows⟩
  · obtain some_ | room := settled
    · rw [none_] at some_
      cases some_
    · rw [rooms] at full
      exact absurd room (Nat.not_lt.mpr full)
  · rw [same]
    constructor
    · intro other
      show total other Group.attempts (log.groups ++ [_]) = log.calls other + if other = key then 1 else 0
      rw [total_append, counted.all other]
      simp only [eq_comm (a := other)]
      rfl
    · intro flush listed
      refine (counted.flushes flush listed).grows more fun other before found => ?_
      exact ⟨before, new_found log key now found, Group.Grows.refl before⟩

/-- What a flush does to one group -/
def flushed (group : Group) : Group := if group.unwritten then group.fires else group

theorem flushed_moves (group : Group) : group.Moves (flushed group) := by
  unfold flushed
  split
  · exact Group.fires_moves group
  · exact Group.Moves.refl group

theorem fires_attempts (group : Group) : group.fires.attempts = group.attempts ∧ group.fires.unwritten = group.unwritten := by
  unfold Group.fires
  split
  · exact ⟨rfl, rfl⟩
  · exact ⟨rfl, rfl⟩

theorem flushed_attempts (group : Group) : (flushed group).attempts = group.attempts := by
  unfold flushed
  split
  · exact (fires_attempts group).1
  · rfl

theorem flush_get (log : Log) (index : Nat) : log.flushMcpAudit.groups[index]? = log.groups[index]?.map flushed :=
  List.getElem?_map

theorem flush_sound (sound : log.Sound) : log.flushMcpAudit.Sound where
  groups group member := by
    obtain ⟨before, held, rfl⟩ := List.mem_map.mp member
    exact (flushed_moves before (sound.groups before held)).1
  current entry listed := by
    obtain ⟨group, found, key⟩ := sound.current entry listed
    have moved := (flushed_moves group (sound.groups group (List.mem_of_getElem? found))).2
    exact ⟨flushed group, by rw [flush_get, found]; rfl, moved.key.trans key⟩
  calls key := by
    refine Nat.le_trans ?_ (sound.calls key)
    refine total_le fun other after found => ?_
    rw [flush_get] at found
    obtain ⟨before, held, rfl⟩ := Option.map_eq_some_iff.mp found
    have moved := (flushed_moves before (sound.groups before (List.mem_of_getElem? held))).2
    exact ⟨before, held, moved.key.symm, Nat.le_of_eq (flushed_attempts before)⟩

/-- A group that is still to write has its count in the last link of its chain once its timer is taken. -/
theorem fires_last {group : Group} (sound : group.Sound) :
    ∃ place, group.fires.chain.length = place + 1 ∧ group.fires.chain[place]? = some group.attempts := by
  have last : group.fires.chain.getLast? = some group.attempts := by
    unfold Group.fires
    split
    · exact List.getLast?_concat
    next none_ => exact sound.last (Bool.eq_false_iff.mpr none_)
  have some_ : group.fires.chain ≠ [] := by
    intro none_
    rw [none_] at last
    cases last
  obtain ⟨place, length⟩ := Nat.exists_eq_succ_of_ne_zero (List.length_pos_iff.mpr some_).ne'
  refine ⟨place, length, ?_⟩
  rw [List.getLast?_eq_getElem?, length] at last
  exact last

theorem flush_counted (sound : log.Sound) (counted : log.Counted) (settled : Settled log .flush) :
    log.flushMcpAudit.Counted := by
  have grows (index : Nat) (before : Group) (found : log.groups[index]? = some before) :
      log.flushMcpAudit.groups[index]? = some (flushed before) ∧ before.Grows (flushed before) :=
    ⟨by rw [flush_get, found]; rfl, (flushed_moves before (sound.groups before (List.mem_of_getElem? found))).2⟩
  constructor
  · intro key
    refine Nat.le_antisymm ((flush_sound sound).calls key) ?_
    rw [show log.flushMcpAudit.calls = log.calls from rfl, ← counted.all key]
    refine total_le fun index before found => ?_
    obtain ⟨found_, grown⟩ := grows index before found
    exact ⟨flushed before, found_, grown.key, grown.attempts⟩
  · intro flush listed
    obtain held | new := List.mem_append.mp listed
    · refine (counted.flushes flush held).grows (fun _ => Nat.le_refl _) fun index before found => ?_
      obtain ⟨found_, grown⟩ := grows index before found
      exact ⟨flushed before, found_, grown⟩
    · rw [List.mem_singleton.mp new]
      refine ⟨fun _ => Nat.le_refl _, fun key => (counted.all key).symm, fun index before found => ?_⟩
      obtain ⟨found_, grown⟩ := grows index before found
      refine ⟨flushed before, found_, grown.key, ?_⟩
      have member := List.mem_of_getElem? found
      cases unwritten : before.unwritten with
      | false => exact .inl (Nat.le_trans (settled before member unwritten) grown.logged)
      | true =>
          have fired : flushed before = before.fires := by rw [flushed, if_pos unwritten]
          obtain ⟨place, length, link⟩ := fires_last (sound.groups before member)
          rw [fired] at found_ ⊢
          refine .inr ⟨place, before.attempts, ?_, link, Nat.le_refl _⟩
          refine List.mem_map.mpr ⟨(before.fires, index), ?_, by rw [← length]⟩
          refine List.mem_filter.mpr ⟨List.mk_mem_zipIdx_iff_getElem?.mpr found_, ?_⟩
          exact (fires_attempts before).2.trans unwritten

/-! ## Runs -/

theorem begins_attempts (group : Group) : group.begins.attempts = group.attempts := by
  unfold Group.begins
  split
  · split <;> rfl
  · rfl

theorem executes_attempts (group : Group) : group.executes.attempts = group.attempts := by
  unfold Group.executes
  split
  · split <;> rfl
  · rfl

theorem answered_attempts (group : Group) : group.answered.attempts = group.attempts := by
  unfold Group.answered
  split
  · split <;> rfl
  · rfl

theorem pruned_attempts (group : Group) : group.pruned.attempts = group.attempts := by
  unfold Group.pruned
  split <;> rfl

theorem step_sound (sound : log.Sound) (event : Event) : (step log event).Sound := by
  cases event with
  | record key now => exact record_sound sound key now
  | flush => exact flush_sound sound
  | fires => exact change_sound sound Group.fires_moves fun group => (fires_attempts group).1
  | begins => exact change_sound sound Group.begins_moves begins_attempts
  | executes => exact change_sound sound Group.executes_moves executes_attempts
  | answered => exact change_sound sound Group.answered_moves answered_attempts
  | pruned => exact change_sound sound Group.pruned_moves pruned_attempts

theorem step_counted (sound : log.Sound) (counted : log.Counted) {event : Event} (settled : Settled log event) :
    (step log event).Counted := by
  cases event with
  | record key now => exact record_counted sound counted settled
  | flush => exact flush_counted sound counted settled
  | fires => exact change_counted sound counted Group.fires_moves fun group => (fires_attempts group).1
  | begins => exact change_counted sound counted Group.begins_moves begins_attempts
  | executes => exact change_counted sound counted Group.executes_moves executes_attempts
  | answered => exact change_counted sound counted Group.answered_moves answered_attempts
  | pruned => exact change_counted sound counted Group.pruned_moves pruned_attempts

def Event.records (key : String) : Event → Bool
  | .record other _ => other = key
  | _ => false

/-- How often a key was recorded -/
def recorded (key : String) (history : List Event) : Nat := history.countP (Event.records key)

theorem step_calls (log : Log) (event : Event) (key : String) :
    (step log event).calls key = log.calls key + if event.records key then 1 else 0 := by
  cases event with
  | record other now =>
      have same : (log.recordMcpRepeated other now).calls = (log.called other).calls := by
        obtain ⟨index, -, same⟩ | ⟨-, current, -, -, ⟨-, same⟩ | ⟨-, same⟩⟩ := record_cases log other now
        · rw [same]
          rfl
        · rw [same]
        · rw [same]
      rw [step, same, Log.called, Event.records]
      simp only [decide_eq_true_eq, eq_comm (a := key)]
  | flush | fires | begins | executes | answered | pruned => rfl

theorem replay_calls (history : List Event) (key : String) : (replay step {} history).calls key = recorded key history := by
  refine @replay_induction _ _ step {} (fun history log => log.calls key = recorded key history) rfl (fun past event held => ?_) history
  rw [step_calls, held, recorded, recorded, List.countP_append, List.countP_singleton]

theorem step_flushes (log : Log) (event : Event) : log.flushes <+: (step log event).flushes := by
  cases event with
  | record key now =>
      obtain ⟨index, -, same⟩ | ⟨-, current, -, -, ⟨-, same⟩ | ⟨-, same⟩⟩ := record_cases log key now
      · rw [step, same]
        exact List.prefix_refl _
      · rw [step, same]
        exact List.prefix_refl _
      · rw [step, same]
        exact List.prefix_refl _
  | flush => exact List.prefix_append _ _
  | fires | begins | executes | answered | pruned => exact List.prefix_refl _

theorem replay_flushes (log : Log) (history : List Event) : log.flushes <+: (replay step log history).flushes := by
  induction history generalizing log with
  | nil => exact List.prefix_refl _
  | cons event rest ih => exact (step_flushes log event).trans (ih (step log event))

theorem empty_sound : ({} : Log).Sound where
  groups _ member := by cases member
  current _ listed := by cases listed
  calls _ := Nat.le_refl 0

theorem empty_counted : ({} : Log).Counted where
  all _ := rfl
  flushes _ listed := by cases listed

theorem replay_sound (history : List Event) : (replay step {} history).Sound :=
  replay_invariant empty_sound (fun _ event sound => step_sound sound event) history

theorem replay_counted {history : List Event} (along : Along step Settled {} history) : (replay step {} history).Counted :=
  (along.invariant (motive := fun log => log.Sound ∧ log.Counted) ⟨empty_sound, empty_counted⟩
    fun _ event both settled => ⟨step_sound both.1 event, step_counted both.1 both.2 settled⟩).2

/-- What a resolved flush has seen is in the rows. -/
theorem resolved_total {flush : Flush} (sound : log.Sound) (kept : flush.Sound log) (resolved : flush.Resolved log) (key : String) :
    flush.calls key ≤ total key Group.logged log.groups := by
  rw [kept.seen]
  refine total_le fun index before found => ?_
  obtain ⟨group, held, own, covered⟩ := kept.kept index before found
  have rows := (sound.groups group (List.mem_of_getElem? held)).rows
  refine ⟨group, held, own, ?_⟩
  obtain logged | ⟨place, counted, waits, link, least⟩ := covered
  · exact logged
  · have passed := resolved _ waits group held
    have written := (sound.groups group (List.mem_of_getElem? held)).covered place counted link passed
    exact Nat.le_trans least (Nat.le_trans written rows.2.1)

/-- In every run a group has one row at most, and the rows of a key never come to more than was recorded. They come to
what was recorded before a flush once it has resolved, where each flush of the run was called while whatever was not
in its row belonged to a group that was still to write. -/
theorem repeats_counted (history : List Event) :
    (∀ group ∈ (replay step {} history).groups, group.rows.length ≤ 1) ∧
    (∀ key, total key Group.logged (replay step {} history).groups ≤ recorded key history) ∧
    (Along step Settled {} history → ∀ before after flush, history = before ++ .flush :: after →
      (replay step {} history).flushes[(replay step {} before).flushes.length]? = some flush →
      flush.Resolved (replay step {} history) →
      ∀ key, recorded key before ≤ total key Group.logged (replay step {} history).groups) := by
  have sound := replay_sound history
  refine ⟨fun group member => (sound.groups group member).rows.1, fun key => ?_, fun along before after flush same found resolved key => ?_⟩
  · rw [← replay_calls]
    refine Nat.le_trans ?_ (sound.calls key)
    exact total_le fun index group found => ⟨group, found, rfl, (sound.groups group (List.mem_of_getElem? found)).rows.2.2⟩
  · have seen : flush.calls = (replay step {} before).calls := by
      have rest := replay_flushes (step (replay step {} before) .flush) after
      rw [same, replay_append, replay_cons] at found
      obtain ⟨more, whole⟩ := rest
      have added : (step (replay step {} before) .flush).flushes[(replay step {} before).flushes.length]? =
          some { waits := _, calls := (replay step {} before).calls, seen := _ } := List.getElem?_concat_length
      have within := (List.getElem?_eq_some_iff.mp added).1
      rw [← whole, List.getElem?_append_left within, added] at found
      rw [← Option.some.inj found]
    have counted := replay_counted along
    rw [← replay_calls before key, ← seen]
    exact resolved_total sound (counted.flushes flush (List.mem_of_getElem? found)) resolved key

/-- A repeat whose write is queued while the row is inserted: the end of the insert takes the group out of the set. -/
def queuedBehindInsert : List Event :=
  [.record "a" 0, .fires 0, .begins 0, .executes 0, .record "a" 1, .fires 0, .answered 0, .pruned 0]

theorem flush_misses : ∃ flush, (replay step {} (queuedBehindInsert ++ [.flush])).flushes[0]? = some flush ∧
    flush.Resolved (replay step {} (queuedBehindInsert ++ [.flush])) ∧ recorded "a" queuedBehindInsert = 2 ∧
    total "a" Group.logged (replay step {} (queuedBehindInsert ++ [.flush])).groups = 1 := by
  refine ⟨_, rfl, fun wait member => ?_, by decide, by decide⟩
  cases member

end Dockge.Mcp.Audit
