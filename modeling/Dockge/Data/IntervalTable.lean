import Dockge.Data.Intervals

namespace Dockge.Data

/-! A database table of confirmed intervals.

A row says which status its owner was seen in, from when, and until when that
was last confirmed.  Rows are listed in the order they were inserted.
-/

structure IntervalRow (Owner Status : Type) where
  id : Nat
  owner : Owner
  status : Status
  observedAt : Nat
  observedUntil : Nat
deriving DecidableEq, Repr

/-- Ids come from the table's counter, so that no two rows share one. -/
structure IntervalTable (Owner Status : Type) where
  rows : List (IntervalRow Owner Status)
  nextId : Nat
  distinct : (rows.map (·.id)).Nodup
  counted : ∀ row ∈ rows, row.id < nextId

variable {Owner Status : Type} {owner other : Owner} {status : Status} {id now cutoff : Nat}
variable {table : IntervalTable Owner Status} {row : IntervalRow Owner Status}
variable {rows front : List (IntervalRow Owner Status)}

namespace IntervalRow

def span (row : IntervalRow Owner Status) : Span := ⟨row.observedAt, row.observedUntil⟩

def confirm (id now : Nat) (row : IntervalRow Owner Status) : IntervalRow Owner Status :=
  if row.id = id then { row with observedUntil := now } else row

@[simp] theorem confirm_id : (row.confirm id now).id = row.id := by
  unfold confirm
  split <;> rfl

@[simp] theorem confirm_owner : (row.confirm id now).owner = row.owner := by
  unfold confirm
  split <;> rfl

theorem map_confirm_other (other : ∀ row ∈ rows, row.id ≠ id) : rows.map (confirm id now) = rows := by
  have unchanged : ∀ row ∈ rows, row.confirm id now = row := by
    intro row member
    exact if_neg (other row member)
  exact List.map_congr_left unchanged |>.trans (List.map_id _)

end IntervalRow

namespace IntervalTable

def empty : IntervalTable Owner Status where
  rows := []
  nextId := 1
  distinct := List.nodup_nil
  counted := by simp

/-- `update({ observed_until: now }).where({ id })`, which answers how many rows it changed -/
def confirm (table : IntervalTable Owner Status) (id now : Nat) : IntervalTable Owner Status × Bool :=
  ({ rows := table.rows.map (·.confirm id now)
     nextId := table.nextId
     distinct := by
       have sameIds : (table.rows.map (·.confirm id now)).map (·.id) = table.rows.map (·.id) := by simp
       rw [sameIds]
       exact table.distinct
     counted := by
       intro row member
       obtain ⟨old, oldMember, same⟩ := List.mem_map.mp member
       subst same
       rw [IntervalRow.confirm_id]
       exact table.counted old oldMember },
    table.rows.any (·.id = id))

/-- `insert`, which answers the id of the new row -/
def insert (table : IntervalTable Owner Status) (owner : Owner) (status : Status) (now : Nat) :
    IntervalTable Owner Status × Nat :=
  ({ rows := table.rows ++
       [{ id := table.nextId, owner := owner, status := status, observedAt := now, observedUntil := now }]
     nextId := table.nextId + 1
     distinct := by
       rw [List.map_append, List.nodup_append]
       refine ⟨table.distinct, by simp, ?_⟩
       intro id member other fresh
       obtain ⟨row, rowMember, same⟩ := List.mem_map.mp member
       have := table.counted row rowMember
       simp at fresh
       omega
     counted := by
       intro row member
       rcases List.mem_append.mp member with old | new
       · exact Nat.lt_succ_of_lt (table.counted row old)
       · rw [List.mem_singleton.mp new]
         exact Nat.lt_succ_self _ },
    table.nextId)

/-- `where("observed_until", "<", cutoff).delete()` -/
def prune (table : IntervalTable Owner Status) (cutoff : Nat) : IntervalTable Owner Status where
  rows := table.rows.filter (cutoff ≤ ·.observedUntil)
  nextId := table.nextId
  distinct := table.distinct.sublist (List.filter_sublist.map _)
  counted := by
    intro row member
    exact table.counted row (List.mem_of_mem_filter member)

variable [DecidableEq Owner]

/-- The intervals of one owner, oldest first. -/
def rowsOf (table : IntervalTable Owner Status) (owner : Owner) : List (IntervalRow Owner Status) :=
  table.rows.filter (·.owner = owner)

@[simp] theorem rowsOf_empty : (empty : IntervalTable Owner Status).rowsOf owner = [] := rfl

theorem mem_rows_of_mem_rowsOf (member : row ∈ table.rowsOf owner) : row ∈ table.rows :=
  List.mem_of_mem_filter member

theorem owner_of_mem_rowsOf (member : row ∈ table.rowsOf owner) : row.owner = owner := by
  simpa [rowsOf] using (List.mem_filter.mp member).2

theorem rowsOf_insert : (table.insert owner status now).1.rowsOf other =
    table.rowsOf other ++ if owner = other then [⟨table.nextId, owner, status, now, now⟩] else [] := by
  by_cases same : owner = other <;> simp [rowsOf, insert, same]

theorem rowsOf_prune : (table.prune cutoff).rowsOf owner =
    (table.rowsOf owner).filter (cutoff ≤ ·.observedUntil) := by
  simp only [rowsOf, prune, List.filter_filter]
  congr 1
  funext row
  rw [Bool.and_comm]

theorem rowsOf_confirm : (table.confirm id now).1.rowsOf owner = (table.rowsOf owner).map (·.confirm id now) := by
  simp [rowsOf, confirm, List.filter_map, Function.comp_def]

/-- Confirming the newest interval of an owner moves its end and nothing else. -/
theorem rowsOf_confirm_last (last : table.rowsOf owner = front ++ [row]) (named : row.id = id) :
    (table.confirm id now).1.rowsOf owner = front ++ [{ row with observedUntil := now }] := by
  have distinct : ((front ++ [row]).map (·.id)).Nodup := by
    rw [← last]
    exact table.distinct.sublist (List.filter_sublist.map _)
  have others : ∀ earlier ∈ front, earlier.id ≠ id := by
    intro earlier member same
    rw [List.map_append, List.nodup_append] at distinct
    exact distinct.2.2 earlier.id (List.mem_map_of_mem member) row.id (by simp) (same.trans named.symm)
  rw [rowsOf_confirm, last, List.map_append, IntervalRow.map_confirm_other others]
  simp [IntervalRow.confirm, named]

theorem rowsOf_confirm_other (held : row ∈ table.rowsOf owner) (named : row.id = id) (differs : owner ≠ other) :
    (table.confirm id now).1.rowsOf other = table.rowsOf other := by
  rw [rowsOf_confirm]
  apply IntervalRow.map_confirm_other
  intro theirs member same
  have sameRow : theirs = row :=
    List.inj_on_of_nodup_map table.distinct (mem_rows_of_mem_rowsOf member) (mem_rows_of_mem_rowsOf held)
      (same.trans named.symm)
  apply differs
  rw [← owner_of_mem_rowsOf held, ← owner_of_mem_rowsOf member, sameRow]

theorem confirm_updates (held : row ∈ table.rowsOf owner) (named : row.id = id) :
    (table.confirm id now).2 = true := by
  simp only [confirm, List.any_eq_true, decide_eq_true_eq]
  exact ⟨row, mem_rows_of_mem_rowsOf held, named⟩

end IntervalTable

/-- Intervals of one owner that lie apart and reach no further than now. -/
structure Settled (rows : List (IntervalRow Owner Status)) (now : Nat) : Prop where
  apart : Apart IntervalRow.span rows
  begun : ∀ row ∈ rows, row.observedAt ≤ row.observedUntil
  past : ∀ row ∈ rows, row.observedUntil ≤ now

namespace Settled

theorem nil : Settled ([] : List (IntervalRow Owner Status)) now :=
  ⟨List.Pairwise.nil, by simp, by simp⟩

theorem mono {later : Nat} (settled : Settled rows now) (passed : now ≤ later) : Settled rows later :=
  ⟨settled.apart, settled.begun, fun row member => (settled.past row member).trans passed⟩

theorem filter (settled : Settled rows now) (kept : IntervalRow Owner Status → Bool) :
    Settled (rows.filter kept) now :=
  ⟨settled.apart.filter kept, fun row member => settled.begun row (List.mem_of_mem_filter member),
    fun row member => settled.past row (List.mem_of_mem_filter member)⟩

theorem confirm_last (settled : Settled (front ++ [row]) now) :
    Settled (front ++ [{ row with observedUntil := now }]) now := by
  obtain ⟨frontApart, before⟩ := apart_append_singleton.mp settled.apart
  have rowBegun := settled.begun row (by simp)
  have rowPast := settled.past row (by simp)
  refine ⟨apart_append_singleton.mpr ⟨frontApart, before⟩, ?_, ?_⟩
  · intro held member
    rcases List.mem_append.mp member with earlier | last
    · exact settled.begun held (List.mem_append_left _ earlier)
    · rw [List.mem_singleton.mp last]
      exact rowBegun.trans rowPast
  · intro held member
    rcases List.mem_append.mp member with earlier | last
    · exact settled.past held (List.mem_append_left _ earlier)
    · rw [List.mem_singleton.mp last]

theorem insert (settled : Settled rows now) :
    Settled (rows ++ [⟨id, owner, status, now, now⟩]) now := by
  refine ⟨apart_append_singleton.mpr ⟨settled.apart, settled.past⟩, ?_, ?_⟩
  · intro held member
    rcases List.mem_append.mp member with earlier | last
    · exact settled.begun held earlier
    · rw [List.mem_singleton.mp last]
  · intro held member
    rcases List.mem_append.mp member with earlier | last
    · exact settled.past held earlier
    · rw [List.mem_singleton.mp last]

end Settled

end Dockge.Data
