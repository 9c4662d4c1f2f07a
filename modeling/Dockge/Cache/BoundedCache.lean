import Dockge.Data.OrderedMap
import Dockge.Data.History

namespace Dockge.Cache

open Data

/-! A small LRU that counts bytes, with one timer for what expires. -/

variable {T : Type}

structure Entry (T : Type) where
  value : T
  bytes : ℚ
  expires : ℚ

/-- A limit that is infinite is `none`. -/
structure Limits where
  maxBytes : Option ℚ
  maxEntries : Option ℤ
  ttlMs : ℚ

structure BoundedCache (T : Type) where
  items : OrderedMap String (Entry T) := .empty
  used : ℚ := 0
  /-- The delay of the timer that is pending -/
  timer : Option ℚ := none

namespace BoundedCache

def bytes (cache : BoundedCache T) : ℚ := cache.used

def size (cache : BoundedCache T) : Nat := cache.items.entries.length

def delete (key : String) (cache : BoundedCache T) : BoundedCache T :=
  let cache :=
    match cache.items.get key with
    | some entry => { cache with used := cache.used - entry.bytes, items := cache.items.delete key }
    | none => cache
  if cache.size = 0 then { cache with timer := none } else cache

def clear (_ : BoundedCache T) : BoundedCache T := {}

def schedule (date : ℚ) (cache : BoundedCache T) : BoundedCache T :=
  let earliest := (cache.items.entries.map fun item => item.2.expires).min?
  { cache with timer := earliest.map fun earliest => max 1 (earliest - date) }

def get (key : String) (now : ℚ) (cache : BoundedCache T) : Option T × BoundedCache T :=
  match cache.items.get key with
  | none => (none, cache)
  | some entry =>
      if entry.expires ≤ now then (none, cache.delete key)
      else (some entry.value, { cache with items := (cache.items.delete key).set key entry })

theorem delete_size {cache : BoundedCache T} {key : String} {entry : Entry T}
    (found : cache.items.get key = some entry) : (cache.delete key).size < cache.size := by
  have smaller : (cache.items.delete key).entries.length < cache.items.entries.length := by
    rw [OrderedMap.delete_entries]
    apply List.length_filter_lt_length_iff_exists.mpr
    refine ⟨(key, entry), OrderedMap.get_eq_some.mp found, ?_⟩
    rw [decide_eq_true_eq]
    exact fun other => other rfl
  unfold delete
  rw [found]
  dsimp only
  split <;> exact smaller

/-- Whether the oldest has to go before so many bytes are admitted. -/
def full (limits : Limits) (bytes : ℚ) (cache : BoundedCache T) : Bool :=
  (limits.maxEntries.any fun limit => limit ≤ (cache.size : ℤ)) || limits.maxBytes.any fun limit => limit < cache.used + bytes

/-- The loop of `set` -/
def makeRoom (limits : Limits) (bytes : ℚ) (cache : BoundedCache T) : Bool × BoundedCache T :=
  if cache.full limits bytes then
    match found : cache.items.entries with
    | [] => (false, cache)
    | (oldest, _) :: _ => makeRoom limits bytes (cache.delete oldest)
  else (true, cache)
termination_by cache.size
decreasing_by
  exact delete_size (OrderedMap.get_eq_some.mpr (found ▸ List.mem_cons_self))

/-- A number of bytes that is not finite is `none`. -/
def set (limits : Limits) (key : String) (value : T) (bytes : Option ℚ) (now date : ℚ) (cache : BoundedCache T) :
    Bool × BoundedCache T :=
  let cache := cache.delete key
  match bytes with
  | none => (false, cache)
  | some bytes =>
      if bytes < 0 ∨ (limits.maxBytes.any fun limit => limit < bytes) then (false, cache)
      else
        match cache.makeRoom limits bytes with
        | (false, cache) => (false, cache)
        | (true, cache) =>
            let items := cache.items.set key { value, bytes, expires := now + limits.ttlMs }
            (true, { cache with items, used := cache.used + bytes }.schedule date)

/-- The timer of `schedule` fires, where it is pending. -/
def fires (date : ℚ) (cache : BoundedCache T) : BoundedCache T :=
  if cache.timer.isSome then
    let cache := { cache with timer := none }
    let cache := cache.items.entries.foldl
      (fun cache item => if item.2.expires ≤ date then cache.delete item.1 else cache) cache
    cache.schedule date
  else cache

end BoundedCache

inductive Event (T : Type) where
  | get (key : String) (now : ℚ)
  | set (key : String) (value : T) (bytes : Option ℚ) (now date : ℚ)
  | delete (key : String)
  | clear
  | fires (date : ℚ)

inductive Answer (T : Type) where
  | value (value : Option T)
  | admitted (admitted : Bool)
  | nothing

namespace BoundedCache

def answer (limits : Limits) (cache : BoundedCache T) : Event T → Answer T
  | .get key now => .value (cache.get key now).1
  | .set key value bytes now date => .admitted (cache.set limits key value bytes now date).1
  | _ => .nothing

def step (limits : Limits) (cache : BoundedCache T) : Event T → BoundedCache T
  | .get key now => (cache.get key now).2
  | .set key value bytes now date => (cache.set limits key value bytes now date).2
  | .delete key => cache.delete key
  | .clear => cache.clear
  | .fires date => cache.fires date

end BoundedCache

end Dockge.Cache
