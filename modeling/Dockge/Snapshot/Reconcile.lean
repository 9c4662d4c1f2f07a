import Dockge.Data.OrderedMap

namespace Dockge.Snapshot

open Data

/-! A snapshot that replaces another and keeps the objects of what has not changed. -/

/-- A number has one spelling: JSON has no minus zero. -/
inductive Atom where
  | null
  | bool (value : Bool)
  | number (value : ℚ)
  | text (value : String)
deriving DecidableEq

/-- A value as the program holds it: an object is known by where it lies. -/
inductive Value where
  | atom (atom : Atom)
  | object (address : Nat)
deriving DecidableEq

/-- An array has its indices for keys. -/
structure Cell where
  isArray : Bool
  fields : OrderedMap String Value

abbrev Heap := Nat → Option Cell

namespace Heap

def get (heap : Heap) (address : Nat) (key : String) : Option Value :=
  (heap address).bind fun cell => cell.fields.get key

def set (heap : Heap) (address : Nat) (key : String) (value : Value) : Heap :=
  Function.update heap address ((heap address).map fun cell => { cell with fields := cell.fields.set key value })

end Heap

/-- The loop over the keys of `next`, with what is made of two values -/
def reconcileKeys (reconcile : Heap → Value → Value → Option (Heap × Value)) (before after : Nat) :
    List String → Heap → Bool → Option (Heap × Bool)
  | [], heap, equal => some (heap, equal)
  | key :: rest, heap, equal => do
      let fresh ← heap.get after key
      match heap.get before key with
      | none => reconcileKeys reconcile before after rest (heap.set after key fresh) false
      | some old =>
          let (heap, value) ← reconcile heap old fresh
          let equal := if some value ≠ heap.get before key then false else equal
          reconcileKeys reconcile before after rest (heap.set after key value) equal

/-- `reconcileSnapshot`, with a bound on how deep it goes -/
def reconcile : Nat → Heap → Value → Value → Option (Heap × Value)
  | 0, _, _, _ => none
  | depth + 1, heap, previous, next =>
      if previous = next then some (heap, previous)
      else
        match previous, next with
        | .object before, .object after => do
            let old ← heap before
            let fresh ← heap after
            if old.isArray ≠ fresh.isArray then some (heap, next)
            else
              let keys := fresh.fields.keys
              let (heap, equal) ← reconcileKeys (reconcile depth) before after keys heap
                (keys.length = old.fields.keys.length)
              some (heap, if equal then previous else next)
        | _, _ => some (heap, next)

end Dockge.Snapshot
