import Dockge.Images.Reference
import Dockge.Data.History
import Dockge.Data.OrderedMap

namespace Dockge.Images

open Data

/-! Asking the registry about images, and what is kept of its answers. -/

def cacheMs : Int := 10 * 60000

def failureCacheMs : Int := 60000

def concurrency : Nat := 4

def maxCacheEntries : Nat := 500

structure RegistryAnswer where
  digest : Text
  reason : Text
deriving DecidableEq

structure RemoteEntry where
  answer : RegistryAnswer
  readAt : Int
  /-- The step in which the registry was asked -/
  began : Nat
deriving DecidableEq

structure ImageUpdate where
  image : Text
  localDigest : Text
  remote : Text
  newer : Option Bool
  reason : Text
  /-- The step in which the registry was asked for what is reported -/
  began : Nat
deriving DecidableEq

/-- An image a worker waits for -/
structure Work where
  image : Text
  began : Nat
  /-- The entry that is fresh enough, or a request -/
  cached : Option RemoteEntry

/-- One call of `readImageUpdates` -/
structure Call where
  now : Int
  queue : List Text
  working : List Work := []
  answers : List ImageUpdate := []
  /-- When each image had been cleared last as the call was made -/
  cleared : Text → Nat

structure Registry where
  remoteCache : OrderedMap Text RemoteEntry := .empty
  calls : List Call := []
  /-- The number of the step, and of the last one that cleared an image -/
  time : Nat := 0
  cleared : Text → Nat := fun _ => 0

abbrev RemoteCache := OrderedMap Text RemoteEntry

def RemoteEntry.fresh (entry : RemoteEntry) (now : Int) : Bool :=
  now - entry.readAt < if entry.answer.digest = [] then failureCacheMs else cacheMs

def remember (image : Text) (answer : RegistryAnswer) (now : Int) (began : Nat) (cache : RemoteCache) : RemoteCache :=
  let cache := cache.set image { answer, readAt := now, began }
  OrderedMap.deleteOldest^[cache.entries.length - maxCacheEntries] cache

def dropExpired (now : Int) (cache : RemoteCache) : RemoteCache :=
  cache.filter fun _ entry => now - entry.readAt < cacheMs

def clearImageUpdateCache (images : Option (List Text)) (cache : RemoteCache) : RemoteCache :=
  match images with
  | none => .empty
  | some images => images.foldl (fun cache image => cache.delete image) cache

/-- A worker takes the next image off the queue. -/
def Call.take (cache : RemoteCache) (time : Nat) (call : Call) : Call :=
  match call.queue with
  | [] => call
  | image :: queue =>
      let work : Work :=
        match (cache.get image).filter fun entry => entry.fresh call.now with
        | some entry => { image, began := entry.began, cached := some entry }
        | none => { image, began := time, cached := none }
      { call with queue, working := call.working ++ [work] }

def report (image localDigest : Text) (remote : RegistryAnswer) (began : Nat) : ImageUpdate :=
  let newer := isNewerImage (some localDigest) (some remote.digest)
  let reason :=
    if newer.isSome then []
    else if localDigest = [] then "notPulled".toList
    else if remote.reason = [] then "registryUnreachable".toList
    else remote.reason
  { image, localDigest, remote := remote.digest, newer, reason, began }

namespace Registry

def readImageUpdates (images : List Text) (now : Int) (registry : Registry) : Registry :=
  let unique := (images.filter fun image => trimChars image ≠ []).eraseDups
  let cache := dropExpired now registry.remoteCache
  let call : Call := { now, queue := unique, cleared := registry.cleared }
  { registry with
    remoteCache := cache
    calls := registry.calls ++ [(Call.take cache registry.time)^[concurrency] call] }

/-- A worker has both digests of its image. -/
def finish (id : Nat) (image localDigest : Text) (answer : RegistryAnswer) (registry : Registry) : Registry :=
  match registry.calls[id]? with
  | none => registry
  | some call =>
      match call.working.find? fun work => work.image = image with
      | none => registry
      | some work =>
          let remote := (work.cached.map RemoteEntry.answer).getD answer
          let cache :=
            if work.cached.isSome then registry.remoteCache
            else remember image remote call.now work.began registry.remoteCache
          let call := { call with
            working := call.working.filter fun work => work.image ≠ image
            answers := call.answers ++ [report image localDigest remote work.began] }
          { registry with
            remoteCache := cache
            calls := registry.calls.set id (call.take cache registry.time) }

def clear (images : Option (List Text)) (registry : Registry) : Registry :=
  { registry with
    remoteCache := clearImageUpdateCache images registry.remoteCache
    cleared := fun image => if images.all fun images => image ∈ images then registry.time else registry.cleared image }

end Registry

inductive Event where
  | call (images : List Text) (now : Int)
  | finishes (id : Nat) (image localDigest : Text) (answer : RegistryAnswer)
  | clear (images : Option (List Text))

def Registry.step (registry : Registry) (event : Event) : Registry :=
  let registry := { registry with time := registry.time + 1 }
  match event with
  | .call images now => registry.readImageUpdates images now
  | .finishes id image localDigest answer => registry.finish id image localDigest answer
  | .clear images => registry.clear images

end Dockge.Images
