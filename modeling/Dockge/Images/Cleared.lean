import Dockge.Images.Updates

namespace Dockge.Images

open Data

/-! What is reported of an image after it was cleared. -/

/-- Nothing is reported that the registry was asked for before the image was cleared, and the call came after. -/
def Postdates (registry : Registry) : Prop :=
  ∀ call ∈ registry.calls, ∀ report ∈ call.answers, call.cleared report.image ≤ report.began

instance (registry : Registry) : Decidable (Postdates registry) :=
  inferInstanceAs (Decidable (∀ call ∈ registry.calls, ∀ report ∈ call.answers, call.cleared report.image ≤ report.began))

/-- The registry was asked before the image was cleared, and its answer is stored now. -/
def Registry.storesStale (registry : Registry) : Event → Bool
  | .finishes id image _ _ =>
      registry.calls[id]?.any fun call => (call.working.find? fun work => work.image = image).any fun work =>
        work.cached.isNone && work.began < registry.cleared image
  | _ => false

variable {registry : Registry} {cache : RemoteCache} {call : Call} {time : Nat}

/-! ## One call -/

structure Call.Sound (call : Call) : Prop where
  working : ∀ work ∈ call.working, call.cleared work.image ≤ work.began
  answers : ∀ report ∈ call.answers, call.cleared report.image ≤ report.began

theorem take_cleared (cache : RemoteCache) (time : Nat) (call : Call) : (call.take cache time).cleared = call.cleared := by
  unfold Call.take
  split <;> rfl

/-- What a worker takes up is no older than what it takes it from. -/
theorem Call.Sound.take (sound : call.Sound) (kept : ∀ item ∈ cache.entries, call.cleared item.1 ≤ item.2.began)
    (past : ∀ image, call.cleared image ≤ time) : (call.take cache time).Sound := by
  unfold Call.take
  split
  next => exact sound
  next image queue _ =>
    refine ⟨?_, sound.answers⟩
    intro work member
    obtain earlier | last := List.mem_append.mp member
    · exact sound.working work earlier
    · rw [List.mem_singleton.mp last]
      cases found : (cache.get image).filter fun entry => entry.fresh call.now with
      | none => exact past image
      | some entry =>
          have held := OrderedMap.get_eq_some.mp (Option.filter_eq_some_iff.mp found).1
          exact kept (image, entry) held

theorem Call.Sound.takes (sound : call.Sound) (kept : ∀ item ∈ cache.entries, call.cleared item.1 ≤ item.2.began)
    (past : ∀ image, call.cleared image ≤ time) (count : Nat) :
    ((Call.take cache time)^[count] call).Sound ∧ ((Call.take cache time)^[count] call).cleared = call.cleared := by
  induction count generalizing call with
  | zero => exact ⟨sound, rfl⟩
  | succ count ih =>
      rw [Function.iterate_succ_apply]
      have same := take_cleared cache time call
      obtain ⟨after, cleared⟩ := ih (sound.take kept past) (same.symm ▸ kept) (same.symm ▸ past)
      exact ⟨after, cleared.trans same⟩

/-! ## The cache -/

theorem mem_remember {image : Text} {answer : RegistryAnswer} {now : Int} {began : Nat} {item : Text × RemoteEntry}
    (member : item ∈ (remember image answer now began cache).entries) :
    item ∈ cache.entries ∨ item.1 = image ∧ item.2.began = began := by
  have trimmed (count : Nat) (cache : RemoteCache) : (OrderedMap.deleteOldest^[count] cache).entries ⊆ cache.entries := by
    induction count generalizing cache with
    | zero => exact List.Subset.refl _
    | succ count ih =>
        rw [Function.iterate_succ_apply]
        exact List.Subset.trans (ih _) (OrderedMap.deleteOldest_subset cache)
  obtain earlier | rfl := OrderedMap.mem_set (trimmed _ _ member)
  · exact .inl earlier
  · exact .inr ⟨rfl, rfl⟩

theorem mem_clear {images : Option (List Text)} {item : Text × RemoteEntry}
    (member : item ∈ (clearImageUpdateCache images cache).entries) :
    item ∈ cache.entries ∧ (images.all fun images => item.1 ∈ images) = false := by
  cases images with
  | none => cases member
  | some images =>
      rw [clearImageUpdateCache] at member
      induction images generalizing cache with
      | nil => exact ⟨member, rfl⟩
      | cons image rest ih =>
          obtain ⟨inside, others⟩ := ih member
          rw [OrderedMap.delete_entries, List.mem_filter, decide_eq_true_eq] at inside
          refine ⟨inside.1, ?_⟩
          rw [Option.all_some, decide_eq_false_iff_not] at others ⊢
          rw [List.mem_cons, not_or]
          exact ⟨inside.2, others⟩

/-! ## Any interleaving -/

structure Sound (registry : Registry) : Prop where
  past : ∀ image, registry.cleared image ≤ registry.time
  kept : ∀ item ∈ registry.remoteCache.entries, registry.cleared item.1 ≤ item.2.began
  before : ∀ call ∈ registry.calls, ∀ image, call.cleared image ≤ registry.cleared image
  calls : ∀ call ∈ registry.calls, call.Sound

theorem Sound.finish (sound : Sound registry) {id : Nat} {image localDigest : Text} {answer : RegistryAnswer}
    (clean : registry.storesStale (.finishes id image localDigest answer) = false) :
    Sound (registry.finish id image localDigest answer) := by
  rw [Registry.finish]
  cases found : registry.calls[id]? with
  | none => exact sound
  | some call =>
      dsimp only
      cases taken : call.working.find? fun work => work.image = image with
      | none => exact sound
      | some work =>
          dsimp only
          have there := List.mem_of_getElem? found
          have mine := sound.calls call there
          have image_ : work.image = image := by
            have met := List.find?_some taken
            exact of_decide_eq_true met
          have asked : call.cleared image ≤ work.began := image_ ▸ mine.working work (List.mem_of_find?_eq_some taken)
          have stored (item) (member : item ∈ (if work.cached.isSome then registry.remoteCache
              else remember image ((work.cached.map RemoteEntry.answer).getD answer) call.now work.began
                registry.remoteCache).entries) : registry.cleared item.1 ≤ item.2.began := by
            split at member
            next => exact sound.kept item member
            next requested =>
              obtain earlier | ⟨name, began⟩ := mem_remember member
              · exact sound.kept item earlier
              · rw [Registry.storesStale, found, Option.any_some, taken, Option.any_some, Bool.and_eq_false_iff,
                  decide_eq_false_iff_not, not_lt] at clean
                rw [name, began]
                exact clean.resolve_left fun some_ => requested (Option.isNone_eq_false_iff.mp some_)
          constructor
          · exact sound.past
          · exact stored
          · intro other member name
            obtain earlier | rfl := List.mem_or_eq_of_mem_set member
            · exact sound.before other earlier name
            · rw [take_cleared]
              exact sound.before call there name
          · intro other member
            obtain earlier | rfl := List.mem_or_eq_of_mem_set member
            · exact sound.calls other earlier
            · apply Call.Sound.take
              · constructor
                · exact fun work inside => mine.working work (List.mem_of_mem_filter inside)
                · intro update inside
                  obtain earlier | last := List.mem_append.mp inside
                  · exact mine.answers update earlier
                  · rw [List.mem_singleton.mp last]
                    exact asked
              · exact fun item inside => (sound.before call there item.1).trans (stored item inside)
              · exact fun name => (sound.before call there name).trans (sound.past name)

theorem Sound.step (sound : Sound registry) (event : Event) (clean : registry.storesStale event = false) :
    Sound (registry.step event) := by
  have later : Sound { registry with time := registry.time + 1 } :=
    ⟨fun image => Nat.le_succ_of_le (sound.past image), sound.kept, sound.before, sound.calls⟩
  cases event with
  | call images now =>
      have kept (item) (member : item ∈ (dropExpired now registry.remoteCache).entries) :
          registry.cleared item.1 ≤ item.2.began := sound.kept item (List.mem_of_mem_filter member)
      have started : Call.Sound
          { now, queue := (images.filter fun image => trimChars image ≠ []).eraseDups, cleared := registry.cleared } :=
        ⟨fun _ never => (by cases never), fun _ never => (by cases never)⟩
      obtain ⟨taken, cleared⟩ := started.takes kept later.past concurrency
      constructor
      · exact later.past
      · exact kept
      · intro other member name
        obtain earlier | last := List.mem_append.mp member
        · exact sound.before other earlier name
        · rw [List.mem_singleton.mp last, cleared]
          exact Nat.le_refl _
      · intro other member
        obtain earlier | last := List.mem_append.mp member
        · exact sound.calls other earlier
        · rw [List.mem_singleton.mp last]
          exact taken
  | finishes id image localDigest answer => exact later.finish clean
  | clear images =>
      have latest (image : Text) : registry.cleared image ≤
          if images.all fun images => image ∈ images then registry.time + 1 else registry.cleared image := by
        split
        · exact later.past image
        · exact Nat.le_refl _
      constructor
      · intro image
        change (if _ then _ else _) ≤ _
        split
        · exact Nat.le_refl _
        · exact later.past image
      · intro item member
        obtain ⟨earlier, spared⟩ := mem_clear member
        change (if _ then _ else _) ≤ _
        rw [if_neg (by rw [spared]; decide)]
        exact sound.kept item earlier
      · exact fun call member image => (sound.before call member image).trans (latest image)
      · exact sound.calls

theorem sound_start : Sound {} :=
  ⟨fun _ => Nat.zero_le _, fun _ never => (by cases never), fun _ never => (by cases never), fun _ never => (by cases never)⟩

/-- A cleared answer stays cleared in every run in which no answer is stored that was asked for before the clearing. -/
theorem cleared_stays_cleared (history : List Event)
    (clean : Along Registry.step (fun registry event => registry.storesStale event = false) {} history) :
    ∀ before after, history = before ++ after → Postdates (replay Registry.step {} before) := by
  intro before after same
  rw [same] at clean
  have sound := clean.append_left.invariant sound_start fun registry event held clean => held.step event clean
  exact fun call member => (sound.calls call member).answers

def nginx : Text := "nginx".toList

def pulledDigest : Text := "sha256:2".toList

/-- An image is asked about, pulled and cleared before the registry answers, and asked about again. -/
def pulledMeanwhile : List Event :=
  [.call [nginx] 0, .clear (some [nginx]), .finishes 0 nginx pulledDigest ⟨"sha256:1".toList, []⟩, .call [nginx] 1000,
    .finishes 1 nginx pulledDigest ⟨pulledDigest, []⟩]

theorem cleared_stays_cleared_answered :
    Postdates (replay Registry.step {}
      [.clear none, .call [nginx] 0, .finishes 0 nginx pulledDigest ⟨pulledDigest, []⟩]) :=
  cleared_stays_cleared [.clear none, .call [nginx] 0, .finishes 0 nginx pulledDigest ⟨pulledDigest, []⟩] (by decide) _ []
    (List.append_nil _).symm

/-- The answer from before the pull is reported after it, and the image that was just pulled is said to be old. -/
theorem cleared_answer_returns :
    ¬Postdates (replay Registry.step {} pulledMeanwhile) ∧
      ∃ call ∈ (replay Registry.step {} pulledMeanwhile).calls, ∃ report ∈ call.answers,
        call.cleared report.image = 2 ∧ report.began = 1 ∧ report.newer = some true := by
  decide

end Dockge.Images
