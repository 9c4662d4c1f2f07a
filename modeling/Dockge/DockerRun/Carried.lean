import Dockge.DockerRun.Effects
import Dockge.DockerRun.Report

namespace Dockge.DockerRun

open Dockge.Data

/-! What the report says of a flag agrees with what the flag leaves in the service. -/

variable {handler : Handler} {value : Text} {parsed : ParsedFlag} {flags : List ParsedFlag} {verdicts : Verdicts}
  {index start : Nat}

/-- What is reported where a flag has no part in the service -/
def Verdict.nothing (verdict : Verdict) : Prop :=
  verdict.outcome = .dropped ∧ verdict ≠ .optionsLost ∨ verdict = .notNeeded

theorem Handler.effect_none_iff (placed : handler.place ≠ none) :
    handler.effect value = none ↔ (handler.verdict value).nothing := by
  cases handler with
  | uncarried | always => exact absurd rfl placed
  | list | file | volumesFrom =>
      simp [Handler.effect, Handler.verdict, Handler.run, Verdict.nothing, Verdict.carried, Verdict.notNeeded]
  | set path parse =>
      simp only [Handler.effect, Handler.verdict, Handler.run]
      cases parse value <;> simp [Verdict.nothing, Verdict.carried, Verdict.notNeeded, Verdict.notAccepted, Verdict.optionsLost]
  | toggle path =>
      simp only [Handler.effect, Handler.verdict, Handler.run]
      cases parseSwitch value with
      | none => simp [Verdict.nothing, Verdict.notAccepted, Verdict.optionsLost]
      | some isOn => cases isOn <;> simp [Verdict.nothing, Verdict.carried, Verdict.notNeeded]
  | keyValue path =>
      simp only [Handler.effect, Handler.verdict, Handler.run]
      cases keyValueEntry value <;>
        simp [Verdict.nothing, Verdict.carried, Verdict.notNeeded, Verdict.notAccepted, Verdict.optionsLost]
  | volume =>
      simp only [Handler.effect, Handler.verdict, Handler.run]
      split
      next => split <;> simp [Verdict.nothing, Verdict.carried, Verdict.notNeeded, Verdict.volumeExternal]
      next => simp [Verdict.nothing, Verdict.carried, Verdict.notNeeded]
  | mount =>
      simp only [Handler.effect, Handler.verdict, Handler.run]
      cases mountEntry value with
      | none => simp [Verdict.nothing, Verdict.notAccepted, Verdict.optionsLost]
      | some found =>
          obtain ⟨entry, lost⟩ := found
          dsimp only
          cases mountVolume entry <;> cases lost <;>
            simp [Verdict.nothing, Verdict.carried, Verdict.notNeeded, Verdict.optionsLost, Verdict.volumeExternal]
  | gpus =>
      simp only [Handler.effect, Handler.verdict, Handler.run]
      cases gpusEntry value <;>
        simp [Verdict.nothing, Verdict.carried, Verdict.notNeeded, Verdict.gpusDropped, Verdict.optionsLost]
  | ulimit =>
      simp only [Handler.effect, Handler.verdict, Handler.run]
      cases ulimitEntry value <;>
        simp [Verdict.nothing, Verdict.carried, Verdict.notNeeded, Verdict.notAccepted, Verdict.optionsLost]

/-- Where the values of a flag go -/
def placeOf (parsed : ParsedFlag) : Option Place := (handlers.lookup (canonicalFlag parsed.flag)).bind Handler.place

theorem effectOf_none_iff (own : isNetwork parsed = false) :
    effectOf parsed = none ↔ placeOf parsed = none ∨ (ownVerdict parsed).nothing := by
  have other : canonicalFlag parsed.flag ∉ networkFlagNames := of_decide_eq_false own
  rw [effectOf, handled, if_neg other, placeOf, ownVerdict]
  cases handlers.lookup (canonicalFlag parsed.flag) with
  | none => simp
  | some handler =>
      cases valueOf parsed with
      | none =>
          have refused : Verdict.notAccepted.nothing := .inl ⟨rfl, by decide⟩
          simp [refused]
      | some value =>
          simp only [Option.bind_some]
          by_cases placed : handler.place = none
          · refine iff_of_true ?_ (.inl placed)
            by_contra some_
            obtain ⟨effect, found⟩ := Option.ne_none_iff_exists'.mp some_
            rw [Handler.effect_place found] at placed
            cases placed
          · rw [Handler.effect_none_iff placed, or_iff_right placed]

/-! ## Verdicts -/

theorem lookup_other {verdict : Verdict} {other : Nat} (differs : index ≠ other) :
    List.lookup index ((other, verdict) :: verdicts) = verdicts.lookup index := by
  rw [List.lookup_cons, beq_false_of_ne differs]

theorem connectEach_lookup (connect : NetworkResult → NetworkFlag → Verdict × NetworkResult) {entries : List NetworkFlag}
    (others : ∀ entry ∈ entries, index ≠ entry.index) (verdicts : Verdicts) (result : NetworkResult) :
    (connectEach connect entries verdicts result).1.lookup index = verdicts.lookup index := by
  induction entries generalizing verdicts result with
  | nil => rfl
  | cons entry rest ih =>
      have rest_ := ih (fun other member => others other (List.mem_cons_of_mem _ member))
        ((entry.index, (connect result entry).1) :: verdicts) (connect result entry).2
      rw [lookup_other (others entry List.mem_cons_self)] at rest_
      exact rest_

/-- The networks leave the verdicts of the other flags alone. -/
theorem connectNetworks_lookup {entries : List NetworkFlag} (others : ∀ entry ∈ entries, index ≠ entry.index)
    (verdicts : Verdicts) : (connectNetworks entries verdicts).1.lookup index = verdicts.lookup index := by
  unfold connectNetworks
  split
  next mode found =>
    clear found
    dsimp only
    induction entries generalizing verdicts with
    | nil => rfl
    | cons entry rest ih =>
        rw [List.foldl_cons, ih fun other member => others other (List.mem_cons_of_mem _ member)]
        exact lookup_other (others entry List.mem_cons_self)
  next =>
    dsimp only
    rw [connectEach_lookup _ fun entry member => others entry (List.mem_of_mem_filter member)]
    exact connectEach_lookup _ (fun entry member => others entry (List.mem_of_mem_filter member)) _ _

theorem convertFlags_before (state : Converting) (before : index < start) (flags : List ParsedFlag) :
    (convertFlags state start flags).verdicts.lookup index = state.verdicts.lookup index := by
  induction flags generalizing state start with
  | nil => rfl
  | cons parsed rest ih =>
      rw [convertFlags, ih _ (Nat.lt_succ_of_lt before)]
      cases network : isNetwork parsed with
      | true => rw [convertFlag_network network]
      | false =>
          rw [convertFlag_own network]
          exact lookup_other (Nat.ne_of_lt before)

theorem convertFlags_lookup (state : Converting) (found : flags[index]? = some parsed) (own : isNetwork parsed = false) :
    (convertFlags state start flags).verdicts.lookup (start + index) = some (ownVerdict parsed) := by
  induction flags generalizing state start index with
  | nil => cases found
  | cons first rest ih =>
      rw [convertFlags]
      cases index with
      | zero =>
          obtain rfl : first = parsed := Option.some.inj found
          rw [Nat.add_zero, convertFlags_before _ (Nat.lt_succ_self start), convertFlag_own own, List.lookup_cons, beq_self_eq_true]
      | succ index =>
          have later : (convertFlags (convertFlag state start first) (start + 1) rest).verdicts.lookup (start + 1 + index) =
              some (ownVerdict parsed) := ih (convertFlag state start first) found
          rwa [Nat.add_assoc, Nat.add_comm 1] at later

theorem convertFlags_networks (state : Converting) (flags : List ParsedFlag) :
    ∀ entry ∈ (convertFlags state start flags).networkFlags, entry ∈ state.networkFlags ∨
      ∃ (index : Nat) (parsed : ParsedFlag), flags[index]? = some parsed ∧ isNetwork parsed = true ∧
        entry.index = start + index := by
  induction flags generalizing state start with
  | nil => exact fun entry member => .inl member
  | cons first rest ih =>
      intro entry member
      rw [convertFlags] at member
      obtain held | ⟨index, parsed, found, network, same⟩ := ih _ entry member
      · cases network : isNetwork first with
        | true =>
            rw [convertFlag_network network] at held
            obtain held | last := List.mem_append.mp held
            · exact .inl held
            · rw [List.mem_singleton.mp last]
              exact .inr ⟨0, first, rfl, network, rfl⟩
        | false =>
            rw [convertFlag_own network] at held
            exact .inl held
      · exact .inr ⟨index + 1, parsed, found, network, by omega⟩

theorem verdictsOf_own (image : Text) (found : flags[index]? = some parsed) (own : isNetwork parsed = false) :
    (verdictsOf flags image).lookup index = some (ownVerdict parsed) := by
  unfold verdictsOf
  dsimp only
  rw [connectNetworks_lookup]
  · rw [← Nat.zero_add index]
    exact convertFlags_lookup _ found own
  · intro entry member same
    obtain never | ⟨place, other, found_, network, same_⟩ := convertFlags_networks _ _ entry member
    · cases never
    · obtain rfl : index = place := by omega
      rw [found] at found_
      rw [Option.some.inj found_, network] at own
      cases own

theorem mem_reportItems {item : FlagReportItem} (member : item ∈ reportItems verdicts start flags) :
    ∃ (index : Nat) (parsed : ParsedFlag), flags[index]? = some parsed ∧ item = reportItem verdicts (start + index) parsed := by
  induction flags generalizing start with
  | nil => cases member
  | cons first rest ih =>
      obtain rfl | later := List.mem_cons.mp member
      · exact ⟨0, first, rfl, rfl⟩
      · obtain ⟨index, parsed, found, same⟩ := ih later
        exact ⟨index + 1, parsed, found, by rw [same, Nat.add_assoc, Nat.add_comm 1]⟩

/-- A variable in a value is looked at, and it is as much there. -/
theorem reportItem_nothing (found : verdicts.lookup index = some (ownVerdict parsed)) :
    (reportItem verdicts index parsed).verdict.nothing ↔ (ownVerdict parsed).nothing := by
  rw [reportItem, found, Option.getD_some]
  dsimp only
  split
  next carried =>
    rw [carried.1]
    simp [Verdict.nothing, Verdict.dollar, Verdict.carried, Verdict.notNeeded]
  next => rfl

/-! ## What is left -/

/-- A list has all values in their order, anything else the last one; one key of a map is never made. -/
def Leaves (service : Fields) (effects : List Effect) : Place → Prop
  | (.list, path) => valueAt service path = listOf (effects.filterMap (Effect.pushed path))
  | (.scalar, path) => valueAt service path = (effects.filterMap (Effect.stored path)).getLast?
  | (.map, path) => ∀ key, (fieldsOf (valueAt service path)).get key =
      if key = "__proto__" then none else (effects.filterMap (Effect.entered path key)).getLast?

theorem convert_leaves {place : Place} (listed : place ∈ places) (flags : List ParsedFlag) (image : Text) (args : List Text) :
    Leaves (convert flags image args).service (flags.filterMap effectOf) place := by
  have left := convert_valueAt listed flags image args
  have kinds := effects_kind listed flags
  obtain ⟨kind, path⟩ := place
  cases kind with
  | list => exact left.trans (settle_list kinds [])
  | scalar => exact left.trans ((settle_scalar kinds none).trans Option.or_none)
  | map =>
      intro key
      rw [left, edits, settle_map kinds key none]
      have none_ : (fieldsOf none).get key = none := rfl
      rw [none_, Option.or_none]

end Dockge.DockerRun
