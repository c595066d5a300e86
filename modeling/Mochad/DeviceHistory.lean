import Mochad.Houses
import Mochad.Lib.History

/-!
# Mochad.DeviceHistory

The tracked devices against the history of the events of their house.  The
code keeps one bit of that history, `X10protostate`, and clears the selection
only when the next address arrives; `house_refines_history` says what the
arrays hold in terms of the whole list of events.
-/

namespace Mochad

open History

/-! ## The history -/

namespace HuaOp

/-- An address. -/
def isAdd : HuaOp → Bool
  | add _ _ => true
  | _ => false

/-- The unit an address adds. -/
def added : HuaOp → Option (Fin 16)
  | add _ unit => some unit
  | _ => none

/-- The single unit an event selects, if it says anything about the selection:
an address does not select a single unit. -/
def single : HuaOp → Option (Option (Fin 16))
  | add _ _ => some none
  | setstatusXdim _ unit _ => some (some unit)
  | _ => none

/-- The state and the dim level an event gives a unit it covers, where `sel` is
what is selected at that moment. -/
def sets (sel : List (Fin 16)) (u : Fin 16) : HuaOp → Option (UInt8 × UInt8)
  | add _ _ => none
  | funcOn _ => if u ∈ sel then some (charOn, 63) else none
  | funcOff _ => if u ∈ sel then some (charOff, 0) else none
  | funcAllOn _ => some (charOn, 63)
  | funcAllOff _ => some (charOff, 0)
  | setstatusXdim _ unit xdim =>
      if u = unit then some (if xdim > 0 then charOn else charOff, UInt8.ofInt xdim) else none

end HuaOp

/-- The events for a house. -/
def eventsFor (h : Fin 16) (ops : List HuaOp) : List HuaOp := ops.filter (·.house = h)

/-- The units selected after the events of a house: those of the most recent
run of addresses, or the unit of a later `hua_setstatus_xdim`. -/
def selectedAfter (es : List HuaOp) : List (Fin 16) :=
  match latest HuaOp.single es with
  | some (some unit) => [unit]
  | _ => (lastRun HuaOp.isAdd es).filterMap HuaOp.added

/-- State and dim level of a unit after the events of its house: those set by
the last event that covers it. -/
def unitAfter (u : Fin 16) (es : List HuaOp) : UInt8 × UInt8 :=
  (latestGiven (fun past op => op.sets (selectedAfter past) u) es).getD (0, 0)

/-! ## One event -/

section
variable {es : List HuaOp} {op : HuaOp}

/-- On, off and their all-units forms leave the selection. -/
theorem selectedAfter_func (hadd : op.isAdd = false) (hsingle : op.single = none) :
    selectedAfter (es ++ [op]) = selectedAfter es := by
  simp only [selectedAfter, latest_concat, hsingle, Option.none_or, lastRun_concat_neg hadd]

/-- An extended dim selects its unit and nothing else. -/
theorem selectedAfter_xdim (house unit : Fin 16) (xdim : Int) :
    selectedAfter (es ++ [.setstatusXdim house unit xdim]) = [unit] := by
  simp only [selectedAfter, latest_concat, HuaOp.single, Option.some_or]

/-- Inside a run of addresses no single unit is selected. -/
theorem latest_single_of_not_over (h : ¬ Over HuaOp.isAdd es) :
    latest HuaOp.single es = none ∨ latest HuaOp.single es = some none := by
  induction es using List.reverseRecOn with
  | nil => exact .inl rfl
  | append_singleton es op _ =>
      right
      rw [over_concat, Bool.not_eq_false] at h
      cases op <;> simp_all [HuaOp.isAdd, latest_concat, HuaOp.single]

/-- While the selection is open, the selected units are those of the last run. -/
theorem selectedAfter_of_not_over (h : ¬ Over HuaOp.isAdd es) :
    selectedAfter es = (lastRun HuaOp.isAdd es).filterMap HuaOp.added := by
  obtain hl | hl := latest_single_of_not_over h <;> rw [selectedAfter, hl]

/-- An address starts a new selection when the last run is over, and joins it
otherwise. -/
theorem selectedAfter_add (house unit : Fin 16) :
    (Over HuaOp.isAdd es → selectedAfter (es ++ [.add house unit]) = [unit]) ∧
      (¬ Over HuaOp.isAdd es → selectedAfter (es ++ [.add house unit]) = unit :: selectedAfter es) := by
  have hpos : HuaOp.isAdd (.add house unit) = true := rfl
  have hnew : selectedAfter (es ++ [.add house unit]) =
      (lastRun HuaOp.isAdd (es ++ [.add house unit])).filterMap HuaOp.added :=
    selectedAfter_of_not_over (by simp [hpos])
  constructor
  · intro ho
    rw [hnew, lastRun_concat_over hpos ho]
    rfl
  · intro ho
    rw [hnew, lastRun_concat_pos hpos ho, selectedAfter_of_not_over ho]
    rfl

/-- A unit after one more operation. -/
theorem unitAfter_concat (u : Fin 16) :
    unitAfter u (es ++ [op]) = (op.sets (selectedAfter es) u).getD (unitAfter u es) := by
  rw [unitAfter, latestGiven_concat]
  cases op.sets (selectedAfter es) u <;> rfl

end

/-! ## The invariant -/

/-- The row of a house holds what the events say, and `X10protostate` whether
the last run of addresses is over. -/
structure HouseRow.Holds (es : List HuaOp) (r : HouseRow) : Prop where
  selected : ∀ v, r.selected v ≠ 0 ↔ v ∈ selectedAfter es
  phase : (r.protostate = 1 ∧ Over HuaOp.isAdd es) ∨ (r.protostate = 0 ∧ ¬ Over HuaOp.isAdd es)
  units : ∀ u, (r.state u, r.dim u) = unitAfter u es

/-- No operation has been seen in the first state. -/
theorem holds_init : HouseRow.init.Holds [] where
  selected := by simp [HouseRow.init, selectedAfter]
  phase := by simp [HouseRow.init]
  units := fun u => rfl

section
variable {es : List HuaOp} {r : HouseRow} (h : r.Holds es)
include h

theorem HouseRow.Holds.add (house unit : Fin 16) : (r.add unit).Holds (es ++ [.add house unit]) := by
  have hopen : ¬ Over HuaOp.isAdd (es ++ [.add house unit]) := by simp [HuaOp.isAdd]
  have hunits : ∀ u, (r.state u, r.dim u) = unitAfter u (es ++ [.add house unit]) := by
    intro u
    rw [unitAfter_concat, h.units]
    rfl
  obtain ⟨hover, hjoin⟩ := @selectedAfter_add es house unit
  obtain ⟨h1, ho⟩ | ⟨h0, ho⟩ := h.phase
  · have hrow : r.add unit = { r with selected := only unit, protostate := 0 } := by
      simp [HouseRow.add, h1]
    rw [hrow]
    exact ⟨by simp [hover ho], .inr ⟨rfl, hopen⟩, hunits⟩
  · have hrow : r.add unit = { r with selected := Function.update r.selected unit charOn } := by
      simp [HouseRow.add, h0]
    rw [hrow]
    refine ⟨fun v => ?_, .inr ⟨h0, hopen⟩, hunits⟩
    rw [hjoin ho, List.mem_cons, ← h.selected]
    by_cases hv : v = unit <;> simp [hv]

/-- A function for the selected units. -/
theorem HouseRow.Holds.func {op : HuaOp} {v d : UInt8} (hadd : op.isAdd = false)
    (hsingle : op.single = none)
    (hsets : ∀ sel u, op.sets sel u = if u ∈ sel then some (v, d) else none) (hd : onOffDim v = d) :
    (r.func v).Holds (es ++ [op]) := by
  refine ⟨?_, .inl ⟨rfl, over_concat.mpr hadd⟩, fun u => ?_⟩
  · rw [selectedAfter_func hadd hsingle]
    exact h.selected
  · rw [unitAfter_concat, hsets, ← h.units]
    by_cases hu : r.selected u ≠ 0
    · simp [HouseRow.func, hu, (h.selected u).mp hu, hd]
    · simp [HouseRow.func, hu, mt (h.selected u).mpr hu]

/-- A function for all units. -/
theorem HouseRow.Holds.funcAll {op : HuaOp} {v d : UInt8} (hadd : op.isAdd = false)
    (hsingle : op.single = none) (hsets : ∀ sel u, op.sets sel u = some (v, d))
    (hd : onOffDim v = d) : (r.funcAll v).Holds (es ++ [op]) := by
  refine ⟨?_, .inl ⟨rfl, over_concat.mpr hadd⟩, fun u => ?_⟩
  · rw [selectedAfter_func hadd hsingle]
    exact h.selected
  · rw [unitAfter_concat, hsets, Option.getD_some, HouseRow.funcAll, hd]

theorem HouseRow.Holds.setXdim (house unit : Fin 16) (xdim : Int) :
    (r.setXdim unit xdim).Holds (es ++ [.setstatusXdim house unit xdim]) := by
  refine ⟨?_, .inl ⟨rfl, over_concat.mpr rfl⟩, fun u => ?_⟩
  · simp [HouseRow.setXdim, selectedAfter_xdim]
  · rw [unitAfter_concat, ← h.units]
    by_cases hu : u = unit
    · simp [HouseRow.setXdim, HuaOp.sets, hu]
    · simp [HouseRow.setXdim, HuaOp.sets, hu]

/-- An event of the house keeps the invariant. -/
theorem HouseRow.Holds.step (op : HuaOp) : (op.onRow r).Holds (es ++ [op]) := by
  cases op with
  | add house unit => exact h.add house unit
  | funcOn house => exact h.func rfl rfl (fun _ _ => rfl) rfl
  | funcOff house => exact h.func rfl rfl (fun _ _ => rfl) rfl
  | funcAllOn house => exact h.funcAll rfl rfl (fun _ _ => rfl) rfl
  | funcAllOff house => exact h.funcAll rfl rfl (fun _ _ => rfl) rfl
  | setstatusXdim house unit xdim => exact h.setXdim house unit xdim

end

/-- The row of a house follows the events for the house. -/
theorem holds_run (es : List HuaOp) :
    (Run.run (fun r op => op.onRow r) HouseRow.init es).Holds es := by
  induction es using List.reverseRecOn with
  | nil => exact holds_init
  | append_singleton es op ih =>
      rw [Run.run_append]
      exact ih.step op

/-- After every sequence of events from `hua_sec_init`, the selected units of a
house are those of its most recent run of addresses, or the unit of a later
`hua_setstatus_xdim`, and state and dim level of a unit are those set by the
last event of the house that covers it. -/
theorem house_refines_history (ops : List HuaOp) (h : Fin 16) :
    let s := Run.run (fun s op => op.apply s) huaSecInit ops
    (∀ u, s.houseUnitSelected h u ≠ 0 ↔ u ∈ selectedAfter (eventsFor h ops)) ∧
      ∀ u, (s.houseUnitState h u, s.houseUnitDim h u) = unitAfter u (eventsFor h ops) := by
  intro s
  have hrow : s.row h = Run.run (fun r op => op.onRow r) HouseRow.init (eventsFor h ops) :=
    row_run huaSecInit ops h
  have hholds : (s.row h).Holds (eventsFor h ops) := by
    rw [hrow]
    exact holds_run _
  exact ⟨hholds.selected, hholds.units⟩

/-- B3, B4, B On. -/
example : unitAfter 3 (eventsFor 1 [.add 1 2, .add 0 5, .add 1 3, .funcOn 1]) = (charOn, 63) := by
  decide

end Mochad
