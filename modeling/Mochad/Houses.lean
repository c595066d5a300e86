import Mochad.X10state
import Mochad.Lib.Run
import Mathlib.Logic.Function.Basic

/-!
# Mochad.Houses

The tracked devices house by house.  `x10state.c` keeps a row of three arrays
and a protocol state for each house code, and every operation works on the row
of its own house: `HuaOp.onRow` is the operation on a single row, and
`row_apply` says that this is all it does.  So the row of a house follows the
operations for that house alone (`row_run`).
-/

namespace Mochad

/-- What is kept for one house. -/
@[ext] structure HouseRow where
  state : Fin 16 → UInt8
  selected : Fin 16 → UInt8
  dim : Fin 16 → UInt8
  protostate : Int

/-- The row of a house. -/
def X10state.row (s : X10state) (h : Fin 16) : HouseRow where
  state := s.houseUnitState h
  selected := s.houseUnitSelected h
  dim := s.houseUnitDim h
  protostate := s.x10protostate h

namespace HouseRow

/-- The row of `hua_sec_init`. -/
def init : HouseRow := ⟨fun _ => 0, fun _ => 0, fun _ => 0, 0⟩

/-- One unit selected and no other. -/
def only (unit : Fin 16) : Fin 16 → UInt8 := Function.update (fun _ => 0) unit charOn

/-- `hua_add` on a row. -/
def add (unit : Fin 16) (r : HouseRow) : HouseRow :=
  if r.protostate = 0 then { r with selected := Function.update r.selected unit charOn }
  else if r.protostate = 1 then { r with selected := only unit, protostate := 0 }
  else r

/-- `hua_func` on a row. -/
def func (v : UInt8) (r : HouseRow) : HouseRow where
  state := fun u => if r.selected u ≠ 0 then v else r.state u
  selected := r.selected
  dim := fun u => if r.selected u ≠ 0 then onOffDim v else r.dim u
  protostate := 1

/-- `hua_func_all` on a row. -/
def funcAll (v : UInt8) (r : HouseRow) : HouseRow where
  state := fun _ => v
  selected := r.selected
  dim := fun _ => onOffDim v
  protostate := 1

/-- `hua_setstatus_xdim` on a row. -/
def setXdim (unit : Fin 16) (xdim : Int) (r : HouseRow) : HouseRow where
  state := Function.update r.state unit (if xdim > 0 then charOn else charOff)
  selected := only unit
  dim := Function.update r.dim unit (UInt8.ofInt xdim)
  protostate := 1

@[simp] theorem only_ne_zero {unit v : Fin 16} : only unit v ≠ 0 ↔ v = unit := by
  by_cases h : v = unit <;> simp [only, h]

end HouseRow

/-- The house of an operation. -/
def HuaOp.house : HuaOp → Fin 16
  | add house _ => house
  | funcOn house => house
  | funcOff house => house
  | funcAllOn house => house
  | funcAllOff house => house
  | setstatusXdim house _ _ => house

/-- What an operation does to the row of its house. -/
def HuaOp.onRow : HuaOp → HouseRow → HouseRow
  | add _ unit => HouseRow.add unit
  | funcOn _ => HouseRow.func charOn
  | funcOff _ => HouseRow.func charOff
  | funcAllOn _ => HouseRow.funcAll charOn
  | funcAllOff _ => HouseRow.funcAll charOff
  | setstatusXdim _ unit xdim => HouseRow.setXdim unit xdim

/-! ## Rows -/

section
variable (s : X10state) (house unit h : Fin 16)

/-- Storing a cell changes one cell of the row of its house. -/
theorem set_row (a : Houseunitaddrs) (v : UInt8) :
    a.set house unit v h = if house = h then Function.update (a h) unit v else a h := by
  funext u
  by_cases hh : house = h
  · by_cases hu : u = unit <;> simp [Houseunitaddrs.set, hh, hu]
  · simp [Houseunitaddrs.set, hh, Ne.symm hh]

/-- Setting the row of one house leaves the others. -/
theorem setRow_row (a : Houseunitaddrs) (row : Fin 16 → UInt8) :
    a.setRow house row h = if house = h then row else a h := by
  funext u
  by_cases hh : house = h
  · simp [Houseunitaddrs.setRow, hh]
  · simp [Houseunitaddrs.setRow, hh, Ne.symm hh]

/-- Selecting a unit changes the row of its house. -/
theorem huaAdd_row :
    (huaAdd house unit s).row h = if house = h then (s.row h).add unit else s.row h := by
  by_cases hh : house = h
  · subst hh
    by_cases h0 : s.x10protostate house = 0
    · simp [huaAdd, HouseRow.add, X10state.row, h0, set_row]
    by_cases h1 : s.x10protostate house = 1
    · simp [huaAdd, huaInit, HouseRow.add, HouseRow.only, X10state.row, h1, set_row, setRow_row,
        setProtostate]
    · simp [huaAdd, HouseRow.add, X10state.row, h0, h1]
  · by_cases h0 : s.x10protostate house = 0
    · simp [huaAdd, X10state.row, h0, set_row, hh]
    by_cases h1 : s.x10protostate house = 1
    · simp [huaAdd, huaInit, X10state.row, h1, set_row, setRow_row, setProtostate, hh, Ne.symm hh]
    · simp [huaAdd, h0, h1, hh]

/-- So does a function for the units selected. -/
theorem huaFunc_row (v : UInt8) :
    (huaFunc house v s).row h = if house = h then (s.row h).func v else s.row h := by
  by_cases hh : house = h
  · subst hh
    simp only [huaFunc, HouseRow.func, X10state.row, setRow_row, setProtostate, if_true,
      Function.update_self]
    rfl
  · simp [huaFunc, X10state.row, setRow_row, setProtostate, hh, Ne.symm hh]

/-- So does a function for all units. -/
theorem huaFuncAll_row (v : UInt8) :
    (huaFuncAll house v s).row h = if house = h then (s.row h).funcAll v else s.row h := by
  by_cases hh : house = h
  · subst hh
    simp [huaFuncAll, HouseRow.funcAll, X10state.row, setRow_row, setProtostate]
  · simp [huaFuncAll, X10state.row, setRow_row, setProtostate, hh, Ne.symm hh]

/-- And so does an extended dim. -/
theorem huaSetstatusXdim_row (xdim : Int) :
    (huaSetstatusXdim house unit xdim s).row h =
      if house = h then (s.row h).setXdim unit xdim else s.row h := by
  by_cases hh : house = h
  · subst hh
    simp [huaSetstatusXdim, huaInit, HouseRow.setXdim, HouseRow.only, X10state.row, set_row,
      setRow_row, setProtostate]
  · simp [huaSetstatusXdim, huaInit, X10state.row, set_row, setRow_row, setProtostate, hh,
      Ne.symm hh]

end

/-- An operation works on the row of its house and on nothing else. -/
theorem row_apply (op : HuaOp) (s : X10state) (h : Fin 16) :
    (op.apply s).row h = if op.house = h then op.onRow (s.row h) else s.row h := by
  cases op with
  | add house unit => exact huaAdd_row s house unit h
  | funcOn house => exact huaFunc_row s house h charOn
  | funcOff house => exact huaFunc_row s house h charOff
  | funcAllOn house => exact huaFuncAll_row s house h charOn
  | funcAllOff house => exact huaFuncAll_row s house h charOff
  | setstatusXdim house unit xdim => exact huaSetstatusXdim_row s house unit h xdim

/-- The row of a house follows the operations for the house. -/
theorem row_run (s : X10state) (ops : List HuaOp) (h : Fin 16) :
    (Run.run (fun s op => op.apply s) s ops).row h =
      Run.run (fun r op => op.onRow r) (s.row h) (ops.filter (·.house = h)) := by
  let π : X10state → HouseRow := fun s => s.row h
  have hstep : ∀ s (op : HuaOp), π (op.apply s) =
      if decide (op.house = h) then op.onRow (π s) else π s := fun s op => by
    simpa using row_apply op s h
  exact @Run.run_project _ _ _ _ _ π _ hstep s ops

end Mochad
