import Mochad.Lib.CString
import Mathlib.Data.List.Sort

/-!
# Mochad.X10state

The tracked device state of `x10state.c`: on/off state, selection and dim
level of the 16 × 16 house/unit devices, the one-bit protocol state of each
house code, and the table of RF security sensors.

The 16-entry arrays are functions on `Fin 16`; the sensor array is the list of
its first `X10sensorcount` entries (the entries behind them are never read).
-/

namespace Mochad

open CString

/-! ## Data -/

/-- 16 house codes and 16 unit codes = 256 devices. -/
abbrev Houseunitaddrs := Fin 16 → Fin 16 → UInt8

/-- A tracked RF security sensor (`x10secsensor_t`). -/
structure X10secsensor where
  secaddr : Nat
  lastupdate : Nat
  /-- 0 = 17 bit address, 1 = 8 bit address. -/
  secaddr8 : UInt8
  sensorstatus : UInt8
deriving DecidableEq, Repr

/-- The file-scope variables of `x10state.c`. -/
structure X10state where
  /-- 0x00 = unknown, '1' = ON, '0' = OFF. -/
  houseUnitState : Houseunitaddrs
  /-- 0x00 = not selected, '1' = selected. -/
  houseUnitSelected : Houseunitaddrs
  /-- 0..255 dim as set by the xdim command. -/
  houseUnitDim : Houseunitaddrs
  /-- 0 = house/unit code, 1 = house/function. -/
  x10protostate : Fin 16 → Int
  x10sensors : List X10secsensor

/-- The character `'0'`. -/
abbrev charOff : UInt8 := 48

/-- The character `'1'`. -/
abbrev charOn : UInt8 := 49

/-- Store one cell of a house/unit array. -/
def Houseunitaddrs.set (a : Houseunitaddrs) (house unit : Fin 16) (v : UInt8) : Houseunitaddrs :=
  fun h u => if h = house ∧ u = unit then v else a h u

/-- Store the whole row of a house. -/
def Houseunitaddrs.setRow (a : Houseunitaddrs) (house : Fin 16) (row : Fin 16 → UInt8) :
    Houseunitaddrs :=
  fun h u => if h = house then row u else a h u

@[simp] theorem charOn_ne_zero : charOn ≠ 0 := by decide

/-! ## House/unit devices -/

/-- `hua_sec_init`. -/
def huaSecInit : X10state where
  houseUnitState := fun _ _ => 0
  houseUnitSelected := fun _ _ => 0
  houseUnitDim := fun _ _ => 0
  x10protostate := fun _ => 0
  x10sensors := []

/-- `hua_init`: clear the selection of a house. -/
def huaInit (house : Fin 16) (s : X10state) : X10state :=
  { s with houseUnitSelected := s.houseUnitSelected.setRow house fun _ => 0 }

/-- Store one `X10protostate` entry. -/
def setProtostate (house : Fin 16) (v : Int) (s : X10state) : X10state :=
  { s with x10protostate := Function.update s.x10protostate house v }

/-- `hua_getstatus`. -/
def huaGetstatus (house unit : Fin 16) (s : X10state) : UInt8 := s.houseUnitState house unit

/-- `hua_getstatus_xdim`. -/
def huaGetstatusXdim (house unit : Fin 16) (s : X10state) : UInt8 := s.houseUnitDim house unit

/-- `hua_setstatus_xdim`. -/
def huaSetstatusXdim (house unit : Fin 16) (xdim : Int) (s : X10state) : X10state :=
  let s := huaInit house s
  let s := { s with houseUnitSelected := s.houseUnitSelected.set house unit charOn }
  let s := setProtostate house 1 s
  let s := { s with houseUnitDim := s.houseUnitDim.set house unit (UInt8.ofInt xdim) }
  { s with houseUnitState :=
      s.houseUnitState.set house unit (if xdim > 0 then charOn else charOff) }

/-- `hua_add`: select a unit; the first one after a function starts afresh. -/
def huaAdd (house unit : Fin 16) (s : X10state) : X10state :=
  if s.x10protostate house = 0 then
    { s with houseUnitSelected := s.houseUnitSelected.set house unit charOn }
  else if s.x10protostate house = 1 then
    let s := huaInit house s
    let s := { s with houseUnitSelected := s.houseUnitSelected.set house unit charOn }
    setProtostate house 0 s
  else s -- "Invalid state"

/-- The dim level that goes with an on/off state. -/
def onOffDim (func : UInt8) : UInt8 := if func = charOn then 63 else 0

/-- `hua_func_all`. -/
def huaFuncAll (house : Fin 16) (func : UInt8) (s : X10state) : X10state :=
  let s := setProtostate house 1 s
  { s with
    houseUnitState := s.houseUnitState.setRow house fun _ => func
    houseUnitDim := s.houseUnitDim.setRow house fun _ => onOffDim func }

/-- `hua_func_all_on`. -/
def huaFuncAllOn (house : Fin 16) (s : X10state) : X10state := huaFuncAll house charOn s

/-- `hua_func_all_off`. -/
def huaFuncAllOff (house : Fin 16) (s : X10state) : X10state := huaFuncAll house charOff s

/-- `hua_func`: the function applies to the selected units. -/
def huaFunc (house : Fin 16) (func : UInt8) (s : X10state) : X10state :=
  let s := setProtostate house 1 s
  let sel := s.houseUnitSelected house
  { s with
    houseUnitState := s.houseUnitState.setRow house fun u =>
      if sel u ≠ 0 then func else s.houseUnitState house u
    houseUnitDim := s.houseUnitDim.setRow house fun u =>
      if sel u ≠ 0 then onOffDim func else s.houseUnitDim house u }

/-- `hua_func_on`. -/
def huaFuncOn (house : Fin 16) (s : X10state) : X10state := huaFunc house charOn s

/-- `hua_func_off`. -/
def huaFuncOff (house : Fin 16) (s : X10state) : X10state := huaFunc house charOff s

/-- The operations on house/unit devices. -/
inductive HuaOp where
  | add (house unit : Fin 16)
  | funcOn (house : Fin 16)
  | funcOff (house : Fin 16)
  | funcAllOn (house : Fin 16)
  | funcAllOff (house : Fin 16)
  | setstatusXdim (house unit : Fin 16) (xdim : Int)
deriving DecidableEq, Repr

/-- What an operation does. -/
def HuaOp.apply : HuaOp → X10state → X10state
  | add house unit => huaAdd house unit
  | funcOn house => huaFuncOn house
  | funcOff house => huaFuncOff house
  | funcAllOn house => huaFuncAllOn house
  | funcAllOff house => huaFuncAllOff house
  | setstatusXdim house unit xdim => huaSetstatusXdim house unit xdim

/-! ## Security sensors -/

/-- `sizeof(X10sensors)/sizeof(x10secsensor_t)`. -/
def x10sensorsSize : Nat := 512

/-- `(secaddr[0] << 16) | (secaddr[1] << 8) | secaddr[2]`. -/
def secaddr32 (a0 a1 a2 : UInt8) : Nat := a0.toNat <<< 16 ||| a1.toNat <<< 8 ||| a2.toNat

/-- A long address by its bytes. -/
theorem secaddr32_eq (a0 a1 a2 : UInt8) :
    secaddr32 a0 a1 a2 = a0.toNat * 2 ^ 16 + a1.toNat * 2 ^ 8 + a2.toNat := by
  have h1 := a1.toNat_lt
  have h2 := a2.toNat_lt
  have hor : a1.toNat <<< 8 ||| a2.toNat = a1.toNat * 2 ^ 8 + a2.toNat := by
    rw [← Nat.shiftLeft_add_eq_or_of_lt h2, Nat.shiftLeft_eq]
  rw [secaddr32, Nat.or_assoc, hor, ← Nat.shiftLeft_add_eq_or_of_lt (by omega), Nat.shiftLeft_eq]
  omega

/-- The update loop of `hua_sec_event`: the first entry with the address, if
there is one, takes the new status. -/
def updateSensor (addr : Nat) (funct : UInt8) (now : Nat) :
    List X10secsensor → Option (List X10secsensor)
  | [] => none
  | sen :: rest =>
      if addr = sen.secaddr then some ({ sen with sensorstatus := funct, lastupdate := now } :: rest)
      else (updateSensor addr funct now rest).map (sen :: ·)

/-- `hua_sec_event`; `now` is the value of `time(NULL)`. -/
def huaSecEvent (now : Nat) (addr : Nat) (funct : UInt8) (secaddr8 : UInt8) (s : X10state) :
    X10state :=
  match updateSensor addr funct now s.x10sensors with
  | some sensors => { s with x10sensors := sensors }
  | none =>
      -- add new device, one slot of the array stays unused
      if x10sensorsSize ≤ s.x10sensors.length + 1 then s
      else { s with x10sensors := s.x10sensors ++ [⟨addr, now, secaddr8, funct⟩] }

/-- `hua_sec_event` writes an entry, and so calls `time(NULL)`: the address is known,
or there is room for it. -/
def X10state.Records (addr : Nat) (s : X10state) : Prop :=
  s.x10sensors.length + 1 < x10sensorsSize ∨ ∃ sen ∈ s.x10sensors, addr = sen.secaddr

instance (addr : Nat) (s : X10state) : Decidable (s.Records addr) := inferInstanceAs (Decidable (_ ∨ _))

/-- An address no entry has is not updated. -/
theorem updateSensor_eq_none {addr : Nat} {funct : UInt8} {now : Nat} {sensors : List X10secsensor}
    (h : ∀ sen ∈ sensors, addr ≠ sen.secaddr) : updateSensor addr funct now sensors = none := by
  induction sensors with
  | nil => rfl
  | cons sen rest ih =>
      obtain ⟨hsen, hrest⟩ := List.forall_mem_cons.mp h
      rw [updateSensor, if_neg hsen, ih hrest]
      rfl

/-- Without an entry to write, nothing changes. -/
theorem huaSecEvent_of_not_records {addr : Nat} {s : X10state} (h : ¬ s.Records addr) (now : Nat)
    (funct secaddr8 : UInt8) : huaSecEvent now addr funct secaddr8 s = s := by
  obtain ⟨hfull, hnew⟩ := not_or.mp h
  have hnone : updateSensor addr funct now s.x10sensors = none :=
    updateSensor_eq_none fun sen hsen heq => hnew ⟨sen, hsen, heq⟩
  rw [huaSecEvent, hnone]
  exact if_pos (Nat.le_of_not_lt hfull)

/-- The status codes `hua_getstatus_sec` knows, by address kind; `none` where
its `switch` falls through and the scan goes on. -/
def statusSwitch (rf8bitaddr : Bool) (status : UInt8) : Option Int :=
  if rf8bitaddr then
    if status = 0x04 then some 1 -- alert
    else if status = 0x84 then some 0 -- normal
    else none
  else if status ∈ [0x00, 0x01, 0x04, 0x05, 0x0C, 0x0D] then some 1 -- alert
  else if status ∈ [0x80, 0x81, 0x84, 0x85, 0x8C, 0x8D] then some 0 -- normal
  else none

/-- The scan of `hua_getstatus_sec`. -/
def getstatusSecScan (rf8bitaddr : Int) (rfaddr : Nat) : List X10secsensor → Int
  | [] => -1
  | sen :: rest =>
      if rf8bitaddr ≠ 0 ∧ sen.secaddr8 ≠ 0 ∧ rfaddr = sen.secaddr then
        (statusSwitch true sen.sensorstatus).getD (getstatusSecScan rf8bitaddr rfaddr rest)
      else if rf8bitaddr = 0 ∧ sen.secaddr8 = 0 ∧ rfaddr = sen.secaddr then
        (statusSwitch false sen.sensorstatus).getD (getstatusSecScan rf8bitaddr rfaddr rest)
      else getstatusSecScan rf8bitaddr rfaddr rest

/-- `hua_getstatus_sec`: 1 alert, 0 normal, -1 not known. -/
def huaGetstatusSec (rf8bitaddr : Int) (rfaddr : Nat) (s : X10state) : Int :=
  getstatusSecScan rf8bitaddr rfaddr s.x10sensors

/-- `cmpX10sensor`: the difference of two `unsigned long`, returned as `int`. -/
def cmpX10sensor (sen1 sen2 : X10secsensor) : Int :=
  cInt (((sen1.secaddr : Int) - sen2.secaddr) % 2 ^ 64)

/-- `qsort` of the sensor table with `cmpX10sensor`. -/
def sortSensors (s : X10state) : X10state :=
  { s with x10sensors := s.x10sensors.insertionSort fun a b => cmpX10sensor a b ≤ 0 }

end Mochad
