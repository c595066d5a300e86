import Mochad.Daemon
import Mochad.Decode.PlcState
import Mochad.Houses

/-!
# Mochad.PlcHouses

Power line packets of different houses do not interfere.  The house of a packet
is the nibble at a position that depends on the kind of the packet
(`PlcInput.house`); a packet of a house works on the row of that house, so the
row of a house after any sequence of packets is that after the packets for the
house alone.
-/

namespace Mochad

/-- A packet given to `cm15a_decode_plc`. -/
structure PlcInput where
  fd : Int
  buf : Ptr
  len : Nat

namespace PlcInput

/-- The house the packet is for: that of byte 3, behind a dim level of byte 4,
and in the reversed extended code of byte 6. -/
def house (p : PlcInput) : Option (Fin 16) :=
  if p.buf 2 = 0x00 ∨ p.buf 2 = 0x01 ∨ p.buf 2 = 0x07 then some (plcHouse (p.buf 3))
  else if p.buf 2 = 0x02 then some (plcHouse (p.buf 4))
  else if p.buf 2 = 0x08 then some (plcHouse (p.buf 6))
  else none

/-- The operation of the packet. -/
def op (p : PlcInput) : Option HuaOp := plcOp p.buf p.len

end PlcInput

/-- One packet received or about to be sent. -/
def decodePlc (w : World) (p : PlcInput) : World := cm15aDecodePlc p.fd p.buf p.len w

theorem plcFuncOp_house {b : UInt8} {op : HuaOp} (h : plcFuncOp b = some op) :
    op.house = plcHouse b := by
  obtain rfl | rfl | rfl | rfl := plcFuncOp_some h <;> rfl

/-- An operation is one on the house of its packet. -/
theorem PlcInput.house_of_op {p : PlcInput} {op : HuaOp} (h : p.op = some op) :
    p.house = some op.house := by
  unfold PlcInput.house
  obtain ⟨k0, -, rfl⟩ | ⟨k1, -, hop⟩ | ⟨k7, -, rfl⟩ | ⟨k8, -, rfl⟩ := plcOp_some h
  · simp [k0, HuaOp.house]
  · simp [k1, plcFuncOp_house hop]
  · simp [k7, HuaOp.house]
  · simp [k8, HuaOp.house]

/-- A packet works on the row of its house. -/
theorem decodePlc_row (w : World) (p : PlcInput) (h : Fin 16) :
    (decodePlc w p).state.row h =
      if p.house = some h then p.op.elim (w.state.row h) (·.onRow (w.state.row h))
      else w.state.row h := by
  have hstate : (decodePlc w p).state = applyOp p.op w.state := (cm15aDecodePlc_quiet _ _ _ _).state
  rw [hstate]
  cases hop : p.op with
  | none => simp
  | some op =>
      rw [applyOp_some, row_apply, PlcInput.house_of_op hop]
      simp

/-- The row of a house follows the packets for the house. -/
theorem decodePlc_row_run (w : World) (ps : List PlcInput) (h : Fin 16) :
    (Run.run decodePlc w ps).state.row h =
      Run.run (fun r p => p.op.elim r (·.onRow r)) (w.state.row h)
        (ps.filter (·.house = some h)) := by
  let π : World → HouseRow := fun w => w.state.row h
  have hstep : ∀ w (p : PlcInput), π (decodePlc w p) =
      if decide (p.house = some h) then p.op.elim (π w) (·.onRow (π w)) else π w := fun w p => by
    simpa using decodePlc_row w p h
  exact @Run.run_project _ _ _ _ _ π _ hstep w ps

/-- Houses do not interfere: after any sequence of packets, the row of a house
is that after the packets for the house alone.  So packets for different houses
commute. -/
theorem houses_independent (w : World) (ps : List PlcInput) :
    (∀ h, (Run.run decodePlc w ps).state.row h =
      (Run.run decodePlc w (ps.filter (·.house = some h))).state.row h) ∧
    ∀ p q : PlcInput, p.house ≠ q.house → ∀ h,
      (Run.run decodePlc w (ps ++ [p, q])).state.row h =
        (Run.run decodePlc w (ps ++ [q, p])).state.row h := by
  constructor
  · intro h
    rw [decodePlc_row_run, decodePlc_row_run, List.filter_filter]
    simp only [Bool.and_self]
  · intro p q hne h
    rw [decodePlc_row_run, decodePlc_row_run, List.filter_append, List.filter_append]
    by_cases hp : p.house = some h
    · have hq : q.house ≠ some h := fun hq => hne (hp.trans hq.symm)
      simp [hp, hq]
    · by_cases hq : q.house = some h <;> simp [hp, hq]

/-- A1 and the function On of house B. -/
theorem houses_independent_a_b :
    let p : PlcInput := ⟨-1, Ptr.ofList [0x5a, 0x02, 0x00, 0x66], 4⟩
    let q : PlcInput := ⟨-1, Ptr.ofList [0x5a, 0x02, 0x01, 0xe2], 4⟩
    (Run.run decodePlc (worldInit (stillSetup false)) [p, q]).state.row 0 =
      (Run.run decodePlc (worldInit (stillSetup false)) [q, p]).state.row 0 :=
  (houses_independent (worldInit (stillSetup false)) []).2 _ _ (by decide) 0

end Mochad
