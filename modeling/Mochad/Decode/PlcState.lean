import Mochad.Decode.Plc

/-!
# Mochad.Decode.PlcState

What a power line packet does to the tracked state: at most one operation of
`x10state.c`, read off the packet by `plcOp`.  Everything else the decoder does
is output (`cm15aDecodePlc_quiet`).
-/

namespace Mochad

open CString
open World (idx16)

/-- The house value of a house/unit or house/function byte. -/
def plcHouse (b : UInt8) : Fin 16 := idx16 ((hfcDecode b).1.toNat - 65)

/-- The unit value of a house/unit or unit byte. -/
def plcUnit (b : UInt8) : Fin 16 := idx16 (ucDecode b - 1)

/-- The operation of a house/function byte. -/
def plcFuncOp (b : UInt8) : Option HuaOp :=
  let funcint := (hfcDecode b).2
  if funcint = 0 ∨ funcint = 6 then some (.funcAllOff (plcHouse b))
  else if funcint = 1 then some (.funcAllOn (plcHouse b))
  else if funcint = 2 ∨ funcint = 13 then some (.funcOn (plcHouse b))
  else if funcint = 3 ∨ funcint = 14 then some (.funcOff (plcHouse b))
  else none

/-- The operation of a packet. -/
def plcOp (buf : Ptr) (len : Nat) : Option HuaOp :=
  if len < 4 ∨ len > 8 then none
  else if buf 2 = 0x00 then
    if buf 1 = 2 then some (.add (plcHouse (buf 3)) (plcUnit (buf 3))) else none
  else if buf 2 = 0x01 then if buf 1 = 2 then plcFuncOp (buf 3) else none
  else if buf 2 = 0x02 then none
  else if buf 2 = 0x07 then
    if len = 7 then
      some (.setstatusXdim (plcHouse (buf 3)) (plcUnit (buf 4)) (buf 5).toNat)
    else none
  else if buf 2 = 0x08 then
    if len = 7 then
      some (.setstatusXdim (plcHouse (buf 6)) (plcUnit (buf 5)) (buf 4).toNat)
    else none
  else none

/-- The operations of a house/function byte are those on whole houses. -/
theorem plcFuncOp_some {b : UInt8} {op : HuaOp} (h : plcFuncOp b = some op) :
    op = .funcAllOff (plcHouse b) ∨ op = .funcAllOn (plcHouse b) ∨
      op = .funcOn (plcHouse b) ∨ op = .funcOff (plcHouse b) := by
  unfold plcFuncOp at h
  dsimp only at h
  split at h
  · exact .inl (Option.some.inj h).symm
  split at h
  · exact .inr (.inl (Option.some.inj h).symm)
  split at h
  · exact .inr (.inr (.inl (Option.some.inj h).symm))
  split at h
  · exact .inr (.inr (.inr (Option.some.inj h).symm))
  · cases h

/-- The packets that have an operation: an address, a function, and the two
extended codes. -/
theorem plcOp_some {buf : Ptr} {len : Nat} {op : HuaOp} (h : plcOp buf len = some op) :
    (buf 2 = 0x00 ∧ buf 1 = 2 ∧ op = .add (plcHouse (buf 3)) (plcUnit (buf 3))) ∨
    (buf 2 = 0x01 ∧ buf 1 = 2 ∧ plcFuncOp (buf 3) = some op) ∨
    (buf 2 = 0x07 ∧ len = 7 ∧
      op = .setstatusXdim (plcHouse (buf 3)) (plcUnit (buf 4)) (buf 5).toNat) ∨
    (buf 2 = 0x08 ∧ len = 7 ∧
      op = .setstatusXdim (plcHouse (buf 6)) (plcUnit (buf 5)) (buf 4).toNat) := by
  unfold plcOp at h
  split at h
  · cases h
  by_cases k0 : buf 2 = 0x00
  · rw [if_pos k0] at h
    obtain ⟨hc, hop⟩ := Option.ite_none_right_eq_some.mp h
    exact .inl ⟨k0, hc, (Option.some.inj hop).symm⟩
  rw [if_neg k0] at h
  by_cases k1 : buf 2 = 0x01
  · rw [if_pos k1] at h
    obtain ⟨hc, hop⟩ := Option.ite_none_right_eq_some.mp h
    exact .inr (.inl ⟨k1, hc, hop⟩)
  rw [if_neg k1] at h
  by_cases k2 : buf 2 = 0x02
  · rw [if_pos k2] at h
    cases h
  rw [if_neg k2] at h
  by_cases k7 : buf 2 = 0x07
  · rw [if_pos k7] at h
    obtain ⟨hl, hop⟩ := Option.ite_none_right_eq_some.mp h
    exact .inr (.inr (.inl ⟨k7, hl, (Option.some.inj hop).symm⟩))
  rw [if_neg k7] at h
  by_cases k8 : buf 2 = 0x08
  · rw [if_pos k8] at h
    obtain ⟨hl, hop⟩ := Option.ite_none_right_eq_some.mp h
    exact .inr (.inr (.inr ⟨k8, hl, (Option.some.inj hop).symm⟩))
  · rw [if_neg k8] at h
    cases h

/-- The tracked state after an optional operation. -/
def applyOp (op : Option HuaOp) (s : X10state) : X10state := op.elim s (·.apply s)

@[simp] theorem applyOp_none (s : X10state) : applyOp none s = s := rfl

@[simp] theorem applyOp_some (op : HuaOp) (s : X10state) : applyOp (some op) s = op.apply s := rfl

/-- The function of a packet has no effect but its operation. -/
theorem plcFunc_quiet {w w' : World} (h : Quiet w w') (b : UInt8) :
    Quiet { w with state := applyOp (plcFuncOp b) w.state }
      (plcFunc (hfcDecode b).2 ((hfcDecode b).1.toNat - 65) w') := by
  unfold plcFunc plcFuncOp
  by_cases h0 : (hfcDecode b).2 = 0 ∨ (hfcDecode b).2 = 6
  · simp only [h0, if_true]
    exact h.huaFunc _ _
  by_cases h1 : (hfcDecode b).2 = 1
  · simp only [h1]
    exact h.huaFunc _ _
  by_cases h2 : (hfcDecode b).2 = 2 ∨ (hfcDecode b).2 = 13
  · simp only [h0, h1, h2, if_true, if_false]
    exact h.huaFunc _ _
  by_cases h3 : (hfcDecode b).2 = 3 ∨ (hfcDecode b).2 = 14
  · simp only [h0, h1, h2, h3, if_true, if_false]
    exact h.huaFunc _ _
  · simp only [h0, h1, h2, h3, if_false]
    exact h

/-- Nor has an extended code. -/
theorem plcExtended_quiet (fd : Int) (b0 hf u data command : UInt8) (w : World) :
    Quiet { w with state := huaSetstatusXdim (plcHouse hf) (plcUnit u) data.toNat w.state }
      (plcExtended fd b0 hf u data command w) := by
  have h : Quiet w (((w.accessHfc hf).accessUc u).access .funcname (hfcDecode hf).2) :=
    (((Quiet.refl w).access _ _).access _ _).access _ _
  exact (h.sockprintf fd _).huaSetstatusXdim _ _ _

/-- A power line packet changes the tracked state by its operation, and nothing
else but the output. -/
theorem cm15aDecodePlc_quiet (fd : Int) (buf : Ptr) (len : Nat) (w : World) :
    Quiet { w with state := applyOp (plcOp buf len) w.state } (cm15aDecodePlc fd buf len w) := by
  have h := Quiet.refl w
  unfold cm15aDecodePlc plcOp
  by_cases h4 : len < 4
  · simp only [h4, true_or, if_true]
    exact h
  by_cases h8 : len > 8
  · simp only [h4, h8, or_true, if_true, if_false]
    exact h
  simp only [h4, h8, or_self, if_false]
  by_cases k0 : buf 2 = 0x00
  · simp only [k0, if_true]
    by_cases hc : buf 1 = 2
    · simp only [hc, ne_eq, not_true_eq_false, if_true, if_false]
      exact (((h.access _ _).access _ _).huaAdd _ _).sockprintf _ _
    · simp only [hc, ne_eq, not_false_eq_true, if_true, if_false]
      exact h
  by_cases k1 : buf 2 = 0x01
  · simp only [k1, if_true]
    by_cases hc : buf 1 = 2
    · simp only [hc, ne_eq, not_true_eq_false, if_true, if_false]
      exact ((plcFunc_quiet (h.access _ _) (buf 3)).access _ _).sockprintf _ _
    · simp only [hc, ne_eq, not_false_eq_true, if_true, if_false]
      exact h
  by_cases k2 : buf 2 = 0x02
  · simp only [k2, if_true]
    by_cases hc : buf 1 = 3
    · simp only [hc, ne_eq, not_true_eq_false, if_false]
      exact ((h.access _ _).access _ _).sockprintf _ _
    · simp only [hc, ne_eq, not_false_eq_true, if_true]
      exact h
  by_cases k7 : buf 2 = 0x07
  · simp only [k7, if_true]
    by_cases hl : len = 7
    · simp only [hl, ne_eq, not_true_eq_false, if_true, if_false]
      exact plcExtended_quiet _ _ _ _ _ _ w
    · simp only [hl, ne_eq, not_false_eq_true, if_true, if_false]
      exact h
  by_cases k8 : buf 2 = 0x08
  · simp only [k8, if_true]
    by_cases hl : len = 7
    · simp only [hl, ne_eq, not_true_eq_false, if_true, if_false]
      exact plcExtended_quiet _ _ _ _ _ _ w
    · simp only [hl, ne_eq, not_false_eq_true, if_true, if_false]
      exact h
  · simp only [k0, k1, k2, k7, k8, if_false]
    exact h

/-- The state after a packet is the state after its operation. -/
theorem cm15aDecodePlc_state (fd : Int) (buf : Ptr) (len : Nat) (w : World) :
    (cm15aDecodePlc fd buf len w).state = applyOp (plcOp buf len) w.state :=
  (cm15aDecodePlc_quiet fd buf len w).state

end Mochad
