import Mochad.Houses
import Mochad.Reception

/-!
# Mochad.SelfAddressed

An RF On or Off packet names its unit, but it is tracked as an address and a
function of the power line would be: `hua_add` joins the selection that earlier
addresses of the house have left open, and the function covers all of it.
`rf_selfAddressed` says for which states no other unit is touched.
`hua_setstatus_xdim`, the other self-addressed event, clears the selection
first.
-/

namespace Mochad

/-- The states that calls of `x10state.c` lead to; it keeps its variables to
itself. -/
inductive X10state.Reachable : X10state → Prop
  | init : Reachable huaSecInit
  | hua (op : HuaOp) {s : X10state} (h : Reachable s) : Reachable (op.apply s)
  | secEvent (now addr : Nat) (funct secaddr8 : UInt8) {s : X10state} (h : Reachable s) :
      Reachable (huaSecEvent now addr funct secaddr8 s)
  | sort {s : X10state} (h : Reachable s) : Reachable (sortSensors s)

/-- The unit takes the state, and no other unit of any house changes. -/
structure SetsOnly (house unit : Fin 16) (v : UInt8) (s s' : X10state) : Prop where
  own : s'.houseUnitState house unit = v
  others : ∀ h u, ¬ (h = house ∧ u = unit) →
    s'.houseUnitState h u = s.houseUnitState h u ∧ s'.houseUnitDim h u = s.houseUnitDim h u

/-! ## Protocol states -/

/-- `X10protostate` stays 0 or 1. -/
theorem HuaOp.onRow_protostate (op : HuaOp) {r : HouseRow} (h : r.protostate = 0 ∨ r.protostate = 1) :
    (op.onRow r).protostate = 0 ∨ (op.onRow r).protostate = 1 := by
  cases op with
  | add house unit =>
      left
      obtain h | h := h <;> simp [HuaOp.onRow, HouseRow.add, h]
  | _ => exact .inr rfl

/-- The cases of `hua_add` are the only ones. -/
theorem X10state.Reachable.protostate {s : X10state} (h : s.Reachable) (house : Fin 16) :
    s.x10protostate house = 0 ∨ s.x10protostate house = 1 := by
  induction h with
  | init => exact .inl rfl
  | hua op _ ih =>
      rename_i s _
      have hrow := congrArg HouseRow.protostate (row_apply op s house)
      change (op.apply s).x10protostate house = _ at hrow
      rw [hrow]
      split
      · exact op.onRow_protostate ih
      · exact ih
  | secEvent now addr funct secaddr8 _ ih =>
      unfold huaSecEvent
      split
      · exact ih
      · split <;> exact ih
  | sort _ ih => exact ih

/-! ## Address and function -/

/-- The units an address and a function cover. -/
theorem HouseRow.add_func {r : HouseRow} (h : r.protostate = 0 ∨ r.protostate = 1)
    (unit : Fin 16) (v : UInt8) (u : Fin 16) :
    (((r.add unit).func v).state u, ((r.add unit).func v).dim u) =
      if u = unit ∨ r.protostate = 0 ∧ r.selected u ≠ 0 then (v, onOffDim v)
      else (r.state u, r.dim u) := by
  have hsel : (r.add unit).selected u ≠ 0 ↔ u = unit ∨ r.protostate = 0 ∧ r.selected u ≠ 0 := by
    obtain h | h := h
    · by_cases hu : u = unit <;> simp [HouseRow.add, h, hu]
    · simp [HouseRow.add, h]
  have hunits : (r.add unit).state = r.state ∧ (r.add unit).dim = r.dim := by
    unfold HouseRow.add
    split
    · exact ⟨rfl, rfl⟩
    · split <;> exact ⟨rfl, rfl⟩
  rw [HouseRow.func, hunits.1, hunits.2]
  dsimp only
  by_cases hu : u = unit ∨ r.protostate = 0 ∧ r.selected u ≠ 0
  · rw [if_pos hu, if_pos (hsel.mpr hu), if_pos (hsel.mpr hu)]
  · rw [if_neg hu, if_neg (mt hsel.mp hu), if_neg (mt hsel.mp hu)]

section
variable {s : X10state} {house : Fin 16} (h : s.x10protostate house = 0 ∨ s.x10protostate house = 1)
  (unit : Fin 16) (v : UInt8)

/-- Selecting a unit and a function for it change the row of the house. -/
theorem huaFunc_huaAdd_row (h' : Fin 16) :
    (huaFunc house v (huaAdd house unit s)).row h' =
      if house = h' then ((s.row h').add unit).func v else s.row h' := by
  rw [huaFunc_row, huaAdd_row]
  split <;> rfl

include h

/-- They reach the unit, and those selected before if the selection was open. -/
theorem huaFunc_huaAdd_unit (u : Fin 16) :
    ((huaFunc house v (huaAdd house unit s)).houseUnitState house u,
      (huaFunc house v (huaAdd house unit s)).houseUnitDim house u) =
      if u = unit ∨ s.x10protostate house = 0 ∧ s.houseUnitSelected house u ≠ 0 then (v, onOffDim v)
      else (s.houseUnitState house u, s.houseUnitDim house u) := by
  have hrow := @huaFunc_huaAdd_row s house unit v house
  rw [if_pos rfl] at hrow
  have hcover := HouseRow.add_func (r := s.row house) h unit v u
  rw [← hrow] at hcover
  exact hcover

/-- An address and a function set their unit, and no other one exactly when the
address starts a new selection or the units selected before it are already as the
function leaves them. -/
theorem setsOnly_iff :
    SetsOnly house unit v s (huaFunc house v (huaAdd house unit s)) ↔
      s.x10protostate house = 1 ∨ ∀ u, u ≠ unit → s.houseUnitSelected house u ≠ 0 →
        s.houseUnitState house u = v ∧ s.houseUnitDim house u = onOffDim v := by
  have hunit := huaFunc_huaAdd_unit h unit v
  constructor
  · intro honly
    refine or_iff_not_imp_left.mpr fun h1 u hu hsel => ?_
    have hu' := hunit u
    rw [if_pos (.inr ⟨h.resolve_right h1, hsel⟩), Prod.mk.injEq] at hu'
    obtain ⟨hstate, hdim⟩ := honly.others house u fun heq => hu heq.2
    exact ⟨hstate.symm.trans hu'.1, hdim.symm.trans hu'.2⟩
  · intro hcond
    constructor
    · have hown := hunit unit
      rw [if_pos (.inl rfl), Prod.mk.injEq] at hown
      exact hown.1
    · intro h' u hne
      by_cases hh : house = h'
      · subst hh
        have hu : u ≠ unit := fun heq => hne ⟨rfl, heq⟩
        have hu' := hunit u
        by_cases hsel : s.x10protostate house = 0 ∧ s.houseUnitSelected house u ≠ 0
        · -- the unit joins, and is already as the function leaves it
          have h1 : ¬ s.x10protostate house = 1 := by
            rw [hsel.1]
            decide
          obtain ⟨hstate, hdim⟩ := hcond.resolve_left h1 u hu hsel.2
          rw [if_pos (.inr hsel), Prod.mk.injEq] at hu'
          exact ⟨hu'.1.trans hstate.symm, hu'.2.trans hdim.symm⟩
        · rw [if_neg (not_or.mpr ⟨hu, hsel⟩), Prod.mk.injEq] at hu'
          exact hu'
      · have hother := @huaFunc_huaAdd_row s house unit v h'
        rw [if_neg hh] at hother
        exact ⟨congrFun (congrArg HouseRow.state hother) u, congrFun (congrArg HouseRow.dim hother) u⟩

end

/-! ## Packets -/

/-- The state of an On or Off event. -/
def onOff (funcint : Nat) : UInt8 := if funcint ≠ 0 then charOff else charOn

/-- An On or Off event comes from a standard packet. -/
theorem rfEvent_houseUnit {k : RfPacket} {p : Ptr} {housechar : UInt8} {unitint : Int} {funcint : Nat}
    (h : rfEvent k p = some (.houseUnit housechar unitint funcint)) :
    k = .standard ∧ hufcDecode (p 2) (p 4) = (housechar, unitint, funcint) := by
  cases k with
  | standard =>
      simp only [rfEvent] at h
      split at h
      · cases h
      · cases h
        exact ⟨rfl, rfl⟩
  | rejected => cases h
  | camera commandp => cases h
  | security8 => cases h
  | securityLong a0 a1 a2 funcint => cases h

section
variable {w : World} {a : Arrival} {housechar : UInt8} {unitint : Int} {funcint : Nat}
  (he : a.event = some (.houseUnit housechar unitint funcint)) (hnew : a.suppressed w = false)
  (hoff : ¬ bridged housechar w)
include he hnew hoff

/-- An event that is not bridged is tracked once. -/
theorem receiveRf_houseUnit :
    (receiveRf w a).1.state =
      huaFunc (World.idx16 (housechar.toNat - 65)) (onOff funcint)
        (huaAdd (World.idx16 (housechar.toNat - 65)) (World.idx16 (unitint - 1)) w.state) := by
  obtain ⟨hk, hdecode⟩ := rfEvent_houseUnit he
  have hstd : classifyRf a.packet a.size ≠ .rejected := by
    rw [hk]
    rintro ⟨⟩
  obtain ⟨h5, h8⟩ := classifyRf_length hstd
  have hskip : skipExtra a.buf a.len = (a.packet, a.size) := rfl
  have hdec := rfDecoded_of_new hskip hstd a.fd hnew
  rw [hk] at hdec
  obtain ⟨u, hu, hr⟩ := hdec.quiet
  have hbridged := mt (repeated_bridged h5 h8 hu a.fd housechar).mp hoff
  simp only [rfBridge, hdecode, if_neg hbridged] at hr
  have hstate := (sameTracked_repeatRF a.fd a.packet a.size u).state
  rw [receiveRf, hr, hstate, hu.state, rfTrack, dupFilter_state]
  rw [Arrival.event, hk] at he
  dsimp only
  rw [(rfOps_eq he).1]
  by_cases h0 : funcint = 0 <;> simp [applyOps, RfEvent.ops, HuaOp.apply, onOff, h0, huaFuncOn, huaFuncOff]

/-- A standard RF On or Off packet that is accepted and not bridged sets its unit
and touches no other one: this holds exactly when the last selection of the house
is over, or the units selected are already as the packet would leave them. -/
theorem rf_selfAddressed (hreach : w.state.Reachable) :
    let house := World.idx16 (housechar.toNat - 65)
    let unit := World.idx16 (unitint - 1)
    SetsOnly house unit (onOff funcint) w.state (cm15aDecodeRf a.fd a.buf a.len w).state ↔
      w.state.x10protostate house = 1 ∨ ∀ u, u ≠ unit → w.state.houseUnitSelected house u ≠ 0 →
        w.state.houseUnitState house u = onOff funcint ∧
          w.state.houseUnitDim house u = onOffDim (onOff funcint) := by
  intro house unit
  have hstate : (cm15aDecodeRf a.fd a.buf a.len w).state =
      huaFunc house (onOff funcint) (huaAdd house unit w.state) := receiveRf_houseUnit he hnew hoff
  rw [hstate]
  exact setsOnly_iff (hreach.protostate house) unit (onOff funcint)

end

/-- A2 On by radio. -/
def a2On : Arrival := ⟨-1, Ptr.ofList [0x5d, 0x20, 0x60, 0x9f, 0x10, 0xef], 6⟩

/-- Bridging off, and some events on the power line. -/
def afterEvents (ops : List HuaOp) : World :=
  { worldInit (stillSetup false) with rfToPl16 := 0, state := applyOps ops huaSecInit }

/-- A1 on the power line, then A On: the selection is over. -/
theorem rf_selfAddressed_over :
    let w := afterEvents [.add 0 0, .funcOn 0]
    SetsOnly 0 1 charOn w.state (cm15aDecodeRf a2On.fd a2On.buf a2On.len w).state :=
  (@rf_selfAddressed (afterEvents [.add 0 0, .funcOn 0]) a2On 65 2 0 (by decide)
    (by decide) (by decide) (.hua (.funcOn 0) (.hua (.add 0 0) .init))).mpr (.inl (by decide))

/-- A1 on the power line and no function yet: A2 On by radio turns A1 on as well. -/
theorem rf_selfAddressed_open :
    let w := afterEvents [.add 0 0]
    let r := cm15aDecodeRf a2On.fd a2On.buf a2On.len w
    a2On.event = some (.houseUnit 65 2 0) ∧ a2On.suppressed w = false ∧ ¬ bridged 65 w ∧
      w.state.houseUnitState 0 0 = 0 ∧ r.state.houseUnitState 0 1 = charOn ∧
      r.state.houseUnitState 0 0 = charOn := by
  decide

end Mochad
