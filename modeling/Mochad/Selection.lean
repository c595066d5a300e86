import Mochad.Encode.PlcSend
import Mochad.Lib.History
import Mochad.PlcHouses

/-!
# Mochad.Selection

Address selection on the power line.  House/unit packets select units, a
house/function packet applies to the units selected, and the first house/unit
packet after a function is meant to start over.  `X10protostate` keeps for
each house whether a function has been seen.

The functions the decoder only shows (dim, bright, extended codes, hail,
pre-set dim, status request, and every packet of kind 0x02) leave
`X10protostate` as it is, so a selection they should close stays open.
`selection_closes_iff` says that this is the only way in which a run departs
from the rule.
-/

namespace Mochad

open CString History

/-! ## Packets -/

/-- A full-length packet as it is received: house/unit, house/function, or
dim/bright. -/
inductive LinePacket where
  | houseunit (b0 hu : UInt8)
  | housefunc (b0 hf : UInt8)
  | dimbright (b0 amount hf : UInt8)
deriving DecidableEq, Repr

namespace LinePacket

def bytes : LinePacket → List UInt8
  | houseunit b0 hu => [b0, 0x02, 0x00, hu]
  | housefunc b0 hf => [b0, 0x02, 0x01, hf]
  | dimbright b0 amount hf => [b0, 0x03, 0x02, amount, hf]

/-- The house the packet is for. -/
def house : LinePacket → Fin 16
  | houseunit _ hu => plcHouse hu
  | housefunc _ hf => plcHouse hf
  | dimbright _ _ hf => plcHouse hf

/-- The unit of a house/unit packet. -/
def unit : LinePacket → Option (Fin 16)
  | houseunit _ hu => some (plcUnit hu)
  | housefunc _ _ => none
  | dimbright _ _ _ => none

/-- A house/unit packet; the others are functions. -/
def isAddress (p : LinePacket) : Bool := p.unit.isSome

/-- A house/function packet with On, Off, Status on or Status off. -/
def isOnOff : LinePacket → Bool
  | housefunc _ hf => (hfcDecode hf).2 ∈ [2, 3, 13, 14]
  | _ => false

/-- A function that the decoder shows but does not track. -/
def untracked : LinePacket → Bool
  | houseunit _ _ => false
  | housefunc _ hf => (hfcDecode hf).2 ∉ [0, 1, 2, 3, 6, 13, 14]
  | dimbright _ _ _ => true

/-- The operation on the tracked state. -/
def op : LinePacket → Option HuaOp
  | houseunit _ hu => some (.add (plcHouse hu) (plcUnit hu))
  | housefunc _ hf => plcFuncOp hf
  | dimbright _ _ _ => none

end LinePacket

/-- One packet received. -/
def receive (fd : Int) (w : World) (p : LinePacket) : World :=
  cm15aDecodePlc fd (Ptr.ofList p.bytes) p.bytes.length w

/-- A received packet is tracked by its operation. -/
theorem receive_state (fd : Int) (w : World) (p : LinePacket) :
    (receive fd w p).state = applyOp p.op w.state := by
  rw [receive, cm15aDecodePlc_state]
  cases p <;> rfl

/-! ## The rule -/

/-- The packets for one house. -/
def forHouse (h : Fin 16) (ps : List LinePacket) : List LinePacket := ps.filter (·.house = h)

/-- The last packet for the house was a function. -/
def FunctionLast (h : Fin 16) (ps : List LinePacket) : Prop :=
  Over LinePacket.isAddress (forHouse h ps)

/-- The units of the most recent run of house/unit packets for the house: those
addressed after the last function before it. -/
def addressed (h : Fin 16) (ps : List LinePacket) : List (Fin 16) :=
  (lastRun LinePacket.isAddress (forHouse h ps)).filterMap LinePacket.unit

/-- The rule of address selection for a house, in the state `w` after the
packets `ps`. -/
structure SelectionCloses (fd : Int) (h : Fin 16) (ps : List LinePacket) (w : World) : Prop where
  /-- After a function, the next house/unit packet starts a fresh selection. -/
  fresh : FunctionLast h ps → ∀ p : LinePacket, p.house = h → ∀ u, p.unit = some u →
    ∀ v, (receive fd w p).state.houseUnitSelected h v ≠ 0 ↔ v = u
  /-- On and Off reach addressed units of the house only. -/
  reach : ∀ p : LinePacket, p.house = h → p.isOnOff = true → ∀ k v,
    (receive fd w p).state.houseUnitState k v ≠ w.state.houseUnitState k v ∨
      (receive fd w p).state.houseUnitDim k v ≠ w.state.houseUnitDim k v →
    k = h ∧ v ∈ addressed h ps

/-- The packet is not an untracked function while its house has an open
selection. -/
def NoOpenClose (w : World) (p : LinePacket) : Prop :=
  ¬ (p.untracked = true ∧ w.state.x10protostate p.house = 0 ∧
    ∃ u, w.state.houseUnitSelected p.house u ≠ 0)

/-! ## One packet -/

/-- A function packet either is tracked and closes the selection, or does
nothing. -/
theorem plcFuncOp_cases (b0 hf : UInt8) :
    ((LinePacket.housefunc b0 hf).untracked = true ∧ plcFuncOp hf = none) ∨
    ((LinePacket.housefunc b0 hf).untracked = false ∧ ∀ s,
      (applyOp (plcFuncOp hf) s).houseUnitSelected = s.houseUnitSelected ∧
      (applyOp (plcFuncOp hf) s).x10protostate =
        Function.update s.x10protostate (plcHouse hf) 1) := by
  unfold plcFuncOp LinePacket.untracked
  by_cases h0 : (hfcDecode hf).2 = 0 ∨ (hfcDecode hf).2 = 6
  · right
    simp only [h0, if_true]
    exact ⟨by rcases h0 with h | h <;> simp [h], fun s => ⟨rfl, rfl⟩⟩
  by_cases h1 : (hfcDecode hf).2 = 1
  · right
    simp only [h1, if_true]
    exact ⟨by decide, fun s => ⟨rfl, rfl⟩⟩
  by_cases h2 : (hfcDecode hf).2 = 2 ∨ (hfcDecode hf).2 = 13
  · right
    simp only [h0, h1, h2, if_true, if_false]
    exact ⟨by rcases h2 with h | h <;> simp [h], fun s => ⟨rfl, rfl⟩⟩
  by_cases h3 : (hfcDecode hf).2 = 3 ∨ (hfcDecode hf).2 = 14
  · right
    simp only [h0, h1, h2, h3, if_true, if_false]
    exact ⟨by rcases h3 with h | h <;> simp [h], fun s => ⟨rfl, rfl⟩⟩
  · left
    simp only [h0, h1, h2, h3, if_false, and_true]
    simp only [not_or] at h0 h2 h3
    simp [h0, h1, h2, h3]

/-- On and Off reach the selected units of their house. -/
theorem onOff_reach {p : LinePacket} (hp : p.isOnOff = true) (s : X10state) (k v : Fin 16)
    (h : (applyOp p.op s).houseUnitState k v ≠ s.houseUnitState k v ∨
      (applyOp p.op s).houseUnitDim k v ≠ s.houseUnitDim k v) :
    k = p.house ∧ s.houseUnitSelected k v ≠ 0 := by
  have hfunc : ∀ func, (huaFunc p.house func s).houseUnitState k v ≠ s.houseUnitState k v ∨
      (huaFunc p.house func s).houseUnitDim k v ≠ s.houseUnitDim k v →
      k = p.house ∧ s.houseUnitSelected k v ≠ 0 := by
    intro func hch
    by_cases hk : k = p.house
    · subst hk
      refine ⟨rfl, fun hsel => ?_⟩
      simp [huaFunc, Houseunitaddrs.setRow, setProtostate, hsel] at hch
    · simp [huaFunc, Houseunitaddrs.setRow, setProtostate, hk] at hch
  cases p with
  | houseunit b0 hu => simp [LinePacket.isOnOff] at hp
  | dimbright b0 amount hf => simp [LinePacket.isOnOff] at hp
  | housefunc b0 hf =>
      simp only [LinePacket.isOnOff, List.mem_cons, List.not_mem_nil, or_false,
        decide_eq_true_eq] at hp
      obtain hp | hp | hp | hp := hp <;>
        simp only [LinePacket.op, plcFuncOp, hp] at h
      · exact hfunc charOn h
      · exact hfunc charOff h
      · exact hfunc charOn h
      · exact hfunc charOff h

/-- An operation is one on the house of its packet. -/
theorem LinePacket.house_of_op {p : LinePacket} {op : HuaOp} (h : p.op = some op) :
    op.house = p.house := by
  cases p with
  | houseunit b0 hu =>
      cases h
      rfl
  | housefunc b0 hf => exact plcFuncOp_house h
  | dimbright b0 amount hf => cases h

/-- A packet leaves the other houses alone. -/
theorem applyOp_other {p : LinePacket} {h : Fin 16} (hne : p.house ≠ h) (s : X10state) :
    (applyOp p.op s).houseUnitSelected h = s.houseUnitSelected h ∧
      (applyOp p.op s).x10protostate h = s.x10protostate h := by
  cases hop : p.op with
  | none => exact ⟨rfl, rfl⟩
  | some op =>
      have hrow : (op.apply s).row h = s.row h := by
        rw [row_apply, LinePacket.house_of_op hop, if_neg hne]
      exact ⟨congrArg HouseRow.selected hrow, congrArg HouseRow.protostate hrow⟩

/-- An address after a function selects its unit alone. -/
theorem huaAdd_fresh {h u : Fin 16} {s : X10state}
    (hs : s.x10protostate h = 1 ∨
      s.x10protostate h = 0 ∧ ∀ v, s.houseUnitSelected h v = 0) (v : Fin 16) :
    (huaAdd h u s).houseUnitSelected h v ≠ 0 ↔ v = u := by
  obtain h1 | ⟨h0, hsel⟩ := hs
  · by_cases hv : v = u <;>
      simp [huaAdd, huaInit, setProtostate, Houseunitaddrs.set, Houseunitaddrs.setRow, h1, hv]
  · by_cases hv : v = u <;> simp [huaAdd, Houseunitaddrs.set, h0, hsel, hv]

/-- An address while the selection is open joins it. -/
theorem huaAdd_join {h u : Fin 16} {s : X10state} (h0 : s.x10protostate h = 0) (v : Fin 16) :
    (huaAdd h u s).houseUnitSelected h v ≠ 0 ↔ v = u ∨ s.houseUnitSelected h v ≠ 0 := by
  by_cases hv : v = u <;> simp [huaAdd, Houseunitaddrs.set, h0, hv]

/-! ## Runs -/

/-- What a run keeps for a house: the selection is what the rule says, and
`X10protostate` knows of the last function unless nothing is selected. -/
structure Tracks (h : Fin 16) (ps : List LinePacket) (s : X10state) : Prop where
  selected : ∀ v, s.houseUnitSelected h v ≠ 0 ↔ v ∈ addressed h ps
  phase : (s.x10protostate h = 1 ∧ FunctionLast h ps) ∨
    (s.x10protostate h = 0 ∧ (FunctionLast h ps → addressed h ps = []))

/-- The first state has seen no packet. -/
theorem huaSecInit_tracks (h : Fin 16) : Tracks h [] huaSecInit where
  selected := by simp [addressed, forHouse, huaSecInit]
  phase := by simp [huaSecInit, FunctionLast, forHouse]

/-- The packets for a house, with one more. -/
theorem forHouse_concat (h : Fin 16) (ps : List LinePacket) (p : LinePacket) :
    forHouse h (ps ++ [p]) = if p.house = h then forHouse h ps ++ [p] else forHouse h ps := by
  by_cases hp : p.house = h <;> simp [forHouse, hp]

/-- A function packet closes the run of house/unit packets. -/
theorem addressed_concat_func {h : Fin 16} {p : LinePacket} (hp : p.house = h)
    (hf : p.isAddress = false) (ps : List LinePacket) :
    addressed h (ps ++ [p]) = addressed h ps ∧ FunctionLast h (ps ++ [p]) := by
  rw [addressed, addressed, FunctionLast, forHouse_concat, if_pos hp, lastRun_concat_neg hf,
    over_concat]
  exact ⟨rfl, hf⟩

/-- A house/unit packet starts a new run after a function, and else joins. -/
theorem addressed_concat_addr {h u : Fin 16} {p : LinePacket} (hp : p.house = h)
    (hu : p.unit = some u) (ps : List LinePacket) :
    ¬ FunctionLast h (ps ++ [p]) ∧
      (FunctionLast h ps → addressed h (ps ++ [p]) = [u]) ∧
      (¬ FunctionLast h ps → addressed h (ps ++ [p]) = u :: addressed h ps) := by
  have ha : p.isAddress = true := by simp [LinePacket.isAddress, hu]
  simp only [addressed, FunctionLast, forHouse_concat, if_pos hp, over_concat]
  refine ⟨by simp [ha], fun ho => ?_, fun ho => ?_⟩
  · simp [lastRun_concat_over ha ho, hu]
  · simp [lastRun_concat_pos ha ho, hu]

section
variable {h : Fin 16} {ps : List LinePacket} {s : X10state} (ht : Tracks h ps s)
include ht

/-- After a function, an address starts afresh. -/
theorem Tracks.fresh (hf : FunctionLast h ps) :
    s.x10protostate h = 1 ∨ s.x10protostate h = 0 ∧ ∀ v, s.houseUnitSelected h v = 0 := by
  obtain ⟨h1, -⟩ | ⟨h0, hnil⟩ := ht.phase
  · exact .inl h1
  · refine .inr ⟨h0, fun v => ?_⟩
    by_contra hv
    have hmem := (ht.selected v).mp hv
    simp [hnil hf] at hmem

/-- An address extends the selection, or starts a new one after a function. -/
theorem Tracks.address {p : LinePacket} {u : Fin 16} (hp : p.house = h) (hu : p.unit = some u) :
    Tracks h (ps ++ [p]) (huaAdd h u s) := by
  obtain ⟨hopen, hover, hjoin⟩ := addressed_concat_addr hp hu ps
  by_cases hf : FunctionLast h ps
  · have hfresh := ht.fresh hf
    refine ⟨fun v => ?_, .inr ⟨?_, fun hl => absurd hl hopen⟩⟩
    · rw [huaAdd_fresh hfresh, hover hf, List.mem_singleton]
    · obtain h1 | ⟨h0, -⟩ := hfresh
      · simp [huaAdd, setProtostate, h1]
      · simp [huaAdd, h0]
  · have h0 : s.x10protostate h = 0 := by
      obtain ⟨-, hl⟩ | ⟨h0, -⟩ := ht.phase
      · exact absurd hl hf
      · exact h0
    refine ⟨fun v => ?_, .inr ⟨by simp [huaAdd, h0], fun hl => absurd hl hopen⟩⟩
    rw [huaAdd_join h0, hjoin hf, List.mem_cons, ht.selected]

/-- A tracked function closes the selection. -/
theorem Tracks.function {s' : X10state} {p : LinePacket} (hp : p.house = h)
    (hf : p.isAddress = false) (hsel : s'.houseUnitSelected = s.houseUnitSelected)
    (hproto : s'.x10protostate h = 1) : Tracks h (ps ++ [p]) s' := by
  obtain ⟨haddr, hlast⟩ := addressed_concat_func hp hf ps
  exact ⟨by rw [hsel, haddr]; exact ht.selected, .inl ⟨hproto, hlast⟩⟩

/-- An untracked function does no harm while nothing is selected. -/
theorem Tracks.idle {p : LinePacket} (hp : p.house = h) (hf : p.isAddress = false)
    (hempty : ¬ (s.x10protostate h = 0 ∧ ∃ u, s.houseUnitSelected h u ≠ 0)) :
    Tracks h (ps ++ [p]) s := by
  obtain ⟨haddr, hlast⟩ := addressed_concat_func hp hf ps
  refine ⟨by rw [haddr]; exact ht.selected, ?_⟩
  rw [haddr]
  obtain ⟨h1, -⟩ | ⟨h0, -⟩ := ht.phase
  · exact .inl ⟨h1, hlast⟩
  · refine .inr ⟨h0, fun _ => List.eq_nil_iff_forall_not_mem.mpr fun v hv => ?_⟩
    exact hempty ⟨h0, v, (ht.selected v).mpr hv⟩

end

/-- Every packet keeps the selection in step with the rule, unless it is an
untracked function for an open selection. -/
theorem Tracks.step {fd : Int} {h : Fin 16} {ps : List LinePacket} {w : World} {p : LinePacket}
    (ht : Tracks h ps w.state) (hp : NoOpenClose w p) :
    Tracks h (ps ++ [p]) (receive fd w p).state := by
  rw [receive_state]
  by_cases hh : p.house = h
  · subst hh
    cases p with
    | houseunit b0 hu => exact ht.address rfl rfl
    | housefunc b0 hf =>
        obtain ⟨hun, hop⟩ | ⟨-, hop⟩ := plcFuncOp_cases b0 hf
        · simp only [LinePacket.op, hop, applyOp_none]
          exact ht.idle rfl rfl fun he => hp ⟨hun, he⟩
        · exact ht.function rfl rfl (hop w.state).1 (by simp [LinePacket.op, LinePacket.house, hop])
    | dimbright b0 amount hf => exact ht.idle rfl rfl fun he => hp ⟨rfl, he⟩
  · obtain ⟨hsel, hproto⟩ := applyOp_other hh w.state
    have hps : forHouse h (ps ++ [p]) = forHouse h ps := by rw [forHouse_concat, if_neg hh]
    refine ⟨?_, ?_⟩
    · rw [hsel, addressed, hps]
      exact ht.selected
    · rw [hproto, addressed, FunctionLast, hps]
      exact ht.phase

/-- The invariant gives the rule. -/
theorem Tracks.selectionCloses {fd : Int} {h : Fin 16} {ps : List LinePacket} {w : World}
    (ht : Tracks h ps w.state) : SelectionCloses fd h ps w where
  fresh := by
    intro hf p hp u hu v
    cases p with
    | houseunit b0 hu' =>
        obtain rfl : plcHouse hu' = h := hp
        obtain rfl : plcUnit hu' = u := Option.some.inj hu
        rw [receive_state]
        exact huaAdd_fresh (ht.fresh hf) v
    | housefunc b0 hf => simp [LinePacket.unit] at hu
    | dimbright b0 amount hf => simp [LinePacket.unit] at hu
  reach := by
    intro p hp hon k v hch
    rw [receive_state] at hch
    obtain ⟨hk, hsel⟩ := onOff_reach hon w.state k v hch
    obtain rfl : k = h := hk.trans hp
    exact ⟨rfl, (ht.selected v).mp hsel⟩

/-- The run of packets from power-up. -/
def receiveAll (fd : Int) (w : World) (ps : List LinePacket) : World :=
  Run.run (receive fd) { w with state := huaSecInit } ps

/-- So does a run without such packets. -/
theorem receiveAll_tracks {fd : Int} {w : World} {ps : List LinePacket}
    (h : Run.Along (receive fd) NoOpenClose { w with state := huaSecInit } ps) (k : Fin 16) :
    Tracks k ps (receiveAll fd w ps).state := by
  let I : List LinePacket → World → Prop := fun ps w => Tracks k ps w.state
  exact @Run.history World LinePacket _ _ _ I (huaSecInit_tracks k)
    (fun _ _ _ ht hp => Tracks.step ht hp) ps h

/-- An untracked function for a house with an open selection breaks the rule: an
address behind it joins the selection. -/
theorem not_selectionCloses {fd : Int} {ps : List LinePacket} {w : World} {p : LinePacket}
    (hp : ¬ NoOpenClose w p) : ¬ SelectionCloses fd p.house (ps ++ [p]) (receive fd w p) := by
  simp only [NoOpenClose, not_not] at hp
  obtain ⟨hun, h0, v, hv⟩ := hp
  intro hrule
  have hstate : (receive fd w p).state = w.state := by
    rw [receive_state]
    cases p with
    | houseunit b0 hu => simp [LinePacket.untracked] at hun
    | dimbright b0 amount hf => rfl
    | housefunc b0 hf =>
        obtain ⟨-, hop⟩ | ⟨hno, -⟩ := plcFuncOp_cases b0 hf
        · simp [LinePacket.op, hop]
        · simp [hno] at hun
  have hlast : FunctionLast p.house (ps ++ [p]) := by
    refine (addressed_concat_func rfl ?_ ps).2
    cases p <;> simp_all [LinePacket.untracked, LinePacket.isAddress, LinePacket.unit]
  -- any unit but `v` will do as the next address
  obtain ⟨u, hne⟩ := exists_ne v
  obtain ⟨hhouse, hunit⟩ := plcHouse_plcUnit_housecode p.house u
  have hsel := hrule.fresh hlast (.houseunit 0x5a (housecodeAt p.house <<< 4 ||| housecodeAt u))
    hhouse u (congrArg some hunit) v
  rw [receive_state, hstate, LinePacket.op, hhouse, hunit, applyOp_some, HuaOp.apply,
    huaAdd_join h0] at hsel
  exact hne (hsel.mp (.inr hv)).symm

/-- In a run from power-up the rule of address selection holds after every
packet, for every house, exactly when no untracked function ever arrives while
its house has an open selection. -/
theorem selection_closes_iff (fd : Int) (w : World) (ps : List LinePacket) :
    (∀ qs, qs <+: ps → ∀ h, SelectionCloses fd h qs (receiveAll fd w qs)) ↔
      Run.Along (receive fd) NoOpenClose { w with state := huaSecInit } ps := by
  constructor
  · intro hrule
    induction ps using List.reverseRecOn with
    | nil => exact Run.along_nil _ _ _
    | append_singleton ps p ih =>
        refine Run.along_concat.mpr ⟨ih fun qs hqs => hrule qs (hqs.trans (List.prefix_append _ _)), ?_⟩
        by_contra hp
        have hlast := hrule (ps ++ [p]) List.prefix_rfl p.house
        rw [receiveAll, Run.run_append] at hlast
        exact not_selectionCloses hp hlast
  · rintro halong qs ⟨rs, rfl⟩ h
    exact (receiveAll_tracks (Run.along_append.mp halong).1 h).selectionCloses

/-- A1, A dim, A2, A on: the last packet turns on A1 as well. -/
theorem selection_open_after_dim :
    let w := worldInit (stillSetup false)
    let ps := [LinePacket.houseunit 0x5a 0x66, .dimbright 0x5a 0x08 0x64, .houseunit 0x5a 0x6e]
    addressed 0 ps = [1] ∧ w.state = huaSecInit ∧
      (receiveAll (-1) w ps).state.houseUnitState 0 0 = 0 ∧
      (receiveAll (-1) w (ps ++ [.housefunc 0x5a 0x62])).state.houseUnitState 0 0 = charOn ∧
      ¬ SelectionCloses (-1) 0 ps (receiveAll (-1) w ps) := by
  refine ⟨by decide, rfl, by decide, by decide, fun hrule => ?_⟩
  have h := hrule.reach (.housefunc 0x5a 0x62) (by decide) (by decide) 0 0 (.inl (by decide))
  exact absurd h.2 (by decide)

end Mochad
