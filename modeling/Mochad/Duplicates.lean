import Mochad.Selection
import Mochad.Sensors

/-!
# Mochad.Duplicates

The duplicate filter against the tracked state, over runs of packets that each
carry the state of a device: security packets of sensors with a long address,
and standard On and Off packets.

The filter compares bytes, so it also takes the second of two equal packets for
a copy when another packet of the device came in between
(`reopened_within_window`).  What it does guarantee is `status_after`: the
state of a device is what the latest accepted packet said.
-/

namespace Mochad

open CString History Keyed

/-! ## Devices -/

/-- What the daemon tracks. -/
inductive Device where
  | sensor (secaddr : Nat)
  | unit (house unit : Fin 16)
deriving DecidableEq, Repr

/-- The tracked status; 0x00 is unknown. -/
def X10state.status (s : X10state) : Device → Option UInt8
  | .sensor secaddr => (lookup X10secsensor.secaddr secaddr s.x10sensors).map (·.sensorstatus)
  | .unit house unit =>
      if s.houseUnitState house unit = 0 then none else some (s.houseUnitState house unit)

/-- The device an event is about and the status it carries. -/
def RfEvent.carries : RfEvent → Option (Device × UInt8)
  | security false addr funct => some (.sensor addr, funct)
  | houseUnit housechar unitint funcint =>
      some (.unit (World.idx16 (housechar.toNat - 65)) (World.idx16 (unitint - 1)),
        if funcint ≠ 0 then charOff else charOn)
  | _ => none

/-- The status an accepted packet carries for a device. -/
def Accepted.statusOf (d : Device) (x : Accepted) : Option UInt8 :=
  x.event.carries.bind fun (d', v) => if d' = d then some v else none

/-- The packet carries the state of a device. -/
def Arrival.Carries (a : Arrival) : Prop :=
  ∃ e d v, a.event = some e ∧ e.carries = some (d, v)

/-- A security event leaves the other devices alone. -/
theorem huaSecEvent_eq (now addr : Nat) (funct secaddr8 : UInt8) (s : X10state) :
    ∃ sensors, huaSecEvent now addr funct secaddr8 s = { s with x10sensors := sensors } := by
  unfold huaSecEvent
  split
  · exact ⟨_, rfl⟩
  · split
    · exact ⟨s.x10sensors, rfl⟩
    · exact ⟨_, rfl⟩

/-! ## House/unit devices -/

/-- Before the next address the selection of a house starts afresh. -/
def Fresh (s : X10state) : Prop :=
  ∀ h, s.x10protostate h = 1 ∨ s.x10protostate h = 0 ∧ ∀ v, s.houseUnitSelected h v = 0

/-- Selecting a unit changes no state of a unit. -/
theorem huaAdd_houseUnitState (house unit : Fin 16) (s : X10state) :
    (huaAdd house unit s).houseUnitState = s.houseUnitState := by
  unfold huaAdd
  split
  · rfl
  · split <;> rfl

/-- An address leaves the other houses alone. -/
theorem huaAdd_other {h house : Fin 16} (hne : h ≠ house) (unit : Fin 16) (s : X10state) :
    (huaAdd house unit s).houseUnitSelected h = s.houseUnitSelected h ∧
      (huaAdd house unit s).x10protostate h = s.x10protostate h := by
  have hrow : (huaAdd house unit s).row h = s.row h := by
    rw [huaAdd_row, if_neg (Ne.symm hne)]
  exact ⟨congrArg HouseRow.selected hrow, congrArg HouseRow.protostate hrow⟩

/-- On and Off set the state of their unit, and close the selection. -/
theorem huaFunc_huaAdd {s : X10state} (hs : Fresh s) (house unit : Fin 16) (func : UInt8) :
    Fresh (huaFunc house func (huaAdd house unit s)) ∧
      (huaFunc house func (huaAdd house unit s)).houseUnitState =
        s.houseUnitState.set house unit func := by
  constructor
  · intro h
    by_cases hh : h = house
    · subst hh
      exact .inl (by simp [huaFunc, setProtostate])
    · obtain ⟨hsel, hproto⟩ := huaAdd_other hh unit s
      have := hs h
      rwa [← hsel, ← hproto, ← Function.update_of_ne hh 1 (huaAdd house unit s).x10protostate] at this
  · funext h u
    have hsel := huaAdd_fresh (u := unit) (hs house) u
    by_cases hh : h = house
    · subst hh
      by_cases hu : u = unit
      · subst hu
        simp [huaFunc, Houseunitaddrs.setRow, Houseunitaddrs.set, setProtostate, hsel.mpr rfl]
      · simp [huaFunc, Houseunitaddrs.setRow, Houseunitaddrs.set, setProtostate, hsel, hu,
          huaAdd_houseUnitState]
    · simp [huaFunc, Houseunitaddrs.setRow, Houseunitaddrs.set, setProtostate, hh,
        huaAdd_houseUnitState]

/-- An On or Off event sets the state of its unit, whether it is bridged or not. -/
theorem tracks_houseUnit {s s' : X10state} (hs : Fresh s) {housechar : UInt8} {unitint : Int}
    {funcint : Nat} (h : (RfEvent.houseUnit housechar unitint funcint).Tracks s s') :
    Fresh s' ∧ s'.houseUnitState = s.houseUnitState.set (World.idx16 (housechar.toNat - 65))
      (World.idx16 (unitint - 1)) (if funcint ≠ 0 then charOff else charOn) := by
  generalize hhouse : World.idx16 (housechar.toNat - 65) = house at h ⊢
  generalize hunit : World.idx16 (unitint - 1) = unit at h ⊢
  have hops : ∀ t, applyOps (RfEvent.houseUnit housechar unitint funcint).ops t =
      huaFunc house (if funcint ≠ 0 then charOff else charOn) (huaAdd house unit t) := by
    intro t
    by_cases h0 : funcint = 0 <;>
      simp [applyOps, RfEvent.ops, HuaOp.apply, h0, hhouse, hunit, huaFuncOn, huaFuncOff]
  simp only [RfEvent.Tracks, hops] at h
  obtain ⟨hf, hst⟩ := huaFunc_huaAdd hs house unit (if funcint ≠ 0 then charOff else charOn)
  obtain rfl | rfl := h
  · exact ⟨hf, hst⟩
  · obtain ⟨hf', hst'⟩ := huaFunc_huaAdd hf house unit (if funcint ≠ 0 then charOff else charOn)
    refine ⟨hf', ?_⟩
    rw [hst', hst]
    funext h u
    by_cases hc : h = house ∧ u = unit <;> simp [Houseunitaddrs.set, hc]

/-! ## The run -/

/-- Every entry of the filter in use stands for a packet accepted at most 650 ms
before it expires. -/
def FilterKnows (out : List Accepted) (dups : List DupEntry) : Prop :=
  ∀ q ∈ dups, q.rfCmdLen ≠ 0 → ∃ x ∈ out, q.holds x.key x.key.length ∧ q.timems ≤ x.timems + dupTime

/-- What a run of packets keeps. -/
structure DevicesTrack (as : List Arrival) (out : List Accepted) (w : World) : Prop where
  sensors : SensorsTrack as out w.state
  fresh : Fresh w.state
  units : ∀ house unit, w.state.status (.unit house unit) =
    latest (Accepted.statusOf (.unit house unit)) out
  known : ∀ x ∈ out, ∃ a ∈ as, a.event = some x.event ∧ a.key = x.key
  filter : FilterKnows out w.dups

/-- At the start nothing has been received. -/
theorem devicesTrack_init (as : List Arrival) {w : World} (hstate : w.state = huaSecInit)
    (hdups : w.dups = dupsInit) : DevicesTrack as [] w where
  sensors := hstate ▸ sensorsTrack_init as
  fresh := fun h => by simp [hstate, huaSecInit]
  units := fun h u => by rw [hstate]; rfl
  known := fun x h => by cases h
  filter := fun q hq hne => by
    have hunused : ∀ q ∈ dupsInit, q.rfCmdLen = 0 := by decide
    exact absurd (hunused q (hdups ▸ hq)) hne

section
variable {as : List Arrival} {out : List Accepted} {w : World}

/-- Packets that carry what they are taken for are of one kind. -/
theorem oneKind_of_carries (hcarries : ∀ a ∈ as, a.Carries) : OneKind as := by
  have hlong : ∀ a ∈ as, ∀ k addr f, a.event = some (.security k addr f) → k = false := by
    intro a ha k addr f he
    obtain ⟨e, d, v, he', hc⟩ := hcarries a ha
    obtain rfl := Option.some.inj (he.symm.trans he')
    cases k with
    | false => rfl
    | true => cases hc
  intro a ha b hb ka kb addr fa fb hea heb
  rw [hlong a ha ka addr fa hea, hlong b hb kb addr fb heb]

/-- The tracked status of a device is what the latest accepted packet said. -/
theorem DevicesTrack.status_eq (hcarries : ∀ a ∈ as, a.Carries) (h : DevicesTrack as out w)
    (d : Device) : w.state.status d = latest (Accepted.statusOf d) out := by
  cases d with
  | unit house unit => exact h.units house unit
  | sensor secaddr =>
      have hreport : ∀ x ∈ out, x.statusOf (.sensor secaddr) = (x.report secaddr).map Prod.snd := by
        intro x hx
        obtain ⟨a, ha, he, -⟩ := h.known x hx
        obtain ⟨e, d, v, he', hc⟩ := hcarries a ha
        obtain rfl := Option.some.inj (he.symm.trans he')
        simp only [Accepted.statusOf, Accepted.report]
        cases hev : x.event with
        | security k addr f =>
            cases k with
            | true =>
                rw [hev] at hc
                cases hc
            | false => by_cases haddr : addr = secaddr <;> simp [RfEvent.carries, haddr]
        | houseUnit housechar unitint funcint => simp [RfEvent.carries]
        | house housechar funcint => simp [RfEvent.carries]
        | camera commandp => simp [RfEvent.carries]
      rw [latest_congr hreport, latest_map, ← h.sensors.latest_eq secaddr, Option.map_map]
      rfl

/-- The filter knows of the packets it lets through. -/
theorem FilterKnows.receiveRf (h : FilterKnows out w.dups) (a : Arrival)
    (hx : a.suppressed w = false → ∃ x ∈ out, x.key = a.key ∧ x.timems = w.clock 1) :
    FilterKnows out (dupFilter a.packet a.size w).2.dups := by
  intro q hq hne
  obtain h0 | hold | ⟨hsup, hholds, htime⟩ := mem_dupFilter_dups hq
  · exact absurd h0 hne
  · exact h q hold hne
  · obtain ⟨x, hmem, hkey, ht⟩ := hx hsup
    refine ⟨x, hmem, ?_, ?_⟩
    · rw [hkey, Arrival.key, Ptr.length_bytes]
      exact hholds
    · rw [htime, ht]
      exact Nat.mod_le _ _

/-- An accepted packet sets the status of the unit it addresses. -/
theorem DevicesTrack.units_concat (h : DevicesTrack as out w) {x : Accepted} {d : Device} {v : UInt8}
    (hc : x.event.carries = some (d, v)) {s' : X10state} (ht : x.event.Tracks w.state s') :
    Fresh s' ∧ ∀ house unit, s'.status (.unit house unit) =
      latest (Accepted.statusOf (.unit house unit)) (out ++ [x]) := by
  have hstatus : ∀ house unit, x.statusOf (.unit house unit) =
      if d = .unit house unit then some v else none := fun house unit => by
    simp [Accepted.statusOf, hc]
  cases hev : x.event with
  | house housechar funcint =>
      rw [hev] at hc
      cases hc
  | camera commandp =>
      rw [hev] at hc
      cases hc
  | security k addr funct =>
      rw [hev] at hc ht
      obtain ⟨now, rfl⟩ := ht
      obtain ⟨sensors, hsec⟩ := huaSecEvent_eq now addr funct (if k then 1 else 0) w.state
      rw [hsec]
      refine ⟨h.fresh, fun house unit => ?_⟩
      have hne : d ≠ .unit house unit := by
        cases k with
        | true => cases hc
        | false =>
            cases hc
            simp
      rw [latest_concat, hstatus, if_neg hne, Option.none_or, ← h.units]
      rfl
  | houseUnit housechar unitint funcint =>
      rw [hev] at hc ht
      obtain ⟨hf, hst⟩ := tracks_houseUnit h.fresh ht
      cases hc
      refine ⟨hf, fun house unit => ?_⟩
      rw [latest_concat, hstatus, ← h.units]
      have hfunc : (if funcint ≠ 0 then charOff else charOn) ≠ 0 := by split <;> decide
      generalize (if funcint ≠ 0 then charOff else charOn) = func at hst hfunc ⊢
      simp only [X10state.status, hst, Houseunitaddrs.set, Device.unit.injEq]
      by_cases hu : house = World.idx16 (housechar.toNat - 65) ∧ unit = World.idx16 (unitint - 1)
      · rw [if_pos hu, if_neg hfunc, if_pos ((and_congr eq_comm eq_comm).mp hu), Option.some_or]
      · rw [if_neg hu, if_neg (mt (and_congr eq_comm eq_comm).mp hu), Option.none_or]

/-- A step keeps track. -/
theorem DevicesTrack.receiveRf (hroom : RoomFor as) (hcarries : ∀ a ∈ as, a.Carries)
    (h : DevicesTrack as out w) {a : Arrival} (ha : a ∈ as) :
    DevicesTrack as (out ++ (receiveRf w a).2) (receiveRf w a).1 := by
  have hkind := h.sensors.keepsKind (oneKind_of_carries hcarries) ha
  have hsensors := h.sensors.receiveRf hroom ha hkind
  obtain ⟨e, d, v, he, hc⟩ := hcarries a ha
  obtain ⟨hnone, -⟩ | ⟨e', he', hcases, hdups⟩ := receiveRf_cases w a
  · rw [he] at hnone
    cases hnone
  obtain rfl := Option.some.inj (he.symm.trans he')
  obtain ⟨hsup, hout, hstate⟩ | ⟨hsup, hout, htracks⟩ := hcases
  · rw [hout, List.append_nil] at hsensors ⊢
    refine ⟨hsensors, hstate ▸ h.fresh, hstate ▸ h.units, h.known, ?_⟩
    rw [hdups]
    refine h.filter.receiveRf a fun hf => ?_
    rw [hsup] at hf
    cases hf
  · rw [hout] at hsensors ⊢
    have hunits := h.units_concat (x := ⟨e, a.key, w.clock 1⟩) hc htracks
    refine ⟨hsensors, hunits.1, hunits.2, ?_, ?_⟩
    · intro x hx
      obtain hx | hx := List.mem_append.mp hx
      · exact h.known x hx
      · obtain rfl := List.mem_singleton.mp hx
        exact ⟨a, ha, he, rfl⟩
    · rw [hdups]
      have hmono : FilterKnows (out ++ [⟨e, a.key, w.clock 1⟩]) w.dups := fun q hq hne => by
        obtain ⟨x, hx, hq⟩ := h.filter q hq hne
        exact ⟨x, List.mem_append_left _ hx, hq⟩
      exact hmono.receiveRf a fun _ => ⟨_, List.mem_append_right _ (List.mem_singleton_self _), rfl, rfl⟩

/-- A suppressed packet is the copy of one accepted at most 650 ms before. -/
theorem DevicesTrack.live_copy (h : DevicesTrack as out w) {a : Arrival} {e : RfEvent}
    (he : a.event = some e) (hsup : a.suppressed w = true) :
    ∃ x ∈ out, x.key = a.key ∧ x.event = e ∧ w.clock 0 ≤ x.timems + dupTime := by
  obtain ⟨q, hq, hused, hholds, hlive⟩ := dupFilter_live hsup
  obtain ⟨x, hx, hxholds, htime⟩ := h.filter q hq hused
  have hlen : x.key.length = a.size := Int.ofNat.inj (hxholds.1.symm.trans hholds.1)
  have hkey : x.key = a.key := by
    rw [← hxholds.2, hlen]
    exact hholds.2
  refine ⟨x, hx, hkey, ?_, hlive.trans htime⟩
  -- the packet entered in the table has the same bytes, and so says the same
  obtain ⟨b, -, heb, hbkey⟩ := h.known x hx
  have hsize : b.size = a.size := by rw [← hlen, ← hbkey, Arrival.key, Ptr.length_bytes]
  have hbytes := hbkey.trans hkey
  rw [Arrival.key, Arrival.key, hsize] at hbytes
  rw [Arrival.event, hsize] at heb
  exact event_unique hbytes heb he

end

/-- In every run with room in the table, the devices track what arrived. -/
theorem devicesTrack_run {bs : List Arrival} (hroom : RoomFor bs) (hcarries : ∀ b ∈ bs, b.Carries)
    {w₀ : World} (hstate : w₀.state = huaSecInit) (hdups : w₀.dups = dupsInit) {as : List Arrival}
    (hsub : ∀ a ∈ as, a ∈ bs) :
    DevicesTrack bs (Run.trace receiveRf w₀ as).2 (Run.trace receiveRf w₀ as).1 := by
  have hstep : ∀ out w a, DevicesTrack bs out w → a ∈ bs →
      DevicesTrack bs (out ++ (receiveRf w a).2) (receiveRf w a).1 :=
    fun _ _ _ h ha => h.receiveRf hroom hcarries ha
  exact @Run.trace_invariant _ _ _ _ (fun _ a => a ∈ bs) _ _ (devicesTrack_init bs hstate hdups) hstep
    _ (Run.along_of_forall hsub)

/-- The duplicate filter and the tracked status.  In every run from a fresh
start, an accepted packet sets the status of its device.  A suppressed packet
changes nothing; an equal packet was accepted at most 650 ms before, and the
status is what the packet carries unless the latest packet accepted for the
device since then carries another. -/
theorem status_after (w₀ : World) (hstate : w₀.state = huaSecInit) (hdups : w₀.dups = dupsInit)
    (as : List Arrival) (a : Arrival) (hcarries : ∀ b ∈ as ++ [a], b.Carries)
    (hroom : RoomFor (as ++ [a])) (e : RfEvent) (d : Device) (v : UInt8) (he : a.event = some e)
    (hc : e.carries = some (d, v)) :
    let r := Run.trace receiveRf w₀ as
    let w' := (receiveRf r.1 a).1
    (a.suppressed r.1 = false → w'.state.status d = some v) ∧
    (a.suppressed r.1 = true → w'.state = r.1.state ∧
      ∃ earlier x since, r.2 = earlier ++ x :: since ∧ x.key = a.key ∧
        r.1.clock 0 ≤ x.timems + dupTime ∧
        w'.state.status d = some ((latest (Accepted.statusOf d) since).getD v)) := by
  intro r w'
  have ha : a ∈ as ++ [a] := List.mem_append_right as (List.mem_singleton_self a)
  have htrack : DevicesTrack (as ++ [a]) r.2 r.1 := devicesTrack_run hroom hcarries hstate hdups
    fun b hb => List.mem_append_left [a] hb
  have hafter := htrack.receiveRf hroom hcarries ha
  have hstatus : w'.state.status d = latest (Accepted.statusOf d) (r.2 ++ (receiveRf r.1 a).2) :=
    hafter.status_eq hcarries d
  have hv : ∀ x : Accepted, x.event = e → x.statusOf d = some v := by
    rintro x rfl
    simp [Accepted.statusOf, hc]
  obtain ⟨hnone, -⟩ | ⟨e', he', hcases, -⟩ := receiveRf_cases r.1 a
  · rw [he] at hnone
    cases hnone
  obtain rfl := Option.some.inj (he.symm.trans he')
  obtain ⟨hsup, hout, hsame⟩ | ⟨hsup, hout, -⟩ := hcases
  · refine ⟨fun h => ?_, fun _ => ⟨hsame, ?_⟩⟩
    · rw [hsup] at h
      cases h
    obtain ⟨x, hx, hkey, hevent, htime⟩ := htrack.live_copy he hsup
    obtain ⟨earlier, since, hsplit⟩ := List.append_of_mem hx
    refine ⟨earlier, x, since, hsplit, hkey, htime, ?_⟩
    rw [hstatus, hout, List.append_nil, hsplit, latest_append, latest_cons, hv x hevent]
    cases latest (Accepted.statusOf d) since <;> rfl
  · refine ⟨fun _ => ?_, fun h => ?_⟩
    · rw [hstatus, hout, latest_concat, hv _ rfl]
      rfl
    · rw [hsup] at h
      cases h

/-- A packet of the sensor with address 0. -/
def sensorPacket (funct : UInt8) : Arrival :=
  ⟨-1, Ptr.ofList [0x5d, 0x29, 0x00, 0x0f, funct, ~~~funct, 0x00, 0x00], 8⟩

/-- Open, closed and open again while the clock stands still: the last packet
is suppressed, and the contact stays closed. -/
theorem reopened_within_window :
    let r := Run.trace receiveRf (worldInit (stillSetup false)) [sensorPacket 0x04, sensorPacket 0x84]
    (sensorPacket 0x04).event = some (.security false 0 0x04) ∧
      (sensorPacket 0x04).suppressed r.1 = true ∧
      (receiveRf r.1 (sensorPacket 0x04)).1.state.status (.sensor 0) = some 0x84 := by
  decide

/-- The same packets, in terms of the rule. -/
theorem status_after_reopened :
    let r := Run.trace receiveRf (worldInit (stillSetup false)) [sensorPacket 0x04, sensorPacket 0x84]
    let w' := (receiveRf r.1 (sensorPacket 0x04)).1
    w'.state = r.1.state ∧ ∃ earlier x since, r.2 = earlier ++ x :: since ∧
      x.key = (sensorPacket 0x04).key ∧ r.1.clock 0 ≤ x.timems + dupTime ∧
        w'.state.status (.sensor 0) =
          some ((latest (Accepted.statusOf (.sensor 0)) since).getD 0x04) := by
  intro r w'
  have hcarries : ∀ b ∈ [sensorPacket 0x04, sensorPacket 0x84] ++ [sensorPacket 0x04], b.Carries := by
    intro b hb
    have hf : ∀ funct, (sensorPacket funct).event = some (.security false 0 funct) := by
      decide +kernel
    simp only [List.cons_append, List.nil_append, List.mem_cons, List.not_mem_nil, or_false] at hb
    obtain rfl | rfl | rfl := hb <;> exact ⟨_, _, _, hf _, rfl⟩
  exact (status_after (worldInit (stillSetup false)) rfl rfl [sensorPacket 0x04, sensorPacket 0x84]
    (sensorPacket 0x04) hcarries (by decide) (.security false 0 0x04) (.sensor 0) 0x04
    (by decide) rfl).2 (by decide)

end Mochad
