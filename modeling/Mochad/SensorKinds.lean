import Mochad.Sensors

/-!
# Mochad.SensorKinds

Sensors with an 8-bit address and sensors with a long one.  The status of a
sensor is meant to come from the events of its own kind and address.
`hua_getstatus_sec` asks for both, but `hua_sec_event` looks an event up by its
address alone, so an event of the other kind is stored under the kind that came
first.  `sensors_independent` says that nothing else mixes the two kinds.
-/

namespace Mochad

open History Keyed

/-- The function of a packet from the sensor of a kind and an address. -/
def Accepted.functOf (rf8bitaddr : Bool) (addr : Nat) (x : Accepted) : Option UInt8 :=
  match x.event with
  | .security kind a funct => if kind = rf8bitaddr ∧ a = addr then some funct else none
  | _ => none

/-- It is that of a packet with the address, if the packet is of the kind. -/
theorem Accepted.functOf_eq (rf8bitaddr : Bool) (addr : Nat) (x : Accepted) :
    x.functOf rf8bitaddr addr =
      (x.report addr).bind fun p => if p.1 = rf8bitaddr then some p.2 else none := by
  unfold Accepted.functOf Accepted.report
  cases x.event with
  | security kind a funct => by_cases ha : a = addr <;> simp [ha]
  | houseUnit housechar unitint funcint => rfl
  | house housechar funcint => rfl
  | camera commandp => rfl

/-- The status that follows from the events of a sensor alone. -/
def ownStatus (rf8bitaddr : Bool) (addr : Nat) (out : List Accepted) : Int :=
  ((latest (Accepted.functOf rf8bitaddr addr) out).bind (statusSwitch rf8bitaddr)).getD (-1)

/-- Accepted events with the same address are of the same kind. -/
def KindOfAddress (out : List Accepted) : Prop :=
  ∀ x ∈ out, ∀ y ∈ out, ∀ addr p q, x.report addr = some p → y.report addr = some q → p.1 = q.1

section
variable {as : List Arrival} {out : List Accepted} {w : World}

/-- A packet that is accepted is of the kind of the events before it. -/
theorem KindOfAddress.receiveRf (hk : KindOfAddress out) (ht : SensorsTrack as out w.state)
    {a : Arrival} (hkind : KeepsKind w a) : KindOfAddress (out ++ (receiveRf w a).2) := by
  obtain ⟨-, hout, -⟩ | ⟨e, he, ⟨-, hout, -⟩ | ⟨hsup, hout, -⟩, -⟩ := receiveRf_cases w a
  · rwa [hout, List.append_nil]
  · rwa [hout, List.append_nil]
  · rw [hout]
    have hnew : ∀ x ∈ out, ∀ addr p q, x.report addr = some p →
        Accepted.report addr ⟨e, a.key, w.clock 1⟩ = some q → p.1 = q.1 := by
      intro x hx addr p q hp hq
      obtain ⟨v, hv⟩ : ∃ v, latest (Accepted.report addr) out = some v :=
        Option.ne_none_iff_exists'.mp fun hn => by simp [latest_eq_none.mp hn x hx] at hp
      obtain ⟨y, hy, hyv⟩ := exists_of_latest hv
      obtain ⟨sen, hlookup, rfl⟩ := Option.map_eq_some_iff.mp ((ht.latest_eq addr).trans hv)
      obtain ⟨hsen, haddr⟩ := mem_of_lookup hlookup
      rw [hk x hx y hy addr p _ hp hyv]
      cases e with
      | security kind b funct =>
          obtain ⟨rfl, rfl⟩ : b = addr ∧ (kind, funct) = q := by simpa [Accepted.report] using hq
          exact hkind kind b funct he hsup sen hsen haddr
      | houseUnit housechar unitint funcint => cases hq
      | house housechar funcint => cases hq
      | camera commandp => cases hq
    intro x hx y hy addr p q hp hq
    rw [List.mem_append, List.mem_singleton] at hx hy
    obtain hx | rfl := hx
    · obtain hy | rfl := hy
      · exact hk x hx y hy addr p q hp hq
      · exact hnew x hx addr p q hp hq
    · obtain hy | rfl := hy
      · exact (hnew y hy addr q p hq hp).symm
      · cases hp.symm.trans hq
        rfl

/-- The status read for a sensor is that of its own events. -/
theorem SensorsTrack.status_eq (ht : SensorsTrack as out w.state) (hk : KindOfAddress out)
    (rf8bitaddr : Int) (rfaddr : Nat) :
    huaGetstatusSec rf8bitaddr rfaddr w.state = ownStatus (decide (rf8bitaddr ≠ 0)) rfaddr out := by
  rw [huaGetstatusSec, getstatusSecScan_eq ht.nodup, ownStatus]
  have hlatest := ht.latest_eq rfaddr
  cases hl : lookup X10secsensor.secaddr rfaddr w.state.x10sensors with
  | none =>
      rw [hl, Option.map_none] at hlatest
      have hnone : latest (Accepted.functOf (decide (rf8bitaddr ≠ 0)) rfaddr) out = none := by
        refine latest_eq_none.mpr fun x hx => ?_
        rw [Accepted.functOf_eq, latest_eq_none.mp hlatest.symm x hx]
        rfl
      rw [hnone]
      rfl
  | some sen =>
      rw [hl, Option.map_some] at hlatest
      obtain ⟨y, hy, hyv⟩ := exists_of_latest hlatest.symm
      -- all events with the address are of the kind the table holds
      have hfunct : ∀ x ∈ out, x.functOf (decide (rf8bitaddr ≠ 0)) rfaddr =
          if sen.report.1 = decide (rf8bitaddr ≠ 0) then (x.report rfaddr).map Prod.snd else none := by
        intro x hx
        rw [Accepted.functOf_eq]
        cases hx' : x.report rfaddr with
        | none => simp
        | some p =>
            rw [Option.bind_some, hk x hx y hy rfaddr p _ hx' hyv]
            rfl
      rw [latest_congr hfunct, Option.bind_some, X10secsensor.answer]
      split
      · rw [latest_map, ← hlatest]
        rfl
      · rw [latest_eq_none.mpr fun _ _ => rfl]
        rfl

end

/-- What a run keeps. -/
theorem kinds_run {w₀ : World} (hinit : w₀.state = huaSecInit) {as : List Arrival}
    (hroom : RoomFor as) (hkind : Run.Along (fun w a => (receiveRf w a).1) KeepsKind w₀ as) :
    SensorsTrack as (Run.trace receiveRf w₀ as).2 (Run.trace receiveRf w₀ as).1.state ∧
      KindOfAddress (Run.trace receiveRf w₀ as).2 := by
  let I : List Accepted → World → Prop := fun out w =>
    SensorsTrack as out w.state ∧ KindOfAddress out
  have hstart : I [] w₀ := ⟨hinit ▸ sensorsTrack_init as, fun x hx => by cases hx⟩
  have hstep : ∀ out w a, I out w → a ∈ as ∧ KeepsKind w a →
      I (out ++ (receiveRf w a).2) (receiveRf w a).1 := fun _ _ _ h ha =>
    ⟨h.1.receiveRf hroom ha.1 ha.2, h.2.receiveRf h.1 ha.2⟩
  have hmem : ∀ a ∈ as, a ∈ as := fun _ ha => ha
  exact @Run.trace_invariant _ _ _ _ (fun w a => a ∈ as ∧ KeepsKind w a) I _ hstart hstep _
    ((Run.along_of_forall hmem).and hkind)

/-- In every run of RF packets in which no accepted packet has the address of a
sensor tracked with the other kind of address, the status read for a sensor
depends on the events of its own kind and address only. -/
theorem sensors_independent (w₀ : World) (hinit : w₀.state = huaSecInit) (as : List Arrival)
    (hroom : RoomFor as) (hkind : Run.Along (fun w a => (receiveRf w a).1) KeepsKind w₀ as)
    (rf8bitaddr : Int) (rfaddr : Nat) :
    huaGetstatusSec rf8bitaddr rfaddr (Run.trace receiveRf w₀ as).1.state =
      ownStatus (decide (rf8bitaddr ≠ 0)) rfaddr (Run.trace receiveRf w₀ as).2 := by
  obtain ⟨htrack, hk⟩ := kinds_run hinit hroom hkind
  exact htrack.status_eq hk rf8bitaddr rfaddr

/-- A contact with the long address 0x30 that is open. -/
def openContact : Arrival := ⟨-1, Ptr.ofList [0x5d, 0x29, 0x00, 0x0f, 0x04, 0xfb, 0x00, 0x30], 8⟩

/-- A normal event of an SP554A with an 8-bit address. -/
def normalMotion (addr : UInt8) : Arrival :=
  ⟨-1, Ptr.ofList [0x5d, 0x20, addr, addr ^^^ 0x0f, 0x84, 0x7b], 6⟩

/-- Two sensors with different numbers. -/
theorem sensors_independent_two :
    let r := Run.trace receiveRf (worldInit (stillSetup false)) [openContact, normalMotion 0x31]
    huaGetstatusSec 0 0x30 r.1.state = ownStatus false 0x30 r.2 := by
  have hempty : KeepsKind (worldInit (stillSetup false)) openContact := fun _ _ _ _ _ sen hsen => by
    cases hsen
  have hnext : KeepsKind (receiveRf (worldInit (stillSetup false)) openContact).1
      (normalMotion 0x31) := by
    intro kind addr funct he _ sen hsen ha
    have hevent : (normalMotion 0x31).event = some (.security true 0x31 0x84) := by decide
    have hsensors : (receiveRf (worldInit (stillSetup false)) openContact).1.state.x10sensors.map
        X10secsensor.secaddr = [0x30] := by decide
    cases hevent.symm.trans he
    have hmem : (0x31 : Nat) ∈ [0x30] := by
      rw [← hsensors, ← ha]
      exact List.mem_map_of_mem hsen
    simp at hmem
  exact sensors_independent (worldInit (stillSetup false)) rfl [openContact, normalMotion 0x31]
    (by decide) ⟨hempty, hnext, trivial⟩ 0 0x30

/-- The contact is open; an event of the other sensor with its number closes it,
and is not found itself. -/
theorem sensors_share_address :
    let w := worldInit (stillSetup false)
    let long := Run.trace receiveRf w [openContact]
    let short := Run.trace receiveRf w [normalMotion 0x30]
    let both := Run.trace receiveRf w [openContact, normalMotion 0x30]
    RoomFor [openContact, normalMotion 0x30] ∧
      both.2.filterMap (Accepted.functOf false 0x30) =
        long.2.filterMap (Accepted.functOf false 0x30) ∧
      huaGetstatusSec 0 0x30 long.1.state = 1 ∧ huaGetstatusSec 0 0x30 both.1.state = 0 ∧
      both.2.filterMap (Accepted.functOf true 0x30) =
        short.2.filterMap (Accepted.functOf true 0x30) ∧
      huaGetstatusSec 1 0x30 short.1.state = 0 ∧ huaGetstatusSec 1 0x30 both.1.state = -1 := by
  decide

end Mochad
