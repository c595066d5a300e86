import Mochad.Sensors

/-!
# Mochad.SensorTable

The sensor table as a finite map of bounded size, under events of any address,
kind and function and the `ST` display, which sorts it in place.
`sensor_table_map` says which addresses it tracks, what it holds for them, and
that the display changes nothing but the order.  The addresses have 24 bits, so
the comparator, which returns a difference of `unsigned long` as `int`, orders
them as numbers.
-/

namespace Mochad

open CString History Keyed

/-! ## Calls -/

/-- A call that reads or changes the sensor table. -/
inductive SensorCall where
  | event (a0 a1 a2 funct secaddr8 : UInt8)
  | show (fd : Int)

namespace SensorCall

/-- The address of an event. -/
def secaddr : SensorCall → Option Nat
  | event a0 a1 a2 _ _ => some (secaddr32 a0 a1 a2)
  | «show» _ => none

/-- The function of an event with the address. -/
def functOf (addr : Nat) : SensorCall → Option UInt8
  | event a0 a1 a2 funct _ => if secaddr32 a0 a1 a2 = addr then some funct else none
  | «show» _ => none

end SensorCall

/-- `hua_sec_event` or `hua_show`. -/
def sensorCall (w : World) : SensorCall → World
  | .event a0 a1 a2 funct secaddr8 => w.huaSecEvent (secaddr32 a0 a1 a2) funct secaddr8
  | .show fd => huaShow fd w

/-! ## The display -/

/-- A loop leaves the state if its body does. -/
theorem foldl_state {α : Type} {f : World → α → World} (h : ∀ w x, (f w x).state = w.state)
    (xs : List α) (w : World) : (xs.foldl f w).state = w.state := by
  induction xs generalizing w with
  | nil => rfl
  | cons x xs ih => exact (ih _).trans (h w x)

/-- The display sorts the table and leaves the rest of the tracked state. -/
theorem huaShow_state (fd : Int) (w : World) : (huaShow fd w).state = sortSensors w.state := by
  have hline : ∀ (v : World) line, (showLine fd v line).state = v.state := fun _ _ => rfl
  have hsensor : ∀ (v : World) sen, (showSensor fd v sen).state = v.state := fun _ _ => rfl
  unfold huaShow
  dsimp only [World.sockprintf]
  rw [foldl_state hsensor, foldl_state hline, foldl_state hline]

/-- Sorting keeps the sensors. -/
theorem sortSensors_perm (s : X10state) : (sortSensors s).x10sensors.Perm s.x10sensors :=
  List.perm_insertionSort _ _

/-! ## The order of addresses -/

theorem secaddr32_lt (a0 a1 a2 : UInt8) : secaddr32 a0 a1 a2 < 2 ^ 24 := by
  have h0 := a0.toNat_lt
  have h1 := a1.toNat_lt
  have h2 := a2.toNat_lt
  rw [secaddr32_eq]
  omega

/-- The difference of two 24-bit addresses survives the conversion to `int`. -/
theorem cmpX10sensor_eq {a b : X10secsensor} (ha : a.secaddr < 2 ^ 24) (hb : b.secaddr < 2 ^ 24) :
    cmpX10sensor a b = (a.secaddr : Int) - b.secaddr := by
  rw [cmpX10sensor, cInt, Int.bmod]
  omega

/-- A comparison orders two entries as their addresses. -/
def OrdersByAddress (a b : X10secsensor) : Prop :=
  (cmpX10sensor a b < 0 ↔ a.secaddr < b.secaddr) ∧ (cmpX10sensor a b = 0 ↔ a.secaddr = b.secaddr)

/-- Such addresses are compared without overflow. -/
theorem ordersByAddress {a b : X10secsensor} (ha : a.secaddr < 2 ^ 24) (hb : b.secaddr < 2 ^ 24) :
    OrdersByAddress a b := by
  rw [OrdersByAddress, cmpX10sensor_eq ha hb]
  omega

/-! ## The invariant -/

/-- What a run of calls keeps. -/
structure TableHolds (cs : List SensorCall) (sensors : List X10secsensor) : Prop where
  tracked : (sensors.map X10secsensor.secaddr).Perm
    ((distinct (cs.filterMap SensorCall.secaddr)).take (x10sensorsSize - 1))
  status : ∀ sen ∈ sensors, latest (SensorCall.functOf sen.secaddr) cs = some sen.sensorstatus
  bounded : ∀ sen ∈ sensors, sen.secaddr < 2 ^ 24

namespace TableHolds

variable {cs : List SensorCall} {sensors : List X10secsensor} (h : TableHolds cs sensors)
include h

/-- There is one sensor an address. -/
theorem nodup : (sensors.map X10secsensor.secaddr).Nodup :=
  h.tracked.nodup_iff.mpr ((nodup_distinct _).sublist (List.take_sublist _ _))

/-- The table has room for all but one of its entries. -/
theorem length_le : sensors.length ≤ x10sensorsSize - 1 := by
  have hlen := h.tracked.length_eq
  rw [List.length_map, List.length_take] at hlen
  omega

/-- The display keeps the table up to the order. -/
theorem perm {sorted : List X10secsensor} (hperm : sorted.Perm sensors) (fd : Int) :
    TableHolds (cs ++ [.show fd]) sorted where
  tracked := by
    have hnone : [SensorCall.show fd].filterMap SensorCall.secaddr = [] := rfl
    rw [List.filterMap_append, hnone, List.append_nil]
    exact (hperm.map _).trans h.tracked
  status := fun sen hsen => by
    rw [latest_concat]
    exact h.status sen (hperm.mem_iff.mp hsen)
  bounded := fun sen hsen => h.bounded sen (hperm.mem_iff.mp hsen)

/-- An event is recorded under its address. -/
theorem event (a0 a1 a2 funct secaddr8 : UInt8) (now : Nat) :
    TableHolds (cs ++ [.event a0 a1 a2 funct secaddr8])
      (record X10secsensor.secaddr (x10sensorsSize - 1) (secaddr32 a0 a1 a2)
        (X10secsensor.touch funct now) ⟨secaddr32 a0 a1 a2, now, secaddr8, funct⟩ sensors) := by
  have hlatest : ∀ addr, latest (SensorCall.functOf addr) (cs ++ [.event a0 a1 a2 funct secaddr8]) =
      if secaddr32 a0 a1 a2 = addr then some funct else latest (SensorCall.functOf addr) cs := by
    intro addr
    rw [latest_concat, SensorCall.functOf]
    split <;> simp
  constructor
  · have hsome : [SensorCall.event a0 a1 a2 funct secaddr8].filterMap SensorCall.secaddr =
        [secaddr32 a0 a1 a2] := rfl
    rw [List.filterMap_append, hsome]
    have hkey : ∀ sen : X10secsensor, (sen.touch funct now).secaddr = sen.secaddr := fun _ => rfl
    have hfresh : X10secsensor.secaddr ⟨secaddr32 a0 a1 a2, now, secaddr8, funct⟩ =
        secaddr32 a0 a1 a2 := rfl
    exact perm_record X10secsensor.secaddr hkey hfresh h.tracked
  · intro sen hsen
    rw [hlatest]
    obtain ⟨hsen, hne⟩ | ⟨q, -, hkey, rfl⟩ | rfl := mem_record h.nodup hsen
    · rw [if_neg (Ne.symm hne)]
      exact h.status sen hsen
    · rw [← hkey]
      exact if_pos rfl
    · exact if_pos rfl
  · intro sen hsen
    obtain ⟨hsen, -⟩ | ⟨q, hq, -, rfl⟩ | rfl := mem_record h.nodup hsen
    · exact h.bounded sen hsen
    · exact h.bounded q hq
    · exact secaddr32_lt a0 a1 a2

end TableHolds

/-- Every call keeps the table. -/
theorem TableHolds.step {cs : List SensorCall} {w : World} (h : TableHolds cs w.state.x10sensors)
    (c : SensorCall) : TableHolds (cs ++ [c]) (sensorCall w c).state.x10sensors := by
  cases c with
  | event a0 a1 a2 funct secaddr8 =>
      rw [sensorCall, World.huaSecEvent_state, huaSecEvent_x10sensors]
      exact h.event a0 a1 a2 funct secaddr8 _
  | «show» fd =>
      rw [sensorCall, huaShow_state]
      exact h.perm (sortSensors_perm w.state) fd

theorem tableHolds_run {w₀ : World} (hinit : w₀.state = huaSecInit) (cs : List SensorCall) :
    TableHolds cs (Run.run sensorCall w₀ cs).state.x10sensors := by
  induction cs using List.reverseRecOn with
  | nil =>
      have hnil : (Run.run sensorCall w₀ []).state.x10sensors = [] := by
        rw [Run.run_nil, hinit]
        rfl
      rw [hnil]
      exact ⟨List.Perm.nil, by simp, by simp⟩
  | append_singleton cs c ih =>
      rw [Run.run_append]
      exact ih.step c

/-- The table in the order of the comparator is the one `sortSensors` leaves, so
any correct `qsort` will do. -/
theorem sorted_iff {cs : List SensorCall} {s : X10state} (h : TableHolds cs s.x10sensors)
    (sorted : List X10secsensor) :
    sorted.Perm s.x10sensors ∧ sorted.Pairwise (fun a b => cmpX10sensor a b ≤ 0) ↔
      sorted = (sortSensors s).x10sensors := by
  have hle : ∀ a ∈ s.x10sensors, ∀ b ∈ s.x10sensors,
      (cmpX10sensor a b ≤ 0 ↔ a.secaddr ≤ b.secaddr) := fun a ha b hb => by
    rw [cmpX10sensor_eq (h.bounded a ha) (h.bounded b hb)]
    omega
  have hperm := sortSensors_perm s
  have hsort : (sortSensors s).x10sensors.Pairwise fun a b => cmpX10sensor a b ≤ 0 := by
    have hmap : ((sortSensors s).x10sensors.map X10secsensor.secaddr).Pairwise (· ≤ ·) := by
      rw [sortSensors, List.map_insertionSort _ (· ≤ ·) _ _ hle]
      exact List.pairwise_insertionSort _ _
    refine (List.pairwise_map.mp hmap).imp_of_mem fun ha hb hab => ?_
    exact (hle _ (hperm.mem_iff.mp ha) _ (hperm.mem_iff.mp hb)).mpr hab
  constructor
  · rintro ⟨hp, hs⟩
    refine List.Perm.eq_of_pairwise (fun a b ha hb hab hba => ?_) hs hsort (hp.trans hperm.symm)
    have ha := hp.mem_iff.mp ha
    have hb := hperm.mem_iff.mp hb
    have heq : a.secaddr = b.secaddr :=
      le_antisymm ((hle a ha b hb).mp hab) ((hle b hb a ha).mp hba)
    exact List.inj_on_of_nodup_map h.nodup ha hb heq
  · rintro rfl
    exact ⟨hperm, hsort⟩

/-- The sensor table is a finite map.  After every sequence of events and
displays from `hua_sec_init`, it tracks the first 511 distinct addresses, each
once and with the function of its last event; the comparator orders them as
numbers; and the display only sorts it, so that every status read stays. -/
theorem sensor_table_map (w₀ : World) (hinit : w₀.state = huaSecInit) (cs : List SensorCall) :
    let w := Run.run sensorCall w₀ cs
    let sensors := w.state.x10sensors
    (sensors.map X10secsensor.secaddr).Nodup ∧ sensors.length ≤ 511 ∧
    (∀ addr, addr ∈ sensors.map X10secsensor.secaddr ↔
      addr ∈ (distinct (cs.filterMap SensorCall.secaddr)).take 511) ∧
    (∀ sen ∈ sensors, latest (SensorCall.functOf sen.secaddr) cs = some sen.sensorstatus) ∧
    (∀ a ∈ sensors, ∀ b ∈ sensors, OrdersByAddress a b) ∧
    ∀ fd,
      (huaShow fd w).state.x10sensors.Perm sensors ∧
      (∀ sorted : List X10secsensor,
        sorted.Perm sensors ∧ sorted.Pairwise (fun a b => cmpX10sensor a b ≤ 0) ↔
          sorted = (huaShow fd w).state.x10sensors) ∧
      ∀ rf8bitaddr rfaddr, huaGetstatusSec rf8bitaddr rfaddr (huaShow fd w).state =
        huaGetstatusSec rf8bitaddr rfaddr w.state := by
  intro w sensors
  have h : TableHolds cs sensors := tableHolds_run hinit cs
  refine ⟨h.nodup, h.length_le, fun addr => h.tracked.mem_iff, h.status,
    fun a ha b hb => ordersByAddress (h.bounded a ha) (h.bounded b hb), fun fd => ?_⟩
  rw [huaShow_state]
  refine ⟨sortSensors_perm _, sorted_iff h, fun rf8bitaddr rfaddr => ?_⟩
  have hsorted := h.perm (sortSensors_perm w.state) fd
  rw [huaGetstatusSec, huaGetstatusSec, getstatusSecScan_eq hsorted.nodup,
    getstatusSecScan_eq h.nodup, lookup_perm h.nodup (sortSensors_perm w.state)]

/-- Two sensors and a display between their events. -/
theorem sensor_table_map_display :
    let cs := [.event 0 0 0x30 0x04 0, .event 0 0 0x12 0x80 0, .show 5, .event 0 0 0x30 0x84 0]
    0x12 ∈ (Run.run sensorCall (worldInit (stillSetup false)) cs).state.x10sensors.map
      X10secsensor.secaddr := by
  intro cs
  have hdistinct : (distinct (cs.filterMap SensorCall.secaddr)).take 511 = [0x30, 0x12] := by decide
  obtain ⟨-, -, htracked, -⟩ := sensor_table_map (worldInit (stillSetup false)) rfl cs
  rw [htracked, hdistinct]
  decide

end Mochad
