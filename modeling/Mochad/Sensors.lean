import Mochad.Lib.Keyed
import Mochad.Reception

/-!
# Mochad.Sensors

The table of RF security sensors.  After every run it holds the latest accepted
event of each sensor (`SensorsTrack`), as long as it does not fill up and no
address is used by sensors of both kinds.

`hua_getstatus_sec` classifies the stored function code with a `switch` of its
own, which has not kept up with the name tables of the decoder:
`getstatus_sec_iff` lists the codes it misses.
-/

namespace Mochad

open CString History Keyed

/-! ## The table -/

/-- The update of an entry. -/
def X10secsensor.touch (funct : UInt8) (now : Nat) (sen : X10secsensor) : X10secsensor :=
  { sen with sensorstatus := funct, lastupdate := now }

/-- `update_sensor` changes the entry with the address. -/
theorem updateSensor_eq (addr : Nat) (funct : UInt8) (now : Nat) (sensors : List X10secsensor) :
    updateSensor addr funct now sensors =
      update X10secsensor.secaddr addr (X10secsensor.touch funct now) sensors := by
  induction sensors with
  | nil => rfl
  | cons sen rest ih => rw [updateSensor, update, ih]; rfl

/-- An event is recorded under its address; one entry of the array stays unused. -/
theorem huaSecEvent_x10sensors (now addr : Nat) (funct secaddr8 : UInt8) (s : X10state) :
    (huaSecEvent now addr funct secaddr8 s).x10sensors =
      record X10secsensor.secaddr (x10sensorsSize - 1) addr (X10secsensor.touch funct now)
        ⟨addr, now, secaddr8, funct⟩ s.x10sensors := by
  have h : x10sensorsSize ≤ s.x10sensors.length + 1 ↔ x10sensorsSize - 1 ≤ s.x10sensors.length := by
    rw [x10sensorsSize]
    omega
  unfold huaSecEvent record
  rw [updateSensor_eq]
  cases update X10secsensor.secaddr addr (X10secsensor.touch funct now) s.x10sensors with
  | some sensors => rfl
  | none =>
      simp only [h]
      split <;> rfl

/-- Operations on house/unit devices leave the sensors alone. -/
theorem applyOps_x10sensors (ops : List HuaOp) (s : X10state) :
    (applyOps ops s).x10sensors = s.x10sensors := by
  induction ops generalizing s with
  | nil => rfl
  | cons op ops ih =>
      refine (ih (op.apply s)).trans ?_
      cases op with
      | add house unit =>
          simp only [HuaOp.apply, huaAdd]
          split
          · rfl
          · split <;> rfl
      | funcOn house => rfl
      | funcOff house => rfl
      | funcAllOn house => rfl
      | funcAllOff house => rfl
      | setstatusXdim house unit xdim => rfl

/-! ## The latest events -/

/-- Address kind and function of an entry. -/
def X10secsensor.report (sen : X10secsensor) : Bool × UInt8 :=
  (decide (sen.secaddr8 ≠ 0), sen.sensorstatus)

/-- Address kind and function, if the packet is from the sensor. -/
def Accepted.report (addr : Nat) (x : Accepted) : Option (Bool × UInt8) :=
  match x.event with
  | .security rf8bitaddr a funct => if a = addr then some (rf8bitaddr, funct) else none
  | _ => none

/-- The address of a security packet. -/
def Arrival.secaddr (a : Arrival) : Option Nat :=
  match a.event with
  | some (.security _ addr _) => some addr
  | _ => none

/-- The table never fills up with the sensors of these packets. -/
def RoomFor (as : List Arrival) : Prop := (as.filterMap Arrival.secaddr).dedup.length < x10sensorsSize

instance (as : List Arrival) : Decidable (RoomFor as) := inferInstanceAs (Decidable (_ < _))

/-- No two sensors of different kinds share an address. -/
def OneKind (as : List Arrival) : Prop :=
  ∀ a ∈ as, ∀ b ∈ as, ∀ ka kb addr fa fb, a.event = some (.security ka addr fa) →
    b.event = some (.security kb addr fb) → ka = kb

/-- The table holds the latest accepted event of each sensor. -/
structure SensorsTrack (as : List Arrival) (out : List Accepted) (s : X10state) : Prop where
  nodup : (s.x10sensors.map X10secsensor.secaddr).Nodup
  known : ∀ sen ∈ s.x10sensors, ∃ a ∈ as, ∃ funct,
    a.event = some (.security sen.report.1 sen.secaddr funct)
  latest_eq : ∀ addr, (lookup X10secsensor.secaddr addr s.x10sensors).map X10secsensor.report =
    latest (Accepted.report addr) out

/-- At the start nothing has been tracked. -/
theorem sensorsTrack_init (as : List Arrival) : SensorsTrack as [] huaSecInit where
  nodup := List.nodup_nil
  known := fun sen h => by cases h
  latest_eq := fun addr => rfl

section
variable {as : List Arrival} {out : List Accepted} {s s' : X10state} {x : Accepted}

/-- What is not a security event leaves the table as it is. -/
theorem SensorsTrack.other (h : SensorsTrack as out s) (hs : s'.x10sensors = s.x10sensors)
    (hx : ∀ addr, x.report addr = none) : SensorsTrack as (out ++ [x]) s' where
  nodup := hs ▸ h.nodup
  known := hs ▸ h.known
  latest_eq := fun addr => by rw [hs, latest_concat, hx, Option.none_or, h.latest_eq]

/-- A new address finds room. -/
theorem SensorsTrack.room (h : SensorsTrack as out s) (hroom : RoomFor as) {a : Arrival} (ha : a ∈ as)
    {rf8bitaddr : Bool} {addr : Nat} {funct : UInt8}
    (hev : a.event = some (.security rf8bitaddr addr funct)) :
    addr ∈ s.x10sensors.map X10secsensor.secaddr ∨ s.x10sensors.length < x10sensorsSize - 1 := by
  have hmem : ∀ {b : Arrival} {k addr f}, b ∈ as → b.event = some (.security k addr f) →
      addr ∈ (as.filterMap Arrival.secaddr).dedup := fun hb he =>
    List.mem_dedup.mpr (List.mem_filterMap.mpr ⟨_, hb, by simp only [Arrival.secaddr, he]⟩)
  by_cases hin : addr ∈ s.x10sensors.map X10secsensor.secaddr
  · exact .inl hin
  right
  have hsub : addr :: s.x10sensors.map X10secsensor.secaddr ⊆ (as.filterMap Arrival.secaddr).dedup := by
    intro k hk
    obtain rfl | hk := List.mem_cons.mp hk
    · exact hmem ha hev
    · obtain ⟨sen, hsen, rfl⟩ := List.mem_map.mp hk
      obtain ⟨b, hb, f, he⟩ := h.known sen hsen
      exact hmem hb he
  have hle := (List.subperm_of_subset (List.nodup_cons.mpr ⟨hin, h.nodup⟩) hsub).length_le
  simp only [RoomFor, List.length_cons, List.length_map] at hroom hle
  omega

/-- A security event is recorded; the sensor tracked under its address, if there
is one, is of the same kind. -/
theorem SensorsTrack.event (h : SensorsTrack as out s) (hroom : RoomFor as) {a : Arrival}
    (ha : a ∈ as) {rf8bitaddr : Bool} {addr : Nat} {funct : UInt8}
    (hev : a.event = some (.security rf8bitaddr addr funct))
    (hx : x.event = .security rf8bitaddr addr funct)
    (hold : ∀ sen ∈ s.x10sensors, sen.secaddr = addr → sen.report.1 = rf8bitaddr) (now : Nat) :
    SensorsTrack as (out ++ [x])
      (huaSecEvent now addr funct (if rf8bitaddr then 1 else 0) s) := by
  have hroom := h.room hroom ha hev
  have hkey : ∀ sen : X10secsensor, (sen.touch funct now).secaddr = sen.secaddr := fun _ => rfl
  obtain ⟨fresh, hfresh⟩ : ∃ fresh : X10secsensor,
      fresh = ⟨addr, now, if rf8bitaddr then 1 else 0, funct⟩ := ⟨_, rfl⟩
  have hnew : fresh.secaddr = addr := by rw [hfresh]
  have hreport : fresh.report = (rf8bitaddr, funct) := by
    rw [hfresh]
    cases rf8bitaddr <;> rfl
  constructor
  · rw [huaSecEvent_x10sensors, ← hfresh]
    exact nodup_record X10secsensor.secaddr hkey hnew h.nodup
  · intro sen hsen
    rw [huaSecEvent_x10sensors, ← hfresh] at hsen
    obtain ⟨hsen, -⟩ | ⟨q, hq, -, rfl⟩ | rfl := mem_record h.nodup hsen
    · exact h.known sen hsen
    · exact h.known q hq
    · rw [hreport, hnew]
      exact ⟨a, ha, funct, hev⟩
  · intro addr'
    rw [huaSecEvent_x10sensors, ← hfresh, lookup_record X10secsensor.secaddr hkey hnew hroom, latest_concat]
    by_cases haddr : addr' = addr
    · subst haddr
      have hx : x.report addr' = some (rf8bitaddr, funct) := by simp [Accepted.report, hx]
      rw [hx, if_pos rfl]
      cases hl : lookup X10secsensor.secaddr addr' s.x10sensors with
      | none => exact congrArg some hreport
      | some sen =>
          obtain ⟨hsen, hkey⟩ := mem_of_lookup hl
          exact congrArg some (congrArg (·, funct) (hold sen hsen hkey))
    · have hx : x.report addr' = none := by simp [Accepted.report, hx, Ne.symm haddr]
      rw [hx, if_neg haddr, Option.none_or, h.latest_eq]

end

/-- The sensor tracked under the address of a packet, if there is one, is of the
kind of the packet, unless the packet is suppressed. -/
def KeepsKind (w : World) (a : Arrival) : Prop :=
  ∀ rf8bitaddr addr funct, a.event = some (.security rf8bitaddr addr funct) →
    a.suppressed w = false → ∀ sen ∈ w.state.x10sensors, sen.secaddr = addr →
      sen.report.1 = rf8bitaddr

/-- Packets of one kind keep the kind of their sensor. -/
theorem SensorsTrack.keepsKind {as : List Arrival} (hkind : OneKind as) {out : List Accepted}
    {w : World} (h : SensorsTrack as out w.state) {a : Arrival} (ha : a ∈ as) : KeepsKind w a := by
  rintro rf8bitaddr addr funct he - sen hsen rfl
  obtain ⟨b, hb, f, hbe⟩ := h.known sen hsen
  exact hkind b hb a ha _ _ _ _ _ hbe he

/-- A step keeps the table up to date. -/
theorem SensorsTrack.receiveRf {as : List Arrival} (hroom : RoomFor as) {out : List Accepted}
    {w : World} (h : SensorsTrack as out w.state) {a : Arrival} (ha : a ∈ as)
    (hkind : KeepsKind w a) :
    SensorsTrack as (out ++ (receiveRf w a).2) (receiveRf w a).1.state := by
  obtain ⟨-, hout, hsame⟩ | ⟨e, he, ⟨-, hout, hstate⟩ | ⟨hsup, hout, htracks⟩, -⟩ := receiveRf_cases w a
  · rw [hout, List.append_nil, hsame.state]
    exact h
  · rw [hout, List.append_nil, hstate]
    exact h
  · rw [hout]
    cases e with
    | security rf8bitaddr addr funct =>
        obtain ⟨now, hs⟩ := htracks
        rw [hs]
        exact h.event hroom ha he rfl (hkind _ _ _ he hsup) now
    | houseUnit housechar unitint funcint =>
        refine h.other ?_ fun _ => rfl
        obtain hs | hs := htracks <;> simp only [hs, applyOps_x10sensors]
    | house housechar funcint =>
        refine h.other ?_ fun _ => rfl
        obtain hs | hs := htracks <;> simp only [hs, applyOps_x10sensors]
    | camera commandp =>
        refine h.other ?_ fun _ => rfl
        obtain hs | hs := htracks <;> simp only [hs, applyOps_x10sensors]

/-- In every run with room in the table, the sensors track what was accepted. -/
theorem sensorsTrack_run {as : List Arrival} (hroom : RoomFor as) (hkind : OneKind as) {w₀ : World}
    (hinit : w₀.state = huaSecInit) :
    SensorsTrack as (Run.trace receiveRf w₀ as).2 (Run.trace receiveRf w₀ as).1.state := by
  let I : List Accepted → World → Prop := fun out w => SensorsTrack as out w.state
  have hstart : SensorsTrack as [] w₀.state := hinit ▸ sensorsTrack_init as
  have hstep : ∀ out w a, I out w → a ∈ as → I (out ++ (receiveRf w a).2) (receiveRf w a).1 :=
    fun _ _ _ h ha => h.receiveRf hroom ha (h.keepsKind hkind ha)
  exact @Run.trace_invariant _ _ _ _ (fun _ a => a ∈ as) I _ hstart hstep _
    (Run.along_of_forall fun _ ha => ha)

/-! ## `hua_getstatus_sec` -/

/-- Another address is not found. -/
theorem getstatusSecScan_absent {rf8bitaddr : Int} {rfaddr : Nat} {sensors : List X10secsensor}
    (h : rfaddr ∉ sensors.map X10secsensor.secaddr) :
    getstatusSecScan rf8bitaddr rfaddr sensors = -1 := by
  induction sensors with
  | nil => rfl
  | cons sen rest ih =>
      simp only [List.map_cons, List.mem_cons, not_or] at h
      simp only [getstatusSecScan, h.1, and_false, if_false, ih h.2]

/-- What the scan says of an entry: nothing when it is of the other kind. -/
def X10secsensor.answer (rf8bitaddr : Int) (sen : X10secsensor) : Option Int :=
  if sen.report.1 = decide (rf8bitaddr ≠ 0) then
    statusSwitch (decide (rf8bitaddr ≠ 0)) sen.sensorstatus
  else none

/-- The scan classifies the entry of the address. -/
theorem getstatusSecScan_eq {rf8bitaddr : Int} {rfaddr : Nat} {sensors : List X10secsensor}
    (hnodup : (sensors.map X10secsensor.secaddr).Nodup) :
    getstatusSecScan rf8bitaddr rfaddr sensors =
      ((lookup X10secsensor.secaddr rfaddr sensors).bind (·.answer rf8bitaddr)).getD (-1) := by
  induction sensors with
  | nil => rfl
  | cons sen rest ih =>
      obtain ⟨hsen, hrest⟩ := List.nodup_cons.mp hnodup
      rw [lookup_cons, getstatusSecScan]
      by_cases hk : sen.secaddr = rfaddr
      · subst hk
        rw [if_pos rfl, getstatusSecScan_absent hsen]
        by_cases h8 : rf8bitaddr = 0 <;> by_cases hs : sen.secaddr8 = 0 <;>
          simp [X10secsensor.answer, X10secsensor.report, h8, hs]
      · simp only [Ne.symm hk, and_false, if_false, hk]
        exact ih hrest

/-! ## Event names -/

/-- The decoder's name table for the address kind names the code as a motion or
contact event of a kind. -/
def namedAs (kind : String) (rf8bitaddr : Bool) (funct : UInt8) : Bool :=
  let name := if rf8bitaddr then findSecRemoteKeyName funct else findSecEventName funct
  name.any fun name => (cstr "Motion_" ++ cstr kind).isPrefixOf (cstr name) ||
    (cstr "Contact_" ++ cstr kind).isPrefixOf (cstr name)

/-- The status is 1 for an alert and 0 for a normal event. -/
def StatusMatches (rf8bitaddr : Bool) (funct : UInt8) (status : Int) : Prop :=
  (namedAs "alert" rf8bitaddr funct = true → status = 1) ∧
    (namedAs "normal" rf8bitaddr funct = true → status = 0)

instance (rf8bitaddr : Bool) (funct : UInt8) (status : Int) :
    Decidable (StatusMatches rf8bitaddr funct status) := inferInstanceAs (Decidable (_ ∧ _))

/-- The codes of alert and normal events the `switch` has no case for: tamper
events of a DS12A, home/away events of an SP554A. -/
def missedCodes (rf8bitaddr : Bool) : List UInt8 :=
  if rf8bitaddr then [0x0C, 0x8C] else [0x44, 0xC4, 0x40, 0xC0]

/-- The status fits the function unless its code is missed. -/
theorem statusMatches_switch (rf8bitaddr : Bool) (funct : UInt8) :
    StatusMatches rf8bitaddr funct ((statusSwitch rf8bitaddr funct).getD (-1)) ↔
      funct ∉ missedCodes rf8bitaddr := by
  have hrows : ∀ rf8bitaddr, ∀ row ∈ if rf8bitaddr then secRemoteKeyNames else secEventNames,
      StatusMatches rf8bitaddr row.1 ((statusSwitch rf8bitaddr row.1).getD (-1)) ↔
        row.1 ∉ missedCodes rf8bitaddr := by decide
  have hmissed : ∀ rf8bitaddr, (missedCodes rf8bitaddr).all (fun code =>
      (findName (if rf8bitaddr then secRemoteKeyNames else secEventNames) code).isSome) = true := by
    decide
  have htable : (if rf8bitaddr then findSecRemoteKeyName funct else findSecEventName funct) =
      findName (if rf8bitaddr then secRemoteKeyNames else secEventNames) funct := by
    cases rf8bitaddr <;> rfl
  cases hfind : findName (if rf8bitaddr then secRemoteKeyNames else secEventNames) funct with
  | none =>
      -- a code without a name asks for no status
      refine iff_of_true (by simp [StatusMatches, namedAs, htable, hfind]) fun hmem => ?_
      have hsome := List.all_eq_true.mp (hmissed rf8bitaddr) funct hmem
      rw [hfind] at hsome
      cases hsome
  | some name => exact hrows rf8bitaddr _ (findName_mem hfind)

/-- After every run of RF packets, the status read for a sensor matches the
name of its latest accepted event exactly when the `switch` knows the code. -/
theorem getstatus_sec_iff (w₀ : World) (hinit : w₀.state = huaSecInit) (as : List Arrival)
    (hroom : RoomFor as) (hkind : OneKind as) (rf8bitaddr : Int) (rfaddr : Nat) (funct : UInt8)
    (hlatest : latest (Accepted.report rfaddr) (Run.trace receiveRf w₀ as).2 =
      some (decide (rf8bitaddr ≠ 0), funct)) :
    StatusMatches (decide (rf8bitaddr ≠ 0)) funct
        (huaGetstatusSec rf8bitaddr rfaddr (Run.trace receiveRf w₀ as).1.state) ↔
      funct ∉ missedCodes (decide (rf8bitaddr ≠ 0)) := by
  have htrack := sensorsTrack_run hroom hkind hinit
  have hlookup := (htrack.latest_eq rfaddr).trans hlatest
  obtain ⟨sen, hsen, hreport⟩ := Option.map_eq_some_iff.mp hlookup
  have hcode : sen.sensorstatus = funct := congrArg Prod.snd hreport
  have hanswer : sen.answer rf8bitaddr = statusSwitch (decide (rf8bitaddr ≠ 0)) funct := by
    rw [X10secsensor.answer, hreport, if_pos rfl, hcode]
  rw [huaGetstatusSec, getstatusSecScan_eq htrack.nodup, hsen, Option.bind_some, hanswer]
  exact statusMatches_switch _ _

/-- An open contact of a DS10A. -/
theorem getstatus_sec_open :
    StatusMatches false 0x04 (huaGetstatusSec 0 0 (Run.trace receiveRf (worldInit (stillSetup false))
      [⟨-1, Ptr.ofList [0x5d, 0x29, 0x00, 0x0f, 0x04, 0xfb, 0x00, 0x00], 8⟩]).1.state) := by
  refine (getstatus_sec_iff (worldInit (stillSetup false)) rfl
    [⟨-1, Ptr.ofList [0x5d, 0x29, 0x00, 0x0f, 0x04, 0xfb, 0x00, 0x00], 8⟩] (by decide) ?_ 0 0
    0x04 (by decide)).mpr (by decide)
  intro a ha b hb ka kb addr fa fb hea heb
  obtain rfl := List.mem_singleton.mp ha
  obtain rfl := List.mem_singleton.mp hb
  cases hea.symm.trans heb
  rfl

/-- An open contact of a DS12A without its cover is not reported. -/
theorem getstatus_sec_tamper :
    let r := Run.trace receiveRf (worldInit (stillSetup false))
      [⟨-1, Ptr.ofList [0x5d, 0x29, 0x00, 0x0f, 0x44, 0xbb, 0x00, 0x00], 8⟩]
    latest (Accepted.report 0) r.2 = some (false, 0x44) ∧
      ¬ StatusMatches false 0x44 (huaGetstatusSec 0 0 r.1.state) := by
  decide

end Mochad
