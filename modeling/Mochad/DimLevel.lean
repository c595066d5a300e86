import Mochad.Encode.RfSend
import Mochad.SelfAddressed
import Mochad.SensorTable
import Mathlib.Logic.Relation

/-!
# Mochad.DimLevel

On/off state and dim level of a device are kept in two arrays.  Every packet and
every command changes them by calls of `x10state.c` whose dim levels are bytes
(`Tracking`); each of these calls keeps a device on exactly when its level is not
zero, so the two status requests agree (`status_agrees_dim`).
-/

namespace Mochad

open CString
open Relation (ReflTransGen)

/-! ## Calls -/

/-- A dim level comes as a byte of a packet. -/
def HuaOp.ByteLevel : HuaOp → Prop
  | setstatusXdim _ _ xdim => ∃ b : UInt8, xdim = b.toNat
  | _ => True

/-- A call of `x10state.c` that changes its variables. -/
inductive Tracking : X10state → X10state → Prop
  | hua (op : HuaOp) (hop : op.ByteLevel) (s : X10state) : Tracking s (op.apply s)
  | secEvent (now addr : Nat) (funct secaddr8 : UInt8) (s : X10state) :
      Tracking s (huaSecEvent now addr funct secaddr8 s)
  | sort (s : X10state) : Tracking s (sortSensors s)
  | secInit (s : X10state) : Tracking s huaSecInit

/-! ## The invariant -/

/-- The values a row can hold, and the link between state and level. -/
structure HouseRow.Consistent (r : HouseRow) : Prop where
  state : ∀ u, r.state u = 0 ∨ r.state u = charOff ∨ r.state u = charOn
  selected : ∀ u, r.selected u = 0 ∨ r.selected u = charOn
  protostate : r.protostate = 0 ∨ r.protostate = 1
  on_iff_dim : ∀ u, r.state u = charOn ↔ r.dim u ≠ 0

/-- All houses are consistent. -/
def X10state.Consistent (s : X10state) : Prop := ∀ h, (s.row h).Consistent

/-- A byte means on exactly when its level is not 0. -/
theorem onOffDim_iff {v : UInt8} : v = charOn ↔ onOffDim v ≠ 0 := by
  unfold onOffDim
  split
  · rename_i hv
    exact ⟨fun _ => by decide, fun _ => hv⟩
  · rename_i hv
    exact ⟨fun h => absurd h hv, fun h => absurd rfl h⟩

namespace HouseRow.Consistent

variable {r : HouseRow} (h : r.Consistent)
include h

/-- Selecting a unit changes no level. -/
theorem add (unit : Fin 16) : (r.add unit).Consistent := by
  unfold HouseRow.add
  split
  · refine ⟨h.state, fun u => ?_, h.protostate, h.on_iff_dim⟩
    change Function.update r.selected unit charOn u = 0 ∨ Function.update r.selected unit charOn u = charOn
    by_cases hu : u = unit
    · rw [hu, Function.update_self]
      exact .inr rfl
    · rw [Function.update_of_ne hu]
      exact h.selected u
  split
  · refine ⟨h.state, fun u => ?_, .inl rfl, h.on_iff_dim⟩
    by_cases hu : u = unit <;> simp [HouseRow.only, hu]
  · exact h

/-- On and Off set state and level together. -/
theorem func {v : UInt8} (hv : v = charOff ∨ v = charOn) : (r.func v).Consistent := by
  refine ⟨fun u => ?_, h.selected, .inr rfl, fun u => ?_⟩
  · by_cases hsel : r.selected u = 0
    · simpa [HouseRow.func, hsel] using h.state u
    · exact .inr (by simpa [HouseRow.func, hsel] using hv)
  · by_cases hsel : r.selected u = 0
    · simpa [HouseRow.func, hsel] using h.on_iff_dim u
    · simpa [HouseRow.func, hsel] using onOffDim_iff

/-- So do the functions for all units. -/
theorem funcAll {v : UInt8} (hv : v = charOff ∨ v = charOn) : (r.funcAll v).Consistent :=
  ⟨fun _ => .inr hv, h.selected, .inr rfl, fun _ => onOffDim_iff⟩

/-- So does an extended dim. -/
theorem setXdim (unit : Fin 16) (b : UInt8) : (r.setXdim unit b.toNat).Consistent := by
  have hbyte : UInt8.ofInt b.toNat = b := by
    have hlt := b.toNat_lt
    rw [UInt8.ofInt, Int.emod_eq_of_lt (Int.natCast_nonneg _) (by omega), Int.toNat_natCast,
      UInt8.ofNat_toNat]
  have hpos : (b.toNat : Int) > 0 ↔ b ≠ 0 := by
    rw [gt_iff_lt, Int.natCast_pos, Nat.pos_iff_ne_zero, Ne, Ne, ← UInt8.toNat_inj]
    rfl
  have hother : ∀ u, u ≠ unit → (r.setXdim unit b.toNat).state u = r.state u ∧
      (r.setXdim unit b.toNat).dim u = r.dim u := fun u hu =>
    ⟨Function.update_of_ne hu _ _, Function.update_of_ne hu _ _⟩
  have hstate : (r.setXdim unit b.toNat).state unit =
      if (b.toNat : Int) > 0 then charOn else charOff := Function.update_self ..
  have hdim : (r.setXdim unit b.toNat).dim unit = b := (Function.update_self ..).trans hbyte
  refine ⟨fun u => ?_, fun u => ?_, .inr rfl, fun u => ?_⟩
  · by_cases hu : u = unit
    · rw [hu, hstate]
      split
      · exact .inr (.inr rfl)
      · exact .inr (.inl rfl)
    · rw [(hother u hu).1]
      exact h.state u
  · by_cases hu : u = unit <;> simp [HouseRow.setXdim, HouseRow.only, hu]
  · by_cases hu : u = unit
    · rw [hu, hstate, hdim, ← hpos]
      split
      · rename_i hb
        exact ⟨fun _ => hb, fun _ => rfl⟩
      · rename_i hb
        exact ⟨fun h => absurd h (by decide), fun h => absurd h hb⟩
    · rw [(hother u hu).1, (hother u hu).2]
      exact h.on_iff_dim u

end HouseRow.Consistent

/-- Every operation with a byte for a level keeps a row consistent. -/
theorem HouseRow.Consistent.onRow {r : HouseRow} (h : r.Consistent) {op : HuaOp} (hop : op.ByteLevel) :
    (op.onRow r).Consistent := by
  cases op with
  | add house unit => exact h.add unit
  | funcOn house => exact h.func (.inr rfl)
  | funcOff house => exact h.func (.inl rfl)
  | funcAllOn house => exact h.funcAll (.inr rfl)
  | funcAllOff house => exact h.funcAll (.inl rfl)
  | setstatusXdim house unit xdim =>
      obtain ⟨b, rfl⟩ := hop
      exact h.setXdim unit b

/-- The first state is consistent. -/
theorem consistent_huaSecInit : huaSecInit.Consistent := by
  have hne : ¬ (0 : UInt8) = charOn := by decide
  exact fun _ => ⟨fun _ => .inl rfl, fun _ => .inl rfl, .inl rfl,
    fun _ => ⟨fun h => absurd h hne, fun h => absurd rfl h⟩⟩

/-- Calls about sensors leave the rows alone. -/
theorem row_huaSecEvent (now addr : Nat) (funct secaddr8 : UInt8) (s : X10state) (h : Fin 16) :
    (huaSecEvent now addr funct secaddr8 s).row h = s.row h := by
  unfold huaSecEvent
  split
  · rfl
  · split <;> rfl

/-- A call keeps all houses consistent. -/
theorem X10state.Consistent.call {s s' : X10state} (hs : s.Consistent) (h : Tracking s s') :
    s'.Consistent := by
  cases h with
  | hua op hop =>
      intro house
      rw [row_apply]
      split
      · exact (hs house).onRow hop
      · exact hs house
  | secEvent now addr funct secaddr8 =>
      intro house
      rw [row_huaSecEvent]
      exact hs house
  | sort => exact hs
  | secInit => exact consistent_huaSecInit

/-- Any number of calls do. -/
theorem X10state.Consistent.calls {s s' : X10state} (hs : s.Consistent) (h : ReflTransGen Tracking s s') :
    s'.Consistent := by
  induction h with
  | refl => exact hs
  | tail _ hcall ih => exact ih.call hcall

/-! ## Packets and commands -/

/-- An operation whose level is a byte is a step of tracking. -/
theorem tracking_applyOp {op : Option HuaOp} (hop : ∀ o ∈ op, o.ByteLevel) (s : X10state) :
    ReflTransGen Tracking s (applyOp op s) := by
  cases op with
  | none => exact .refl
  | some op => exact .single (.hua op (hop op rfl) s)

theorem tracking_applyOps {ops : List HuaOp} (hops : ∀ op ∈ ops, op.ByteLevel) (s : X10state) :
    ReflTransGen Tracking s (applyOps ops s) := by
  induction ops generalizing s with
  | nil => exact .refl
  | cons op ops ih =>
      obtain ⟨hop, hops⟩ := List.forall_mem_cons.mp hops
      exact .head (.hua op hop s) (ih hops (op.apply s))

/-- The level of a function is a byte. -/
theorem byteLevel_plcFuncOp (b : UInt8) : ∀ op ∈ plcFuncOp b, op.ByteLevel := by
  intro op hop
  obtain rfl | rfl | rfl | rfl := plcFuncOp_some hop <;> trivial

/-- So is the level a received packet tracks. -/
theorem byteLevel_plcOp (buf : Ptr) (len : Nat) : ∀ op ∈ plcOp buf len, op.ByteLevel := by
  intro op hop
  obtain ⟨-, -, rfl⟩ | ⟨-, -, hop⟩ | ⟨-, -, rfl⟩ | ⟨-, -, rfl⟩ := plcOp_some hop
  · trivial
  · exact byteLevel_plcFuncOp _ op hop
  · exact ⟨buf 5, rfl⟩
  · exact ⟨buf 4, rfl⟩

/-- So is the level of a packet that is sent. -/
theorem byteLevel_packet (p : PlcPacket) : ∀ op ∈ p.op, op.ByteLevel := by
  intro op hop
  cases p with
  | houseunit hu =>
      cases hop
      trivial
  | housefunc hf => exact byteLevel_plcFuncOp hf op hop
  | dimbright hf dims => cases hop
  | extended hf u data cmd =>
      cases hop
      exact ⟨data, rfl⟩

/-- Packets that are sent are steps of tracking. -/
theorem tracking_packets (ps : List PlcPacket) (s : X10state) :
    ReflTransGen Tracking s (ps.foldl (fun s p => applyOp p.op s) s) := by
  induction ps generalizing s with
  | nil => exact .refl
  | cons p ps ih => exact (tracking_applyOp (byteLevel_packet p) s).trans (ih _)

/-- So are the levels of an RF packet. -/
theorem byteLevel_event (e : RfEvent) : ∀ op ∈ e.ops, op.ByteLevel := by
  cases e with
  | houseUnit housechar unitint funcint =>
      refine List.forall_mem_cons.mpr ⟨trivial, List.forall_mem_singleton.mpr ?_⟩
      split <;> trivial
  | house housechar funcint => exact fun op hop => absurd hop (List.not_mem_nil)
  | camera commandp => exact fun op hop => absurd hop (List.not_mem_nil)
  | security rf8bitaddr addr funct => exact fun op hop => absurd hop (List.not_mem_nil)

/-- An RF packet is tracked in steps. -/
theorem tracking_event {e : RfEvent} {s s' : X10state} (h : e.Tracks s s') :
    ReflTransGen Tracking s s' := by
  have honce := tracking_applyOps (byteLevel_event e) s
  have htwice := honce.trans (tracking_applyOps (byteLevel_event e) _)
  cases e with
  | security rf8bitaddr addr funct =>
      obtain ⟨now, rfl⟩ := h
      exact .single (.secEvent now addr funct _ s)
  | _ => obtain rfl | rfl := h <;> assumption

/-- A packet received by radio. -/
theorem tracking_decodeRf (fd : Int) (buf : Ptr) (len : Nat) (w : World) :
    ReflTransGen Tracking w.state (cm15aDecodeRf fd buf len w).state := by
  have hr : (receiveRf w ⟨fd, buf, len⟩).1 = cm15aDecodeRf fd buf len w := rfl
  obtain ⟨-, -, hsame⟩ | ⟨e, -, hcase, -⟩ := receiveRf_cases w ⟨fd, buf, len⟩
  · rw [← hr, hsame.state]
  · obtain ⟨-, -, hstate⟩ | ⟨-, -, htracks⟩ := hcase
    · rw [← hr, hstate]
    · exact tracking_event htracks

section
variable (fd : Int) (t : Strtok) (w : World)

/-- `PL` tracks what it sends. -/
theorem tracking_plCommand : ReflTransGen Tracking w.state (plCommand fd t w).2.2.state := by
  rw [(plCommand_quiet fd t w).state, foldl_transmit_state]
  exact tracking_packets _ _

/-- An RF command decodes the packet it sends. -/
theorem tracking_sendsPacket {packet : Option (List UInt8)} {w r : World}
    (h : SendsPacket packet w r) : ReflTransGen Tracking w.state r.state := by
  cases packet with
  | none =>
      have hstate : r.state = w.state := Quiet.state h
      rw [hstate]
  | some buf =>
      obtain ⟨v, hv, hr⟩ := h
      have hstate : (rfTransmit cm15aDecodeRf buf v).2.state =
          (cm15aDecodeRf (-1) (Ptr.ofList buf) buf.length v).state := by
        unfold rfTransmit
        dsimp only
        split <;> rfl
      rw [hr, hstate, ← hv.state]
      exact tracking_decodeRf _ _ _ v

/-- `ST` resets the devices, or tracks nothing. -/
theorem tracking_stCommand : ReflTransGen Tracking w.state (stCommand fd t w).2.2.state := by
  unfold stCommand
  dsimp only
  split
  · exact .single (.secInit w.state)
  · rw [huaShow_state]
    exact .single (.sort w.state)

theorem ptCommand_state : (ptCommand fd t w).2.2.state = w.state := by
  have hack := (ackOr20_quiet (Quiet.refl w) fd).state
  unfold ptCommand
  dsimp only
  split <;> exact hack

theorem rftoplCommand_state : (rftoplCommand fd t w).2.2.state = w.state :=
  (ackOr20_quiet (Quiet.refl w) fd).state

theorem rftorfCommand_state : (rftorfCommand fd t w).2.2.state = w.state := by
  have hack := (ackOr20_quiet (Quiet.refl w) fd).state
  unfold rftorfCommand
  dsimp only
  split <;> exact hack

/-- Every command tracks in steps. -/
theorem tracking_runCommand (command : Text) :
    ReflTransGen Tracking w.state (runCommand cm15aDecodeRf fd command t w).2.2.state := by
  have hsame : ∀ {v : World}, v.state = w.state → ReflTransGen Tracking w.state v.state :=
    fun h => h ▸ .refl
  exact runCommand_cases (P := fun v => ReflTransGen Tracking w.state v.state)
    (fun _ => tracking_plCommand fd t w)
    (fun _ => tracking_sendsPacket (rfCommand_sends fd t w))
    (fun _ => tracking_sendsPacket (rfsecCommand_sends fd t w))
    (fun _ => tracking_sendsPacket (rfcamCommand_sends fd t w))
    (fun _ => hsame (ptCommand_state fd t w))
    (fun _ => hsame (rftoplCommand_state fd t w))
    (fun _ => hsame (rftorfCommand_state fd t w))
    (fun _ => tracking_stCommand fd t w)
    (fun _ => hsame (getstatusCommand_quiet fd t w).state)
    (fun _ => hsame (getstatussecCommand_quiet fd t w).state)
    .refl

end

/-- A command line. -/
theorem tracking_processcommandline (fd : Int) (aLine : Text) (w : World) :
    ReflTransGen Tracking w.state (processcommandline fd aLine w).2.2.state := by
  obtain ⟨-, heq⟩ | ⟨-, heq⟩ | ⟨command, t, -, heq⟩ :=
    processcommandlineWith_cases cm15aDecodeRf fd aLine w
  · rw [processcommandline, heq]
    exact .refl
  · rw [processcommandline, heq]
  · rw [processcommandline, heq]
    exact tracking_runCommand fd t w command

/-! ## Runs -/

/-- What reaches the tracked state: a packet from the power line, one received by
radio, or a command line. -/
inductive DeviceInput where
  | plc (fd : Int) (buf : Ptr) (len : Nat)
  | rf (fd : Int) (buf : Ptr) (len : Nat)
  | command (fd : Int) (aLine : Text)

/-- The input is handled. -/
def deviceInput (w : World) : DeviceInput → World
  | .plc fd buf len => cm15aDecodePlc fd buf len w
  | .rf fd buf len => cm15aDecodeRf fd buf len w
  | .command fd aLine => (processcommandline fd aLine w).2.2

/-- An input is a number of calls. -/
theorem tracking_deviceInput (w : World) (i : DeviceInput) :
    ReflTransGen Tracking w.state (deviceInput w i).state := by
  cases i with
  | plc fd buf len =>
      rw [deviceInput, cm15aDecodePlc_state]
      exact tracking_applyOp (byteLevel_plcOp buf len) _
  | rf fd buf len => exact tracking_decodeRf fd buf len w
  | command fd aLine => exact tracking_processcommandline fd aLine w

/-- A whole run is. -/
theorem tracking_run (w : World) (is : List DeviceInput) :
    ReflTransGen Tracking w.state (Run.run deviceInput w is).state := by
  induction is generalizing w with
  | nil => exact .refl
  | cons i is ih => exact (tracking_deviceInput w i).trans (ih _)

/-! ## Status requests -/

/-- The first thing the client gets is the text. -/
def Answers (fd : Int) (text : Text) (w w' : World) : Prop :=
  ∃ io, w'.io = w.io ++ .send fd text :: io

section
variable {fd : Int} {addr : Text} (hhouse : 0 ≤ (deviceaddr addr).1) (hunit : 0 ≤ (deviceaddr addr).2)
  (w : World) {line : Text}
include hhouse hunit

/-- What `GETSTATUS` answers for a unit. -/
theorem getstatus_answers (hline : words 32 (strupper line) = [cstr "GETSTATUS", addr]) :
    Answers fd ((if w.state.houseUnitState (World.idx16 (deviceaddr addr).1)
        (World.idx16 (deviceaddr addr).2) = charOn then cstr "on" else cstr "off") ++ cstr "\n") w
      (processcommandline fd line w).2.2 := by
  obtain ⟨t, ht, heq⟩ := @processcommandlineWith_getstatus cm15aDecodeRf fd line _ w hline
  have hfst := nextWord_fst (nextWord t).2
  rw [argv_nextWord, ht] at hfst
  rw [processcommandline, heq]
  simp only [getstatusCommand, getdeviceaddr_eq, ht, List.head?_cons, deviceaddrOf,
    if_pos (And.intro hhouse hunit), hfst]
  exact ⟨_, List.append_assoc ..⟩

/-- What `GETSTATUS` with `XDIM` answers. -/
theorem getstatus_xdim_answers
    (hline : words 32 (strupper line) = [cstr "GETSTATUS", addr, cstr "XDIM"]) :
    Answers fd (dec (w.state.houseUnitDim (World.idx16 (deviceaddr addr).1)
        (World.idx16 (deviceaddr addr).2)).toNat ++ cstr "\n") w
      (processcommandline fd line w).2.2 := by
  obtain ⟨t, ht, heq⟩ := @processcommandlineWith_getstatus cm15aDecodeRf fd line _ w hline
  have hfst := nextWord_fst (nextWord t).2
  rw [argv_nextWord, ht] at hfst
  rw [processcommandline, heq]
  simp only [getstatusCommand, getdeviceaddr_eq, ht, List.head?_cons, deviceaddrOf,
    if_pos (And.intro hhouse hunit), hfst]
  exact ⟨_, List.append_assoc ..⟩

end

/-- In every run from `hua_sec_init` the variables are consistent, and `GETSTATUS`
answers `on` exactly when `GETSTATUS` with `XDIM` answers a positive level. -/
theorem status_agrees_dim (w₀ : World) (is : List DeviceInput) :
    let w := Run.run deviceInput { w₀ with state := huaSecInit } is
    w.state.Consistent ∧
      ∀ {fd : Int} {addr line line' : Text}, 0 ≤ (deviceaddr addr).1 → 0 ≤ (deviceaddr addr).2 →
        words 32 (strupper line) = [cstr "GETSTATUS", addr] →
        words 32 (strupper line') = [cstr "GETSTATUS", addr, cstr "XDIM"] →
        ∃ level : Nat,
          Answers fd (dec level ++ cstr "\n") w (processcommandline fd line' w).2.2 ∧
          Answers fd ((if 0 < level then cstr "on" else cstr "off") ++ cstr "\n") w
            (processcommandline fd line w).2.2 := by
  intro w
  have hcons : w.state.Consistent :=
    consistent_huaSecInit.calls (tracking_run { w₀ with state := huaSecInit } is)
  refine ⟨hcons, fun {fd addr line line'} hhouse hunit hline hline' => ?_⟩
  let house := World.idx16 (deviceaddr addr).1
  let unit := World.idx16 (deviceaddr addr).2
  have hplain : Answers fd _ w _ := getstatus_answers hhouse hunit w hline
  have hpos : 0 < (w.state.houseUnitDim house unit).toNat ↔
      w.state.houseUnitState house unit = charOn := by
    refine Iff.trans ?_ ((hcons house).on_iff_dim unit).symm
    rw [Nat.pos_iff_ne_zero, Ne, Ne, ← UInt8.toNat_inj]
    rfl
  refine ⟨_, getstatus_xdim_answers hhouse hunit w hline', ?_⟩
  rwa [if_congr hpos rfl rfl]

/-- A1 is dimmed to 5; both requests agree. -/
theorem status_agrees_dim_a1 :
    let w := Run.run deviceInput { worldInit (stillSetup false) with state := huaSecInit }
      [.command 5 (cstr "pl a1 xdim 5")]
    w.state.houseUnitDim 0 0 = 5 ∧
      ∃ level : Nat,
        Answers 5 (dec level ++ cstr "\n") w
          (processcommandline 5 (cstr "getstatus a1 xdim") w).2.2 ∧
        Answers 5 ((if 0 < level then cstr "on" else cstr "off") ++ cstr "\n") w
          (processcommandline 5 (cstr "getstatus a1") w).2.2 :=
  ⟨by decide, @(status_agrees_dim (worldInit (stillSetup false)) [.command 5 (cstr "pl a1 xdim 5")]).2
    5 (cstr "A1") _ _ (by decide) (by decide) (by decide) (by decide)⟩

end Mochad
