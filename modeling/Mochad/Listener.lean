import Mochad.Encode.PlcSend
import Mochad.Daemon

/-!
# Mochad.Listener

Sender and listener on the power line.  Every packet of a `PL` command goes
through the sender's own decoder in one layout and to the controller in
another; a second instance that receives it decodes a third one.  All three
layouts stand for the same operation (`plcOp_receivedForm`), so the devices a
sender tracks are the devices any listener tracks (`listener_agrees`).
-/

namespace Mochad

open CString

/-! ## Packets on the line -/

/-- The packet a listener's controller reports for a packet passed to
`x10_write`, as documented above `cm15a_decode_plc`; nothing for other data. -/
def receivedForm : List UInt8 → List UInt8
  | [0x04, hu] => [0x5a, 0x02, 0x00, hu]
  | [0x06, hf] => [0x5a, 0x02, 0x01, hf]
  | [0x06, hf, dims] => [0x5a, 0x03, 0x02, dims, hf]
  | [0x07, hf, u, data, cmd] => [0x5a, 0x05, 0x08, cmd, data, u, hf]
  | _ => []

/-- A listener decodes what a sender has passed to `x10_write`. -/
def listen (fd : Int) (v : World) (b : OutBuf) : World :=
  cm15aDecodePlc fd (Ptr.ofList (receivedForm b.data)) (receivedForm b.data).length v

/-- The arguments of `x10_write` for a packet. -/
def PlcPacket.outBuf (p : PlcPacket) : OutBuf := ⟨p.wire, p.wire.length⟩

/-- The received form stands for the operation the sender has tracked. -/
theorem plcOp_receivedForm (p : PlcPacket) :
    plcOp (Ptr.ofList (receivedForm p.wire)) (receivedForm p.wire).length = p.op := by
  cases p <;> rfl

/-- A packet that another controller sends is tracked by its operation. -/
theorem listen_outBuf_state (fd : Int) (v : World) (p : PlcPacket) :
    (listen fd v p.outBuf).state = applyOp p.op v.state := by
  rw [listen, cm15aDecodePlc_state, PlcPacket.outBuf, plcOp_receivedForm]

theorem foldl_listen_state (fd : Int) (v : World) (ps : List PlcPacket) :
    ((ps.map PlcPacket.outBuf).foldl (listen fd) v).state =
      ps.foldl (fun s p => applyOp p.op s) v.state := by
  induction ps generalizing v with
  | nil => rfl
  | cons p ps ih =>
      rw [List.map_cons, List.foldl_cons, List.foldl_cons, ih, listen_outBuf_state]

/-! ## The sender -/

/-- The sender tracks the same operations. -/
theorem foldl_transmit_state (w : World) (ps : List PlcPacket) :
    (ps.foldl World.transmit w).state = ps.foldl (fun s p => applyOp p.op s) w.state := by
  induction ps generalizing w with
  | nil => rfl
  | cons p ps ih => rw [List.foldl_cons, List.foldl_cons, ih]; rfl

theorem foldl_transmit_writes (w : World) (ps : List PlcPacket) :
    (ps.foldl World.transmit w).writes = w.writes ++ ps.map PlcPacket.outBuf := by
  induction ps generalizing w with
  | nil => simp
  | cons p ps ih => simp [ih, World.transmit, PlcPacket.outBuf]

/-- The line is a `PL` command. -/
def IsPl (aLine : Text) : Prop := (words 32 (strupper aLine)).head? = some (cstr "PL")

instance (aLine : Text) : Decidable (IsPl aLine) := inferInstanceAs (Decidable (_ = _))

/-- A `PL` line changes the tracked state and the calls of `x10_write` by the
same packets. -/
theorem processcommandline_packets {aLine : Text} (h : IsPl aLine) (fd : Int) (w : World) :
    ∃ ps : List PlcPacket,
      (processcommandline fd aLine w).2.2.state = ps.foldl (fun s p => applyOp p.op s) w.state ∧
      (processcommandline fd aLine w).2.2.writes = w.writes ++ ps.map PlcPacket.outBuf := by
  obtain ⟨ws, hws⟩ := List.head?_eq_some_iff.mp h
  have hq := processcommandline_pl (d := cm15aDecodeRf) hws fd w
  exact ⟨plPackets ws, hq.state.trans (foldl_transmit_state w _),
    hq.writes.trans (foldl_transmit_writes w _)⟩

/-- Command lines, each with the client it comes from. -/
def processlines (lines : List (Int × Text)) (w : World) : World :=
  lines.foldl (fun w l => (processcommandline l.1 l.2 w).2.2) w

/-- `PL` lines track and write the same packets. -/
theorem processlines_packets {lines : List (Int × Text)} (h : ∀ l ∈ lines, IsPl l.2) (w : World) :
    ∃ ps : List PlcPacket,
      (processlines lines w).state = ps.foldl (fun s p => applyOp p.op s) w.state ∧
      (processlines lines w).writes = w.writes ++ ps.map PlcPacket.outBuf := by
  induction lines generalizing w with
  | nil => exact ⟨[], rfl, by simp [processlines]⟩
  | cons l lines ih =>
      obtain ⟨ps, hs, hw⟩ := processcommandline_packets (h l List.mem_cons_self) l.1 w
      obtain ⟨ps', hs', hw'⟩ := ih (fun k hk => h k (List.mem_cons_of_mem l hk))
        (processcommandline l.1 l.2 w).2.2
      refine ⟨ps ++ ps', ?_, ?_⟩
      · rw [List.foldl_append, ← hs, ← hs']
        rfl
      · rw [List.map_append, ← List.append_assoc, ← hw, ← hw']
        rfl

/-! ## Agreement -/

/-- The same devices: the arrays of `x10state.c` that are kept per house. -/
structure SameDevices (s t : X10state) : Prop where
  houseUnitState : s.houseUnitState = t.houseUnitState
  houseUnitSelected : s.houseUnitSelected = t.houseUnitSelected
  houseUnitDim : s.houseUnitDim = t.houseUnitDim
  x10protostate : s.x10protostate = t.x10protostate

/-- The state with other sensors. -/
def X10state.withSensors (s : X10state) (sensors : List X10secsensor) : X10state :=
  { s with x10sensors := sensors }

/-- Worlds with the same devices differ in the sensors only. -/
theorem SameDevices.eq_withSensors {s t : X10state} (h : SameDevices s t) :
    s = t.withSensors s.x10sensors := by
  obtain ⟨h1, h2, h3, h4⟩ := h
  cases s
  cases t
  simp_all [X10state.withSensors]

/-- Other sensors, the same devices. -/
theorem sameDevices_withSensors (s : X10state) (sensors : List X10secsensor) :
    SameDevices (s.withSensors sensors) s := ⟨rfl, rfl, rfl, rfl⟩

/-- No operation on devices looks at the sensors. -/
theorem applyOp_withSensors (op : Option HuaOp) (s : X10state) (sensors : List X10secsensor) :
    applyOp op (s.withSensors sensors) = (applyOp op s).withSensors sensors := by
  cases op with
  | none => rfl
  | some op =>
      cases op with
      | add house unit =>
          by_cases h0 : s.x10protostate house = 0
          · simp [HuaOp.apply, huaAdd, X10state.withSensors, h0]
          · by_cases h1 : s.x10protostate house = 1 <;>
              simp [HuaOp.apply, huaAdd, X10state.withSensors, h0, h1, huaInit, setProtostate]
      | funcOn house => rfl
      | funcOff house => rfl
      | funcAllOn house => rfl
      | funcAllOff house => rfl
      | setstatusXdim house unit xdim => rfl

/-- An operation keeps the devices the same. -/
theorem SameDevices.applyOp {s t : X10state} (h : SameDevices s t) (op : Option HuaOp) :
    SameDevices (applyOp op s) (applyOp op t) := by
  rw [h.eq_withSensors, applyOp_withSensors]
  exact sameDevices_withSensors _ _

/-- So do the operations of several packets. -/
theorem SameDevices.foldl_applyOp {s t : X10state} (h : SameDevices s t) (ps : List PlcPacket) :
    SameDevices (ps.foldl (fun s p => Mochad.applyOp p.op s) s)
      (ps.foldl (fun s p => Mochad.applyOp p.op s) t) := by
  induction ps generalizing s t with
  | nil => exact h
  | cons p ps ih => exact ih (h.applyOp p.op)

/-- Whatever `PL` lines a sender runs, a listener that started with the same
devices tracks the same devices after it has received the packets. -/
theorem listener_agrees (fd : Int) (lines : List (Int × Text)) (hpl : ∀ l ∈ lines, IsPl l.2)
    (w v : World) (hsame : SameDevices v.state w.state) :
    let w' := processlines lines w
    SameDevices ((w'.writes.drop w.writes.length).foldl (listen fd) v).state w'.state := by
  obtain ⟨ps, hs, hw⟩ := processlines_packets hpl w
  intro w'
  rw [hw, List.drop_left, foldl_listen_state, hs]
  exact hsame.foldl_applyOp ps

theorem listener_agrees_xdim_off :
    let lines := [(5, cstr "PL A1 XDIM 10"), (6, cstr "pl a1 off")]
    let w := worldInit (stillSetup false)
    let w' := processlines lines w
    (∀ l ∈ lines, IsPl l.2) ∧ SameDevices w.state w.state ∧
      SameDevices ((w'.writes.drop w.writes.length).foldl (listen (-1)) w).state w'.state :=
  ⟨by decide, ⟨rfl, rfl, rfl, rfl⟩,
    listener_agrees (-1) _ (by decide) _ _ ⟨rfl, rfl, rfl, rfl⟩⟩

end Mochad
