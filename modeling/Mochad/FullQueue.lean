import Mochad.Daemon
import Mochad.Listener
import Mochad.OutputQueue

/-!
# Mochad.FullQueue

A `PL` command and a full output queue.  `add_x10out` returns -1 when the ring
is full, but `x10_write` does not look at it and returns the length; the command
has been tracked by then.  So a command is all or nothing exactly when the queue
takes all its packets (`pl_all_or_nothing`).
-/

namespace Mochad

open CString

/-! ## The output queue -/

/-- The queues that calls of `x10_write.c` lead to; the main loop stores
`PollTimeOut` on its own. -/
inductive Fifo.Reachable : Fifo → Prop
  | init : Fifo.Reachable fifoInit
  | call {s : Fifo} (h : s.Reachable) (c : FifoCall) : Fifo.Reachable (fifoStep s c).1
  | pollTimeOut {s : Fifo} (h : s.Reachable) (t : Int) : Fifo.Reachable { s with pollTimeOut := t }

/-- Every queue that can be reached is the queue of the specification. -/
theorem Fifo.Reachable.refines {s : Fifo} (h : s.Reachable) : ∃ q, s.Refines q := by
  induction h with
  | init => exact ⟨Spool.idle, fifoInit_refines⟩
  | call _ c ih =>
      obtain ⟨q, hq⟩ := ih
      exact ⟨_, (fifoStep_refines c hq).1⟩
  | pollTimeOut _ t ih =>
      obtain ⟨q, hq⟩ := ih
      exact ⟨q, hq.busy_eq, hq.holds, hq.ok⟩

/-- Everything given to the controller, then what waits. -/
def World.delivered (w : World) : List OutBuf := w.usb ++ w.fifo.waiting

/-- A packet for the power line as one of the output queue. -/
def PlcPacket.packet (p : PlcPacket) : Packet where
  bytes := p.wire
  length_pos := by cases p <;> simp [wire]
  length_le := by cases p <;> simp [wire]

/-- The packets given to the controller in a call. -/
theorem emitted_x10Write (s : Fifo) (p : Packet) :
    Spool.emitted (fifoStep s (.x10Write p)).2 = (x10Write p.bytes p.bytes.length s).2.2 := by
  simp only [fifoStep, Spool.emitted]
  split <;> simp [List.filterMap_map]

/-- A packet that is transmitted is one call of `x10_write`. -/
theorem transmit_eq (w : World) (p : PlcPacket) :
    (w.transmit p).fifo = (fifoStep w.fifo (.x10Write p.packet)).1 ∧
      (w.transmit p).usb = w.usb ++ Spool.emitted (fifoStep w.fifo (.x10Write p.packet)).2 := by
  rw [emitted_x10Write]
  exact ⟨rfl, rfl⟩

/-- Packets sent one after the other are put into the abstract queue. -/
theorem foldl_transmit_refines (ps : List PlcPacket) {w : World} {q : Spool.Queue OutBuf}
    (h : w.fifo.Refines q) :
    let t := Run.trace (Spool.step 255) q ((ps.map fun p => p.packet.outBuf).map .put)
    (ps.foldl World.transmit w).fifo.Refines t.1 ∧
      (ps.foldl World.transmit w).usb = w.usb ++ Spool.emitted t.2 := by
  induction ps generalizing w q with
  | nil => exact ⟨h, by simp [Run.trace, Spool.emitted]⟩
  | cons p ps ih =>
      obtain ⟨hfifo, husb⟩ := transmit_eq w p
      obtain ⟨href, hev⟩ := x10Write_refines h p.packet
      rw [← hfifo] at href
      obtain ⟨hrefs, husbs⟩ := ih href
      refine ⟨hrefs, ?_⟩
      rw [List.foldl_cons, husbs, husb, hev, List.append_assoc, Spool.emitted, Spool.emitted,
        ← List.filterMap_append]
      rfl

/-- The queue holds 255 buffers at most. -/
theorem Fifo.Refines.length_le {s : Fifo} {q : Spool.Queue OutBuf} (h : s.Refines q) :
    q.waiting.length ≤ 255 := Nat.le_of_lt_succ h.holds.length_lt

/-- What is delivered is what was, and of the packets as many as there is room
for. -/
theorem foldl_transmit_delivered (ps : List PlcPacket) {w : World} {q : Spool.Queue OutBuf}
    (h : w.fifo.Refines q) :
    (ps.foldl World.transmit w).delivered =
      w.delivered ++ (ps.map fun p => p.packet.outBuf).take (q.room 255) := by
  obtain ⟨href, husb⟩ := foldl_transmit_refines ps h
  have hbalance := @Spool.trace_balance _ 255 _ h.ok ((ps.map fun p => p.packet.outBuf).map .put)
  rw [Spool.accepted_puts h.ok h.length_le] at hbalance
  rw [World.delivered, World.delivered, href.waiting_eq, husb, List.append_assoc, hbalance, h.waiting_eq,
    List.append_assoc]

/-! ## Commands -/

/-- A `PL` command has no packet, one, or two. -/
theorem length_plPackets (ws : List Text) : (plPackets ws).length ≤ 2 := by
  unfold plPackets plHousePackets plUnitPackets
  dsimp only
  split_ifs <;> simp

/-- Either every packet of a command is written or queued; or none is, the
tracked state is unchanged and `x10_write` reports the failure. -/
def AllOrNothing (packets : List PlcPacket) (w w' : World) : Prop :=
  w'.delivered = w.delivered ++ packets.map (fun p => p.packet.outBuf) ∨
    w'.delivered = w.delivered ∧ w'.state = w.state ∧
      ∀ p ∈ packets, (w.x10Write p.wire p.wire.length).1 < 0

/-- `x10_write` never reports a failure. -/
theorem x10Write_pos (p : Packet) (w : World) : 0 < (w.x10Write p.bytes p.bytes.length).1 := by
  have hlen : (w.x10Write p.bytes p.bytes.length).1 = cInt p.bytes.length := by
    by_cases hb : w.fifo.outbusy = true <;> simp [Mochad.x10Write, hb]
  have h1 := p.length_pos
  have h2 := p.length_le
  rw [hlen, cInt, Int.bmod_def]
  omega

/-- There is room for the packets of a command unless some would be the 256th to
wait. -/
theorem length_le_room {s : Fifo} {q : Spool.Queue OutBuf} (h : s.Refines q) (ws : List Text) :
    (plPackets ws).length ≤ q.room 255 ↔ s.waiting.length + (plPackets ws).length ≤ 255 := by
  have htwo := length_plPackets ws
  have hle := h.length_le
  rw [h.waiting_eq, Spool.Queue.room]
  by_cases hb : q.busy = true
  · rw [if_pos hb]
    omega
  · rw [if_neg hb, h.ok (by simpa using hb), List.length_nil]
    omega

/-- What a `PL` command delivers: as many of its packets as there is room for. -/
theorem pl_delivered {w : World} {q : Spool.Queue OutBuf} (h : w.fifo.Refines q) {aLine : Text}
    {ws : List Text} (hwords : words 32 (strupper aLine) = cstr "PL" :: ws) (fd : Int) :
    (processcommandline fd aLine w).2.2.delivered = w.delivered ++
      ((plPackets ws).map fun p => p.packet.outBuf).take (q.room 255) := by
  have hquiet := @processcommandline_pl cm15aDecodeRf _ _ hwords fd w
  rw [← processcommandline] at hquiet
  obtain ⟨io, acc, hr⟩ := hquiet
  rw [← foldl_transmit_delivered _ h, hr]
  rfl

/-- A `PL` command is all or nothing exactly when the queue has room for all its
packets. -/
theorem pl_all_or_nothing {w : World} (hreach : w.fifo.Reachable) {aLine : Text} {ws : List Text}
    (hwords : words 32 (strupper aLine) = cstr "PL" :: ws) (fd : Int) :
    AllOrNothing (plPackets ws) w (processcommandline fd aLine w).2.2 ↔
      w.fifo.waiting.length + (plPackets ws).length ≤ 255 := by
  obtain ⟨q, hq⟩ := hreach.refines
  have hdelivered := pl_delivered hq hwords fd
  rw [← length_le_room hq]
  constructor
  · rintro (hall | ⟨hnone, -, hfail⟩)
    · have htake := congrArg List.length (List.append_cancel_left (hdelivered.symm.trans hall))
      rw [List.length_take, List.length_map] at htake
      omega
    · -- nothing was to be sent
      cases hps : plPackets ws with
      | nil => exact Nat.zero_le _
      | cons p ps =>
          have hneg := hfail p (hps ▸ List.mem_cons_self)
          exact absurd hneg (not_lt.mpr (x10Write_pos p.packet w).le)
  · intro hroom
    left
    rw [hdelivered, List.take_of_length_le]
    rwa [List.length_map]

/-- A command for an idle controller. -/
theorem pl_all_or_nothing_idle :
    AllOrNothing (plPackets [cstr "A1", cstr "ON"]) (worldInit (stillSetup false))
      (processcommandline 5 (cstr "pl a1 on") (worldInit (stillSetup false))).2.2 :=
  (pl_all_or_nothing .init (by decide) 5).mpr (by decide)

/-- A queue in which `n` packets wait for the acknowledge of another one. -/
def waitingFor (n : Nat) : Fifo :=
  (List.replicate (n + 1) (PlcPacket.houseunit 0x66).packet).foldl (fun s p => (fifoStep s (.x10Write p)).1)
    fifoInit

/-- A queue with any number of buffers waiting can be reached. -/
theorem reachable_waitingFor (n : Nat) : (waitingFor n).Reachable := by
  have hfold : ∀ (ps : List Packet) {s : Fifo}, s.Reachable →
      (ps.foldl (fun s p => (fifoStep s (.x10Write p)).1) s).Reachable := by
    intro ps
    induction ps with
    | nil => exact fun h => h
    | cons p ps ih => exact fun h => ih (h.call (.x10Write p))
  exact hfold _ .init

/-- With 254 packets waiting, the address of `pl a1 on` is queued and its function
is dropped; the unit is tracked as on. -/
theorem address_without_function :
    let w : World := { worldInit (stillSetup false) with fifo := waitingFor 254 }
    let r := (processcommandline 5 (cstr "pl a1 on") w).2.2
    (waitingFor 254).Reachable ∧ ¬ AllOrNothing (plPackets [cstr "A1", cstr "ON"]) w r ∧
      plPackets [cstr "A1", cstr "ON"] = [.houseunit 0x66, .housefunc 0x62] ∧
      r.fifo.waiting = w.fifo.waiting ++ [⟨[0x04, 0x66], 2⟩] ∧ r.usb = w.usb ∧
      r.state.houseUnitState 0 0 = charOn := by
  intro w r
  have hreach := reachable_waitingFor 254
  have hps : plPackets [cstr "A1", cstr "ON"] = [.houseunit 0x66, .housefunc 0x62] := by decide
  have husb : r.usb = w.usb := by decide +kernel
  have hfifo : w.fifo = waitingFor 254 := by simp only [w]
  obtain ⟨q, hq⟩ := hreach.refines
  rw [← hfifo] at hq
  have hroom : q.room 255 = 1 := by
    have hbusy : w.fifo.outbusy = true := by decide +kernel
    have hlen : w.fifo.waiting.length = 254 := by decide +kernel
    rw [Spool.Queue.room, ← hq.busy_eq, ← hq.waiting_eq, hbusy, hlen]
    rfl
  have hdelivered : r.delivered = w.delivered ++ [⟨[0x04, 0x66], 2⟩] := by
    have h := @pl_delivered w q hq (cstr "pl a1 on") [cstr "A1", cstr "ON"] (by decide) 5
    rw [hroom, hps] at h
    exact h
  have hlen : r.delivered.length = w.delivered.length + 1 := by
    rw [hdelivered, List.length_append]
    rfl
  have hwaiting : r.fifo.waiting = w.fifo.waiting ++ [⟨[0x04, 0x66], 2⟩] := by
    rw [World.delivered, World.delivered, husb, List.append_assoc] at hdelivered
    exact List.append_cancel_left hdelivered
  refine ⟨hreach, ?_, hps, hwaiting, husb, by decide⟩
  rintro (hall | ⟨hnone, -⟩)
  · have hboth := (congrArg List.length hall).symm.trans hlen
    rw [List.length_append, List.length_map, hps] at hboth
    exact absurd (Nat.add_left_cancel hboth) (by decide)
  · exact absurd ((congrArg List.length hnone).symm.trans hlen) (Nat.ne_of_lt (Nat.lt_succ_self _))

end Mochad
