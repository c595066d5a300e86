import Mochad.Lib.Spool
import Mochad.X10write

/-!
# Mochad.OutputQueue

The output FIFO is a stop-and-wait sender with 255 places to wait: the ring of
256 records with its two indices and the busy flag refines the abstract
machine of `Mochad.Lib.Spool`, and the laws of that machine hold of every
sequence of calls of `x10_write` and `send_next_x10out`.
-/

namespace Mochad

open Spool (Event)

/-! ## The ring of records -/

/-- The packet of a record, as `send_next_x10out` hands it to `write_usb`. -/
def X10out.outBuf (r : X10out) : OutBuf := ⟨r.outdata.take r.outlen, r.outlen⟩

/-- The FIFO as a ring of packets. -/
def Fifo.ring (s : Fifo) : Ring.Cells OutBuf :=
  ⟨fun i => (s.outrecs i).outBuf, s.outhead, s.outtail⟩

/-- The packets waiting in the ring, oldest first. -/
def Fifo.waiting (s : Fifo) : List OutBuf := Ring.items outptrsSize s.ring

/-- A packet the controller takes: 1 to 8 bytes. -/
structure Packet where
  bytes : List UInt8
  length_pos : 1 ≤ bytes.length
  length_le : bytes.length ≤ 8

/-- The arguments of `x10_write` for a packet. -/
def Packet.outBuf (p : Packet) : OutBuf := ⟨p.bytes, p.bytes.length⟩

/-! ## Calls -/

/-- A call of `x10_write.c`. -/
inductive FifoCall where
  | x10Write (p : Packet)
  /-- On an acknowledge or a timeout. -/
  | sendNextX10out

/-- The call as one of the abstract sender. -/
def FifoCall.toSpool : FifoCall → Spool.Call OutBuf
  | .x10Write p => .put p.outBuf
  | .sendNextX10out => .ack

/-- `x10_write` drops the packet: `Outbusy` is set and `add_x10out` fails. -/
def Fifo.drops (s : Fifo) (p : Packet) : Prop :=
  s.outbusy = true ∧ (addX10out p.bytes p.bytes.length s).1 = -1

instance (s : Fifo) (p : Packet) : Decidable (s.drops p) := inferInstanceAs (Decidable (_ ∧ _))

/-- One call, with what happens to packets in it. -/
def fifoStep (s : Fifo) : FifoCall → Fifo × List (Event OutBuf)
  | .x10Write p =>
      let (_, s', usb) := x10Write p.bytes p.bytes.length s
      (s', (if s.drops p then .drop p.outBuf else .accept p.outBuf) :: usb.map .emit)
  | .sendNextX10out =>
      let (s', usb) := sendNextX10out s
      (s', .ack :: usb.map .emit)

/-! ## Refinement -/

/-- The FIFO stands for a state of the abstract sender. -/
structure Fifo.Refines (s : Fifo) (q : Spool.Queue OutBuf) : Prop where
  busy_eq : s.outbusy = q.busy
  holds : Ring.Holds outptrsSize s.ring q.waiting
  ok : q.Ok

/-- The same buffers wait on both sides. -/
theorem Fifo.Refines.waiting_eq {s : Fifo} {q : Spool.Queue OutBuf} (h : s.Refines q) :
    s.waiting = q.waiting := h.holds.items_eq

/-- The empty FIFO is the idle queue. -/
theorem fifoInit_refines : fifoInit.Refines Spool.idle where
  busy_eq := rfl
  holds := Ring.holds_nil (by decide) rfl
  ok := Spool.idle_ok

/-- `memcpy` of a whole packet leaves it at the start of the slot. -/
theorem take_memcpy (dst src : List UInt8) : (memcpy dst src src.length).take src.length = src := by
  simp [memcpy]

/-- A packet length is not the error code of `add_x10out`. -/
theorem Packet.cInt_length_ne (p : Packet) : CString.cInt p.bytes.length ≠ -1 := by
  have h1 := p.length_pos
  have h2 := p.length_le
  rw [CString.cInt, Int.bmod_def]
  omega

/-- `add_x10out` is a push of the ring, and fails only when the ring is full. -/
theorem addX10out_spec (p : Packet) {s : Fifo} {xs : List OutBuf}
    (h : Ring.Holds outptrsSize s.ring xs) :
    (xs.length = 255 ∧ addX10out p.bytes p.bytes.length s = (-1, s)) ∨
    (xs.length ≠ 255 ∧ (addX10out p.bytes p.bytes.length s).1 ≠ -1 ∧
      (addX10out p.bytes p.bytes.length s).2.outbusy = s.outbusy ∧
      Ring.Holds outptrsSize (addX10out p.bytes p.bytes.length s).2.ring (xs ++ [p.outBuf])) := by
  have hfull : nextIndex s.outtail = s.outhead ↔ xs.length + 1 = 256 := h.next_tail_eq_head_iff
  have hlt := h.length_lt
  by_cases hx : nextIndex s.outtail = s.outhead
  · left
    have := hfull.mp hx
    exact ⟨by omega, by simp [addX10out, hx]⟩
  · right
    have hne : xs.length + 1 ≠ 256 := fun he => hx (hfull.mpr he)
    have hfree : xs.length + 1 < outptrsSize := lt_of_le_of_ne hlt hne
    have hadd : addX10out p.bytes p.bytes.length s =
        (CString.cInt p.bytes.length, { s with
          outrecs := Function.update s.outrecs (nextIndex s.outtail)
            ⟨p.bytes.length, memcpy (s.outrecs (nextIndex s.outtail)).outdata p.bytes p.bytes.length⟩
          outtail := nextIndex s.outtail }) := by
      simp only [addX10out, hx, if_false]
    have hpush :
        (addX10out p.bytes p.bytes.length s).2.ring = Ring.push outptrsSize s.ring p.outBuf := by
      simp only [hadd, Fifo.ring, Ring.push, Ring.next, nextIndex, Ring.Cells.mk.injEq, and_self,
        and_true]
      funext i
      by_cases hi : i = (s.outtail + 1) % outptrsSize
      · subst hi
        simp [X10out.outBuf, Packet.outBuf, take_memcpy]
      · simp [hi]
    refine ⟨by omega, ?_, ?_, ?_⟩
    · simpa only [hadd] using p.cInt_length_ne
    · rw [hadd]
    · rw [hpush]
      exact h.push _ hfree

/-- A packet is dropped exactly when 255 packets are waiting. -/
theorem Fifo.Refines.drops_iff {s : Fifo} {q : Spool.Queue OutBuf} (h : s.Refines q) (p : Packet) :
    s.drops p ↔ q.waiting.length = 255 := by
  unfold Fifo.drops
  obtain ⟨hlen, heq⟩ | ⟨hlen, hne, -, -⟩ := addX10out_spec p h.holds
  · have hbusy : s.outbusy = true := by
      rw [h.busy_eq]
      by_contra hb
      have := h.ok (by simpa using hb)
      simp [this] at hlen
    simp [hlen, heq, hbusy]
  · simp [hlen, hne]

/-- `x10_write` puts a buffer into the queue. -/
theorem x10Write_refines {s : Fifo} {q : Spool.Queue OutBuf} (h : s.Refines q) (p : Packet) :
    (fifoStep s (.x10Write p)).1.Refines (Spool.step 255 q (.put p.outBuf)).1 ∧
      (fifoStep s (.x10Write p)).2 = (Spool.step 255 q (.put p.outBuf)).2 := by
  have hdrops := h.drops_iff p
  by_cases hb : s.outbusy = true
  · have hqb : q.busy = true := h.busy_eq ▸ hb
    obtain ⟨hlen, heq⟩ | ⟨hlen, -, hbusy, hholds⟩ := addX10out_spec p h.holds
    · have hd : s.drops p := hdrops.mpr hlen
      simp only [fifoStep, x10Write, Spool.step, hb, hqb, hlen, heq, hd, if_true, List.map_nil,
        and_true]
      exact h
    · have hd : ¬ s.drops p := fun hd => hlen (hdrops.mp hd)
      simp only [fifoStep, x10Write, Spool.step, hb, hqb, hlen, hd, if_true, if_false,
        List.map_nil, and_true]
      exact ⟨hbusy.trans hb, hholds, fun hq => by simp at hq⟩
  · have hqb : q.busy = false := by rw [← h.busy_eq]; simpa using hb
    have hd : ¬ s.drops p := fun hd => hb hd.1
    have hbuf : (⟨p.bytes.take p.bytes.length, p.bytes.length⟩ : OutBuf) = p.outBuf := by
      simp [Packet.outBuf]
    simp only [fifoStep, x10Write, Spool.step, hb, hqb, hd, if_false, List.map_cons, List.map_nil,
      hbuf, Bool.false_eq_true, and_true]
    exact ⟨rfl, h.holds, fun hq => by simp at hq⟩

/-- `send_next_x10out` is an acknowledge. -/
theorem sendNextX10out_refines {s : Fifo} {q : Spool.Queue OutBuf} (h : s.Refines q) :
    (fifoStep s .sendNextX10out).1.Refines (Spool.step 255 q .ack).1 ∧
      (fifoStep s .sendNextX10out).2 = (Spool.step 255 q .ack).2 := by
  have hempty : s.outhead = s.outtail ↔ q.waiting = [] := h.holds.head_eq_tail_iff
  by_cases hb : s.outbusy = true
  · have hqb : q.busy = true := h.busy_eq ▸ hb
    cases hw : q.waiting with
    | nil =>
        have he := hempty.mpr hw
        simp only [fifoStep, sendNextX10out, Spool.step, hb, hqb, he, hw, if_true, List.map_nil,
          and_true]
        exact ⟨rfl, Ring.holds_nil (he ▸ h.holds.head_lt) rfl, Spool.idle_ok⟩
    | cons x xs =>
        have hne : s.outhead ≠ s.outtail := fun he => by simp [hempty.mp he] at hw
        have hholds := h.holds
        rw [hw] at hholds
        obtain ⟨hcell, hpop⟩ := hholds.pop
        have hx : (s.outrecs (nextIndex s.outhead)).outBuf = x := hcell
        simp only [fifoStep, sendNextX10out, Spool.step, hb, hqb, hne, hw, if_true, if_false,
          List.map_cons, List.map_nil]
        refine ⟨⟨rfl, hpop, fun hq => by simp at hq⟩, ?_⟩
        rw [← hx, X10out.outBuf]
  · have hqb : q.busy = false := by rw [← h.busy_eq]; simpa using hb
    simp only [fifoStep, sendNextX10out, Spool.step, hb, hqb, if_false, Bool.false_eq_true,
      List.map_nil, and_true]
    exact h

/-- Each call is a step of the queue, with the same events. -/
theorem fifoStep_refines {s : Fifo} {q : Spool.Queue OutBuf} (c : FifoCall) (h : s.Refines q) :
    (fifoStep s c).1.Refines (Spool.step 255 q c.toSpool).1 ∧
      (fifoStep s c).2 = (Spool.step 255 q c.toSpool).2 := by
  cases c with
  | x10Write p => exact x10Write_refines h p
  | sendNextX10out => exact sendNextX10out_refines h

/-- A run of the FIFO is a run of the abstract sender, from any state it stands for. -/
theorem fifo_simulates_from {s : Fifo} {q : Spool.Queue OutBuf} (h : s.Refines q) (calls : List FifoCall) :
    let t := Run.trace fifoStep s calls
    let t' := Run.trace (Spool.step 255) q (calls.map FifoCall.toSpool)
    t.1.Refines t'.1 ∧ t.2 = t'.2 := by
  rw [Run.trace_map]
  exact Run.trace_simulation (fun _ _ c h => fifoStep_refines c h) h calls

/-- A whole run of the FIFO is a run of the abstract sender. -/
theorem fifo_simulates (calls : List FifoCall) :
    let t := Run.trace fifoStep fifoInit calls
    let t' := Run.trace (Spool.step 255) Spool.idle (calls.map FifoCall.toSpool)
    t.1.Refines t'.1 ∧ t.2 = t'.2 := fifo_simulates_from fifoInit_refines calls

/-- The FIFO refines a stop-and-wait queue: over every sequence of calls, the
packets handed to `write_usb` followed by those waiting are the accepted
packets, a packet is dropped exactly when 255 packets wait, two packets are
separated by a `send_next_x10out`, and nothing waits while `Outbusy` is 0. -/
theorem fifo_refines_queue (calls : List FifoCall) :
    let t := Run.trace fifoStep fifoInit calls
    t.2 = (Run.trace (Spool.step 255) Spool.idle (calls.map FifoCall.toSpool)).2 ∧
    Spool.emitted t.2 ++ t.1.waiting = Spool.accepted t.2 ∧
    (∀ p, t.1.drops p ↔ t.1.waiting.length = 255) ∧
    Spool.Separated t.2 ∧
    (t.1.outbusy = false → t.1.waiting = []) := by
  obtain ⟨href, htrace⟩ := fifo_simulates calls
  simp only [htrace, href.waiting_eq]
  refine ⟨trivial, Spool.emitted_append_waiting _ _, href.drops_iff, Spool.separated _ _, fun hb => ?_⟩
  exact Spool.waiting_of_idle 255 _ (href.busy_eq ▸ hb)

end Mochad
