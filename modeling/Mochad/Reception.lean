import Mochad.Bridge
import Mochad.Decode.RfEvent

/-!
# Mochad.Reception

RF packets arriving one after another.  A step (`receiveRf`) decodes one packet
and puts out a record of it when it is accepted: neither rejected nor
suppressed by the duplicate filter.  `receiveRf_cases` says what a step does to
the tracked state and to the table of the filter; also when a packet is
repeated and bridged, which may track its event a second time.
-/

namespace Mochad

open CString

/-! ## Arrivals -/

/-- A packet given to the decoder. -/
structure Arrival where
  fd : Int
  buf : Ptr
  len : Nat

namespace Arrival

/-- The packet behind extra `5D` bytes. -/
def packet (a : Arrival) : Ptr := (skipExtra a.buf a.len).1

/-- Its length. -/
def size (a : Arrival) : Nat := (skipExtra a.buf a.len).2

/-- The bytes the duplicate filter compares. -/
def key (a : Arrival) : List UInt8 := a.packet.bytes a.size

/-- What the packet says, unless it is not valid. -/
def event (a : Arrival) : Option RfEvent := rfEvent (classifyRf a.packet a.size) a.packet

/-- The duplicate filter suppresses the packet. -/
def suppressed (a : Arrival) (w : World) : Bool := (dupFilter a.packet a.size w).1

end Arrival

/-- A packet that was accepted. -/
structure Accepted where
  event : RfEvent
  key : List UInt8
  /-- When it was entered in the table of the filter, in milliseconds. -/
  timems : Nat

/-- Decode a packet, and record it if it is accepted. -/
def receiveRf (w : World) (a : Arrival) : World × List Accepted :=
  (cm15aDecodeRf a.fd a.buf a.len w,
    match a.event with
    | some e => if a.suppressed w then [] else [⟨e, a.key, w.clock 1⟩]
    | none => [])

/-! ## Tracking -/

/-- The operations on house/unit devices an event stands for. -/
def RfEvent.ops : RfEvent → List HuaOp
  | houseUnit housechar unitint funcint =>
      let house := World.idx16 (housechar.toNat - 65)
      [.add house (World.idx16 (unitint - 1)),
        if funcint ≠ 0 then .funcOff house else .funcOn house]
  | _ => []

/-- What accepting an event does to the tracked state.  A bridged event is
tracked twice: as received, and as the decoded power line packets. -/
def RfEvent.Tracks (s s' : X10state) : RfEvent → Prop
  | security rf8bitaddr addr funct =>
      ∃ now, s' = huaSecEvent now addr funct (if rf8bitaddr then 1 else 0) s
  | e => s' = applyOps e.ops s ∨ s' = applyOps e.ops (applyOps e.ops s)

/-- Neither the tracked state nor the table of the duplicate filter differ. -/
structure SameTracked (w w' : World) : Prop where
  state : w'.state = w.state
  dups : w'.dups = w.dups

/-- A quiet step tracks nothing. -/
theorem SameTracked.of_quiet {w w' : World} (h : Quiet w w') : SameTracked w w' :=
  ⟨h.state, h.dups⟩

theorem SameTracked.trans {a b c : World} (h : SameTracked a b) (h' : SameTracked b c) :
    SameTracked a c :=
  ⟨h'.state.trans h.state, h'.dups.trans h.dups⟩

/-- Transmitting tracks nothing by itself. -/
theorem sameTracked_xmit (bufs : List OutBuf) (w : World) : SameTracked w (w.xmit bufs) := by
  induction bufs generalizing w with
  | nil => exact ⟨rfl, rfl⟩
  | cons b bufs ih =>
      have h : SameTracked w (w.x10Write b.data b.len).2 := ⟨rfl, rfl⟩
      exact h.trans (ih _)

/-- Repeating a packet tracks nothing. -/
theorem sameTracked_repeatRF (fd : Int) (p : Ptr) (n : Nat) (w : World) :
    SameTracked w (repeatRF fd p n w) :=
  (sameTracked_xmit _ w).trans (.of_quiet ((Quiet.refl w).repeatRF fd p n))

/-- The packets of the bridge are tracked as the event is. -/
theorem bridgePackets_ops : ∀ house unit : Fin 16, ∀ funcint : Fin 4,
    (bridgePackets house unit funcint).filterMap PlcPacket.op =
      if funcint > 1 then []
      else [.add house unit, if funcint.val ≠ 0 then .funcOff house else .funcOn house] := by
  decide

/-- The operations of packets one after the other. -/
theorem foldl_applyOp (ps : List PlcPacket) (s : X10state) :
    ps.foldl (fun s p => applyOp p.op s) s = applyOps (ps.filterMap PlcPacket.op) s := by
  induction ps generalizing s with
  | nil => rfl
  | cons p ps ih =>
      rw [List.foldl_cons, ih]
      cases hop : p.op with
      | none => simp [hop]
      | some op => simp [hop, applyOps]

/-- Power line packets leave the table of the filter. -/
theorem foldl_transmit_dups (ps : List PlcPacket) (w : World) :
    (ps.foldl World.transmit w).dups = w.dups := by
  induction ps generalizing w with
  | nil => rfl
  | cons p ps ih => exact ih (w.transmit p)

/-- The bridge tracks the event of a standard packet again, or nothing. -/
theorem rfBridge_tracked (fd : Int) (p : Ptr) (w : World) :
    let r := rfBridge (fun fd aLine w => (processcommandline fd aLine w).2.2) fd .standard p w
    r.dups = w.dups ∧ (r.state = w.state ∨ r.state = applyOps (rfOps (p 2) (p 4)) w.state) := by
  intro r
  obtain ⟨house, unit, f, hrange⟩ := hufcDecode_range (p 2) (p 4)
  have hr : r = rfBridge (fun fd aLine w => (processcommandline fd aLine w).2.2) fd .standard p w := rfl
  have hidx : ∀ i : Fin 16, World.idx16 i.val = i := by decide
  have hhouse : ∀ i : Fin 16, World.idx16 ((houseByte i).toNat - 65) = i := by decide
  simp only [rfBridge, hrange] at hr
  split at hr
  · have hq := bridgeCommand_quiet cm15aDecodeRf fd house unit f (w.access .funcname (f.val + 2))
    rw [← processcommandline, ← hr] at hq
    refine ⟨hq.dups.trans (foldl_transmit_dups _ _), .inr ?_⟩
    rw [hq.state, foldl_transmit_state, foldl_applyOp, bridgePackets_ops]
    have hf : f.val > 1 ↔ f > 1 := by rw [gt_iff_lt, gt_iff_lt, Fin.lt_def]; rfl
    by_cases h1 : f > 1
    · simp [rfOps, hrange, h1, hf.mpr h1]
    · have h1' : ¬ f.val > 1 := mt hf.mp h1
      simp [rfOps, hrange, h1, h1', bridgeUnitint, hhouse, hidx]
  · rw [hr]
    exact ⟨rfl, .inl rfl⟩

/-- The filter leaves the tracked state. -/
theorem dupFilter_state (p : Ptr) (n : Int) (w : World) : (dupFilter p n w).2.state = w.state := by
  obtain ⟨clock, dups, h⟩ := dupFilter_eq p n w
  rw [h]

/-- The operations of a standard packet are those of its event. -/
theorem rfOps_eq {p : Ptr} {e : RfEvent} (he : rfEvent .standard p = some e) :
    rfOps (p 2) (p 4) = e.ops ∧ ∀ b a f, e ≠ .security b a f := by
  simp only [rfEvent] at he
  split at he
  · rename_i hf
    cases he
    exact ⟨by simp only [rfOps, hf, if_true, RfEvent.ops], by rintro _ _ _ ⟨⟩⟩
  · rename_i hf
    cases he
    exact ⟨by simp only [rfOps, hf, if_false, RfEvent.ops], by rintro _ _ _ ⟨⟩⟩

/-- A decoded packet is tracked as its event is. -/
theorem RfDecoded.tracks {fd : Int} {k : RfPacket} {p : Ptr} {n : Nat} {w r : World} {e : RfEvent}
    (h : RfDecoded (fun fd aLine w => (processcommandline fd aLine w).2.2) fd k p n w r)
    (he : rfEvent k p = some e) :
    e.Tracks w.state r.state ∧ r.dups = (dupFilter p n w).2.dups := by
  obtain ⟨u, hu, rfl⟩ := h.quiet
  have hrep : SameTracked (rfTrack k p (dupFilter p n w).2) (repeatRF fd p n u) :=
    (SameTracked.of_quiet hu).trans (sameTracked_repeatRF fd p n u)
  have hw := dupFilter_state p n w
  have hfilter : (repeatRF fd p n u).dups = (dupFilter p n w).2.dups := by
    obtain ⟨clock, state, htrack⟩ := rfTrack_eq k p (dupFilter p n w).2
    rw [hrep.dups, htrack]
  cases k with
  | rejected => cases he
  | camera commandp =>
      cases he
      exact ⟨.inl (hrep.state.trans hw), hfilter⟩
  | security8 =>
      cases he
      have haddr : secaddr32 0 0 (p 2) = (p 2).toNat := by simp [secaddr32_eq]
      refine ⟨⟨(dupFilter p n w).2.time.1, hrep.state.trans ?_⟩, hfilter⟩
      simp only [rfTrack, World.huaSecEvent_state, haddr, hw]
      rfl
  | securityLong a0 a1 a2 funcint =>
      cases he
      refine ⟨⟨(dupFilter p n w).2.time.1, hrep.state.trans ?_⟩, hfilter⟩
      simp only [rfTrack, World.huaSecEvent_state, hw]
      rfl
  | standard =>
      obtain ⟨hops, hns⟩ := rfOps_eq he
      have hstate : (repeatRF fd p n u).state = applyOps e.ops w.state := by
        rw [hrep.state, ← hops, ← hw]
        rfl
      obtain ⟨hdups, hbridge⟩ := rfBridge_tracked fd p (repeatRF fd p n u)
      rw [hops, hstate] at hbridge
      refine ⟨?_, hdups.trans hfilter⟩
      cases e with
      | security b a f => exact absurd rfl (hns b a f)
      | houseUnit housechar unitint funcint => exact hbridge
      | house housechar funcint => exact hbridge
      | camera commandp => exact hbridge

/-- A step of the decoder. -/
theorem receiveRf_cases (w : World) (a : Arrival) :
    let r := receiveRf w a
    (a.event = none ∧ r.2 = [] ∧ SameTracked w r.1) ∨
    ∃ e, a.event = some e ∧
      ((a.suppressed w = true ∧ r.2 = [] ∧ r.1.state = w.state) ∨
        (a.suppressed w = false ∧ r.2 = [⟨e, a.key, w.clock 1⟩] ∧ e.Tracks w.state r.1.state)) ∧
      r.1.dups = (dupFilter a.packet a.size w).2.dups := by
  intro r
  obtain ⟨hrej, hq⟩ | ⟨hne, hacc⟩ := cm15aDecodeRf_step a.fd a.buf a.len w
  · have hev : a.event = none := by rw [Arrival.event, Arrival.packet, Arrival.size, hrej]; rfl
    exact .inl ⟨hev, by simp only [r, receiveRf, hev], .of_quiet hq⟩
  right
  obtain ⟨e, he⟩ : ∃ e, a.event = some e :=
    Option.ne_none_iff_exists'.mp fun h => hne (eq_rejected_of_rfEvent h)
  refine ⟨e, he, ?_⟩
  obtain ⟨hd, hq⟩ | ⟨hd, hdec⟩ := hacc
  · have hsup : a.suppressed w = true := hd
    refine ⟨.inl ⟨hsup, by simp only [r, receiveRf, he, hsup, if_true], ?_⟩, hq.dups⟩
    exact hq.state.trans (dupFilter_state _ _ w)
  · have hsup : a.suppressed w = false := hd
    obtain ⟨htracks, hdups⟩ := hdec.tracks he
    refine ⟨.inr ⟨hsup, ?_, htracks⟩, hdups⟩
    simp only [r, receiveRf, he, hsup, Bool.false_eq_true, if_false]

end Mochad
