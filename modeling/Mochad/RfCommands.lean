import Mochad.RoundTrip

/-!
# Mochad.RfCommands

Packets sent by an RF command line.  The packet is given to the decoder of
received packets to be shown, and the decoder passes it on like one that was
received: to the RF repeater and to the power line.  `rf_command_once` says when
the command sends its packet and nothing else.
-/

namespace Mochad

open CString

/-- The decoder sends nothing: it rejects the packet, or suppresses it, or the
repeater is off and the bridge is off for its house. -/
def NotPassedOn (p : Ptr) (n : Nat) (w : World) : Prop :=
  classifyRf p n = .rejected ∨ (dupFilter p n w).1 = true ∨
    w.rfToRf16 = 0 ∧ (classifyRf p n = .standard → ¬ bridged (hufcDecode (p 2) (p 4)).1 w)

/-! ## The decoder -/

theorem repeatBufs_eq_nil {p : Ptr} {n : Nat} {w : World} : repeatBufs p n w = [] ↔ w.rfToRf16 = 0 := by
  unfold repeatBufs
  split
  · rename_i hr
    split <;> simp [hr]
  · rename_i hr
    simp_all

theorem bridgePackets_ne_nil (house unit : Fin 16) (f : Fin 4) : bridgePackets house unit f ≠ [] := by
  unfold bridgePackets
  dsimp only
  split <;> simp

/-- The packets of the bridge come after that of the repeater. -/
theorem RfDecoded.writes {fd : Int} {k : RfPacket} {p : Ptr} {n : Nat} {w r : World}
    (h : RfDecoded (fun fd aLine w => (processcommandline fd aLine w).2.2) fd k p n w r)
    (h5 : 5 ≤ n) (h8 : n ≤ 8) :
    ∃ bufs, r.writes = w.writes ++ repeatBufs p n w ++ bufs ∧
      (bufs = [] ↔ (k = .standard → ¬ bridged (hufcDecode (p 2) (p 4)).1 w)) := by
  by_cases hk : k = .standard
  · subst hk
    obtain ⟨house, unit, f, hevent⟩ := hufcDecode_range (p 2) (p 4)
    refine ⟨_, h.writes_standard h5 h8 hevent, ?_⟩
    rw [List.map_eq_nil_iff, hevent]
    by_cases hb : bridged (houseByte house) w
    · simp [hb, bridgePackets_ne_nil]
    · simp [hb]
  · obtain ⟨u, hu, hr⟩ := h.quiet
    refine ⟨[], ?_, by simp [hk]⟩
    have hrepeat : r = repeatRF fd p n u := by
      rw [hr]
      cases k <;> first | rfl | exact absurd rfl hk
    rw [hrepeat, repeated_writes h5 h8 hu fd, List.append_nil]

/-- The decoder sends nothing exactly when it does not pass the packet on. -/
theorem decodeRf_silent {p : Ptr} {n : Nat} (hp : p 1 ≠ 0x5d) (fd : Int) (w : World) :
    (cm15aDecodeRf fd p n w).writes = w.writes ↔ NotPassedOn p n w := by
  have hcases := cm15aDecodeRf_step fd p n w
  rw [skipExtra_of_ne hp] at hcases
  have hdup : (dupFilter p n w).2.writes = w.writes := by
    obtain ⟨clock, dups, h⟩ := dupFilter_eq p n w
    rw [h]
  obtain ⟨hk, hq⟩ | ⟨hk, ⟨hd, hq⟩ | ⟨hd, hdec⟩⟩ := hcases
  · exact iff_of_true hq.writes (.inl hk)
  · exact iff_of_true (hq.writes.trans hdup) (.inr (.inl hd))
  · obtain ⟨h5, h8⟩ := classifyRf_length hk
    obtain ⟨bufs, hw, hbufs⟩ := hdec.writes h5 h8
    have hnew : ¬ (dupFilter p n w).1 = true := by
      rw [hd]
      exact Bool.false_ne_true
    rw [hw, List.append_assoc, List.append_right_eq_self, List.append_eq_nil_iff, repeatBufs_eq_nil,
      hbufs, NotPassedOn, or_iff_right hk, or_iff_right hnew]

/-! ## Commands -/

/-- The second byte is one of the three packet types. -/
theorem commandPacket_type {ws : List Text} {buf : List UInt8} (h : commandPacket ws = some buf) :
    Ptr.ofList buf 1 ≠ 0x5d := by
  have hsec : ∀ rf8bitaddr rfaddr func,
      Ptr.ofList (0xeb :: rfsecTail rf8bitaddr rfaddr func) 1 ≠ 0x5d := by
    intro rf8bitaddr rfaddr func
    rw [rfsecTail]
    split
    · exact (by decide : (0x20 : UInt8) ≠ 0x5d)
    · exact (by decide : (0x29 : UInt8) ≠ 0x5d)
  cases ws with
  | nil => cases h
  | cons command ws =>
      simp only [commandPacket] at h
      split at h
      · split at h
        · cases h
        · obtain ⟨buf4, -, rfl⟩ := Option.map_eq_some_iff.mp h
          exact (by decide : (0x20 : UInt8) ≠ 0x5d)
      split at h
      · split at h
        · cases h
        split at h
        · cases h
        split at h
        · cases h
          exact (by decide : (0x14 : UInt8) ≠ 0x5d)
        · cases h
      split at h
      · split at h
        · cases h
        · cases h
          exact hsec _ _ _
      · cases h

/-- A quiet step does not change whether a packet is passed on. -/
theorem Quiet.notPassedOn {w v : World} (h : Quiet w v) (p : Ptr) (n : Nat) :
    NotPassedOn p n v ↔ NotPassedOn p n w := by
  simp only [NotPassedOn, (h.dupFilter p n).1, h.rfToRf16, bridged, h.cm19a, h.rfToPl16]

/-- A valid RF, RFSEC or RFCAM command line sends its packet once and nothing
else, exactly when the decoder does not pass the packet on. -/
theorem rf_command_once {aLine : Text} {buf : List UInt8}
    (h : commandPacket (words 32 (strupper aLine)) = some buf) (fd : Int) (w : World) :
    (processcommandline fd aLine w).2.2.writes = w.writes ++ [sentForm w.cm19a buf] ↔
      NotPassedOn (Ptr.ofList buf) buf.length w := by
  obtain ⟨v, hv, hr⟩ := processcommandline_rf fd w h
  rw [hr, rfTransmit_writes, hv.cm19a, List.append_left_inj, ← hv.writes,
    decodeRf_silent (commandPacket_type h), hv.notPassedOn]

/-- A1 On with the bridge off for all houses. -/
theorem rf_command_once_off :
    (processcommandline 5 (cstr "rf a1 on")
      { worldInit (stillSetup false) with rfToPl16 := 0 }).2.2.writes =
      [⟨[0xeb, 0x20, 0x60, 0x9f, 0x00, 0xff], 6⟩] :=
  (@rf_command_once (cstr "rf a1 on") [0xeb, 0x20, 0x60, 0x9f, 0x00, 0xff] (by decide) 5
    { worldInit (stillSetup false) with rfToPl16 := 0 }).mpr
    (.inr (.inr ⟨rfl, fun _ => by decide⟩))

/-- With the modes a CM15A starts with, A1 On goes to the power line as well;
with the repeater on, a CM19A sends the packet twice. -/
theorem rf_command_passed_on :
    commandPacket (words 32 (strupper (cstr "rf a1 on"))) =
        some [0xeb, 0x20, 0x60, 0x9f, 0x00, 0xff] ∧
      (processcommandline 5 (cstr "rf a1 on") (worldInit (stillSetup false))).2.2.writes =
        [⟨[0x04, 0x66], 2⟩, ⟨[0x06, 0x62], 2⟩, ⟨[0xeb, 0x20, 0x60, 0x9f, 0x00, 0xff], 6⟩] ∧
      (processcommandline 5 (cstr "rf a1 on")
        { worldInit (stillSetup true) with rfToRf16 := 1 }).2.2.writes =
        [⟨[0x20, 0x60, 0x9f, 0x00, 0xff], 5⟩, ⟨[0x20, 0x60, 0x9f, 0x00, 0xff], 5⟩] := by
  decide

end Mochad
