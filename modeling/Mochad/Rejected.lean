import Mochad.Footprint

/-!
# Mochad.Rejected

The exits of the two decoders that reject a packet, read off its bytes in the
order the source tests them.  A packet that takes one is only complained about
(`cm15aDecodePlc_exit`, `cm15aDecodeRf_exit`); a packet that leaves a trace has
the check bytes of its family (`rejected_no_trace`).
-/

namespace Mochad

open CString

/-! ## Exits -/

/-- The rejecting exits of `cm15a_decode_plc`. -/
inductive PlcExit where
  | tooShort
  | tooLong
  | codelen
  | notSupported
deriving DecidableEq, Repr

/-- The exit a power line packet takes, if any. -/
def plcExit (buf : Ptr) (len : Nat) : Option PlcExit :=
  if len < 4 then some .tooShort
  else if len > 8 then some .tooLong
  else if buf 2 = 0x00 ∨ buf 2 = 0x01 then if buf 1 ≠ 2 then some .codelen else none
  else if buf 2 = 0x02 then if buf 1 ≠ 3 then some .codelen else none
  else if buf 2 = 0x07 ∨ buf 2 = 0x08 then
    if len < 7 then some .tooShort else if len > 7 then some .tooLong else none
  else some .notSupported

/-- The rejecting exits of `cm15a_decode_rf`, with what they show. -/
inductive RfExit where
  | tooShort (len : Nat)
  | tooLong (len : Nat)
  | unknownCamera
  | invalidChecksum
  /-- Neither of the two checks of the house byte. -/
  | invalidHouse (chksum : UInt8)
  | invalidParity
  | notSupported (type : UInt8)
deriving DecidableEq, Repr

/-- The message of an exit. -/
def RfExit.message : RfExit → Text
  | tooShort len => cstr "too short " ++ dec len ++ cstr "\n"
  | tooLong len => cstr "too long " ++ dec len ++ cstr "\n"
  | unknownCamera => cstr "Unknown RF camera command\n"
  | invalidChecksum => cstr "Invalid checksum\n"
  | invalidHouse chksum => cstr "Invalid checksum 0x" ++ hexPad 2 chksum.toNat ++ cstr "\n"
  | invalidParity => cstr "Invalid parity\n"
  | notSupported type => cstr "Not supported " ++ hexPad 2 type.toNat ++ cstr "\n"

/-- The exit an RF packet takes, if any, extra `5D` bytes skipped. -/
def rfExit (buf : Ptr) (len : Nat) : Option RfExit :=
  if len < 5 then some (.tooShort len)
  else if len > 8 then some (.tooLong len)
  else if buf 1 = 0x14 then
    if camRemoteText (buf.add 1) (len - 1) = none then some .unknownCamera else none
  else if buf 1 = 0x20 then
    if buf 2 ^^^ buf 3 = 0x0f then
      if buf 4 ^^^ buf 5 ≠ 0xff then some .invalidChecksum else none
    else if buf 2 ^^^ buf 3 = 0xff then
      if buf 4 ^^^ buf 5 ≠ 0xff ∧ buf 4 ^^^ buf 5 ≠ 0xfb then some .invalidChecksum else none
    else some (.invalidHouse (buf 2 ^^^ buf 3))
  else if buf 1 = 0x29 then
    match secafDecode buf len with
    | .ok _ _ _ _ => none
    | .invalidChecksum => some .invalidChecksum
    | .invalidParity => some .invalidParity
  else some (.notSupported (buf 1))

/-! ## What a rejected packet does -/

/-- The house/unit state and the sensor table, the duplicate filter and the
output queue are as before, and nothing was given to it. -/
structure NoTrace (w w' : World) : Prop where
  state : w'.state = w.state
  dups : w'.dups = w.dups
  fifo : w'.fifo = w.fifo
  writes : w'.writes = w.writes
  usb : w'.usb = w.usb

theorem NoTrace.refl (w : World) : NoTrace w w := ⟨rfl, rfl, rfl, rfl, rfl⟩

theorem NoTrace.of_quiet {w w' : World} (h : Quiet w w') : NoTrace w w' := by
  obtain ⟨io, acc, rfl⟩ := h
  exact ⟨rfl, rfl, rfl, rfl, rfl⟩

/-- A rejected power line packet does nothing at all. -/
theorem cm15aDecodePlc_exit {buf : Ptr} {len : Nat} (h : plcExit buf len ≠ none) (fd : Int) (w : World) :
    cm15aDecodePlc fd buf len w = w := by
  revert h
  unfold plcExit cm15aDecodePlc
  by_cases h4 : len < 4
  · simp only [h4, if_true, implies_true]
  by_cases h8 : len > 8
  · simp only [h4, h8, if_true, if_false, implies_true]
  simp only [h4, h8, if_false]
  by_cases k0 : buf 2 = 0x00
  · by_cases hc : buf 1 = 2 <;> simp [k0, hc]
  by_cases k1 : buf 2 = 0x01
  · by_cases hc : buf 1 = 2 <;> simp [k1, hc]
  by_cases k2 : buf 2 = 0x02
  · by_cases hc : buf 1 = 3 <;> simp [k2, hc]
  by_cases h7 : len = 7
  · by_cases k7 : buf 2 = 0x07 ∨ buf 2 = 0x08
    · simp [k0, k1, k2, k7, h7]
    · obtain ⟨k7, k8⟩ := not_or.mp k7
      simp [k0, k1, k2, k7, k8]
  · simp [k0, k1, k2, h7]

/-- A complaint shows its text first. -/
theorem complaint_shown (fd : Int) (text : Text) (p : Ptr) (n : Nat) (w : World) :
    ∃ io, ((w.sockprintf fd text).sockhexdump fd p n).io = w.io ++ shown fd text w :: io := by
  obtain ⟨io, hio⟩ := sockprintfIo_eq fd text w
  rw [World.sockhexdump, World.sockprintf_io, World.sockprintf_io, hio, List.append_assoc]
  exact ⟨_, rfl⟩

/-- A rejected RF packet is only complained about, by the message of its exit. -/
theorem cm15aDecodeRf_exit {buf p : Ptr} {len n : Nat} (hskip : skipExtra buf len = (p, n)) {e : RfExit}
    (h : rfExit p n = some e) (fd : Int) (w : World) : Quiet w (cm15aDecodeRf fd buf len w) ∧
      ∃ io, (cm15aDecodeRf fd buf len w).io = w.io ++ shown fd e.message w :: io := by
  have hcomplain : ∀ text, Quiet w ((w.sockprintf fd text).sockhexdump fd p n) ∧
      ∃ io, ((w.sockprintf fd text).sockhexdump fd p n).io = w.io ++ shown fd text w :: io :=
    fun text => ⟨quiet_complaint w fd text p n, complaint_shown fd text p n w⟩
  have hsay : ∀ text, Quiet w (w.sockprintf fd text) ∧
      ∃ io, (w.sockprintf fd text).io = w.io ++ shown fd text w :: io := by
    intro text
    obtain ⟨io, hio⟩ := sockprintfIo_eq fd text w
    exact ⟨(Quiet.refl w).sockprintf fd text, io, by rw [World.sockprintf_io, hio]⟩
  revert h
  unfold rfExit cm15aDecodeRf cm15aDecodeRfWith
  rw [hskip]
  dsimp only
  by_cases h5 : n < 5
  · simp only [h5, if_true, Option.some.injEq]
    rintro rfl
    exact hcomplain _
  by_cases h8 : n > 8
  · simp only [h5, h8, if_true, if_false, Option.some.injEq]
    rintro rfl
    exact hcomplain _
  simp only [h5, h8, if_false]
  by_cases k14 : p 1 = 0x14
  · simp only [k14, if_true]
    obtain ⟨acc, hcam⟩ := findCamRemoteName_spec (p.add 1) (n - 1) w
    rw [hcam]
    cases camRemoteText (p.add 1) (n - 1) with
    | some commandp => rintro ⟨⟩
    | none =>
        rintro ⟨⟩
        -- the lookup has only used some indices
        have hq : Quiet w (w.accessAll acc) := ⟨[], acc, by simp [World.accessAll]⟩
        refine ⟨hq.trans (quiet_complaint _ _ _ _ _), ?_⟩
        exact complaint_shown fd (cstr "Unknown RF camera command\n") p n (w.accessAll acc)
  simp only [k14, if_false]
  by_cases k20 : p 1 = 0x20
  · simp only [k20, if_true]
    by_cases c0 : p 2 ^^^ p 3 = 0x0f
    · simp only [c0, if_true]
      by_cases c4 : p 4 ^^^ p 5 = 0xff
      · simp only [c4, ne_eq, not_true_eq_false, if_false]
        rintro ⟨⟩
      · simp only [c4, ne_eq, not_false_eq_true, if_true, Option.some.injEq]
        rintro rfl
        exact hcomplain _
    simp only [c0, if_false]
    by_cases cf : p 2 ^^^ p 3 = 0xff
    · simp only [cf, if_true]
      by_cases c4 : p 4 ^^^ p 5 ≠ 0xff ∧ p 4 ^^^ p 5 ≠ 0xfb
      · rw [if_pos c4, if_pos c4, Option.some.injEq]
        rintro rfl
        exact hcomplain _
      · rw [if_neg c4]
        rintro ⟨⟩
    · simp only [cf, if_false, Option.some.injEq]
      rintro rfl
      exact hcomplain _
  simp only [k20, if_false]
  by_cases k29 : p 1 = 0x29
  · simp only [k29, if_true]
    cases secafDecode p n with
    | ok a0 a1 a2 funcint => rintro ⟨⟩
    | invalidChecksum =>
        rintro ⟨⟩
        exact hsay _
    | invalidParity =>
        rintro ⟨⟩
        exact hsay _
  · simp only [k29, if_false, Option.some.injEq]
    rintro rfl
    exact hcomplain _

/-! ## Check bytes -/

/-- The length of a packet of a type that has check bytes. -/
def ProperLength (p : Ptr) (n : Nat) : Prop :=
  p 1 = 0x20 ∧ n = 6 ∨ p 1 = 0x29 ∧ n = 8 ∨ p 1 = 0x14 ∧ n = 5

/-- The rule for the check bytes of a family: a sum for the camera; complements
for the others, with even parity of the two last bytes of a long address. -/
def CheckBytes (p : Ptr) : Prop :=
  if p 1 = 0x14 then p 2 = (p 4 &&& 0xf0) + (p 3 - 0x2b)
  else if p 1 = 0x20 then
    p 3 = p 2 ^^^ 0x0f ∧ p 5 = p 4 ^^^ 0xff ∨
      p 3 = p 2 ^^^ 0xff ∧ (p 5 = p 4 ^^^ 0xff ∨ p 5 = p 4 ^^^ 0xfb)
  else p 3 = p 2 ^^^ 0x0f ∧ p 5 = p 4 ^^^ 0xff ∧ evenParity (p 6 ^^^ p 7) = true

/-- One side of an exclusive or from the other. -/
theorem xor_eq_iff {a b c : UInt8} : a ^^^ b = c ↔ b = a ^^^ c := by
  constructor
  · rintro rfl
    rw [← UInt8.xor_assoc, UInt8.xor_self, UInt8.zero_xor]
  · rintro rfl
    rw [← UInt8.xor_assoc, UInt8.xor_self, UInt8.zero_xor]

/-- The sum of a camera packet, as the source computes it and in bytes. -/
theorem camera_sum (check key house : UInt8) :
    (check.toNat : Int) = ((((house >>> 4) &&& 0x0f).toNat : Int) * 16 + ((key.toNat : Int) - 0x2B)) % 256 ↔
      check = (house &&& 0xf0) + (key - 0x2b) := by
  have hhouse : ∀ b : UInt8, ((b >>> 4) &&& 0x0f).toNat * 16 = (b &&& 0xf0).toNat := by decide +kernel
  have hh := hhouse house
  have hc := check.toNat_lt
  have hk := key.toNat_lt
  rw [← UInt8.toNat_inj, UInt8.toNat_add, UInt8.toNat_sub]
  simp only [UInt8.reduceToNat, Nat.reducePow] at *
  omega

/-- A packet of the right length that takes no exit has its check bytes. -/
theorem checkBytes_of_rfExit {p : Ptr} {n : Nat} (hlen : ProperLength p n) (h : rfExit p n = none) :
    CheckBytes p := by
  unfold rfExit at h
  unfold CheckBytes
  have h2014 : (0x20 : UInt8) ≠ 0x14 := by decide
  have h2914 : (0x29 : UInt8) ≠ 0x14 := by decide
  have h2920 : (0x29 : UInt8) ≠ 0x20 := by decide
  obtain ⟨k20, rfl⟩ | ⟨k29, rfl⟩ | ⟨k14, rfl⟩ := hlen
  · simp only [k20, h2014, Nat.reduceLT, Nat.reduceGT, if_true, if_false] at h ⊢
    by_cases c0 : p 2 ^^^ p 3 = 0x0f
    · simp only [c0, if_true, ite_eq_right_iff, reduceCtorEq, imp_false, not_not] at h
      exact .inl ⟨xor_eq_iff.mp c0, xor_eq_iff.mp h⟩
    by_cases cf : p 2 ^^^ p 3 = 0xff
    · rw [if_neg c0, if_pos cf] at h
      refine .inr ⟨xor_eq_iff.mp cf, ?_⟩
      rw [← xor_eq_iff, ← xor_eq_iff]
      by_contra hc
      rw [if_pos (not_or.mp hc)] at h
      cases h
    · rw [if_neg c0, if_neg cf] at h
      cases h
  · simp only [k29, h2914, h2920, Nat.reduceLT, Nat.reduceGT, if_true, if_false] at h ⊢
    rw [secafDecode, if_neg (by decide)] at h
    by_cases hc : p 2 ^^^ p 3 ≠ 0x0f ∨ p 4 ^^^ p 5 ≠ 0xff
    · rw [if_pos hc] at h
      cases h
    rw [if_neg hc, paritytable_eq] at h
    obtain ⟨c0, c4⟩ := not_or.mp hc
    refine ⟨xor_eq_iff.mp (not_not.mp c0), xor_eq_iff.mp (not_not.mp c4), ?_⟩
    by_contra hodd
    rw [if_neg hodd, if_pos (by decide)] at h
    cases h
  · simp only [k14, Nat.reduceLT, Nat.reduceGT, if_true, if_false, ite_eq_right_iff, reduceCtorEq,
      imp_false] at h ⊢
    rw [← camera_sum]
    by_contra hsum
    refine h ?_
    rw [camRemoteText, if_neg (by simp [Ptr.add, k14])]
    exact if_pos hsum

/-- Rejected packets leave no trace: a packet that takes a rejecting exit of
either decoder changes neither the tracked state nor the duplicate filter nor the
output queue; and an RF packet of the right length that changes any of them has
the check bytes of its family. -/
theorem rejected_no_trace (fd : Int) (buf : Ptr) (len : Nat) (w : World) :
    let p := (skipExtra buf len).1
    let n := (skipExtra buf len).2
    (plcExit buf len ≠ none → NoTrace w (cm15aDecodePlc fd buf len w)) ∧
      (rfExit p n ≠ none → NoTrace w (cm15aDecodeRf fd buf len w)) ∧
      (ProperLength p n → ¬ NoTrace w (cm15aDecodeRf fd buf len w) → CheckBytes p) := by
  intro p n
  have hrf : rfExit p n ≠ none → NoTrace w (cm15aDecodeRf fd buf len w) := by
    intro h
    obtain ⟨e, he⟩ := Option.ne_none_iff_exists'.mp h
    exact .of_quiet (cm15aDecodeRf_exit rfl he fd w).1
  refine ⟨fun h => ?_, hrf, fun hlen htrace => checkBytes_of_rfExit hlen ?_⟩
  · rw [cm15aDecodePlc_exit h]
    exact .refl w
  · by_contra h
    exact htrace (hrf h)

end Mochad
