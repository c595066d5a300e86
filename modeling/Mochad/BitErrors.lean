import Mochad.Reception
import Mochad.Rejected

/-!
# Mochad.BitErrors

Packets with one bit flipped behind the type byte.  The check bytes of every
family notice it, or the bit says nothing (`long_flip`, `security8_flip`,
`camera_flip`); but the second check value of the standard packets, `FB`, lets one
bit of the unit and function byte through, and with it a dim or bright becomes an
on (`single_bit_error`).  `decodeRf_flip` says what `cm15a_decode_rf` does with the
other packets when a bit of theirs is flipped.
-/

namespace Mochad

open CString

/-! ## Packets -/

/-- The bit of value `2 ^ k`. -/
def bitMask (k : Nat) : UInt8 := UInt8.ofNat (2 ^ k)

/-- The packet with bit `k` of byte `i` flipped. -/
def flipBit (p : Ptr) (i k : Nat) : Ptr := fun j => if j = i then p j ^^^ bitMask k else p j

@[simp] theorem flipBit_self (p : Ptr) (i k : Nat) : flipBit p i k i = p i ^^^ bitMask k := if_pos rfl

theorem flipBit_of_ne (p : Ptr) {i j : Nat} (k : Nat) (h : j ≠ i) : flipBit p i k j = p j := if_neg h

/-- What the decoder reads in a buffer. -/
def packetEvent (p : Ptr) (n : Nat) : Option RfEvent := (⟨-1, p, n⟩ : Arrival).event

/-- Without an extra byte, the event of a packet is that of its class. -/
theorem packetEvent_eq {p : Ptr} (h : p 1 ≠ 0x5d) (n : Nat) :
    packetEvent p n = rfEvent (classifyRf p n) p := by
  rw [packetEvent, Arrival.event, Arrival.packet, Arrival.size, skipExtra_of_ne h]

/-- A flip in one of two bytes flips their difference. -/
theorem flipBit_pair (p : Ptr) {a b i : Nat} (k : Nat) (hne : a ≠ b) (hi : i = a ∨ i = b) :
    flipBit p i k a ^^^ flipBit p i k b = (p a ^^^ p b) ^^^ bitMask k := by
  obtain rfl | rfl := hi
  · rw [flipBit_self, flipBit_of_ne p k hne.symm, UInt8.xor_assoc, UInt8.xor_comm (bitMask k),
      ← UInt8.xor_assoc]
  · rw [flipBit_self, flipBit_of_ne p k hne, ← UInt8.xor_assoc]

/-- A byte with a bit flipped is another byte. -/
theorem xor_mask_ne {k : Nat} (hk : k < 8) (b : UInt8) : b ^^^ bitMask k ≠ b := by
  have hmask : ∀ k < 8, bitMask k ≠ 0 := by decide
  intro h
  refine hmask k hk ?_
  have := congrArg (b ^^^ ·) h
  simpa [← UInt8.xor_assoc] using this

/-! ## Standard and 8-bit security packets -/

/-- A packet of type 20 by its two checks: 8-bit security, house and function, or
nothing. -/
theorem packetEvent_type20 {p : Ptr} (k20 : p 1 = 0x20) : packetEvent p 6 =
    if p 2 ^^^ p 3 = 0x0f then
      if p 4 ^^^ p 5 = 0xff then some (.security true (p 2).toNat (p 4)) else none
    else if p 2 ^^^ p 3 = 0xff then
      if p 4 ^^^ p 5 = 0xff ∨ p 4 ^^^ p 5 = 0xfb then rfEvent .standard p else none
    else none := by
  rw [packetEvent_eq (by rw [k20]; decide), classifyRf, if_neg (by decide), if_neg (by rw [k20]; decide),
    if_pos k20]
  by_cases c0 : p 2 ^^^ p 3 = 0x0f
  · by_cases c4 : p 4 ^^^ p 5 = 0xff <;> simp [c0, c4, rfEvent]
  by_cases cf : p 2 ^^^ p 3 = 0xff
  · by_cases c4 : p 4 ^^^ p 5 = 0xff <;> by_cases c4' : p 4 ^^^ p 5 = 0xfb <;> simp [cf, c4, c4', rfEvent]
  · simp [c0, cf, rfEvent]

/-- A flip in the house byte or its complement fails both checks. -/
theorem house_flip {c : UInt8} (h : c = 0x0f ∨ c = 0xff) {k : Nat} (hk : k < 8) :
    c ^^^ bitMask k ≠ 0x0f ∧ c ^^^ bitMask k ≠ 0xff := by
  have hmask : ∀ k : Fin 8, (0x0f ^^^ bitMask k ≠ 0x0f ∧ 0x0f ^^^ bitMask k ≠ 0xff) ∧
      0xff ^^^ bitMask k ≠ 0x0f ∧ 0xff ^^^ bitMask k ≠ 0xff := by decide
  obtain rfl | rfl := h
  · exact (hmask ⟨k, hk⟩).1
  · exact (hmask ⟨k, hk⟩).2

section
variable {p : Ptr} {i k : Nat} (hk : k < 8)
include hk

/-- Neither check of the first pair survives a flip in it. -/
theorem type20_house_flip (k20 : p 1 = 0x20) (hc : p 2 ^^^ p 3 = 0x0f ∨ p 2 ^^^ p 3 = 0xff)
    (hi : i = 2 ∨ i = 3) : packetEvent (flipBit p i k) 6 = none := by
  obtain ⟨h0, hf⟩ := house_flip hc hk
  rw [packetEvent_type20 ((flipBit_of_ne p k (by omega)).trans k20), flipBit_pair p k (by decide) hi,
    if_neg h0, if_neg hf]

/-- An 8-bit security packet with a bit flipped is rejected. -/
theorem security8_flip (k20 : p 1 = 0x20) (c0 : p 2 ^^^ p 3 = 0x0f) (c4 : p 4 ^^^ p 5 = 0xff)
    (h2 : 2 ≤ i) (h6 : i < 6) : packetEvent (flipBit p i k) 6 = none := by
  by_cases hi : i = 2 ∨ i = 3
  · exact type20_house_flip hk k20 (.inl c0) hi
  · have hcheck : flipBit p i k 4 ^^^ flipBit p i k 5 ≠ 0xff := by
      rw [flipBit_pair p k (by decide) (by omega), c4]
      exact xor_mask_ne hk _
    rw [packetEvent_type20 ((flipBit_of_ne p k (by omega)).trans k20), flipBit_of_ne p k (by omega),
      flipBit_of_ne p k (by omega), if_pos c0, if_neg hcheck]

/-- A standard packet with a bit flipped is rejected, but for the bit in which the
two check values differ. -/
theorem standard_flip (k20 : p 1 = 0x20) (cf : p 2 ^^^ p 3 = 0xff)
    (c4 : p 4 ^^^ p 5 = 0xff ∨ p 4 ^^^ p 5 = 0xfb) (h2 : 2 ≤ i) (h6 : i < 6) :
    packetEvent (flipBit p i k) 6 =
      if k = 2 ∧ (i = 4 ∨ i = 5) then rfEvent .standard (flipBit p i k) else none := by
  by_cases hi : i = 2 ∨ i = 3
  · rw [type20_house_flip hk k20 (.inr cf) hi, if_neg (by omega)]
  · have hmask : ∀ k : Fin 8, (0xff ^^^ bitMask k = 0xff ∨ 0xff ^^^ bitMask k = 0xfb ↔ k.val = 2) ∧
        (0xfb ^^^ bitMask k = 0xff ∨ 0xfb ^^^ bitMask k = 0xfb ↔ k.val = 2) := by decide
    have hcheck : (p 4 ^^^ p 5) ^^^ bitMask k = 0xff ∨ (p 4 ^^^ p 5) ^^^ bitMask k = 0xfb ↔ k = 2 := by
      obtain h | h := c4 <;> rw [h]
      · exact (hmask ⟨k, hk⟩).1
      · exact (hmask ⟨k, hk⟩).2
    rw [← flipBit_pair p k (by decide) (show i = 4 ∨ i = 5 by omega)] at hcheck
    have h0 : p 2 ^^^ p 3 ≠ 0x0f := by
      rw [cf]
      decide
    rw [packetEvent_type20 ((flipBit_of_ne p k (by omega)).trans k20), flipBit_of_ne p k (by omega),
      flipBit_of_ne p k (by omega), if_neg h0, if_pos cf]
    simp only [hcheck, show i = 4 ∨ i = 5 by omega, and_true]

end

/-- What the house byte and the unit and function byte of a standard packet say. -/
def standardEvent (houseunit unitfunc : UInt8) : RfEvent :=
  let (housechar, unitint, funcint) := hufcDecode houseunit unitfunc
  if funcint > 1 then .house housechar funcint else .houseUnit housechar unitint funcint

/-- A standard packet always has an event. -/
theorem rfEvent_standard (p : Ptr) : rfEvent .standard p = some (standardEvent (p 2) (p 4)) := by
  simp only [rfEvent, standardEvent]
  split <;> rfl

/-- The unit and function bytes that are dim or bright with bit 2 flipped or not. -/
def dimOrBright : List UInt8 := [0x88, 0x98, 0x8c, 0x9c]

/-- A mask without the flipped bits reads the same. -/
theorem xor_and_of_disjoint {b c m : UInt8} (h : c &&& m = 0) : (b ^^^ c) &&& m = b &&& m := by
  have hzero := congrArg UInt8.toNat h
  rw [UInt8.toNat_and, UInt8.toNat_zero] at hzero
  rw [← UInt8.toNat_inj, UInt8.toNat_and, UInt8.toNat_xor, Nat.and_xor_distrib_right, hzero, Nat.xor_zero,
    UInt8.toNat_and]

/-- Bit 2 of the unit and function byte only tells dim and bright from on. -/
theorem standardEvent_flip (houseunit unitfunc : UInt8) :
    standardEvent houseunit (unitfunc ^^^ 0x04) = standardEvent houseunit unitfunc ↔
      unitfunc ∉ dimOrBright := by
  constructor
  · -- one of the two is a dim or bright, the other an on
    intro heq hmem
    revert heq
    simp only [dimOrBright, List.mem_cons, List.not_mem_nil, or_false] at hmem
    obtain rfl | rfl | rfl | rfl := hmem <;> exact RfEvent.noConfusion
  · intro hmem
    obtain ⟨h88, h98, h8c, h9c⟩ :
        unitfunc ≠ 0x88 ∧ unitfunc ≠ 0x98 ∧ unitfunc ≠ 0x8c ∧ unitfunc ≠ 0x9c := by
      simpa [dimOrBright] using hmem
    have hflip : ∀ {b : UInt8}, unitfunc ≠ 0x04 ^^^ b → unitfunc ^^^ 0x04 ≠ b := fun hne heq =>
      hne (xor_eq_iff.mp (UInt8.xor_comm _ _ ▸ heq))
    have hflip88 : unitfunc ^^^ 0x04 ≠ 0x88 := hflip h8c
    have hflip98 : unitfunc ^^^ 0x04 ≠ 0x98 := hflip h9c
    have hbits := fun m hm => @xor_and_of_disjoint unitfunc 0x04 m hm
    have h40 := hbits 0x40 rfl
    have h08 := hbits 0x08 rfl
    have h10 := hbits 0x10 rfl
    have h20 := hbits 0x20 rfl
    simp only [standardEvent, hufcDecode, h88, h98, hflip88, hflip98, h40, h08, h10, h20, if_false]

/-- The bit errors of a standard packet. -/
theorem standard_flip_iff {p : Ptr} (k20 : p 1 = 0x20) (cf : p 2 ^^^ p 3 = 0xff)
    (c4 : p 4 ^^^ p 5 = 0xff ∨ p 4 ^^^ p 5 = 0xfb) :
    (∀ i k, 2 ≤ i → i < 6 → k < 8 → packetEvent (flipBit p i k) 6 = none ∨
      packetEvent (flipBit p i k) 6 = rfEvent .standard p) ↔ p 4 ∉ dimOrBright := by
  rw [rfEvent_standard]
  constructor
  · intro h
    have h4 := h 4 2 (by decide) (by decide) (by decide)
    rw [standard_flip (by decide) k20 cf c4 (by decide) (by decide), if_pos (by decide), rfEvent_standard,
      flipBit_self, flipBit_of_ne p 2 (by decide)] at h4
    exact (standardEvent_flip _ _).mp (Option.some.inj (h4.resolve_left (Option.some_ne_none _)))
  · intro hmem i k h2 h6 hk
    rw [standard_flip hk k20 cf c4 h2 h6]
    split
    · rename_i hik
      obtain ⟨rfl, rfl | rfl⟩ := hik
      · rw [rfEvent_standard, flipBit_self, flipBit_of_ne p 2 (by decide)]
        exact .inr (congrArg some ((standardEvent_flip _ _).mpr hmem))
      · rw [rfEvent_standard, flipBit_of_ne p 2 (by decide), flipBit_of_ne p 2 (by decide)]
        exact .inr rfl
    · exact .inl rfl

/-! ## Long security packets -/

/-- A packet of type 29 is accepted by its three checks. -/
theorem packetEvent_type29 {p : Ptr} (k29 : p 1 = 0x29) : packetEvent p 8 =
    if p 2 ^^^ p 3 = 0x0f ∧ p 4 ^^^ p 5 = 0xff ∧ evenParity (p 6 ^^^ p 7) = true then
      some (.security false (secaddr32 (p 2) (p 6) (p 7)) (p 4)) else none := by
  rw [packetEvent_eq (by rw [k29]; decide), classifyRf, if_neg (by decide), if_neg (by rw [k29]; decide),
    if_neg (by rw [k29]; decide), if_pos k29, secafDecode, if_neg (by decide), paritytable_eq]
  by_cases c0 : p 2 ^^^ p 3 = 0x0f <;> by_cases c4 : p 4 ^^^ p 5 = 0xff <;>
    by_cases c6 : evenParity (p 6 ^^^ p 7) = true <;> simp [c0, c4, c6, rfEvent]

/-- With one element flipped, a count changes by one. -/
theorem countP_flip (f : Nat → Bool) (k : Nat) (js : List Nat) :
    (js.countP (fun j => f j ^^ decide (k = j)) + js.countP f) % 2 = js.count k % 2 := by
  induction js with
  | nil => rfl
  | cons j js ih =>
      rw [List.countP_cons, List.countP_cons, List.count_cons]
      by_cases hk : k = j
      · subst hk
        cases f k <;> simp only [decide_true, Bool.false_xor, Bool.true_xor, Bool.not_true,
          Bool.false_eq_true, beq_self_eq_true, if_true, if_false] <;> omega
      · have hj : (j == k) = false := by simpa using Ne.symm hk
        cases f j <;> simp only [hk, hj, decide_false, Bool.xor_false, Bool.false_eq_true, if_true,
          if_false] <;> omega

/-- A flip changes the parity. -/
theorem evenParity_flip {k : Nat} (hk : k < 8) {b : UInt8} (h : evenParity b = true) :
    evenParity (b ^^^ bitMask k) = false := by
  have hmask : (bitMask k).toNat = 2 ^ k :=
    Nat.mod_eq_of_lt (show 2 ^ k < 2 ^ 8 from Nat.pow_lt_pow_right (by decide) hk)
  have hbit : ∀ j, (b ^^^ bitMask k).toNat.testBit j = (b.toNat.testBit j ^^ decide (k = j)) := by
    intro j
    rw [UInt8.toNat_xor, Nat.testBit_xor, hmask, Nat.testBit_two_pow]
  have hcount : (List.range 8).count k = 1 :=
    List.count_eq_one_of_mem List.nodup_range (List.mem_range.mpr hk)
  have hflip := countP_flip (fun j => b.toNat.testBit j) k (List.range 8)
  rw [hcount] at hflip
  simp only [evenParity, hbit, ← List.countP_eq_length_filter, decide_eq_true_eq, decide_eq_false_iff_not] at h ⊢
  omega

/-- A long security packet with a bit flipped is rejected. -/
theorem long_flip {p : Ptr} (k29 : p 1 = 0x29) (hvalid : packetEvent p 8 ≠ none) {i k : Nat} (hk : k < 8)
    (h2 : 2 ≤ i) (h8 : i < 8) : packetEvent (flipBit p i k) 8 = none := by
  rw [packetEvent_type29 k29, ne_eq, ite_eq_right_iff, not_forall] at hvalid
  obtain ⟨⟨c0, c4, c6⟩, -⟩ := hvalid
  rw [packetEvent_type29 ((flipBit_of_ne p k (by omega)).trans k29), if_neg]
  rintro ⟨f0, f4, f6⟩
  obtain hi | hi | hi : (i = 2 ∨ i = 3) ∨ (i = 4 ∨ i = 5) ∨ (i = 6 ∨ i = 7) := by omega
  · rw [flipBit_pair p k (by decide) hi, c0] at f0
    exact xor_mask_ne hk _ f0
  · rw [flipBit_pair p k (by decide) hi, c4] at f4
    exact xor_mask_ne hk _ f4
  · rw [flipBit_pair p k (by decide) hi, evenParity_flip hk c6] at f6
    cases f6

/-! ## Camera packets -/

/-- The text of a camera packet with its sum right. -/
def cameraText (key house : UInt8) : Option Text :=
  let keyindex := (key.toNat : Int) - 0x54
  if keyindex < 0 ∨ rfcamKeyCodes.length ≤ keyindex.toNat then none
  else (rfcamKeyCodes.getD keyindex.toNat none).map fun name =>
    [houseUnitTableRF.getD ((house >>> 4) &&& 0x0f).toNat 0] ++ cstr " " ++ cstr name

/-- A camera packet is accepted by its sum, if its keys are known. -/
theorem packetEvent_type14 {p : Ptr} (k14 : p 1 = 0x14) : packetEvent p 5 =
    if p 2 = (p 4 &&& 0xf0) + (p 3 - 0x2b) then (cameraText (p 3) (p 4)).map .camera else none := by
  have htext : camRemoteText (p.add 1) 4 =
      if p 2 = (p 4 &&& 0xf0) + (p 3 - 0x2b) then cameraText (p 3) (p 4) else none := by
    rw [camRemoteText, if_neg (by simp [Ptr.add, k14])]
    have hsum := camera_sum (p 2) (p 3) (p 4)
    by_cases h : p 2 = (p 4 &&& 0xf0) + (p 3 - 0x2b)
    · rw [if_pos h]
      exact if_neg (not_not.mpr (hsum.mpr h))
    · rw [if_neg h]
      exact if_pos (mt hsum.mp h)
  rw [packetEvent_eq (by rw [k14]; decide), classifyRf, if_neg (by decide), if_pos k14, htext]
  by_cases hsum : p 2 = (p 4 &&& 0xf0) + (p 3 - 0x2b)
  · simp only [hsum, if_true]
    cases cameraText (p 3) (p 4) <;> rfl
  · simp only [hsum, if_false]
    rfl

/-- A camera packet with a bit flipped is rejected, or the bit is one of the four
behind the house that nothing reads. -/
theorem camera_flip {p : Ptr} (k14 : p 1 = 0x14) (hvalid : packetEvent p 5 ≠ none) {i k : Nat} (hk : k < 8)
    (h2 : 2 ≤ i) (h5 : i < 5) :
    packetEvent (flipBit p i k) 5 = none ∨ packetEvent (flipBit p i k) 5 = packetEvent p 5 := by
  have hsum : p 2 = (p 4 &&& 0xf0) + (p 3 - 0x2b) := by
    by_contra hsum
    rw [packetEvent_type14 k14, if_neg hsum] at hvalid
    exact hvalid rfl
  have hother : ∀ j, j ≠ i → flipBit p i k j = p j := fun j hj => flipBit_of_ne p k hj
  rw [packetEvent_type14 ((hother 1 (by omega)).trans k14)]
  obtain rfl | rfl | rfl : i = 2 ∨ i = 3 ∨ i = 4 := by omega
  · left
    rw [if_neg]
    rw [flipBit_self, hother 4 (by decide), hother 3 (by decide), ← hsum]
    exact xor_mask_ne hk _
  · left
    rw [if_neg]
    rw [flipBit_self, hother 4 (by decide), hother 2 (by decide), hsum]
    intro heq
    exact xor_mask_ne hk (p 3) ((UInt8.sub_left_inj _).mp ((UInt8.add_right_inj _).mp heq)).symm
  · rw [flipBit_self, hother 2 (by decide), hother 3 (by decide)]
    by_cases hhigh : (p 4 ^^^ bitMask k) &&& (0xf0 : UInt8) = p 4 &&& 0xf0
    · right
      rw [packetEvent_type14 k14, hhigh, cameraText, cameraText, highNibble_eq, highNibble_eq, hhigh]
    · left
      rw [if_neg]
      intro heq
      exact hhigh ((UInt8.add_left_inj _).mp (heq.symm.trans hsum))

/-! ## All families -/

/-- A standard packet whose unit and function byte is a dim or bright, or one with
bit 2 flipped. -/
def DimOrBright (p : Ptr) : Prop := p 1 = 0x20 ∧ p 2 ^^^ p 3 = 0xff ∧ p 4 ∈ dimOrBright

/-- A valid packet with a bit flipped behind its type byte is rejected or says the
same, unless it is a dim or bright. -/
theorem packetEvent_flip {p : Ptr} {n : Nat} {e : RfEvent} (hlen : ProperLength p n)
    (he : packetEvent p n = some e) (hnot : ¬ DimOrBright p) {i k : Nat} (h2 : 2 ≤ i) (hn : i < n) (hk : k < 8) :
    packetEvent (flipBit p i k) n = none ∨ packetEvent (flipBit p i k) n = some e := by
  have hvalid : packetEvent p n ≠ none := by
    rw [he]
    exact Option.some_ne_none e
  obtain ⟨k20, rfl⟩ | ⟨k29, rfl⟩ | ⟨k14, rfl⟩ := hlen
  · rw [packetEvent_type20 k20] at he
    split at he
    · rename_i c0
      split at he
      · rename_i c4
        exact .inl (security8_flip hk k20 c0 c4 h2 hn)
      · cases he
    · split at he
      · rename_i cf
        split at he
        · rename_i c4
          rw [← he]
          exact (standard_flip_iff k20 cf c4).mpr (fun hmem => hnot ⟨k20, cf, hmem⟩) i k h2 hn hk
        · cases he
      · cases he
  · exact .inl (long_flip k29 hvalid hk h2 hn)
  · rw [← he]
    exact camera_flip k14 hvalid hk h2 hn

/-- No single-bit error behind the type byte of a valid packet is decoded as a
different event: this holds exactly when the packet is not a standard one whose
unit and function byte is dim or bright, with bit 2 flipped or not. -/
theorem single_bit_error {p : Ptr} {n : Nat} {e : RfEvent} (hlen : ProperLength p n)
    (he : packetEvent p n = some e) :
    (∀ i k, 2 ≤ i → i < n → k < 8 →
      packetEvent (flipBit p i k) n = none ∨ packetEvent (flipBit p i k) n = some e) ↔
        ¬ DimOrBright p := by
  refine ⟨?_, fun hnot i k h2 hn hk => packetEvent_flip hlen he hnot h2 hn hk⟩
  rintro hall ⟨k20, cf, hmem⟩
  obtain ⟨-, rfl⟩ | ⟨k29, -⟩ | ⟨k14, -⟩ := hlen
  · rw [packetEvent_type20 k20, if_neg (by rw [cf]; decide), if_pos cf] at he
    split at he
    · rename_i c4
      rw [← he] at hall
      exact (standard_flip_iff k20 cf c4).mp hall hmem
    · cases he
  · exact absurd (k20.symm.trans k29) (by decide)
  · exact absurd (k20.symm.trans k14) (by decide)

/-- What the decoder does with the flipped packet: nothing but complain, or drop it
as a duplicate, or track the event of the packet that was sent. -/
theorem decodeRf_flip {p : Ptr} {n : Nat} {e : RfEvent} (hlen : ProperLength p n)
    (he : packetEvent p n = some e) (hnot : ¬ DimOrBright p) {i k : Nat} (h2 : 2 ≤ i) (hn : i < n) (hk : k < 8)
    (fd : Int) (w : World) :
    let q := flipBit p i k
    let r := cm15aDecodeRf fd q n w
    Quiet w r ∨ packetEvent q n = some e ∧ (r.state = w.state ∨ e.Tracks w.state r.state) := by
  intro q r
  have hsame := packetEvent_flip hlen he hnot h2 hn hk
  obtain ⟨hrej, hquiet⟩ | ⟨hne, hacc⟩ := cm15aDecodeRf_step fd q n w
  · exact .inl hquiet
  · have hevent : packetEvent q n = some e :=
      hsame.resolve_left fun hnone => hne (eq_rejected_of_rfEvent hnone)
    refine .inr ⟨hevent, ?_⟩
    obtain ⟨-, hdup⟩ | ⟨-, hdec⟩ := hacc
    · exact .inl (hdup.state.trans (dupFilter_state _ _ w))
    · exact .inr (hdec.tracks hevent).1

/-- A1 On. -/
def a1On : Ptr := Ptr.ofList [0x5d, 0x20, 0x60, 0x9f, 0x00, 0xff]

theorem single_bit_error_on :
    packetEvent a1On 6 = some (.houseUnit 65 1 0) ∧
      ∀ i k, 2 ≤ i → i < 6 → k < 8 → packetEvent (flipBit a1On i k) 6 = none ∨
        packetEvent (flipBit a1On i k) 6 = some (.houseUnit 65 1 0) := by
  have he : packetEvent a1On 6 = some (.houseUnit 65 1 0) := by decide
  refine ⟨he, (single_bit_error (.inl ⟨rfl, rfl⟩) he).mpr ?_⟩
  rintro ⟨-, -, hmem⟩
  exact absurd hmem (by decide)

/-- A Bright of house A with bit 2 of its function byte flipped: the check is `FB`
now, and it is read as the On of a unit. -/
theorem bright_read_as_on :
    let p := Ptr.ofList [0x5d, 0x20, 0x60, 0x9f, 0x88, 0x77]
    let q := flipBit p 4 2
    ProperLength p 6 ∧ packetEvent p 6 = some (.house 65 3) ∧
      packetEvent q 6 = some (.houseUnit 65 3 0) ∧
      (cm15aDecodeRf 5 q 6 (worldInit (stillSetup true))).io =
        [.send 5 (cstr "Rx RF HouseUnit: A3 Func: On\n")] :=
  ⟨.inl ⟨rfl, rfl⟩, by decide⟩

end Mochad
