import Mochad.RoundTrip

/-!
# Mochad.SecurityAddress

The address word of `RFSEC` and `GETSTATUSSEC`.  An 8-bit address starts with
`0x`, a long one must be six hex digits; what `getrfaddr` does with any other
word is left to `strtoul`.  `rfsec_tx` cuts the number to the bytes of its
packet, and `hua_getstatus_sec` compares the whole of it.
-/

namespace Mochad

open CString

/-! ## The address words -/

/-- A hex digit. -/
def Ishex (c : UInt8) : Prop := (digitVal 16 c).isSome

instance : DecidablePred Ishex := fun _ => inferInstanceAs (Decidable (_ = _))

/-- The number hex digits write. -/
def hexValue (digits : Text) : Nat := digits.foldl (fun v c => v * 16 + (digitVal 16 c).getD 0) 0

/-- The address words, each with the kind `getrfaddr` reports and its address. -/
inductive ValidRfaddr : Text → Int → Nat → Prop where
  | short (x : UInt8) (digits : Text) (hx : x = 120 ∨ x = 88) (hne : digits ≠ [])
      (hhex : ∀ c ∈ digits, Ishex c) (hfit : hexValue digits ≤ 0xFF) :
      ValidRfaddr (48 :: x :: digits) 1 (hexValue digits)
  | long (digits : Text) (hlen : digits.length = 6) (hhex : ∀ c ∈ digits, Ishex c) :
      ValidRfaddr digits 0 (hexValue digits)

/-- The word is taken for an 8-bit address. -/
def HexPrefix (parm : Text) : Prop := parm.take 2 = cstr "0x" ∨ parm.take 2 = cstr "0X"

instance : DecidablePred HexPrefix := fun _ => inferInstanceAs (Decidable (_ ∨ _))

/-- `0x` in front of no digits, of a character that is none, or of a number that
does not fit a byte; or a word without `0x` that is not six hex digits. -/
def MalformedRfaddr (parm : Text) : Prop :=
  (HexPrefix parm ∧
    (parm.drop 2 = [] ∨ (∃ c ∈ parm.drop 2, ¬ Ishex c) ∨ 0xFF < hexValue (parm.drop 2))) ∨
  (¬ HexPrefix parm ∧ (parm.length ≠ 6 ∨ ∃ c ∈ parm, ¬ Ishex c))

instance : DecidablePred MalformedRfaddr := fun _ => inferInstanceAs (Decidable (_ ∨ _))

/-! ## The users of an address -/

/-- The address in a security packet, from its first address byte on. -/
def packetAddr : List UInt8 → Option Nat
  | [addr1, _, _, _] => some addr1.toNat
  | [addr1, _, _, _, addr2, addr3] => some (secaddr32 addr1 addr2 addr3)
  | _ => none

/-- The address in the packet passed to `x10_write` last; a CM19A gets it without
the transmit code. -/
def sentAddr (w : World) : Option Nat :=
  w.writes.getLast?.bind fun b => packetAddr (b.data.drop (if w.cm19a then 1 else 2))

/-- The address that is sent is the one in the packet. -/
theorem rfTransmit_sentAddr (buf : List UInt8) (w : World) :
    sentAddr (rfTransmit cm15aDecodeRf buf w).2 = packetAddr (buf.drop 2) := by
  have hcm19a : (rfTransmit cm15aDecodeRf buf w).2.cm19a = w.cm19a := by
    unfold rfTransmit
    dsimp only
    split <;> exact (emits_decodeRf (-1) (Ptr.ofList buf) buf.length w).cm19a
  rw [sentAddr, rfTransmit_writes, List.getLast?_concat, hcm19a, sentForm]
  cases w.cm19a with
  | true =>
      have hdrop : buf.tail.drop 1 = buf.drop 2 := List.drop_tail
      exact congrArg packetAddr hdrop
  | false => rfl

/-- The transmitter keeps the low byte of an 8-bit address, and the low three
bytes of a long one. -/
theorem rfsecTx_sentAddr (rf8bitaddr : Int) (rfaddr : Nat) (func : Int) (w : World) :
    sentAddr (rfsecTx cm15aDecodeRf rf8bitaddr rfaddr func w).2 =
      some (if rf8bitaddr ≠ 0 then rfaddr % 2 ^ 8 else rfaddr % 2 ^ 24) := by
  unfold rfsecTx
  by_cases h8 : rf8bitaddr ≠ 0
  · rw [if_pos h8, if_pos h8, rfTransmit_sentAddr]
    exact congrArg some UInt8.toNat_ofNat'
  · rw [if_neg h8, if_neg h8, rfTransmit_sentAddr]
    exact congrArg some (secaddr32_ofNat rfaddr)

/-- The answer to a status request for a sensor. -/
def sensorAnswer (rf8bitaddr : Int) (rfaddr : Nat) (s : X10state) : Text :=
  if huaGetstatusSec rf8bitaddr rfaddr s = 1 then cstr "on\n" else cstr "off\n"

/-- The word is classified as documented, and a word that is accepted has one
value, which is sent in packets and looked up in the sensor table. -/
def RfaddrDocumented (t : Strtok) : Prop :=
  ((getrfaddr t).1 = -1 ∧ ¬ ∃ parm ∈ (nextWord t).1, ∃ kind v, ValidRfaddr parm kind v) ∨
  ∃ parm ∈ (nextWord t).1, ∃ v, ValidRfaddr parm (getrfaddr t).1 v ∧
    (∀ func w, sentAddr (rfsecTx cm15aDecodeRf (getrfaddr t).1 (getrfaddr t).2.1 func w).2 = some v) ∧
    ∀ fd w, (getstatussecCommand fd t w).2.2 =
      w.statusprintf fd (sensorAnswer (getrfaddr t).1 v w.state)

/-! ## The parser -/

/-- A hexadecimal number is below the power of its length. -/
theorem hexValue_lt {digits : Text} (h : ∀ c ∈ digits, Ishex c) :
    hexValue digits < 16 ^ digits.length := by
  induction digits using List.reverseRecOn with
  | nil => decide
  | append_singleton digits c ih =>
      have hv := ih fun c hc => h c (List.mem_append_left _ hc)
      obtain ⟨d, hd⟩ := Option.isSome_iff_exists.mp (h c (by simp))
      have hlt := digitVal_lt hd
      have hlast : hexValue (digits ++ [c]) = hexValue digits * 16 + d := by
        rw [hexValue, List.foldl_append, List.foldl_cons, hd]
        rfl
      rw [hlast, List.length_append, List.length_singleton, Nat.pow_succ]
      omega

/-- `strtoul` reads it unless it overflows. -/
theorem strtoul_hexValue {digits : Text} (h : ∀ c ∈ digits, Ishex c)
    (hlt : hexValue digits < 2 ^ 64) : (strtoul 16 digits).1 = hexValue digits := by
  have hval : digitsVal 16 digits = hexValue digits := digitsVal_of_digits h
  rw [strtoul_of_digits h le_rfl (hval ▸ hlt), hval]

/-- Hex digits do not start with `0x`. -/
theorem not_hexPrefix {digits : Text} (h : ∀ c ∈ digits, Ishex c) : ¬ HexPrefix digits := by
  have hx : ∀ x : UInt8, x ∈ digits.take 2 → Ishex x := fun x hx => h x (List.mem_of_mem_take hx)
  rintro (h0 | h0)
  · exact absurd (hx 120 (by rw [h0]; decide)) (by decide)
  · exact absurd (hx 88 (by rw [h0]; decide)) (by decide)

/-- A zero and an `x` are a prefix. -/
theorem hexPrefix_cons {x : UInt8} (hx : x = 120 ∨ x = 88) (digits : Text) :
    HexPrefix (48 :: x :: digits) := by
  obtain rfl | rfl := hx
  · exact .inl rfl
  · exact .inr rfl

/-- An address word is read. -/
theorem rfaddrWord_of_valid {parm : Text} {kind : Int} {v : Nat} (h : ValidRfaddr parm kind v) :
    rfaddrWord parm = (kind, v) := by
  cases h with
  | short x digits hx hne hhex hfit =>
      have hpre := hexPrefix_cons hx digits
      unfold HexPrefix at hpre
      rw [rfaddrWord, if_pos hpre]
      exact congrArg (1, ·) (strtoul_hexValue hhex (lt_of_le_of_lt hfit (by decide)))
  | long _ hlen hhex =>
      have hpre := not_hexPrefix hhex
      unfold HexPrefix at hpre
      have hlt := hexValue_lt hhex
      rw [hlen] at hlt
      rw [rfaddrWord, if_neg hpre, strtoul_hexValue hhex (hlt.trans (by decide))]

/-- A valid address is not malformed. -/
theorem not_malformed_of_valid {parm : Text} {kind : Int} {v : Nat} (h : ValidRfaddr parm kind v) :
    ¬ MalformedRfaddr parm := by
  cases h with
  | short x digits hx hne hhex hfit =>
      rintro (⟨-, hbad⟩ | ⟨hno, -⟩)
      · obtain hnil | ⟨c, hc, hnot⟩ | hbig := hbad
        · exact hne hnil
        · exact hnot (hhex c hc)
        · exact absurd hbig (Nat.not_lt.mpr hfit)
      · exact hno (hexPrefix_cons hx digits)
  | long _ hlen hhex =>
      rintro (⟨hpre, -⟩ | ⟨-, hbad⟩)
      · exact not_hexPrefix hhex hpre
      · obtain hlen' | ⟨c, hc, hnot⟩ := hbad
        · exact hlen' hlen
        · exact hnot (hhex c hc)

theorem valid_of_not_malformed {parm : Text} (h : ¬ MalformedRfaddr parm) :
    ∃ kind v, ValidRfaddr parm kind v := by
  obtain ⟨hshort, hlong⟩ := not_or.mp h
  by_cases hpre : HexPrefix parm
  · obtain ⟨x, digits, hx, rfl⟩ : ∃ x digits, (x = 120 ∨ x = 88) ∧ parm = 48 :: x :: digits := by
      obtain h0 | h0 := hpre
      · exact ⟨120, parm.drop 2, .inl rfl, by rw [← List.take_append_drop 2 parm, h0]; rfl⟩
      · exact ⟨88, parm.drop 2, .inr rfl, by rw [← List.take_append_drop 2 parm, h0]; rfl⟩
    have hgood : ¬ (digits = [] ∨ (∃ c ∈ digits, ¬ Ishex c) ∨ 0xFF < hexValue digits) :=
      fun hbad => hshort ⟨hpre, hbad⟩
    simp only [not_or, not_exists, not_and, not_not, not_lt] at hgood
    exact ⟨1, _, .short x digits hx hgood.1 hgood.2.1 hgood.2.2⟩
  · have hgood : ¬ (parm.length ≠ 6 ∨ ∃ c ∈ parm, ¬ Ishex c) := fun hbad => hlong ⟨hpre, hbad⟩
    simp only [not_or, not_exists, not_and, not_not] at hgood
    exact ⟨0, _, .long parm hgood.1 hgood.2⟩

/-- A word is never refused. -/
theorem rfaddrWord_ne (parm : Text) : (rfaddrWord parm).1 ≠ -1 := by
  have h10 : (1 : Int) ≠ -1 ∧ (0 : Int) ≠ -1 := by decide
  unfold rfaddrWord
  split
  · exact h10.1
  · exact h10.2

/-- A short address fits one byte, a long one three. -/
theorem ValidRfaddr.range {parm : Text} {kind : Int} {v : Nat} (h : ValidRfaddr parm kind v) :
    (kind = 1 ∧ v < 2 ^ 8) ∨ (kind = 0 ∧ v < 2 ^ 24) := by
  cases h with
  | short x digits hx hne hhex hfit => exact .inl ⟨rfl, by omega⟩
  | long _ hlen hhex =>
      have hlt := hexValue_lt hhex
      rw [hlen] at hlt
      exact .inr ⟨rfl, hlt⟩

/-- Address words are read as documented: this holds exactly when the word is not
malformed. -/
theorem getrfaddr_documented_iff (t : Strtok) :
    RfaddrDocumented t ↔ ∀ parm ∈ (nextWord t).1, ¬ MalformedRfaddr parm := by
  have hstatus : ∀ fd w, (getstatussecCommand fd t w).2.2 =
      if (getrfaddr t).1 < 0 then w
      else w.statusprintf fd (sensorAnswer (getrfaddr t).1 (getrfaddr t).2.1 w.state) := by
    intro fd w
    unfold getstatussecCommand sensorAnswer
    obtain ⟨rf8bitaddr, rfaddr, t'⟩ := getrfaddr t
    dsimp only
    split
    · rfl
    · split <;> rfl
  unfold RfaddrDocumented
  simp only [hstatus, rfsecTx_sentAddr]
  rw [nextWord_fst, getrfaddr_eq]
  generalize (argv t).head? = word
  constructor
  · rintro (⟨hrefused, -⟩ | ⟨s, hs, v, hvalid, -⟩) parm hparm hbad
    · cases hparm
      exact rfaddrWord_ne parm hrefused
    · cases hparm
      cases hs
      exact not_malformed_of_valid hvalid hbad
  · intro hno
    cases word with
    | none =>
        left
        refine ⟨rfl, ?_⟩
        rintro ⟨s, hs, -⟩
        cases hs
    | some parm =>
        right
        obtain ⟨kind, v, hvalid⟩ := valid_of_not_malformed (hno parm rfl)
        rw [rfaddrOf, rfaddrWord_of_valid hvalid]
        refine ⟨parm, rfl, v, hvalid, fun func w => ?_, fun fd w => if_neg ?_⟩
        · obtain ⟨rfl, hlt⟩ | ⟨rfl, hlt⟩ := hvalid.range
          · exact congrArg some (Nat.mod_eq_of_lt hlt)
          · exact congrArg some (Nat.mod_eq_of_lt hlt)
        · obtain ⟨rfl, -⟩ | ⟨rfl, -⟩ := hvalid.range
          · exact Int.not_lt.mpr Int.one_nonneg
          · exact Int.lt_irrefl 0

/-- The line `RFSEC 0x130 PANIC` goes out with the address `30`, while the status
of `130` is looked up. -/
theorem rfsec_truncates :
    let t := (nextWord (Strtok.start (strupper (cstr "rfsec 0x130 panic")))).2
    let w := worldInit (stillSetup false)
    ¬ RfaddrDocumented t ∧ (getrfaddr t).1 = 1 ∧ (getrfaddr t).2.1 = 0x130 ∧
      sentAddr (processcommandline 5 (cstr "rfsec 0x130 panic") w).2.2 = some 0x30 := by
  intro t w
  have hword : (nextWord t).1 = some (cstr "0X130") := by decide
  refine ⟨?_, by decide⟩
  rintro (⟨hrefused, -⟩ | ⟨s, hs, v, hvalid, -⟩)
  · exact absurd hrefused (by decide)
  · rw [hword] at hs
    cases hs
    exact not_malformed_of_valid hvalid (by decide)

end Mochad
