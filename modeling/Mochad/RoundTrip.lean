import Mochad.Bridge
import Mochad.Decode.RfEvent
import Mochad.Encode.RfSend

/-!
# Mochad.RoundTrip

RF packets sent by one controller and received by another.  The three RF
commands build packets of three families, which the decoder tells apart by
their second byte and their check bytes only.  `decode_undoes_encode` says that
every packet decodes to the event it was commanded for, except for security
packets whose long address fails the parity rule of the decoder: `rfsec_tx`
does not look at it.
-/

namespace Mochad

open CString

/-! ## Events -/

/-- The event an RF command asks for: `RF` with a valid house, a valid unit for
on and off, `RFCAM` with a house and a listed key, `RFSEC` with a listed
function; addresses are taken modulo their size. -/
def commandEvent : List Text → Option RfEvent
  | [] => none
  | command :: ws =>
      let (house, unit) := deviceaddrOf ws[0]?
      let housechar := UInt8.ofInt (65 + house)
      if command = cstr "RF" then
        let func := funcNumber ws[1]?
        if house < 0 then none
        else if func = funcOn ∨ func = funcOff then
          if unit < 0 then none else some (.houseUnit housechar (unit + 1) (func - 2).toNat)
        else if func = funcDim ∨ func = funcBright then some (.house housechar (func - 2).toNat)
        else none
      else if command = cstr "RFCAM" then
        if house < 0 then none
        else
          match ws[1]? with
          | none => none
          | some key =>
              if some key ∈ rfcamKeyCodes.map (Option.map cstr) then
                some (.camera ([housechar] ++ cstr " " ++ key))
              else none
      else if command = cstr "RFSEC" then
        let (rf8bitaddr, rfaddr) := rfaddrOf ws[0]?
        let func := rffuncNumber rf8bitaddr ws[1]?
        if rf8bitaddr < 0 ∨ func < 0 then none
        else if rf8bitaddr ≠ 0 then some (.security true (rfaddr % 2 ^ 8) (UInt8.ofInt func))
        else some (.security false (rfaddr % 2 ^ 24) (UInt8.ofInt func))
      else none

/-- The parity rule: in a long address the exclusive-or of the two low bytes has
even parity. -/
def RfEvent.ParityOk : RfEvent → Prop
  | .security false addr _ => evenParity (UInt8.ofNat (addr >>> 8) ^^^ UInt8.ofNat addr) = true
  | _ => True

/-! ## Packets on the air -/

/-- The arguments of `x10_write` for an RF packet; a CM19A takes it without its
first byte. -/
def sentForm (cm19a : Bool) (buf : List UInt8) : OutBuf :=
  if cm19a then ⟨buf.tail, buf.length - 1⟩ else ⟨buf, buf.length⟩

/-- The packet a receiver gives to its decoder: the code `5D` in place of the
transmit code, or in front of a packet that has none. -/
def receivedRf (cm19a : Bool) (data : List UInt8) : List UInt8 :=
  0x5d :: if cm19a then data else data.tail

/-- What is sent to a controller comes back with the receive code in front. -/
theorem receivedRf_sentForm (cm19a : Bool) (buf : List UInt8) :
    receivedRf cm19a (sentForm cm19a buf).data = 0x5d :: buf.tail := by
  cases cm19a <;> rfl

/-- An RF packet is sent after what its own decoding sends. -/
theorem rfTransmit_writes (buf : List UInt8) (w : World) :
    (rfTransmit cm15aDecodeRf buf w).2.writes =
      (cm15aDecodeRf (-1) (Ptr.ofList buf) buf.length w).writes ++ [sentForm w.cm19a buf] := by
  unfold rfTransmit sentForm
  dsimp only
  rw [(emits_decodeRf (-1) (Ptr.ofList buf) buf.length w).cm19a]
  split
  · rw [World.x10Write_snd_writes, List.take_of_length_le (by simp)]
  · rw [World.x10Write_snd_writes, List.take_of_length_le (le_refl _)]

/-- The packet is decoded to the event. -/
def DecodesTo (fd : Int) (p : Ptr) (n : Nat) (v : World) (e : RfEvent) : Prop :=
  rfEvent (classifyRf p n) p = some e ∧
    RfDecoded (fun fd aLine w => (processcommandline fd aLine w).2.2) fd (classifyRf p n) p n v
      (cm15aDecodeRf fd p n v)

/-- A packet with an event is decoded to it, unless it is a duplicate. -/
theorem decodesTo_of_event {fd : Int} {p : Ptr} {n : Nat} {v : World} {e : RfEvent}
    (hp : p 1 ≠ 0x5d) (he : rfEvent (classifyRf p n) p = some e) (hdup : (dupFilter p n v).1 = false) :
    DecodesTo fd p n v e :=
  ⟨he, rfDecoded_of_new (skipExtra_of_ne hp n) (ne_rejected_of_rfEvent he) fd hdup⟩

/-! ## The three families -/

/-- The event of a packet received. -/
def receivedEvent (tail : List UInt8) : Option RfEvent :=
  rfEvent (classifyRf (Ptr.ofList (0x5d :: tail)) (tail.length + 1)) (Ptr.ofList (0x5d :: tail))

/-- A check byte of the first kind. -/
theorem xor_check (a : UInt8) : a ^^^ (a ^^^ 0x0f) = 0x0f := by
  rw [← UInt8.xor_assoc, UInt8.xor_self, UInt8.zero_xor]

/-- A check byte of the second kind. -/
theorem compl_check (a : UInt8) : a ^^^ ~~~a = 0xff := by
  rw [UInt8.xor_not, UInt8.xor_self]
  rfl

/-- A standard packet is received as the house, unit and function it decodes to. -/
theorem receivedEvent_standard (buf2 buf4 : UInt8) :
    receivedEvent [0x20, buf2, ~~~buf2, buf4, ~~~buf4] =
      some (if (hufcDecode buf2 buf4).2.2 > 1 then
        .house (hufcDecode buf2 buf4).1 (hufcDecode buf2 buf4).2.2
      else .houseUnit (hufcDecode buf2 buf4).1 (hufcDecode buf2 buf4).2.1 (hufcDecode buf2 buf4).2.2) := by
  have hclass : classifyRf (Ptr.ofList [0x5d, 0x20, buf2, ~~~buf2, buf4, ~~~buf4]) 6 = .standard := by
    have h2 : buf2 ^^^ ~~~buf2 = 0xff := compl_check buf2
    have h4 : buf4 ^^^ ~~~buf4 = 0xff := compl_check buf4
    simp only [classifyRf, Ptr.ofList, List.getD_cons_succ, List.getD_cons_zero, h2, h4]
    rfl
  simp only [receivedEvent, List.length_cons, List.length_nil, hclass, rfEvent, Ptr.ofList,
    List.getD_cons_succ, List.getD_cons_zero]
  exact (apply_ite some _ _ _).symm

/-- The house byte carries the house and the high bit of the unit. -/
theorem housecoderf_decode (house : Fin 16) {unit8 : UInt8} (h : unit8 = 0 ∨ unit8 = 8) :
    houseUnitTableRF.getD (((housecoderfAt house <<< 4 ||| unit8 >>> 1) &&& 0xf0) >>> 4).toNat 0 =
        houseByte house ∧
      (housecoderfAt house <<< 4 ||| unit8 >>> 1) &&& (0x04 : UInt8) = unit8 >>> 1 := by
  obtain rfl | rfl := h <;> revert house <;> decide

/-- One bit of the unit is set or not. -/
theorem unit8_cases (unit : Int) : lowByte unit &&& 0x08 = 0 ∨ lowByte unit &&& 0x08 = 8 :=
  @and_bit_cases _ 0x08 3 rfl

/-- The other byte carries the low bits of the unit and the function. -/
theorem unitfuncByte_decode : ∀ unit : Fin 16, ∀ f : Fin 2,
    (unitfuncByte unit.val (f.val + 2)).any (fun buf4 : UInt8 => buf4 ≠ 0x88 ∧ buf4 ≠ 0x98 ∧
      ((lowByte unit.val &&& 0x08) >>> 1 <<< 1 ||| (buf4 &&& 0x40) >>> 4 |||
        (buf4 &&& 0x08) >>> 2 ||| (buf4 &&& 0x10) >>> 4).toNat = unit.val ∧
      ((buf4 &&& 0x20) >>> 5).toNat = f.val) := by
  decide

/-- On and Off are received for the unit they are sent to. -/
theorem receivedEvent_onOff (house unit : Fin 16) (f : Fin 2) :
    (unitfuncByte unit.val (f.val + 2)).bind (fun buf4 => receivedEvent (rfTail house unit.val buf4)) =
      some (.houseUnit (houseByte house) (unit.val + 1) f.val) := by
  obtain ⟨buf4, hbyte, hdecode⟩ := (Option.any_eq_true _ _).mp (unitfuncByte_decode unit f)
  obtain ⟨hbright, hdim, hunit, hfunc⟩ := of_decide_eq_true hdecode
  obtain ⟨hhouse, hbit⟩ := housecoderf_decode house (unit8_cases unit.val)
  have hle : ¬ f.val > 1 := by omega
  rw [hbyte, Option.bind_some, rfTail, receivedEvent_standard]
  simp only [hufcDecode, if_neg hbright, if_neg hdim, hhouse, hbit, hunit, hfunc, if_neg hle]

/-- Dim and Bright are received for the house. -/
theorem receivedEvent_dim (house : Fin 16) (unit : Int) :
    receivedEvent (rfTail house unit 0x98) = some (.house (houseByte house) 2) ∧
      receivedEvent (rfTail house unit 0x88) = some (.house (houseByte house) 3) := by
  obtain ⟨hhouse, -⟩ := housecoderf_decode house (unit8_cases unit)
  simp only [rfTail, receivedEvent_standard, hufcDecode, hhouse]
  exact ⟨rfl, rfl⟩

/-- Dim and bright have a byte of their own, whatever the unit is. -/
theorem receivedEvent_house (house : Fin 16) (unit : Int) {func : Int}
    (h : func = funcDim ∨ func = funcBright) : ∃ buf4, unitfuncByte unit func = some buf4 ∧
      receivedEvent (rfTail house unit buf4) = some (.house (houseByte house) (func - 2).toNat) := by
  obtain ⟨hdim, hbright⟩ := receivedEvent_dim house unit
  obtain rfl | rfl := h
  · exact ⟨0x98, rfl, hdim⟩
  · exact ⟨0x88, rfl, hbright⟩

/-- A camera packet with a matching sum has the text of its key. -/
theorem camRemoteText_key {p : Ptr} {n : Nat} {i : Nat} (hn : 4 ≤ n) (h0 : p 0 = 0x14)
    (hsum : ((p 1).toNat : Int) =
      (((p 3 >>> 4) &&& 0x0f).toNat * 16 + (((p 2).toNat : Int) - 0x2B)) % 256)
    (hkey : (p 2).toNat = i + 0x54) (hi : i < rfcamKeyCodes.length) :
    camRemoteText p n = (rfcamKeyCodes.getD i none).map fun name =>
      [houseUnitTableRF.getD ((p 3 >>> 4) &&& 0x0f).toNat 0] ++ cstr " " ++ cstr name := by
  have hindex : ((p 2).toNat : Int) - 0x54 = i := by omega
  have hstart : ¬ (n < 4 ∨ p 0 ≠ 0x14) := by
    rintro (hlt | hne)
    · omega
    · exact hne h0
  have hrange : ¬ ((i : Int) < 0 ∨ rfcamKeyCodes.length ≤ i) := by omega
  unfold camRemoteText
  simp only [if_neg hstart, hindex, if_neg hrange, if_neg (not_not.mpr hsum), Int.toNat_natCast]

/-- The code of a house fills the top half of its byte, and is read back. -/
theorem housecoderf_top : ∀ house : Fin 16,
    (housecoderfAt house <<< 4).toNat = (housecoderfAt house <<< 4 >>> 4 &&& 0x0f).toNat * 16 ∧
      houseUnitTableRF.getD (housecoderfAt house <<< 4 >>> 4 &&& 0x0f).toNat 0 = houseByte house := by
  decide

/-- The command of a camera is received with the house and the name of the key. -/
theorem receivedEvent_camera (house : Fin 16) (i : Fin 27) {name : String}
    (hname : name ∈ rfcamKeyCodes.getD i none) :
    receivedEvent (rfcamTail house (i.val + 0x54)) =
      some (.camera ([houseByte house] ++ cstr " " ++ cstr name)) := by
  obtain ⟨htop, hhouse⟩ := housecoderf_top house
  have hkey : ∀ i : Fin 27, (lowByte ((i.val : Int) + 0x54)).toNat = i.val + 0x54 := by decide
  have hlen : (rfcamTail house (i.val + 0x54)).length = 4 := rfl
  have hsum : ((housecoderfAt house <<< 4 + (lowByte ((i.val : Int) + 0x54) - 0x2B)).toNat : Int) =
      (((housecoderfAt house <<< 4 >>> 4) &&& 0x0f).toNat * 16 +
        (((lowByte ((i.val : Int) + 0x54)).toNat : Int) - 0x2B)) % 256 := by
    have hsub : (0x2B : UInt8) ≤ lowByte ((i.val : Int) + 0x54) := by
      rw [UInt8.le_iff_toNat_le, hkey]
      exact Nat.le_add_left_of_le (by decide)
    have h2b : (0x2B : UInt8).toNat = 43 := rfl
    rw [UInt8.toNat_add, UInt8.toNat_sub_of_le _ _ hsub, htop, hkey, h2b]
    omega
  have htext : camRemoteText ((Ptr.ofList (0x5d :: rfcamTail house (i.val + 0x54))).add 1) (4 + 1 - 1) =
      some ([houseByte house] ++ cstr " " ++ cstr name) := by
    have hkeyed := @camRemoteText_key ((Ptr.ofList (0x5d :: rfcamTail house (i.val + 0x54))).add 1)
      (4 + 1 - 1) i.val (by decide) rfl hsum (hkey i) i.isLt
    rw [hkeyed, hname, Option.map_some, ← hhouse]
    rfl
  have h1 : Ptr.ofList (0x5d :: rfcamTail house (i.val + 0x54)) 1 = 0x14 := rfl
  simp only [receivedEvent, hlen, classifyRf, h1, htext]
  rfl

/-- An 8-bit security packet is received with its address. -/
theorem receivedEvent_security8 (addr func : UInt8) :
    receivedEvent [0x20, addr, addr ^^^ 0x0f, func, ~~~func] =
      some (.security true addr.toNat func) := by
  have h2 : addr ^^^ (addr ^^^ 0x0f) = 0x0f := xor_check addr
  have h4 : func ^^^ ~~~func = 0xff := compl_check func
  simp only [receivedEvent, classifyRf, Ptr.ofList, List.getD_cons_succ, List.getD_cons_zero,
    List.length_cons, List.length_nil, h2, h4, rfEvent]
  rfl

/-- One with a long address is received if the parity of its address is even. -/
theorem receivedEvent_securityLong (a0 a1 a2 func : UInt8) :
    receivedEvent [0x29, a0, a0 ^^^ 0x0f, func, ~~~func, a1, a2] =
      if evenParity (a1 ^^^ a2) then some (.security false (secaddr32 a0 a1 a2) func) else none := by
  have h2 : a0 ^^^ (a0 ^^^ 0x0f) = 0x0f := xor_check a0
  have h4 : func ^^^ ~~~func = 0xff := compl_check func
  have hsecaf : ∀ p : Ptr, p = Ptr.ofList [0x5d, 0x29, a0, a0 ^^^ 0x0f, func, ~~~func, a1, a2] →
      secafDecode p 8 = if evenParity (a1 ^^^ a2) then .ok a0 a1 a2 func else .invalidParity := by
    rintro p rfl
    simp only [secafDecode, Ptr.ofList, List.getD_cons_succ, List.getD_cons_zero, h2, h4, paritytable_eq]
    cases evenParity (a1 ^^^ a2) <;> rfl
  have hclass : classifyRf (Ptr.ofList [0x5d, 0x29, a0, a0 ^^^ 0x0f, func, ~~~func, a1, a2]) 8 =
      if evenParity (a1 ^^^ a2) then .securityLong a0 a1 a2 func else .rejected := by
    have h1 : Ptr.ofList [0x5d, 0x29, a0, a0 ^^^ 0x0f, func, ~~~func, a1, a2] 1 = 0x29 := rfl
    simp only [classifyRf, h1, hsecaf _ rfl]
    cases evenParity (a1 ^^^ a2) <;> rfl
  simp only [receivedEvent, List.length_cons, List.length_nil, hclass]
  cases evenParity (a1 ^^^ a2) <;> rfl

/-- The bytes of an address, put together again. -/
theorem secaddr32_ofNat (rfaddr : Nat) :
    secaddr32 (UInt8.ofNat (rfaddr >>> 16)) (UInt8.ofNat (rfaddr >>> 8)) (UInt8.ofNat rfaddr) =
      rfaddr % 2 ^ 24 := by
  simp only [secaddr32_eq, UInt8.toNat_ofNat', Nat.shiftRight_eq_div_pow]
  omega

/-! ## Commands -/

/-- There is a packet, and it is received as the event, or rejected when its
address breaks the parity rule. -/
def Encodes (packet : Option (List UInt8)) (e : RfEvent) : Prop :=
  ∃ tail, packet = some (0xeb :: tail) ∧ tail.head? ≠ some 0x5d ∧
    (e.ParityOk → receivedEvent tail = some e) ∧ (¬ e.ParityOk → receivedEvent tail = none)

section
variable {e : RfEvent} {ws : List Text}

/-- The parity rule is about long addresses only. -/
theorem Encodes.of_event {tail : List UInt8} (hhead : tail.head? ≠ some 0x5d) (hparity : e.ParityOk)
    (hev : receivedEvent tail = some e) : Encodes (some (0xeb :: tail)) e :=
  ⟨tail, rfl, hhead, fun _ => hev, fun h => absurd hparity h⟩

theorem houseByte_ofInt : ∀ house : Fin 16, UInt8.ofInt (65 + house.val) = houseByte house := by
  decide

/-- On and off carry house and unit, dim and bright the house. -/
theorem encodes_rf (he : commandEvent (cstr "RF" :: ws) = some e) :
    Encodes (commandPacket (cstr "RF" :: ws)) e := by
  simp only [commandEvent, if_true] at he
  simp only [commandPacket, if_true]
  generalize funcNumber ws[1]? = func at he ⊢
  obtain hneg | ⟨house, hhouse, hunit⟩ := deviceaddrOf_range ws[0]?
  · simp [hneg] at he
  have hpos : ¬ ((house.val : Int) < 0) := by omega
  simp only [hhouse, hpos, if_false, houseByte_ofInt, false_or] at he ⊢
  split at he
  · rename_i hon
    obtain hneg | ⟨unit, hunit⟩ := hunit
    · simp [hneg] at he
    have hpos : ¬ ((unit.val : Int) < 0) := by omega
    simp only [hunit, hpos, if_false, Option.some.injEq] at he ⊢
    subst he
    have honOff : ∀ f : Fin 2, func = f.val + 2 →
        Encodes (if func < 0 then none
            else (unitfuncByte unit.val func).map fun buf4 => 0xeb :: rfTail house.val unit.val buf4)
          (.houseUnit (houseByte house) (unit.val + 1) f.val) := by
      rintro f rfl
      obtain ⟨buf4, hbyte, hev⟩ := Option.bind_eq_some_iff.mp (receivedEvent_onOff house unit f)
      rw [if_neg (by omega), hbyte]
      exact .of_event (by simp [rfTail]) trivial hev
    obtain rfl | rfl := hon
    · exact honOff 0 rfl
    · exact honOff 1 rfl
  · split at he
    · rename_i hdim
      cases he
      obtain ⟨buf4, hbyte, hev⟩ := receivedEvent_house house (deviceaddrOf ws[0]?).2 hdim
      have hfpos : ¬ func < 0 := by rcases hdim with rfl | rfl <;> decide
      rw [if_neg hfpos, hbyte]
      exact .of_event (by simp [rfTail]) trivial hev
    · cases he

/-- A listed key name has a key code. -/
theorem findCamRemoteCommand_listed {key : Text}
    (hkey : some key ∈ rfcamKeyCodes.map (Option.map cstr)) :
    ∃ i : Fin 27, ∃ name ∈ rfcamKeyCodes.getD i none, cstr name = key ∧
      findCamRemoteCommand key = i.val + 0x54 := by
  have hsome : (rfcamKeyCodes.findIdx? fun p => p.map cstr = some key).isSome := by
    simp only [List.findIdx?_isSome, List.any_eq_true, decide_eq_true_eq]
    exact List.mem_map.mp hkey
  obtain ⟨i, hi⟩ := Option.isSome_iff_exists.mp hsome
  obtain ⟨hlt, hname, -⟩ := List.findIdx?_eq_some_iff_getElem.mp hi
  obtain ⟨name, hget, hcstr⟩ := Option.map_eq_some_iff.mp (of_decide_eq_true hname)
  refine ⟨⟨i, hlt⟩, name, ?_, hcstr, ?_⟩
  · simp only [List.getD_eq_getElem?_getD, List.getElem?_eq_getElem hlt, Option.getD_some, hget]
    rfl
  · rw [findCamRemoteCommand, hi]

/-- `RFCAM` encodes its event. -/
theorem encodes_rfcam (he : commandEvent (cstr "RFCAM" :: ws) = some e) :
    Encodes (commandPacket (cstr "RFCAM" :: ws)) e := by
  have hne : cstr "RFCAM" ≠ cstr "RF" := by decide
  simp only [commandEvent, hne, if_false, if_true] at he
  simp only [commandPacket, hne, if_false, if_true]
  obtain hneg | ⟨house, hhouse, -⟩ := deviceaddrOf_range ws[0]?
  · simp [hneg] at he
  have hpos : ¬ ((house.val : Int) < 0) := by omega
  simp only [hhouse, hpos, if_false, houseByte_ofInt] at he ⊢
  cases hword : ws[1]? with
  | none =>
      rw [hword] at he
      cases he
  | some key =>
      rw [hword] at he
      dsimp only at he ⊢
      split at he
      · rename_i hkey
        cases he
        obtain ⟨i, name, hname, rfl, hcode⟩ := findCamRemoteCommand_listed hkey
        have hcodePos : (i.val : Int) + 0x54 > 0 := by omega
        rw [hcode, if_pos hcodePos]
        exact .of_event (by simp [rfcamTail]) trivial (receivedEvent_camera house i hname)
      · cases he

/-- The two bytes the parity rule looks at. -/
theorem parityBytes (rfaddr : Nat) :
    UInt8.ofNat ((rfaddr % 2 ^ 24) >>> 8) ^^^ UInt8.ofNat (rfaddr % 2 ^ 24) =
      UInt8.ofNat (rfaddr >>> 8) ^^^ UInt8.ofNat rfaddr := by
  have h8 : UInt8.ofNat ((rfaddr % 2 ^ 24) >>> 8) = UInt8.ofNat (rfaddr >>> 8) := by
    apply UInt8.toNat_inj.mp
    simp only [UInt8.toNat_ofNat', Nat.shiftRight_eq_div_pow]
    omega
  have h0 : UInt8.ofNat (rfaddr % 2 ^ 24) = UInt8.ofNat rfaddr := by
    apply UInt8.toNat_inj.mp
    simp only [UInt8.toNat_ofNat']
    omega
  rw [h8, h0]

theorem encodes_rfsec (he : commandEvent (cstr "RFSEC" :: ws) = some e) :
    Encodes (commandPacket (cstr "RFSEC" :: ws)) e := by
  have hrf : cstr "RFSEC" ≠ cstr "RF" := by decide
  have hcam : cstr "RFSEC" ≠ cstr "RFCAM" := by decide
  simp only [commandEvent, hrf, hcam, if_false, if_true] at he
  simp only [commandPacket, hrf, hcam, if_false, if_true]
  generalize rfaddrOf ws[0]? = addr at he ⊢
  obtain ⟨rf8bitaddr, rfaddr⟩ := addr
  dsimp only at he ⊢
  generalize rffuncNumber rf8bitaddr ws[1]? = func at he ⊢
  split at he
  · cases he
  rename_i hneg
  rw [if_neg hneg, rfsecTail]
  split at he
  · rename_i h8
    cases he
    rw [if_pos h8]
    refine .of_event (by simp) trivial ?_
    simpa [lowByte] using receivedEvent_security8 (UInt8.ofNat rfaddr) (lowByte func)
  · rename_i h8
    cases he
    rw [if_neg h8]
    refine ⟨_, rfl, by simp, ?_⟩
    have hev := receivedEvent_securityLong (UInt8.ofNat (rfaddr >>> 16)) (UInt8.ofNat (rfaddr >>> 8))
      (UInt8.ofNat rfaddr) (lowByte func)
    rw [secaddr32_ofNat] at hev
    simp only [RfEvent.ParityOk, parityBytes]
    exact ⟨fun h => by simpa [h, lowByte] using hev, fun h => by simpa [h] using hev⟩

/-- Every command with an event has a packet that carries it. -/
theorem encodes_of_event (he : commandEvent ws = some e) : Encodes (commandPacket ws) e := by
  cases ws with
  | nil => cases he
  | cons command ws =>
      by_cases hrf : command = cstr "RF"
      · subst hrf
        exact encodes_rf he
      by_cases hcam : command = cstr "RFCAM"
      · subst hcam
        exact encodes_rfcam he
      by_cases hsec : command = cstr "RFSEC"
      · subst hsec
        exact encodes_rfsec he
      simp [commandEvent, hrf, hcam, hsec] at he

end

/-- The last packet passed on is received as the event, or rejected when its
address breaks the parity rule. -/
def Sends (e : RfEvent) (w r : World) : Prop :=
  ∃ own tail, r.writes = w.writes ++ own ++ [sentForm w.cm19a (0xeb :: tail)] ∧
    tail.head? ≠ some 0x5d ∧ (e.ParityOk → receivedEvent tail = some e) ∧
      (¬ e.ParityOk → receivedEvent tail = none)

/-- A line with an event sends a packet that is received as this event. -/
theorem sends_processcommandline {aLine : Text} {e : RfEvent}
    (he : commandEvent (words 32 (strupper aLine)) = some e) (fd : Int) (w : World) :
    Sends e w (processcommandline fd aLine w).2.2 := by
  obtain ⟨tail, hpacket, htail⟩ := encodes_of_event he
  obtain ⟨u, hu, hr⟩ := processcommandline_rf fd w hpacket
  obtain ⟨own, -, hw, -⟩ := (emits_decodeRf (-1) (Ptr.ofList (0xeb :: tail)) (tail.length + 1) u).fed
  refine ⟨own, tail, ?_, htail⟩
  rw [hr, rfTransmit_writes, List.length_cons, hw, hu.writes, hu.cm19a]

/-- Decode undoes encode.  The last packet of an RF command line, on either
controller and in any state, is decoded to the event of the command by any
receiver whose duplicate filter holds no live copy of it, if and only if the
address keeps the parity rule; otherwise the receiver rejects it and its state
stays as it is. -/
theorem decode_undoes_encode (fd : Int) (aLine : Text) (e : RfEvent)
    (he : commandEvent (words 32 (strupper aLine)) = some e) (w : World) :
    ∃ own b, (processcommandline fd aLine w).2.2.writes = w.writes ++ own ++ [b] ∧
      ∀ fd' v, let rx := receivedRf w.cm19a b.data
        ((∀ q ∈ v.dups, ¬ q.Live (v.clock 0) ((Ptr.ofList rx).bytes rx.length) rx.length) →
          (DecodesTo fd' (Ptr.ofList rx) rx.length v e ↔ e.ParityOk)) ∧
        (¬ e.ParityOk → Quiet v (cm15aDecodeRf fd' (Ptr.ofList rx) rx.length v)) := by
  obtain ⟨own, tail, hw, hhead, hok, hbad⟩ := sends_processcommandline he fd w
  refine ⟨own, sentForm w.cm19a (0xeb :: tail), hw, fun fd' v => ?_⟩
  have hrx : receivedRf w.cm19a (sentForm w.cm19a (0xeb :: tail)).data = 0x5d :: tail :=
    receivedRf_sentForm _ _
  simp only [hrx]
  have hp : Ptr.ofList (0x5d :: tail) 1 ≠ 0x5d := by
    cases tail with
    | nil => decide
    | cons b bs => simpa [Ptr.ofList] using hhead
  refine ⟨fun hlive => ⟨fun hdec => ?_, fun h => ?_⟩, fun h => ?_⟩
  · by_contra h
    cases (hbad h).symm.trans hdec.1
  · refine decodesTo_of_event hp (hok h) (Bool.eq_false_iff.mpr fun hdup => ?_)
    obtain ⟨q, hq, hqlive⟩ := dupFilter_live hdup
    exact hlive q hq hqlive
  · exact quiet_of_rejected (skipExtra_of_ne hp _) (eq_rejected_of_rfEvent (hbad h)) fd' v

/-- A dim sent by a CM19A, whose unit is lost, and received by a CM15A. -/
theorem decode_undoes_encode_dim :
    ∃ own b, (processcommandline (-1) (cstr "rf b12 dim") (worldInit (stillSetup true))).2.2.writes =
        own ++ [b] ∧
      DecodesTo (-1) (Ptr.ofList (receivedRf true b.data)) (receivedRf true b.data).length
        (worldInit (stillSetup false)) (.house 66 2) := by
  obtain ⟨own, b, hw, hdec⟩ := decode_undoes_encode (-1) (cstr "rf b12 dim") (.house 66 2) (by decide)
    (worldInit (stillSetup true))
  refine ⟨own, b, hw, ((hdec (-1) (worldInit (stillSetup false))).1 fun q hq hlive => ?_).mpr trivial⟩
  have hunused : ∀ q ∈ dupsInit, q.rfCmdLen = 0 := by decide
  exact hlive.1 (hunused q hq)

end Mochad
