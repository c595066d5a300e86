import Mochad.Lib.History
import Mochad.Lib.Run
import Mochad.Listener
import Mochad.Writes

/-!
# Mochad.Bridge

The RF to power line bridge of a CM15A.  A standard RF packet is decoded,
printed as a `PL` command, parsed again and encoded with the tables of the
power line.  `bridge_preserves_meaning` says that the packets that come out
carry what was decoded from the packet that came in, and that they are sent
exactly for the houses the last `RFTOPL` command has enabled.
-/

namespace Mochad

open CString History

/-! ## The command printed and parsed -/

/-- The character of a house. -/
def houseByte (house : Fin 16) : UInt8 := UInt8.ofNat (65 + house.val)

/-- The letter of a house, less the letter A, is the index of the house. -/
theorem houseByte_sub : ∀ house : Fin 16, (houseByte house).toNat - 65 = house.val := by decide

/-- The packets a bridged event is sent as: house/unit and house/function, or
for dim and bright one packet with an amount of one step. -/
def bridgePackets (house unit : Fin 16) (funcint : Fin 4) : List PlcPacket :=
  let hf := housecodeAt house <<< 4 ||| UInt8.ofNat (funcint.val + 2)
  if funcint > 1 then [.dimbright hf 0x0e]
  else [.houseunit (housecodeAt house <<< 4 ||| housecodeAt unit), .housefunc hf]

/-- The unit number decoded with an event; dim and bright carry none. -/
def bridgeUnitint (unit : Fin 16) (funcint : Fin 4) : Int :=
  if funcint > 1 then 0 else unit.val + 1

/-- Being above 1 is the same for a function and for the number the C code holds. -/
theorem val_gt_one (funcint : Fin 4) : funcint.val > 1 ↔ funcint > 1 := by
  rw [gt_iff_lt, gt_iff_lt, Fin.lt_def]
  rfl

/-- The words of the printed command, once its address and function are words. -/
theorem words_bridgeCommand_eq {housechar : UInt8} {unit : Text} {funcint : Nat}
    (haddr : 32 ∉ strupper (housechar :: unit)) (hname : 32 ∉ strupper (funcnameAt (funcint + 2)))
    (hne : funcnameAt (funcint + 2) ≠ []) :
    words 32 (strupper (bridgeCommand housechar unit funcint)) =
      [cstr "PL", strupper (housechar :: unit), strupper (funcnameAt (funcint + 2))] := by
  rw [words_bridgeCommand_split, words_append_sep, words_of_not_mem 32 (by simp [strupper]) haddr,
    words_of_not_mem 32 (by simpa [strupper]) hname, List.singleton_append]

/-- The four names the bridge prints are words with the numbers of their functions. -/
theorem funcNumber_funcnameAt : ∀ funcint : Fin 4,
    funcnameAt (funcint.val + 2) ≠ [] ∧ 32 ∉ strupper (funcnameAt (funcint.val + 2)) ∧
      funcNumber (some (strupper (funcnameAt (funcint.val + 2)))) = funcint.val + 2 := by
  decide

/-- The printed address is a word that reads as its house and unit. -/
theorem deviceaddr_unit : ∀ house unit : Fin 16,
    32 ∉ strupper (houseByte house :: dec ((unit.val : Int) + 1)) ∧
      deviceaddr (strupper (houseByte house :: dec ((unit.val : Int) + 1))) =
        ((house.val : Int), (unit.val : Int)) := by
  decide

/-- The letter of a house is read back as the house, with no unit. -/
theorem deviceaddr_house : ∀ house : Fin 16, 32 ∉ strupper [houseByte house] ∧
    deviceaddr (strupper [houseByte house]) = ((house.val : Int), -1) := by
  decide

/-- `PL` with a unit and On or Off: the address of the unit, then the function. -/
theorem plPackets_unit {addr name : Text} {house unit funcint : Nat}
    (haddr : deviceaddr addr = ((house : Int), (unit : Int)))
    (hname : funcNumber (some name) = funcint + 2) (hf : funcint ≤ 1) :
    plPackets [addr, name] = [.houseunit (housecodeAt house <<< 4 ||| housecodeAt unit),
      .housefunc (housecodeAt house <<< 4 ||| UInt8.ofNat (funcint + 2))] := by
  have h0 : ¬ (house : Int) < 0 := by omega
  have h1 : ¬ (unit : Int) < 0 := by omega
  obtain rfl | rfl : funcint = 0 ∨ funcint = 1 := by omega
  all_goals
    simp [plPackets, deviceaddrOf, haddr, h0, h1, plUnitPackets, hname, housefuncPacket, lowByte,
      funcDim, funcBright, funcExtendedDim, funcExtendedCode1]
    rfl

/-- `PL` with a house and Dim or Bright: one packet for the house, with a step. -/
theorem plPackets_house {addr name : Text} {house funcint : Nat}
    (haddr : deviceaddr addr = ((house : Int), -1))
    (hname : funcNumber (some name) = funcint + 2) (hf : funcint = 2 ∨ funcint = 3) :
    plPackets [addr, name] =
      [.dimbright (housecodeAt house <<< 4 ||| UInt8.ofNat (funcint + 2)) 0x0e] := by
  have h0 : ¬ (house : Int) < 0 := by omega
  obtain rfl | rfl := hf
  all_goals
    simp [plPackets, deviceaddrOf, haddr, h0, plHousePackets, hname, housefuncPacket, lowByte,
      funcDim, funcBright, funcExtendedDim, paramOr, paramNumber]
    exact ⟨rfl, rfl⟩

/-- Reading the printed command yields the packets. -/
theorem plPackets_bridgeCommand (house unit : Fin 16) (funcint : Fin 4) :
    (words 32 (strupper (bridgeCommand (houseByte house)
      (bridgeUnit (bridgeUnitint unit funcint) funcint) funcint))).head? = some (cstr "PL") ∧
    plPackets (words 32 (strupper (bridgeCommand (houseByte house)
      (bridgeUnit (bridgeUnitint unit funcint) funcint) funcint))).tail =
      bridgePackets house unit funcint := by
  obtain ⟨hne, hname, hnumber⟩ := funcNumber_funcnameAt funcint
  have hlt := funcint.isLt
  have hgt := val_gt_one funcint
  by_cases hf : funcint > 1
  · have h1 := hgt.mpr hf
    obtain ⟨hsep, haddr⟩ := deviceaddr_house house
    rw [bridgeUnit, if_pos h1, words_bridgeCommand_eq hsep hname hne, bridgePackets, if_pos hf]
    exact ⟨rfl, plPackets_house haddr hnumber (by omega)⟩
  · have h1 := mt hgt.mp hf
    obtain ⟨hsep, haddr⟩ := deviceaddr_unit house unit
    rw [bridgeUnit, if_neg h1, bridgeUnitint, if_neg hf, words_bridgeCommand_eq hsep hname hne,
      bridgePackets, if_neg hf]
    exact ⟨rfl, plPackets_unit haddr hnumber (by omega)⟩

/-- The tables of the power line read back house, unit and function. -/
theorem bridgePackets_decode : ∀ house unit : Fin 16, ∀ funcint : Fin 4,
    hucDecode (housecodeAt house <<< 4 ||| housecodeAt unit) = (houseByte house, (unit.val : Int) + 1) ∧
    hfcDecode (housecodeAt house <<< 4 ||| UInt8.ofNat (funcint.val + 2)) =
      (houseByte house, (funcint.val : Int) + 2) := by
  decide

/-- Every byte pattern decodes to a house, a unit 1..16 and a function 0..3. -/
theorem hufcDecode_range (houseunit unitfunc : UInt8) : ∃ (house unit : Fin 16) (funcint : Fin 4),
    hufcDecode houseunit unitfunc =
      (houseByte house, bridgeUnitint unit funcint, funcint.val) := by
  have htable : ∀ i : Fin 16, ∃ house : Fin 16, houseUnitTableRF.getD i.val 0 = houseByte house := by
    decide
  have hunit : ((houseunit &&& 0x04) <<< 1 ||| (unitfunc &&& 0x40) >>> 4 |||
      (unitfunc &&& 0x08) >>> 2 ||| (unitfunc &&& 0x10) >>> 4).toNat < 2 ^ 4 := by
    have h8 : ((houseunit &&& 0x04) <<< 1).toNat ≤ 8 := and_shiftLeft_le _ _ _
    have h4 : ((unitfunc &&& 0x40) >>> 4).toNat ≤ 4 := and_shiftRight_le _ _ _
    have h2 : ((unitfunc &&& 0x08) >>> 2).toNat ≤ 2 := and_shiftRight_le _ _ _
    have h1 : ((unitfunc &&& 0x10) >>> 4).toNat ≤ 1 := and_shiftRight_le _ _ _
    rw [UInt8.toNat_or, UInt8.toNat_or, UInt8.toNat_or]
    exact Nat.or_lt_two_pow (Nat.or_lt_two_pow (Nat.or_lt_two_pow (by omega) (by omega)) (by omega))
      (by omega)
  have hfunc : ((unitfunc &&& 0x20) >>> 5).toNat ≤ 1 := and_shiftRight_le _ _ _
  obtain ⟨house, hhouse⟩ := htable ⟨_, highNibble_lt houseunit⟩
  unfold hufcDecode
  rw [hhouse]
  by_cases hbright : unitfunc = 0x88
  · exact ⟨house, 0, 3, by simp [hbright, bridgeUnitint]⟩
  by_cases hdim : unitfunc = 0x98
  · exact ⟨house, 0, 2, by simp [hdim, bridgeUnitint]⟩
  refine ⟨house, ⟨_, hunit⟩, ⟨((unitfunc &&& 0x20) >>> 5).toNat, by omega⟩, ?_⟩
  have hle : ¬ (⟨((unitfunc &&& 0x20) >>> 5).toNat, by omega⟩ : Fin 4) > 1 := by
    rw [gt_iff_lt, Fin.lt_def]
    simp only [Fin.val_one]
    omega
  simp only [hbright, hdim, if_false, bridgeUnitint, hle]
/-! ## The parser behind the decoder -/

/-- The decoder calls the parser on bridge commands only. -/
theorem cm15aDecodeRfWith_congr {parse parse' : Int → Text → World → World}
    (h : ∀ fd housechar unit funcint w, parse fd (bridgeCommand housechar unit funcint) w =
      parse' fd (bridgeCommand housechar unit funcint) w) :
    cm15aDecodeRfWith parse = cm15aDecodeRfWith parse' := by
  have hstd : rfStandard parse = rfStandard parse' := by
    funext fd buf len w
    simp only [rfStandard, h]
  funext fd buf len w
  simp only [cm15aDecodeRfWith, hstd]

/-- The decoder bridges through `processcommandline` itself: the command it
prints decodes no RF packet, so the recursion ends there. -/
theorem cm15aDecodeRf_eq :
    cm15aDecodeRf = cm15aDecodeRfWith fun fd aLine w => (processcommandline fd aLine w).2.2 := by
  refine cm15aDecodeRfWith_congr fun fd housechar unit funcint w => ?_
  obtain ⟨ws, hws⟩ := words_bridgeCommand housechar unit funcint
  rw [processcommandline, processcommandlineWith_pl_congr _ cm15aDecodeRf hws]

/-- `cm15aDecodeRf_cases` with the parser of the program. -/
theorem cm15aDecodeRf_step (fd : Int) (buf : Ptr) (len : Nat) (w : World) :
    let p := skipExtra buf len
    let k := classifyRf p.1 p.2
    (k = .rejected ∧ Quiet w (cm15aDecodeRf fd buf len w)) ∨
    (k ≠ .rejected ∧ RfAccepted (fun fd aLine w => (processcommandline fd aLine w).2.2) fd k p.1 p.2 w
      (cm15aDecodeRf fd buf len w)) := by
  rw [cm15aDecodeRf_eq]
  exact cm15aDecodeRf_cases _ fd buf len w

section
variable {buf p : Ptr} {len n : Nat} (hskip : skipExtra buf len = (p, n))
include hskip

/-- A rejected packet changes no state. -/
theorem quiet_of_rejected (hk : classifyRf p n = .rejected) (fd : Int) (w : World) :
    Quiet w (cm15aDecodeRf fd buf len w) := by
  have hcases := cm15aDecodeRf_step fd buf len w
  rw [hskip] at hcases
  obtain ⟨-, hq⟩ | ⟨hne, -⟩ := hcases
  · exact hq
  · exact absurd hk hne

/-- A packet that is neither rejected nor a duplicate is decoded. -/
theorem rfDecoded_of_new (hk : classifyRf p n ≠ .rejected) (fd : Int) {w : World}
    (hdup : (dupFilter p n w).1 = false) :
    RfDecoded (fun fd aLine w => (processcommandline fd aLine w).2.2) fd (classifyRf p n) p n w
      (cm15aDecodeRf fd buf len w) := by
  have hcases := cm15aDecodeRf_step fd buf len w
  rw [hskip] at hcases
  obtain ⟨hrej, -⟩ | ⟨-, ⟨hd, -⟩ | ⟨-, hdec⟩⟩ := hcases
  · exact absurd hrej hk
  · rw [hdup] at hd
    cases hd
  · exact hdec

end

/-! ## Enabled houses -/

/-- What reaches the daemon: a command line of a client, a packet from the
controller, an acknowledge or a timeout, a connection and its end. -/
inductive Input where
  | line (fd : Int) (aLine : Text)
  | packet (fd : Int) (buf : Ptr) (len : Nat)
  | sendNext
  | accept (listener : Fin 3) (clifd : Int)
  | hangUp (fd : Int)

/-- One input. -/
def serve (w : World) : Input → World
  | .line fd aLine => (processcommandline fd aLine w).2.2
  | .packet fd buf len => cm15aDecode fd buf len w
  | .sendNext => w.sendNextX10out
  | .accept listener clifd =>
      acceptClient listener ([addClient, addXmlclient, addOr20client].get listener) clifd w
  | .hangUp fd => serveClient fd .eof w

/-- The word of an `RFTOPL` command, which may be missing. -/
def rftoplWord : Input → Option (Option Text)
  | .line _ aLine =>
      match words 32 (strupper aLine) with
      | [] => none
      | command :: ws => if command = cstr "RFTOPL" then some ws.head? else none
  | _ => none

/-- The house is enabled by a word: it is `*` or contains the letter. -/
def enabledBy (housechar : UInt8) : Option (Option Text) → Prop
  | none => True
  | some none => False
  | some (some word) => word = cstr "*" ∨ housechar ∈ word

/-- `RfToPl16` after an `RFTOPL` command, or at the start. -/
def bridgeMask : Option (Option Text) → Nat
  | none => 0xFFFF
  | some word => houseMaskOf word

/-- `RFTOPL` takes a letter for a house exactly when it is the letter of that house. -/
theorem ishouse_letter (c : UInt8) (house : Fin 16) :
    (ishouse c && decide (c.toNat - 65 = house.val)) = decide (houseByte house = c) := by
  have hlt := house.isLt
  have hbyte : (houseByte house).toNat = 65 + house.val := by
    rw [houseByte, UInt8.toNat_ofNat', Nat.mod_eq_of_lt (by omega)]
  rw [Bool.eq_iff_iff]
  simp only [ishouse, Bool.and_eq_true, decide_eq_true_eq, UInt8.le_iff_toNat_le, ← UInt8.toNat_inj,
    hbyte, UInt8.reduceToNat]
  omega

/-- Bit `i` of a mask is set by the house letter with that number. -/
theorem testBit_foldl_mask (word : Text) (rc : Nat) (house : Fin 16) :
    (word.foldl (fun rc c => if ishouse c then rc ||| 1 <<< (c.toNat - 65) else rc) rc).testBit
      house = (rc.testBit house || decide (houseByte house ∈ word)) := by
  induction word generalizing rc with
  | nil => simp
  | cons c word ih =>
      have hc := ishouse_letter c house
      simp only [List.foldl_cons, ih, List.mem_cons, Bool.decide_or, ← hc]
      by_cases hh : ishouse c = true
      · simp [hh, Nat.testBit_or, Nat.one_shiftLeft, Nat.testBit_two_pow, Bool.or_assoc]
      · simp [hh]

/-- A bit of the mask is set exactly for a house that the word enables. -/
theorem testBit_bridgeMask (word : Option (Option Text)) (house : Fin 16) :
    (bridgeMask word).testBit house = true ↔ enabledBy (houseByte house) word := by
  obtain _ | _ | word := word
  · have hall : ∀ house : Fin 16, (0xFFFF : Nat).testBit house = true := by decide
    simp [bridgeMask, enabledBy, hall]
  · simp [bridgeMask, houseMaskOf, enabledBy]
  · simp only [bridgeMask, houseMaskOf, enabledBy]
    by_cases hstar : word = cstr "*"
    · have hall : ∀ house : Fin 16, (0xFFFF : Nat).testBit house = true := by decide
      simp [hstar, hall]
    · simp [hstar, houseMask, testBit_foldl_mask]

/-- What an event leaves in the mask: a new one only after an `RFTOPL`. -/
theorem serve_config (w : World) (i : Input) :
    (serve w i).rfToPl16 =
        (match rftoplWord i with
        | some word => houseMaskOf word
        | none => w.rfToPl16) ∧
      (serve w i).cm19a = w.cm19a := by
  cases i with
  | line fd aLine =>
      obtain ⟨rfToRf16, h⟩ := processcommandline_config fd aLine w
      refine ⟨(congrArg Config.rfToPl16 h).trans ?_, congrArg Config.cm19a h⟩
      simp only [rftoplWord, lineMask]
      cases words 32 (strupper aLine) with
      | nil => rfl
      | cons command ws => by_cases hc : command = cstr "RFTOPL" <;> simp [hc]
  | packet fd buf len =>
      have h := emits_decode fd buf len w
      exact ⟨h.rfToPl16, h.cm19a⟩
  | sendNext => exact ⟨rfl, rfl⟩
  | accept listener clifd =>
      obtain ⟨clients, sockPort, h⟩ :=
        acceptClient_eq listener ([addClient, addXmlclient, addOr20client].get listener) clifd w
      rw [serve, h]
      exact ⟨rfl, rfl⟩
  | hangUp fd =>
      obtain ⟨clients, sockPort, io, h⟩ := (w.close fd).delClient_eq fd
      rw [serve, serveClient, h]
      exact ⟨rfl, rfl⟩

/-- In every run the last `RFTOPL` command decides which houses are bridged. -/
theorem run_serve_config {w : World} (hmask : w.rfToPl16 = 0xFFFF) (hc : w.cm19a = false)
    (hist : List Input) :
    (Run.run serve w hist).rfToPl16 = bridgeMask (latest rftoplWord hist) ∧
      (Run.run serve w hist).cm19a = false := by
  induction hist using List.reverseRecOn with
  | nil => exact ⟨hmask, hc⟩
  | append_singleton hist i ih =>
      obtain ⟨hm, hcm⟩ := serve_config (Run.run serve w hist) i
      rw [Run.run_append, latest_concat]
      refine ⟨hm.trans ?_, hcm.trans ih.2⟩
      cases rftoplWord i with
      | none => exact ih.1
      | some word => rfl

/-! ## The bridge -/

/-- A standard RF packet that passes all checks of the decoder. -/
structure StandardRf (p : Ptr) (n : Nat) : Prop where
  five_le : 5 ≤ n
  le_eight : n ≤ 8
  type_eq : p 1 = 0x20
  house_check : p 2 ^^^ p 3 = 0xff
  /-- A CM15A produces `0xFB` for unit codes 9-16. -/
  func_check : p 4 ^^^ p 5 = 0xff ∨ p 4 ^^^ p 5 = 0xfb

/-- A standard packet is classified as one. -/
theorem StandardRf.classifyRf_eq {p : Ptr} {n : Nat} (h : StandardRf p n) :
    classifyRf p n = .standard := by
  have h5 := h.five_le
  have h8 := h.le_eight
  have hlen : ¬ (n < 5 ∨ n > 8) := by omega
  have hf : ¬ (p 4 ^^^ p 5 ≠ 0xff ∧ p 4 ^^^ p 5 ≠ 0xfb) := by
    rintro ⟨h1, h2⟩
    exact h.func_check.elim h1 h2
  simp only [classifyRf, hlen, h.type_eq, h.house_check, hf, if_true, if_false]
  rfl

/-- Whole buffers are handed to `x10_write` as they are. -/
theorem xmit_writes {bufs : List OutBuf} (h : ∀ b ∈ bufs, b.data.take b.len = b.data) (w : World) :
    (w.xmit bufs).writes = w.writes ++ bufs := by
  induction bufs generalizing w with
  | nil => simp [World.xmit]
  | cons b bufs ih =>
      have hb : (⟨b.data.take b.len, b.len⟩ : OutBuf) = b := by rw [h b List.mem_cons_self]
      have := ih (fun c hc => h c (List.mem_cons_of_mem b hc)) (w.x10Write b.data b.len).2
      simp only [World.xmit, List.foldl_cons] at this ⊢
      rw [this, World.x10Write_snd_writes, hb, List.append_assoc, List.singleton_append]

@[simp] theorem Ptr.length_bytes (p : Ptr) (n : Nat) : (p.bytes n).length = n := by simp [Ptr.bytes]

/-- What the repeater writes. -/
theorem repeatRF_writes (fd : Int) (p : Ptr) {n : Nat} (hn : 1 ≤ n) (w : World) :
    (repeatRF fd p n w).writes = w.writes ++ repeatBufs p n w := by
  rw [((Quiet.refl w).repeatRF fd p n).writes]
  refine xmit_writes (fun b hb => ?_) w
  unfold repeatBufs at hb
  split at hb
  · split at hb
    · obtain rfl := List.mem_singleton.mp hb
      exact List.take_of_length_le (by simp)
    · obtain rfl := List.mem_singleton.mp hb
      exact List.take_of_length_le (by simp; omega)
  · simp at hb

/-- The bridge command of an event is the transmission of its packets. -/
theorem bridgeCommand_quiet (d : Int → Ptr → Nat → World → World) (fd : Int) (house unit : Fin 16)
    (funcint : Fin 4) (w : World) :
    Quiet ((bridgePackets house unit funcint).foldl World.transmit w)
      (processcommandlineWith d fd (bridgeCommand (houseByte house)
        (bridgeUnit (bridgeUnitint unit funcint) funcint) funcint) w).2.2 := by
  obtain ⟨hhead, htail⟩ := plPackets_bridgeCommand house unit funcint
  obtain ⟨ws, hws⟩ := List.head?_eq_some_iff.mp hhead
  rw [hws, List.tail_cons] at htail
  rw [← htail]
  exact processcommandline_pl hws fd w

/-- The repeated buffers depend on the configuration only. -/
theorem repeatBufs_congr {w w' : World} (h : w'.config = w.config) (p : Ptr) (n : Nat) :
    repeatBufs p n w' = repeatBufs p n w := by
  have hr : w'.rfToRf16 = w.rfToRf16 := congrArg Config.rfToRf16 h
  have hc : w'.cm19a = w.cm19a := congrArg Config.cm19a h
  simp only [repeatBufs, hr, hc]

section
variable {k : RfPacket} {p : Ptr} {n : Nat} {w u : World} (h5 : 5 ≤ n) (h8 : n ≤ 8)
  (hu : Quiet (rfTrack k p (dupFilter p n w).2) u) (fd : Int)
include h5 h8 hu

/-- Tracking sends nothing, so a decoded packet leads to the packet of the
repeater. -/
theorem repeated_writes : (repeatRF fd p n u).writes = w.writes ++ repeatBufs p n w := by
  have htrack : Emits (fun _ => False) w u :=
    (emits_dupFilter p n w).trans ((emits_rfTrack _ _ _).trans (Emits.of_quiet hu))
  rw [repeatRF_writes fd p (by omega) u, htrack.fed.writes_eq, repeatBufs_congr htrack.config]

/-- The configuration stays until the packet is bridged. -/
theorem repeated_bridged (housechar : UInt8) :
    bridged housechar (repeatRF fd p n u) ↔ bridged housechar w := by
  have htrack : Emits (fun _ => False) w u :=
    (emits_dupFilter p n w).trans ((emits_rfTrack _ _ _).trans (Emits.of_quiet hu))
  have hrep := emits_repeatRF h5 h8 fd p u
  rw [bridged, bridged, hrep.cm19a, htrack.cm19a, hrep.rfToPl16, htrack.rfToPl16]

end

/-- The packets of a decoded event: those of the bridge where it is enabled. -/
theorem RfDecoded.writes_standard {fd : Int} {p : Ptr} {n : Nat} {w r : World}
    (h : RfDecoded (fun fd aLine w => (processcommandline fd aLine w).2.2) fd .standard p n w r)
    (h5 : 5 ≤ n) (h8 : n ≤ 8) {house unit : Fin 16} {f : Fin 4}
    (hevent : hufcDecode (p 2) (p 4) = (houseByte house, bridgeUnitint unit f, f.val)) :
    r.writes = w.writes ++ repeatBufs p n w ++
      (if bridged (houseByte house) w then bridgePackets house unit f else []).map
        PlcPacket.outBuf := by
  obtain ⟨u, hu, hr⟩ := h.quiet
  have hwrites := repeated_writes h5 h8 hu fd
  have hbridged := repeated_bridged h5 h8 hu fd (houseByte house)
  simp only [rfBridge, hevent] at hr
  rw [hr]
  by_cases hb : bridged (houseByte house) w
  · rw [if_pos (hbridged.mpr hb), if_pos hb, processcommandline,
      (bridgeCommand_quiet _ _ _ _ _ _).writes, foldl_transmit_writes]
    exact congrArg (· ++ _) hwrites
  · rw [if_neg (mt hbridged.mp hb), if_neg hb, hwrites, List.map_nil, List.append_nil]

/-- A standard packet that is no duplicate writes its repetition, then its bridged
packets. -/
theorem standardRf_writes {buf p : Ptr} {len n : Nat} (hskip : skipExtra buf len = (p, n))
    (hstd : StandardRf p n) (fd : Int) {w : World} (hdup : (dupFilter p n w).1 = false)
    {house unit : Fin 16} {f : Fin 4}
    (hevent : hufcDecode (p 2) (p 4) = (houseByte house, bridgeUnitint unit f, f.val)) :
    (cm15aDecodeRf fd buf len w).writes = w.writes ++ repeatBufs p n w ++
      (if bridged (houseByte house) w then bridgePackets house unit f else []).map
        PlcPacket.outBuf := by
  have hk := hstd.classifyRf_eq
  have hdec := rfDecoded_of_new hskip (by simp [hk]) fd hdup
  rw [hk] at hdec
  exact hdec.writes_standard hstd.five_le hstd.le_eight hevent

/-- The packets of an event carry its house, unit and function. -/
theorem bridgePackets_meaning (house unit : Fin 16) (f : Fin 4) :
    if f.val > 1 then
      ∃ hf, bridgePackets house unit f = [.dimbright hf 0x0e] ∧
        hfcDecode hf = (houseByte house, (f.val : Int) + 2)
    else
      ∃ hu hf, bridgePackets house unit f = [.houseunit hu, .housefunc hf] ∧
        hucDecode hu = (houseByte house, bridgeUnitint unit f) ∧
        hfcDecode hf = (houseByte house, (f.val : Int) + 2) := by
  obtain ⟨hhu, hhf⟩ := bridgePackets_decode house unit f
  have hf := val_gt_one f
  by_cases h1 : f > 1
  · rw [if_pos (hf.mpr h1)]
    exact ⟨_, by rw [bridgePackets, if_pos h1], hhf⟩
  · rw [if_neg (mt hf.mp h1)]
    refine ⟨_, _, by rw [bridgePackets, if_neg h1], ?_, hhf⟩
    rw [hhu, bridgeUnitint, if_neg h1]

/-- RF-to-PL bridging preserves meaning.  On a CM15A, in every state a run can
reach, a standard RF packet that is accepted and not a duplicate makes the
daemon send, after the packet of the RF repeater, exactly the packets that
carry its house, unit and function when the last `RFTOPL` command enables the
house, and none otherwise; the command in between never uses the RF decoder. -/
theorem bridge_preserves_meaning (w₀ : World) (hmask : w₀.rfToPl16 = 0xFFFF)
    (hcm : w₀.cm19a = false) (hist : List Input) (fd : Int) (buf p : Ptr) (len n : Nat)
    (hskip : skipExtra buf len = (p, n)) (hstd : StandardRf p n)
    (hdup : (dupFilter p n (Run.run serve w₀ hist)).1 = false)
    (housechar : UInt8) (unitint : Int) (funcint : Nat)
    (hevent : hufcDecode (p 2) (p 4) = (housechar, unitint, funcint)) :
    let w := Run.run serve w₀ hist
    ∃ ps : List PlcPacket,
      (cm15aDecodeRf fd buf len w).writes =
        w.writes ++ repeatBufs p n w ++ ps.map PlcPacket.outBuf ∧
      (enabledBy housechar (latest rftoplWord hist) →
        if funcint > 1 then
          ∃ hf, ps = [.dimbright hf 0x0e] ∧ hfcDecode hf = (housechar, (funcint : Int) + 2)
        else
          ∃ hu hf, ps = [.houseunit hu, .housefunc hf] ∧ hucDecode hu = (housechar, unitint) ∧
            hfcDecode hf = (housechar, (funcint : Int) + 2)) ∧
      (¬ enabledBy housechar (latest rftoplWord hist) → ps = []) ∧
      ∀ d fd v, processcommandlineWith d fd
          (bridgeCommand housechar (bridgeUnit unitint funcint) funcint) v =
        processcommandlineWith (fun _ _ _ w => w) fd
          (bridgeCommand housechar (bridgeUnit unitint funcint) funcint) v := by
  intro w
  obtain ⟨hrun, hcm15⟩ := run_serve_config hmask hcm hist
  obtain ⟨house, unit, f, hrange⟩ := hufcDecode_range (p 2) (p 4)
  obtain ⟨rfl, rfl, rfl⟩ : housechar = houseByte house ∧ unitint = bridgeUnitint unit f ∧
      funcint = f.val := by simpa using hevent.symm.trans hrange
  have hwrites := standardRf_writes hskip hstd fd hdup hevent
  have hbridged : bridged (houseByte house) w ↔
      enabledBy (houseByte house) (latest rftoplWord hist) := by
    rw [bridged, houseByte_sub]
    exact (and_iff_right hcm15).trans (hrun ▸ testBit_bridgeMask _ house)
  refine ⟨_, hwrites, fun he => ?_, fun hne => if_neg (mt hbridged.mp hne), fun d fd v => ?_⟩
  · rw [if_pos (hbridged.mpr he)]
    exact bridgePackets_meaning house unit f
  · obtain ⟨ws, hws⟩ := words_bridgeCommand (houseByte house) (bridgeUnit (bridgeUnitint unit f) f) f
    exact processcommandlineWith_pl_congr _ _ hws fd v

/-- A1 on, received by radio after `rftopl a`. -/
theorem bridge_a1_on :
    let w := Run.run serve (worldInit (stillSetup false)) [.line 5 (cstr "rftopl a")]
    let p := Ptr.ofList [0x5d, 0x20, 0x60, 0x9f, 0x00, 0xff]
    ∃ ps : List PlcPacket,
      (cm15aDecodeRf (-1) p 6 w).writes = w.writes ++ repeatBufs p 6 w ++ ps.map PlcPacket.outBuf ∧
      ∃ hu hf, ps = [.houseunit hu, .housefunc hf] ∧ hucDecode hu = (65, 1) ∧
        hfcDecode hf = (65, 2) := by
  obtain ⟨ps, hwrites, hon, -⟩ := bridge_preserves_meaning (worldInit (stillSetup false)) rfl rfl
    [.line 5 (cstr "rftopl a")] (-1) (Ptr.ofList [0x5d, 0x20, 0x60, 0x9f, 0x00, 0xff]) _ 6 6 rfl
    ⟨by decide, by decide, rfl, rfl, .inl rfl⟩ (by decide) 65 1 0 (by decide)
  exact ⟨ps, hwrites, hon (show enabledBy 65 (some (some (cstr "A"))) from .inr (by decide))⟩

end Mochad
