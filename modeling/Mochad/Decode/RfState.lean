import Mochad.Decode.Rf
import Mochad.Decode.PlcState

/-!
# Mochad.Decode.RfState

What an RF packet does, apart from output.  `classifyRf` sorts packets into the
families the decoder tells apart; a packet that is not rejected first meets the
duplicate filter, and if it passes is tracked (`rfTrack`), repeated and, for
standard packets, bridged.  `cm15aDecodeRf_cases` says so in one statement, and
the proofs about RF packets start from it.
-/

namespace Mochad

open CString

/-! ## Families -/

/-- The families of RF packets. -/
inductive RfPacket where
  | rejected
  | camera (commandp : Text)
  | security8
  | standard
  | securityLong (a0 a1 a2 funcint : UInt8)
deriving DecidableEq, Repr

/-- The text of a camera packet, or `none` when it is not known. -/
def camRemoteText (camcommand : Ptr) (commandlen : Nat) : Option Text :=
  if commandlen < 4 ∨ camcommand 0 ≠ 0x14 then none
  else
    let housecode := (camcommand 3 >>> 4) &&& 0x0f
    let keyindex := ((camcommand 2).toNat : Int) - 0x54
    if ((camcommand 1).toNat : Int) ≠
        ((housecode.toNat : Int) * 16 + (((camcommand 2).toNat : Int) - 0x2B)) % 256 then none
    else if keyindex < 0 ∨ rfcamKeyCodes.length ≤ keyindex.toNat then none
    else (rfcamKeyCodes.getD keyindex.toNat none).map fun name =>
      [houseUnitTableRF.getD housecode.toNat 0] ++ cstr " " ++ cstr name

/-- The family of a packet, extra `5D` bytes skipped. -/
def classifyRf (buf : Ptr) (len : Nat) : RfPacket :=
  if len < 5 ∨ len > 8 then .rejected
  else if buf 1 = 0x14 then
    match camRemoteText (buf.add 1) (len - 1) with
    | some commandp => .camera commandp
    | none => .rejected
  else if buf 1 = 0x20 then
    if buf 2 ^^^ buf 3 = 0x0f then
      if buf 4 ^^^ buf 5 ≠ 0xff then .rejected else .security8
    else if buf 2 ^^^ buf 3 = 0xff then
      if buf 4 ^^^ buf 5 ≠ 0xff ∧ buf 4 ^^^ buf 5 ≠ 0xfb then .rejected else .standard
    else .rejected
  else if buf 1 = 0x29 then
    match secafDecode buf len with
    | .ok a0 a1 a2 funcint => .securityLong a0 a1 a2 funcint
    | .invalidChecksum => .rejected
    | .invalidParity => .rejected
  else .rejected

/-- A packet that is not rejected has five to eight bytes. -/
theorem classifyRf_length {buf : Ptr} {len : Nat} (h : classifyRf buf len ≠ .rejected) :
    5 ≤ len ∧ len ≤ 8 := by
  by_contra hlen
  have : len < 5 ∨ len > 8 := by omega
  exact h (by simp [classifyRf, this])

/-! ## Effects -/

/-- The operations of a standard packet; dim and bright are not tracked. -/
def rfOps (houseunit unitfunc : UInt8) : List HuaOp :=
  let (housechar, unitint, funcint) := hufcDecode houseunit unitfunc
  let house := World.idx16 (housechar.toNat - 65)
  if funcint > 1 then []
  else [.add house (World.idx16 (unitint - 1)),
    if funcint ≠ 0 then .funcOff house else .funcOn house]

/-- Operations one after the other. -/
def applyOps (ops : List HuaOp) (s : X10state) : X10state := ops.foldl (fun s op => op.apply s) s

/-- Track an accepted packet; security events read the clock. -/
def rfTrack (k : RfPacket) (buf : Ptr) (w : World) : World :=
  match k with
  | .rejected => w
  | .camera _ => w
  | .security8 => w.huaSecEvent (secaddr32 0 0 (buf 2)) (buf 4) 1
  | .securityLong a0 a1 a2 funcint => w.huaSecEvent (secaddr32 a0 a1 a2) funcint 0
  | .standard => { w with state := applyOps (rfOps (buf 2) (buf 4)) w.state }

/-- Tracking changes the tracked state and reads the clock. -/
theorem rfTrack_eq (k : RfPacket) (buf : Ptr) (w : World) :
    ∃ clock state, rfTrack k buf w = { w with clock := clock, state := state } := by
  cases k with
  | rejected => exact ⟨_, _, rfl⟩
  | camera commandp => exact ⟨_, _, rfl⟩
  | security8 => exact ⟨_, _, World.huaSecEvent_eq _ _ _ w⟩
  | securityLong a0 a1 a2 funcint => exact ⟨_, _, World.huaSecEvent_eq _ _ _ w⟩
  | standard => exact ⟨_, _, rfl⟩

/-- The line shown for an accepted packet. -/
def rfShown (k : RfPacket) (buf : Ptr) : Text :=
  rxTx (buf 0) 0x5d ++
  match k with
  | .rejected => []
  | .camera commandp => cstr "x RFCAM " ++ commandp ++ cstr "\n"
  | .security8 =>
      cstr "x RFSEC Addr: 0x" ++ hexPad 2 (buf 2).toNat ++ cstr " Func: " ++
        strArg ((findSecRemoteKeyName (buf 4)).map cstr) ++ cstr "\n"
  | .securityLong a0 a1 a2 funcint =>
      cstr "x RFSEC Addr: " ++ hexPad 2 a0.toNat ++ cstr ":" ++ hexPad 2 a1.toNat ++ cstr ":" ++
        hexPad 2 a2.toNat ++ cstr " Func: " ++ strArg ((findSecEventName funcint).map cstr) ++
        cstr "\n"
  | .standard =>
      let (housechar, unitint, funcint) := hufcDecode (buf 2) (buf 4)
      (if funcint > 1 then cstr "x RF House: " ++ [housechar]
        else cstr "x RF HouseUnit: " ++ [housechar] ++ dec unitint) ++
        cstr " Func: " ++ funcnameAt (funcint + 2) ++ cstr "\n"

/-- The text of the unit in a bridge command. -/
def bridgeUnit (unitint : Int) (funcint : Nat) : Text := if funcint > 1 then [] else dec unitint

/-- Bridge an accepted packet to the power line. -/
def rfBridge (processcommandline : Int → Text → World → World) (fd : Int) (k : RfPacket) (buf : Ptr)
    (w : World) : World :=
  match k with
  | .standard =>
      let (housechar, unitint, funcint) := hufcDecode (buf 2) (buf 4)
      if bridged housechar w then
        processcommandline fd (bridgeCommand housechar (bridgeUnit unitint funcint) funcint)
          (w.access .funcname (funcint + 2))
      else w
  | _ => w

/-- Calls of `x10_write`, in order. -/
def World.xmit (w : World) (bufs : List OutBuf) : World :=
  bufs.foldl (fun w b => (w.x10Write b.data b.len).2) w

/-- The packet sent by the repeater. -/
def repeatBufs (buf : Ptr) (len : Nat) (w : World) : List OutBuf :=
  if w.rfToRf16 ≠ 0 then
    if w.cm19a then [⟨(buf.add 1).bytes (len - 1), len - 1⟩]
    else [⟨0xEB :: (buf.add 1).bytes (len - 1), len⟩]
  else []

/-! ## Frames -/

namespace Quiet

variable {a b : World} (h : Quiet a b)
include h

/-- The filter decides the same after a quiet step. -/
theorem dupFilter (buf : Ptr) (len : Int) :
    (dupFilter buf len b).1 = (dupFilter buf len a).1 ∧
      Quiet (dupFilter buf len a).2 (dupFilter buf len b).2 := by
  obtain ⟨io, acc, rfl⟩ := h
  simp only [Mochad.dupFilter, World.getTimems]
  cases dupScan (a.clock 0) (buf.bytes len.toNat) len 0 none 0 a.dups with
  | live dups => exact ⟨rfl, io, acc, rfl⟩
  | expired i dups => exact ⟨rfl, io, acc, rfl⟩
  | absent firstunused inuse dups =>
      by_cases hl : len = -1
      · simp only [hl, if_true]
        exact ⟨trivial, io, acc, rfl⟩
      · simp only [hl, if_false]
        exact ⟨trivial, io, acc, rfl⟩

theorem repeatRF (fd : Int) (buf : Ptr) (len : Nat) :
    Quiet (a.xmit (repeatBufs buf len a)) (repeatRF fd buf len b) := by
  unfold Mochad.repeatRF repeatBufs
  simp only [h.rfToRf16, h.cm19a, World.sockprintf_cm19a]
  by_cases hr : a.rfToRf16 = 0
  · simp only [hr, ne_eq, not_true_eq_false, if_false]
    exact h
  by_cases hc : a.cm19a = true
  · simp only [hr, hc, ne_eq, not_false_eq_true, if_true]
    exact (h.sockprintf fd _).x10Write _ _
  · simp only [hr, hc, ne_eq, not_false_eq_true, if_true]
    exact (h.sockprintf fd _).x10Write _ _

end Quiet

/-! ## The decoder -/

/-- Indices used on fixed arrays. -/
def World.accessAll (acc : List Access) (w : World) : World :=
  { w with accesses := w.accesses ++ acc }

/-- A packet is decoded: it is tracked, shown, repeated and bridged, in that
order. -/
def RfDecoded (parse : Int → Text → World → World) (fd : Int) (k : RfPacket) (buf : Ptr) (len : Nat)
    (w r : World) : Prop :=
  ∃ acc, r = rfBridge parse fd k buf (repeatRF fd buf len
    (((rfTrack k buf (dupFilter buf len w).2).accessAll acc).sockprintf fd (rfShown k buf)))

/-- Between the filter and the repeater, decoding only tells and tracks. -/
theorem RfDecoded.quiet {parse : Int → Text → World → World} {fd : Int} {k : RfPacket} {buf : Ptr}
    {len : Nat} {w r : World} (h : RfDecoded parse fd k buf len w r) :
    ∃ u, Quiet (rfTrack k buf (dupFilter buf len w).2) u ∧
      r = rfBridge parse fd k buf (repeatRF fd buf len u) := by
  obtain ⟨acc, hr⟩ := h
  refine ⟨_, Quiet.sockprintf ?_ fd _, hr⟩
  exact ⟨[], acc, by simp [World.accessAll]⟩

/-- What becomes of a packet that is not rejected: a duplicate goes no further,
another packet is decoded. -/
def RfAccepted (parse : Int → Text → World → World) (fd : Int) (k : RfPacket) (buf : Ptr) (len : Nat)
    (w r : World) : Prop :=
  ((dupFilter buf len w).1 = true ∧ Quiet (dupFilter buf len w).2 r) ∨
  ((dupFilter buf len w).1 = false ∧ RfDecoded parse fd k buf len w r)

/-- Each branch on the filter gives its half. -/
theorem rfAccepted_of_filter {parse : Int → Text → World → World} {fd : Int} {k : RfPacket}
    {buf : Ptr} {len : Nat} {w r : World}
    (hdup : (dupFilter buf len w).1 = true → r = (dupFilter buf len w).2)
    (hnew : (dupFilter buf len w).1 = false → RfDecoded parse fd k buf len w r) :
    RfAccepted parse fd k buf len w r := by
  cases hd : (dupFilter buf len w).1 with
  | true => exact .inl ⟨hd, by rw [hdup hd]; exact Quiet.refl _⟩
  | false => exact .inr ⟨hd, hnew hd⟩

@[simp] theorem World.accessAll_nil (w : World) : w.accessAll [] = w := by simp [World.accessAll]

/-- A security packet with an address of 8 bits. -/
theorem rfSecurity8_accepted (parse : Int → Text → World → World) (fd : Int) (buf : Ptr) (len : Nat)
    (w : World) : RfAccepted parse fd .security8 buf len w (rfSecurity8 fd buf len w) := by
  apply rfAccepted_of_filter
  · intro hd
    simp only [rfSecurity8, hd, if_true]
  · intro hd
    refine ⟨[], ?_⟩
    simp only [rfSecurity8, hd, if_false, Bool.false_eq_true, rfBridge, rfTrack, rfShown,
      World.accessAll_nil, List.append_assoc]

/-- A security packet with a long address. -/
theorem rfSecurityLong_accepted (parse : Int → Text → World → World) (fd : Int) (buf : Ptr)
    (len : Nat) (a0 a1 a2 funcint : UInt8) (w : World) :
    RfAccepted parse fd (.securityLong a0 a1 a2 funcint) buf len w
      (rfSecurityLong fd buf len a0 a1 a2 funcint w) := by
  apply rfAccepted_of_filter
  · intro hd
    simp only [rfSecurityLong, hd, if_true]
  · intro hd
    refine ⟨[], ?_⟩
    simp only [rfSecurityLong, hd, if_false, Bool.false_eq_true, rfBridge, rfTrack, rfShown,
      World.accessAll_nil, List.append_assoc]

theorem rfCamera_accepted (parse : Int → Text → World → World) (fd : Int) (buf : Ptr) (len : Nat)
    (commandp : Text) (w : World) :
    RfAccepted parse fd (.camera commandp) buf len w (rfCamera fd buf len commandp w) := by
  apply rfAccepted_of_filter
  · intro hd
    simp only [rfCamera, hd, if_true]
  · intro hd
    refine ⟨[], ?_⟩
    simp only [rfCamera, hd, if_false, Bool.false_eq_true, rfBridge, rfTrack, rfShown,
      World.accessAll_nil, List.append_assoc]

/-- The indices used for dim and bright. -/
theorem rfAccess_dim (v : World) (i j : Int) :
    (({ v with state := applyOps [] v.state } : World).accessAll
        [⟨.houseUnitTableRF, i⟩, ⟨.funcname, j⟩]) =
      (v.access .houseUnitTableRF i).access .funcname j := by
  simp [World.accessAll, World.access, applyOps]

/-- The indices used for on and off. -/
theorem rfAccess_onOff (v : World) (i house unit j : Int) (funcint : Nat) :
    (({ v with
          state := applyOps [.add (World.idx16 house) (World.idx16 unit),
            if funcint ≠ 0 then .funcOff (World.idx16 house) else .funcOn (World.idx16 house)]
            v.state } : World).accessAll
        [⟨.houseUnitTableRF, i⟩, ⟨.house, house⟩, ⟨.unit, unit⟩, ⟨.house, house⟩, ⟨.funcname, j⟩]) =
      ((((v.access .houseUnitTableRF i).huaAdd house unit).huaFunc
        (if funcint ≠ 0 then huaFuncOff else huaFuncOn) house).access .funcname j) := by
  by_cases h0 : funcint = 0 <;>
    simp [World.accessAll, World.access, applyOps, World.huaAdd, World.huaFunc, HuaOp.apply, h0]

/-- A packet for a house and unit. -/
theorem rfStandard_accepted (parse : Int → Text → World → World) (fd : Int) (buf : Ptr) (len : Nat)
    (w : World) : RfAccepted parse fd .standard buf len w (rfStandard parse fd buf len w) := by
  apply rfAccepted_of_filter
  · intro hd
    simp only [rfStandard, hd, if_true]
  · intro hd
    obtain ⟨housechar, unitint, funcint, hev⟩ : ∃ housechar unitint funcint,
        hufcDecode (buf 2) (buf 4) = (housechar, unitint, funcint) := ⟨_, _, _, rfl⟩
    simp only [rfStandard, hd, if_false, Bool.false_eq_true, RfDecoded, rfTrack, rfBridge, rfOps,
      bridgeUnit, rfShown, hev]
    by_cases hf : funcint > 1
    · refine ⟨[⟨.houseUnitTableRF, ((buf 2 &&& 0xf0) >>> 4).toNat⟩, ⟨.funcname, funcint + 2⟩], ?_⟩
      simp only [hf, if_true, List.append_assoc, rfAccess_dim]
    · refine ⟨[⟨.houseUnitTableRF, ((buf 2 &&& 0xf0) >>> 4).toNat⟩, ⟨.house, housechar.toNat - 65⟩,
        ⟨.unit, unitint - 1⟩, ⟨.house, housechar.toNat - 65⟩, ⟨.funcname, funcint + 2⟩], ?_⟩
      simp only [hf, if_false, List.append_assoc, rfAccess_onOff]

/-- A camera packet is looked up before it meets the filter. -/
theorem RfAccepted.of_access {parse : Int → Text → World → World} {fd : Int} {k : RfPacket}
    {buf : Ptr} {len : Nat} {w r : World} {acc : List Access}
    (h : RfAccepted parse fd k buf len (w.accessAll acc) r)
    (htrack : ∀ a : World, rfTrack k buf (a.accessAll acc) = (rfTrack k buf a).accessAll acc) :
    RfAccepted parse fd k buf len w r := by
  have hq : Quiet w (w.accessAll acc) := ⟨[], acc, by simp [World.accessAll]⟩
  have heq : (dupFilter buf len (w.accessAll acc)).2 = ((dupFilter buf len w).2).accessAll acc := by
    simp only [dupFilter, World.getTimems, World.accessAll]
    cases dupScan (w.clock 0) (buf.bytes (len : Int).toNat) len 0 none 0 w.dups with
    | live dups => rfl
    | expired i dups => rfl
    | absent firstunused inuse dups => split <;> rfl
  obtain ⟨hd, hr⟩ | ⟨hd, acc', hr⟩ := h
  · exact .inl ⟨(hq.dupFilter buf len).1 ▸ hd, (hq.dupFilter buf len).2.trans hr⟩
  · refine .inr ⟨(hq.dupFilter buf len).1 ▸ hd, acc ++ acc', ?_⟩
    rw [hr, heq, htrack]
    simp [World.accessAll]

/-- `findCamRemoteName` only looks up. -/
theorem findCamRemoteName_spec (camcommand : Ptr) (commandlen : Nat) (w : World) :
    ∃ acc, findCamRemoteName camcommand commandlen w =
      (camRemoteText camcommand commandlen, w.accessAll acc) := by
  unfold findCamRemoteName camRemoteText
  by_cases h1 : commandlen < 4 ∨ camcommand 0 ≠ 0x14
  · exact ⟨[], by simp [h1]⟩
  simp only [h1, if_false]
  split
  · exact ⟨[], by simp⟩
  split
  · exact ⟨[], by simp⟩
  · split
    · rename_i hnone
      exact ⟨[_], by rw [hnone]; rfl⟩
    · rename_i hsome
      refine ⟨[⟨.rfcamKeyCodes, ((camcommand 2).toNat : Int) - 0x54⟩,
        ⟨.houseUnitTableRF, ((camcommand 3 >>> 4) &&& 0x0f).toNat⟩], ?_⟩
      rw [hsome]
      simp [World.access, World.accessAll]

/-- A message about a packet that is not decoded. -/
theorem quiet_complaint (w : World) (fd : Int) (text : Text) (buf : Ptr) (len : Nat) :
    Quiet w ((w.sockprintf fd text).sockhexdump fd buf len) :=
  ((Quiet.refl w).sockprintf _ _).sockhexdump _ _ _

/-- The decoder in one step: an RF packet is rejected, or it is accepted. -/
theorem cm15aDecodeRf_cases (parse : Int → Text → World → World) (fd : Int) (buf : Ptr) (len : Nat)
    (w : World) :
    let p := skipExtra buf len
    let k := classifyRf p.1 p.2
    (k = .rejected ∧ Quiet w (cm15aDecodeRfWith parse fd buf len w)) ∨
    (k ≠ .rejected ∧ RfAccepted parse fd k p.1 p.2 w (cm15aDecodeRfWith parse fd buf len w)) := by
  unfold cm15aDecodeRfWith classifyRf
  obtain ⟨buf, len⟩ := skipExtra buf len
  dsimp only
  by_cases h5 : len < 5
  · simp only [h5, true_or, if_true]
    exact .inl ⟨trivial, quiet_complaint _ _ _ _ _⟩
  by_cases h8 : len > 8
  · simp only [h5, h8, or_true, if_true, if_false]
    exact .inl ⟨trivial, quiet_complaint _ _ _ _ _⟩
  simp only [h5, h8, or_self, if_false]
  by_cases k14 : buf 1 = 0x14
  · simp only [k14, if_true]
    obtain ⟨acc, hcam⟩ := findCamRemoteName_spec (buf.add 1) (len - 1) w
    have hq : Quiet w (w.accessAll acc) := ⟨[], acc, by simp [World.accessAll]⟩
    rw [hcam]
    cases camRemoteText (buf.add 1) (len - 1) with
    | none => exact .inl ⟨rfl, (hq.sockprintf _ _).sockhexdump _ _ _⟩
    | some commandp =>
        exact .inr ⟨by simp, (rfCamera_accepted parse fd buf len commandp _).of_access fun _ => rfl⟩
  simp only [k14, if_false]
  by_cases k20 : buf 1 = 0x20
  · simp only [k20, if_true]
    by_cases c0 : buf 2 ^^^ buf 3 = 0x0f
    · simp only [c0, if_true]
      by_cases c4 : buf 4 ^^^ buf 5 ≠ 0xff
      · simp only [c4, ne_eq, not_false_eq_true, if_true]
        exact .inl ⟨trivial, quiet_complaint _ _ _ _ _⟩
      · simp only [c4, if_false]
        exact .inr ⟨by simp, rfSecurity8_accepted parse fd buf len w⟩
    simp only [c0, if_false]
    by_cases cf : buf 2 ^^^ buf 3 = 0xff
    · simp only [cf, if_true]
      by_cases c4 : buf 4 ^^^ buf 5 ≠ 0xff ∧ buf 4 ^^^ buf 5 ≠ 0xfb
      · simp only [c4, ne_eq, not_false_eq_true, and_self, if_true]
        exact .inl ⟨trivial, quiet_complaint _ _ _ _ _⟩
      · simp only [c4, if_false]
        exact .inr ⟨by simp, rfStandard_accepted parse fd buf len w⟩
    · simp only [cf, if_false]
      exact .inl ⟨trivial, quiet_complaint _ _ _ _ _⟩
  simp only [k20, if_false]
  by_cases k29 : buf 1 = 0x29
  · simp only [k29, if_true]
    cases secafDecode buf len with
    | ok a0 a1 a2 funcint =>
        exact .inr ⟨by simp, rfSecurityLong_accepted parse fd buf len a0 a1 a2 funcint w⟩
    | invalidChecksum => exact .inl ⟨rfl, (Quiet.refl w).sockprintf _ _⟩
    | invalidParity => exact .inl ⟨rfl, (Quiet.refl w).sockprintf _ _⟩
  · simp only [k29, if_false]
    exact .inl ⟨trivial, quiet_complaint _ _ _ _ _⟩

end Mochad
