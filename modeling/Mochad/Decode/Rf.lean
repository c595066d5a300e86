import Mochad.Decode.Plc

/-!
# Mochad.Decode.Rf

`cm15a_decode_rf`: packets received by radio, and RF packets about to be sent,
which are decoded first so that they are shown and tracked.

The decoder bridges standard packets to the power line by printing a `PL`
command and calling `processcommandline`, which itself calls the decoder for
RF commands.  Here the decoder takes the command parser as an argument;
`Mochad.Encode.Command` ties the knot.
-/

namespace Mochad

open CString
open World (idx16)

/-! ## The duplicate filter -/

/-- `dup_filter`: 1 when a live entry holds the packet.  Otherwise the packet is
entered: an expired entry of its own is refreshed, else the first unused entry
or the one closest to expiring is overwritten. -/
def dupFilter (buf : Ptr) (len : Int) (w : World) : Bool × World :=
  let key := buf.bytes len.toNat
  let (timems, w) := w.getTimems
  match dupScan timems key len 0 none 0 w.dups with
  | .live dups => (true, { w with dups := dups })
  | .expired i dups =>
      let (now, w) := w.getTimems
      let refresh (p : DupEntry) := { p with timems := (now + dupTime) % 2 ^ 64 }
      (false, { w with dups := dups.modify i refresh })
  | .absent firstunused inuse dups =>
      if len = -1 then (decide (inuse ≠ 0), { w with dups := dups })
      else
        let addIndex := firstunused.getD (evictIndex dups)
        let (now, w) := w.getTimems
        (false, { w with dups := dups.modify addIndex fun p => p.fill now key len })

/-- The filter reads the clock and changes its table. -/
theorem dupFilter_eq (buf : Ptr) (len : Int) (w : World) : ∃ clock dups,
    (dupFilter buf len w).2 = { w with clock := clock, dups := dups } := by
  unfold dupFilter
  dsimp only
  split
  · exact ⟨_, _, rfl⟩
  · exact ⟨_, _, rfl⟩
  · split <;> exact ⟨_, _, rfl⟩

/-- A suppressed packet is held by a live entry. -/
theorem dupFilter_live {buf : Ptr} {len : Nat} {w : World} (h : (dupFilter buf len w).1 = true) :
    ∃ p ∈ w.dups, p.Live (w.clock 0) (buf.bytes len) len := by
  unfold dupFilter at h
  dsimp only [World.getTimems_fst, Int.toNat_natCast] at h
  split at h
  · exact dupScan_live ‹_›
  · cases h
  · have hlen : (len : Int) ≠ -1 := by omega
    simp only [hlen, if_false] at h
    cases h

/-- An element of a modified list is old, or the modified one. -/
theorem mem_modify {α : Type} {q : α} {xs : List α} {i : Nat} {f : α → α} (h : q ∈ xs.modify i f) :
    q ∈ xs ∨ ∃ p, xs[i]? = some p ∧ q = f p := by
  obtain ⟨j, hj⟩ := List.mem_iff_getElem?.mp h
  rw [List.getElem?_modify] at hj
  by_cases hij : i = j
  · subst hij
    obtain ⟨p, hp, rfl⟩ := Option.map_eq_some_iff.mp hj
    exact .inr ⟨p, hp, by simp⟩
  · simp only [hij, if_false, id_map'] at hj
    exact .inl (List.mem_of_getElem? hj)

/-- Every entry in use was in the table before, or holds the packet that was
let through. -/
theorem mem_dupFilter_dups {buf : Ptr} {len : Nat} {w : World} {q : DupEntry}
    (h : q ∈ (dupFilter buf len w).2.dups) :
    q.rfCmdLen = 0 ∨ q ∈ w.dups ∨ (dupFilter buf len w).1 = false ∧ q.holds (buf.bytes len) len ∧
      q.timems = (w.clock 1 + dupTime) % 2 ^ 64 := by
  have hlen : (len : Int) ≠ -1 := by omega
  have hentries : ∀ q ∈ (dupScan (w.clock 0) (buf.bytes len) len 0 none 0 w.dups).dups,
      q.rfCmdLen = 0 ∨ q ∈ w.dups := fun q => mem_dupScan_dups
  have hfill : ∀ (p : DupEntry) (timems : Nat), (p.fill timems (buf.bytes len) len).holds
      (buf.bytes len) len := fun p timems => by
    have := p.fill_holds timems (buf.bytes len)
    rwa [show (buf.bytes len).length = len by simp [Ptr.bytes]] at this
  simp only [dupFilter, World.getTimems, Int.toNat_natCast, zero_add] at h ⊢
  cases hscan : dupScan (w.clock 0) (buf.bytes len) len 0 none 0 w.dups with
  | live dups =>
      simp only [hscan] at h hentries
      exact (hentries q h).imp_right .inl
  | expired i dups =>
      simp only [hscan] at h hentries ⊢
      obtain ⟨k, p, hk, hp, hholds⟩ := dupScan_expired hscan
      have hrefresh : ∀ timems, ({ p with timems := timems } : DupEntry).holds (buf.bytes len) len :=
        fun _ => hholds
      rw [zero_add] at hk
      subst hk
      obtain h | ⟨p', hp', rfl⟩ := mem_modify h
      · exact (hentries q h).imp_right .inl
      · obtain rfl := Option.some.inj (hp.symm.trans hp')
        exact .inr (.inr ⟨trivial, hrefresh _, rfl⟩)
  | absent firstunused inuse dups =>
      simp only [hscan, hlen, if_false] at h hentries ⊢
      obtain h | ⟨p, -, rfl⟩ := mem_modify h
      · exact (hentries q h).imp_right .inl
      · exact .inr (.inr ⟨trivial, hfill p _, rfl⟩)

/-! ## Packet families -/

/-- `findCamRemoteName`: house character and key name of a camera packet. -/
def findCamRemoteName (camcommand : Ptr) (commandlen : Nat) (w : World) : Option Text × World :=
  if commandlen < 4 ∨ camcommand 0 ≠ 0x14 then (none, w)
  else
    let checksum : Int := (camcommand 1).toNat
    let keycode : Int := (camcommand 2).toNat
    let housecode := (camcommand 3 >>> 4) &&& 0x0f
    let mychecksum := ((housecode.toNat : Int) * 16 + (keycode - 0x2B)) % 256
    if checksum ≠ mychecksum then (none, w)
    else
      let keyindex := keycode - 0x54
      if keyindex < 0 ∨ rfcamKeyCodes.length ≤ keyindex.toNat then (none, w)
      else
        let w := w.access .rfcamKeyCodes keyindex
        match rfcamKeyCodes.getD keyindex.toNat none with
        | none => (none, w)
        | some name =>
            let w := w.access .houseUnitTableRF housecode.toNat
            (some ([houseUnitTableRF.getD housecode.toNat 0] ++ cstr " " ++ cstr name), w)

/-- Outcome of `secaf_decode`: address bytes and function, or its error code. -/
inductive SecafResult where
  | ok (a0 a1 a2 funcint : UInt8)
  | invalidChecksum
  | invalidParity
deriving DecidableEq, Repr

/-- `secaf_decode`. -/
def secafDecode (buf : Ptr) (len : Nat) : SecafResult :=
  if len < 8 then .invalidChecksum
  else if buf 2 ^^^ buf 3 ≠ 0x0f ∨ buf 4 ^^^ buf 5 ≠ 0xff then .invalidChecksum
  else if paritytable.getD (buf 6 ^^^ buf 7).toNat 0 ≠ 0 then .invalidParity
  else .ok (buf 2) (buf 6) (buf 7) (buf 4)

/-- `repeatRF`: send a received RF packet back with the transmit code in front. -/
def repeatRF (fd : Int) (buf : Ptr) (len : Nat) (w : World) : World :=
  if w.rfToRf16 ≠ 0 then
    let w := w.sockprintf fd (cstr "RfToRf repeat\n")
    if w.cm19a then (w.x10Write ((buf.add 1).bytes (len - 1)) (len - 1)).2
    else (w.x10Write (0xEB :: (buf.add 1).bytes (len - 1)) len).2
  else w

/-! ## The decoder -/

/-- The loop that skips extra `5D` bytes in front of a packet. -/
def skipExtra : Ptr → Nat → Ptr × Nat
  | buf, 0 => (buf, 0)
  | buf, len + 1 => if buf 1 = 0x5D then skipExtra (buf.add 1) len else (buf, len + 1)

/-- `RfToPl16 & (1 << (housechar - 'A'))`, on a CM15A. -/
def bridged (housechar : UInt8) (w : World) : Prop :=
  w.cm19a = false ∧ w.rfToPl16.testBit (housechar.toNat - 65) = true

instance (housechar : UInt8) (w : World) : Decidable (bridged housechar w) :=
  inferInstanceAs (Decidable (_ ∧ _))

/-- The `PL` command printed for the bridge. -/
def bridgeCommand (housechar : UInt8) (unit : Text) (funcint : Nat) : Text :=
  cstr "PL " ++ [housechar] ++ unit ++ cstr " " ++ funcnameAt (funcint + 2)

section
variable (processcommandline : Int → Text → World → World)

/-- A standard RF packet with valid check bytes. -/
def rfStandard (fd : Int) (buf : Ptr) (len : Nat) (w : World) : World :=
  let (dup, w) := dupFilter buf len w
  if dup then w
  else
    let w := w.access .houseUnitTableRF ((buf 2 &&& 0xf0) >>> 4).toNat
    let (housechar, unitint, funcint) := hufcDecode (buf 2) (buf 4)
    if funcint > 1 then -- dim or bright
      let w := w.access .funcname (funcint + 2)
      let w := w.sockprintf fd (rxTx (buf 0) 0x5d ++ cstr "x RF House: " ++ [housechar] ++
        cstr " Func: " ++ funcnameAt (funcint + 2) ++ cstr "\n")
      let w := repeatRF fd buf len w
      if bridged housechar w then
        processcommandline fd (bridgeCommand housechar [] funcint) (w.access .funcname (funcint + 2))
      else w
    else -- on or off
      let w := w.huaAdd (housechar.toNat - 65) (unitint - 1)
      let w := w.huaFunc (if funcint ≠ 0 then huaFuncOff else huaFuncOn) (housechar.toNat - 65)
      let w := w.access .funcname (funcint + 2)
      let w := w.sockprintf fd (rxTx (buf 0) 0x5d ++ cstr "x RF HouseUnit: " ++ [housechar] ++
        dec unitint ++ cstr " Func: " ++ funcnameAt (funcint + 2) ++ cstr "\n")
      let w := repeatRF fd buf len w
      if bridged housechar w then
        processcommandline fd (bridgeCommand housechar (dec unitint) funcint)
          (w.access .funcname (funcint + 2))
      else w

/-- A security packet with an 8-bit address and valid check bytes. -/
def rfSecurity8 (fd : Int) (buf : Ptr) (len : Nat) (w : World) : World :=
  let (dup, w) := dupFilter buf len w
  if dup then w
  else
    let w := w.huaSecEvent (secaddr32 0 0 (buf 2)) (buf 4) 1
    let w := w.sockprintf fd (rxTx (buf 0) 0x5d ++ cstr "x RFSEC Addr: 0x" ++
      hexPad 2 (buf 2).toNat ++ cstr " Func: " ++
      strArg ((findSecRemoteKeyName (buf 4)).map cstr) ++ cstr "\n")
    repeatRF fd buf len w

/-- A security packet with a long address and valid check bytes. -/
def rfSecurityLong (fd : Int) (buf : Ptr) (len : Nat) (a0 a1 a2 funcint : UInt8) (w : World) :
    World :=
  let (dup, w) := dupFilter buf len w
  if dup then w
  else
    let w := w.huaSecEvent (secaddr32 a0 a1 a2) funcint 0
    let w := w.sockprintf fd (rxTx (buf 0) 0x5d ++ cstr "x RFSEC Addr: " ++ hexPad 2 a0.toNat ++
      cstr ":" ++ hexPad 2 a1.toNat ++ cstr ":" ++ hexPad 2 a2.toNat ++ cstr " Func: " ++
      strArg ((findSecEventName funcint).map cstr) ++ cstr "\n")
    repeatRF fd buf len w

/-- A camera packet; `commandp` is its decoded text. -/
def rfCamera (fd : Int) (buf : Ptr) (len : Nat) (commandp : Text) (w : World) : World :=
  let (dup, w) := dupFilter buf len w
  if dup then w
  else
    let w := w.sockprintf fd (rxTx (buf 0) 0x5d ++ cstr "x RFCAM " ++ commandp ++ cstr "\n")
    repeatRF fd buf len w

/-- `cm15a_decode_rf`, given the command parser. -/
def cm15aDecodeRfWith (fd : Int) (buf : Ptr) (len : Nat) (w : World) : World :=
  let (buf, len) := skipExtra buf len
  if len < 5 then
    (w.sockprintf fd (cstr "too short " ++ dec len ++ cstr "\n")).sockhexdump fd buf len
  else if len > 8 then
    (w.sockprintf fd (cstr "too long " ++ dec len ++ cstr "\n")).sockhexdump fd buf len
  else if buf 1 = 0x14 then -- X10 RF camera
    match findCamRemoteName (buf.add 1) (len - 1) w with
    | (some commandp, w) => rfCamera fd buf len commandp w
    | (none, w) =>
        (w.sockprintf fd (cstr "Unknown RF camera command\n")).sockhexdump fd buf len
  else if buf 1 = 0x20 then -- standard X10 RF
    let chksum := buf 2 ^^^ buf 3
    if chksum = 0x0f then
      if buf 4 ^^^ buf 5 ≠ 0xff then
        (w.sockprintf fd (cstr "Invalid checksum\n")).sockhexdump fd buf len
      else rfSecurity8 fd buf len w
    else if chksum = 0xff then
      -- CM15A for unit codes 9-16 ON/OFF produces 0xFB checksum
      if buf 4 ^^^ buf 5 ≠ 0xff ∧ buf 4 ^^^ buf 5 ≠ 0xfb then
        (w.sockprintf fd (cstr "Invalid checksum\n")).sockhexdump fd buf len
      else rfStandard processcommandline fd buf len w
    else
      (w.sockprintf fd (cstr "Invalid checksum 0x" ++ hexPad 2 chksum.toNat ++ cstr "\n")).sockhexdump
        fd buf len
  else if buf 1 = 0x29 then -- security X10 RF
    match secafDecode buf len with
    | .ok a0 a1 a2 funcint => rfSecurityLong fd buf len a0 a1 a2 funcint w
    | .invalidChecksum => w.sockprintf fd (cstr "Invalid checksum\n")
    | .invalidParity => w.sockprintf fd (cstr "Invalid parity\n")
  else
    (w.sockprintf fd (cstr "Not supported " ++ hexPad 2 (buf 1).toNat ++ cstr "\n")).sockhexdump
      fd buf len

end

end Mochad
