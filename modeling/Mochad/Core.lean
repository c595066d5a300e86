import Mochad.Broadcast

/-!
# Mochad.Core

What packets and commands work on: the daemon without its clients.  Nothing of it
depends on who is connected, on who has sent a command or on what the clients are
sent.

An `Observer` says what is looked at of the clients' side; two daemons that work
on the same and look the same to it (`Alike`) stay so, packet by packet and
command by command.
-/

namespace Mochad

open CString

/-! ## The daemon without its clients -/

/-- The daemon, but for its clients, their input and what is sent to them. -/
structure Core where
  cm19a : Bool
  rawData : Bool
  rfToPl16 : Nat
  rfToRf16 : Nat
  clock : Nat → Nat
  state : X10state
  fifo : Fifo
  dups : List DupEntry
  junk : Ptr
  writes : List OutBuf
  usb : List OutBuf

def World.core (w : World) : Core where
  cm19a := w.cm19a
  rawData := w.rawData
  rfToPl16 := w.rfToPl16
  rfToRf16 := w.rfToRf16
  clock := w.clock
  state := w.state
  fifo := w.fifo
  dups := w.dups
  junk := w.junk
  writes := w.writes
  usb := w.usb

/-- The clients, and what has been sent. -/
structure Outer where
  clients : Clients
  sockPort : Int → Option Nat
  io : List Io

def World.outer (w : World) : Outer := ⟨w.clients, w.sockPort, w.io⟩

/-- What is looked at of the clients' side: when two daemons look the same, and
which senders of a command count as the same. -/
structure Observer where
  same : Outer → Outer → Prop
  sender : Int → Int → Prop
  everybody : sender (-1) (-1)
  sockprintf : ∀ {w v : World} {fd fd'}, same w.outer v.outer → sender fd fd' → ∀ text,
    same (w.sockprintf fd text).outer (v.sockprintf fd' text).outer
  statusprintf : ∀ {w v : World} {fd fd'}, same w.outer v.outer → sender fd fd' → ∀ text,
    same (w.statusprintf fd text).outer (v.statusprintf fd' text).outer
  sendMessage : ∀ {w v : World}, same w.outer v.outer → ∀ text,
    same (w.sendMessage text).outer (v.sendMessage text).outer
  ackOr20 : ∀ {w v : World} {fd fd'}, same w.outer v.outer → sender fd fd' →
    same (Mochad.ackOr20 fd w).outer (Mochad.ackOr20 fd' v).outer

/-- Two daemons that work on the same, and look the same. -/
structure Alike (O : Observer) (w v : World) : Prop where
  core : w.core = v.core
  outer : O.same w.outer v.outer

namespace Alike

variable {O : Observer}

/-- Two worlds that differ in their outer parts alone are alike when the observer
cannot tell these apart. -/
theorem intro {w : World} {clients : Clients} {sockPort : Int → Option Nat} {io : List Io}
    {accesses : List Access} {remainder : List UInt8} {remlen : Nat} {lines : List (Int × Text)}
    (h : O.same w.outer ⟨clients, sockPort, io⟩) :
    Alike O w { w with
      clients := clients
      sockPort := sockPort
      io := io
      accesses := accesses
      remainder := remainder
      remlen := remlen
      lines := lines } := ⟨rfl, h⟩

section
variable {w v : World} (h : Alike O w v)
include h

/-- The other way round: the second world is the first with another outer part. -/
theorem eq : ∃ clients sockPort io accesses remainder remlen lines, O.same w.outer ⟨clients, sockPort, io⟩ ∧
    v = { w with
      clients := clients
      sockPort := sockPort
      io := io
      accesses := accesses
      remainder := remainder
      remlen := remlen
      lines := lines } := by
  obtain ⟨hcore, houter⟩ := h
  obtain ⟨⟩ := w
  obtain ⟨⟩ := v
  rw [World.core, World.core, Core.mk.injEq] at hcore
  obtain ⟨rfl, rfl, rfl, rfl, rfl, rfl, rfl, rfl, rfl, rfl, rfl⟩ := hcore
  exact ⟨_, _, _, _, _, _, _, houter, rfl⟩

/-- Alike worlds track the same devices and sensors. -/
theorem state : w.state = v.state := congrArg Core.state h.core

/-- They have the same controller. -/
theorem cm19a : w.cm19a = v.cm19a := congrArg Core.cm19a h.core

/-- They bridge the same houses. -/
theorem rfToPl16 : w.rfToPl16 = v.rfToPl16 := congrArg Core.rfToPl16 h.core

/-- They repeat or do not repeat alike. -/
theorem rfToRf16 : w.rfToRf16 = v.rfToRf16 := congrArg Core.rfToRf16 h.core

/-! ### Output -/

/-- Recording an access touches no core. -/
theorem access (x : CArray) (i : Int) : Alike O (w.access x i) (v.access x i) := ⟨h.core, h.outer⟩

/-- The same message is sent on both sides. -/
theorem sendMessage (text : Option Text) : Alike O (w.sendMessage text) (v.sendMessage text) :=
  ⟨h.core, O.sendMessage h.outer text⟩

section
variable {fd fd' : Int} (hfd : O.sender fd fd')
include hfd

/-- A reply may go to either of two descriptors that the observer does not tell apart. -/
theorem sockprintf (text : Text) : Alike O (w.sockprintf fd text) (v.sockprintf fd' text) :=
  ⟨h.core, O.sockprintf h.outer hfd text⟩

/-- So may a line of a report. -/
theorem statusprintf (text : Text) : Alike O (w.statusprintf fd text) (v.statusprintf fd' text) :=
  ⟨h.core, O.statusprintf h.outer hfd text⟩

omit hfd in
/-- The dump of a packet depends on the core alone. -/
theorem hexdumpText (p : Ptr) (len : Nat) : w.hexdumpText p len = v.hexdumpText p len := by
  have hjunk : w.junk = v.junk := congrArg Core.junk h.core
  rw [World.hexdumpText, World.hexdumpText, hjunk]

/-- The same dump goes to both descriptors. -/
theorem sockhexdump (p : Ptr) (len : Nat) : Alike O (w.sockhexdump fd p len) (v.sockhexdump fd' p len) := by
  rw [World.sockhexdump, World.sockhexdump, h.hexdumpText]
  exact h.sockprintf hfd _

/-- So does the dump under the heading of the raw data. -/
theorem mhSockhexdump (p : Ptr) (len : Nat) :
    Alike O (w.mhSockhexdump fd p len) (v.mhSockhexdump fd' p len) := by
  rw [World.mhSockhexdump, World.mhSockhexdump, h.hexdumpText]
  exact h.sockprintf hfd _

/-- An OpenRemote 2.0 client is acknowledged on both sides or on none. -/
theorem ackOr20 : Alike O (ackOr20 fd w) (Mochad.ackOr20 fd' v) := by
  have hack : ∀ (fd : Int) (u : World), (Mochad.ackOr20 fd u).core = u.core := by
    intro fd u
    unfold Mochad.ackOr20
    split <;> rfl
  exact ⟨(hack fd w).trans (h.core.trans (hack fd' v).symm), O.ackOr20 h.outer hfd⟩

end

/-! ### The controller and the tracked state -/

/-- The same bytes are queued on both sides. -/
theorem x10Write (buf : List UInt8) (buflen : Nat) :
    Alike O (w.x10Write buf buflen).2 (v.x10Write buf buflen).2 := by
  obtain ⟨clients, sockPort, io, accesses, remainder, remlen, lines, hsame, rfl⟩ := h.eq
  exact @intro O (w.x10Write buf buflen).2 _ _ _ _ _ _ _ hsame

/-- The same buffer leaves the queue. -/
theorem sendNextX10out : Alike O w.sendNextX10out v.sendNextX10out := by
  obtain ⟨clients, sockPort, io, accesses, remainder, remlen, lines, hsame, rfl⟩ := h.eq
  exact @intro O w.sendNextX10out _ _ _ _ _ _ _ hsame

/-- Alike worlds stay alike under the same update of the tracked state. -/
theorem setState (f : X10state → X10state) :
    Alike O { w with state := f w.state } { v with state := f v.state } := by
  obtain ⟨clients, sockPort, io, accesses, remainder, remlen, lines, hsame, rfl⟩ := h.eq
  exact @intro O { w with state := f w.state } _ _ _ _ _ _ _ hsame

/-- Under the same bridging mask. -/
theorem setRfToPl16 (mask : Nat) : Alike O { w with rfToPl16 := mask } { v with rfToPl16 := mask } := by
  obtain ⟨clients, sockPort, io, accesses, remainder, remlen, lines, hsame, rfl⟩ := h.eq
  exact @intro O { w with rfToPl16 := mask } _ _ _ _ _ _ _ hsame

/-- And under the same switch of the repeater. -/
theorem setRfToRf16 (flags : Nat) : Alike O { w with rfToRf16 := flags } { v with rfToRf16 := flags } := by
  obtain ⟨clients, sockPort, io, accesses, remainder, remlen, lines, hsame, rfl⟩ := h.eq
  exact @intro O { w with rfToRf16 := flags } _ _ _ _ _ _ _ hsame

/-- Alike worlds read the same time. -/
theorem time : w.time.1 = v.time.1 ∧ Alike O w.time.2 v.time.2 := by
  obtain ⟨clients, sockPort, io, accesses, remainder, remlen, lines, hsame, rfl⟩ := h.eq
  exact ⟨rfl, @intro O w.time.2 _ _ _ _ _ _ _ hsame⟩

/-- They select the same unit. -/
theorem huaAdd (house unit : Int) : Alike O (w.huaAdd house unit) (v.huaAdd house unit) := by
  obtain ⟨clients, sockPort, io, accesses, remainder, remlen, lines, hsame, rfl⟩ := h.eq
  exact @intro O (w.huaAdd house unit) _ _ _ _ _ _ _ hsame

/-- They set the same dim level. -/
theorem huaSetstatusXdim (house unit xdim : Int) :
    Alike O (w.huaSetstatusXdim house unit xdim) (v.huaSetstatusXdim house unit xdim) := by
  obtain ⟨clients, sockPort, io, accesses, remainder, remlen, lines, hsame, rfl⟩ := h.eq
  exact @intro O (w.huaSetstatusXdim house unit xdim) _ _ _ _ _ _ _ hsame

/-- They track the same function. -/
theorem huaFunc (f : Fin 16 → X10state → X10state) (house : Int) :
    Alike O (w.huaFunc f house) (v.huaFunc f house) := by
  obtain ⟨clients, sockPort, io, accesses, remainder, remlen, lines, hsame, rfl⟩ := h.eq
  exact @intro O (w.huaFunc f house) _ _ _ _ _ _ _ hsame

/-- They track the same security event. -/
theorem huaSecEvent (addr : Nat) (funct secaddr8 : UInt8) :
    Alike O (w.huaSecEvent addr funct secaddr8) (v.huaSecEvent addr funct secaddr8) := by
  obtain ⟨clients, sockPort, io, accesses, remainder, remlen, lines, hsame, rfl⟩ := h.eq
  rw [World.huaSecEvent_eq, World.huaSecEvent_eq]
  exact @intro O _ _ _ _ _ _ _ _ hsame

/-- They filter the same duplicates. -/
theorem dupFilter (buf : Ptr) (len : Int) : (dupFilter buf len w).1 = (dupFilter buf len v).1 ∧
    Alike O (Mochad.dupFilter buf len w).2 (Mochad.dupFilter buf len v).2 := by
  obtain ⟨clients, sockPort, io, accesses, remainder, remlen, lines, hsame, rfl⟩ := h.eq
  unfold Mochad.dupFilter World.getTimems
  dsimp only
  cases dupScan (w.clock 0) (buf.bytes len.toNat) len 0 none 0 w.dups with
  | live dups => exact ⟨rfl, @intro O { w with clock := _, dups := _ } _ _ _ _ _ _ _ hsame⟩
  | expired i dups => exact ⟨rfl, @intro O { w with clock := _, dups := _ } _ _ _ _ _ _ _ hsame⟩
  | absent firstunused inuse dups =>
      dsimp only
      split
      · exact ⟨rfl, @intro O { w with clock := _, dups := _ } _ _ _ _ _ _ _ hsame⟩
      · exact ⟨rfl, @intro O { w with clock := _, dups := _ } _ _ _ _ _ _ _ hsame⟩

end

/-- A loop keeps worlds alike if its body does. -/
theorem foldl {α : Type} {f g : World → α → World} (hstep : ∀ w v x, Alike O w v → Alike O (f w x) (g v x))
    (xs : List α) {w v : World} (h : Alike O w v) : Alike O (xs.foldl f w) (xs.foldl g v) := by
  induction xs generalizing w v with
  | nil => exact h
  | cons x xs ih => exact ih (hstep w v x h)

end Alike

/-! ## Packets -/

section
variable {O : Observer} {w v : World} (h : Alike O w v) {fd fd' : Int} (hfd : O.sender fd fd')
include h

/-- The function of a power line packet is tracked alike. -/
theorem alike_plcFunc (funcint house : Int) : Alike O (plcFunc funcint house w) (plcFunc funcint house v) := by
  unfold plcFunc
  split
  · exact h.huaFunc _ house
  split
  · exact h.huaFunc _ house
  split
  · exact h.huaFunc _ house
  split
  · exact h.huaFunc _ house
  · exact h

include hfd

/-- So is an extended code, whoever it is announced to. -/
theorem alike_plcExtended (b0 housefunc unit data command : UInt8) :
    Alike O (plcExtended fd b0 housefunc unit data command w)
      (plcExtended fd' b0 housefunc unit data command v) :=
  ((((h.access _ _).access _ _).access _ _).sockprintf hfd _).huaSetstatusXdim _ _ _

/-- The power line decoder keeps worlds alike. -/
theorem alike_decodePlc (buf : Ptr) (len : Nat) :
    Alike O (cm15aDecodePlc fd buf len w) (cm15aDecodePlc fd' buf len v) := by
  unfold cm15aDecodePlc
  split
  · exact h
  split
  · exact h
  split
  · split
    · exact h
    · exact (((h.access _ _).access _ _).huaAdd _ _).sockprintf hfd _
  split
  · split
    · exact h
    · exact ((alike_plcFunc (h.access _ _) _ _).access _ _).sockprintf hfd _
  split
  · split
    · exact h
    · exact ((h.access _ _).access _ _).sockprintf hfd _
  split
  · split
    · exact h
    · exact alike_plcExtended h hfd _ _ _ _ _
  split
  · split
    · exact h
    · exact alike_plcExtended h hfd _ _ _ _ _
  · exact h

omit hfd in
/-- The name of a camera key is the same on both sides. -/
theorem alike_findCamRemoteName (camcommand : Ptr) (commandlen : Nat) :
    (findCamRemoteName camcommand commandlen w).1 = (findCamRemoteName camcommand commandlen v).1 ∧
      Alike O (findCamRemoteName camcommand commandlen w).2 (findCamRemoteName camcommand commandlen v).2 := by
  unfold findCamRemoteName
  split
  · exact ⟨rfl, h⟩
  dsimp only
  split
  · exact ⟨rfl, h⟩
  split
  · exact ⟨rfl, h⟩
  split
  · exact ⟨rfl, h.access _ _⟩
  · exact ⟨rfl, (h.access _ _).access _ _⟩

/-- The repeater writes the same packets. -/
theorem alike_repeatRF (buf : Ptr) (len : Nat) : Alike O (repeatRF fd buf len w) (repeatRF fd' buf len v) := by
  have hprint := h.sockprintf hfd (cstr "RfToRf repeat\n")
  unfold repeatRF
  rw [h.rfToRf16]
  split
  · dsimp only
    rw [hprint.cm19a]
    split
    · exact hprint.x10Write _ _
    · exact hprint.x10Write _ _
  · exact h

/-- A complaint about a packet, with its bytes. -/
theorem alike_complaint (text : Text) (buf : Ptr) (len : Nat) :
    Alike O ((w.sockprintf fd text).sockhexdump fd buf len) ((v.sockprintf fd' text).sockhexdump fd' buf len) :=
  (h.sockprintf hfd text).sockhexdump hfd buf len

omit hfd in
/-- Behind the duplicate filter. -/
theorem alike_filtered (buf : Ptr) (len : Nat) {f g : World → World}
    (hstep : ∀ w v, Alike O w v → Alike O (f w) (g v)) :
    Alike O (match dupFilter buf len w with | (dup, w) => if dup then w else f w)
      (match dupFilter buf len v with | (dup, v) => if dup then v else g v) := by
  obtain ⟨hdup, hafter⟩ := h.dupFilter buf len
  generalize dupFilter buf len w = r at hdup hafter
  generalize dupFilter buf len v = r' at hdup hafter
  obtain ⟨dup, w⟩ := r
  obtain ⟨dup', v⟩ := r'
  obtain rfl : dup = dup' := hdup
  dsimp only
  split
  · exact hafter
  · exact hstep w v hafter

/-- A security packet with an address of 8 bits is announced and tracked alike. -/
theorem alike_rfSecurity8 (buf : Ptr) (len : Nat) :
    Alike O (rfSecurity8 fd buf len w) (rfSecurity8 fd' buf len v) :=
  alike_filtered h buf len fun _ _ h =>
    alike_repeatRF ((h.huaSecEvent _ _ _).sockprintf hfd _) hfd buf len

/-- So is one with a long address. -/
theorem alike_rfSecurityLong (buf : Ptr) (len : Nat) (a0 a1 a2 funcint : UInt8) :
    Alike O (rfSecurityLong fd buf len a0 a1 a2 funcint w) (rfSecurityLong fd' buf len a0 a1 a2 funcint v) :=
  alike_filtered h buf len fun _ _ h =>
    alike_repeatRF ((h.huaSecEvent _ _ _).sockprintf hfd _) hfd buf len

/-- So is a camera packet. -/
theorem alike_rfCamera (buf : Ptr) (len : Nat) (commandp : Text) :
    Alike O (rfCamera fd buf len commandp w) (rfCamera fd' buf len commandp v) :=
  alike_filtered h buf len fun _ _ h => alike_repeatRF (h.sockprintf hfd _) hfd buf len

/-- Parsers that do the same for alike worlds. -/
def AlikeParsers (O : Observer) (parse parse' : Int → Text → World → World) : Prop :=
  ∀ fd fd' aLine w v, O.sender fd fd' → Alike O w v → Alike O (parse fd aLine w) (parse' fd' aLine v)

variable {parse parse' : Int → Text → World → World} (hparse : AlikeParsers O parse parse')
include hparse

/-- The bridge runs the same line on both sides, or none. -/
theorem alike_bridge (housechar : UInt8) (aLine : Text) (i : Int) :
    Alike O (if bridged housechar w then parse fd aLine (w.access .funcname i) else w)
      (if bridged housechar v then parse' fd' aLine (v.access .funcname i) else v) := by
  have hbridged : bridged housechar w ↔ bridged housechar v := by rw [bridged, bridged, h.cm19a, h.rfToPl16]
  rw [if_congr hbridged rfl rfl]
  split
  · exact hparse _ _ _ _ _ hfd (h.access _ _)
  · exact h

/-- A standard packet is announced, repeated and bridged alike. -/
theorem alike_rfStandard (buf : Ptr) (len : Nat) :
    Alike O (rfStandard parse fd buf len w) (rfStandard parse' fd' buf len v) := by
  obtain ⟨hdup, hafter⟩ := h.dupFilter buf len
  unfold rfStandard
  generalize dupFilter buf len w = r at hdup hafter
  generalize dupFilter buf len v = r' at hdup hafter
  obtain ⟨dup, w⟩ := r
  obtain ⟨dup', v⟩ := r'
  obtain rfl : dup = dup' := hdup
  dsimp only
  split
  · exact hafter
  have hhouse := hafter.access .houseUnitTableRF ((buf 2 &&& 0xf0) >>> 4).toNat
  split
  · exact alike_bridge (alike_repeatRF ((hhouse.access _ _).sockprintf hfd _) hfd buf len) hfd hparse _ _ _
  · exact alike_bridge (alike_repeatRF ((((hhouse.huaAdd _ _).huaFunc _ _).access _ _).sockprintf hfd _)
      hfd buf len) hfd hparse _ _ _

/-- The RF decoder keeps worlds alike, if its parser does. -/
theorem alike_decodeRfWith (buf : Ptr) (len : Nat) :
    Alike O (cm15aDecodeRfWith parse fd buf len w) (cm15aDecodeRfWith parse' fd' buf len v) := by
  unfold cm15aDecodeRfWith
  obtain ⟨buf, len⟩ := skipExtra buf len
  dsimp only
  split
  · exact alike_complaint h hfd _ _ _
  split
  · exact alike_complaint h hfd _ _ _
  split
  · obtain ⟨hname, hafter⟩ := alike_findCamRemoteName h (buf.add 1) (len - 1)
    generalize findCamRemoteName (buf.add 1) (len - 1) w = r at hname hafter
    generalize findCamRemoteName (buf.add 1) (len - 1) v = r' at hname hafter
    obtain ⟨name, w⟩ := r
    obtain ⟨name', v⟩ := r'
    obtain rfl : name = name' := hname
    cases name with
    | none => exact alike_complaint hafter hfd _ _ _
    | some commandp => exact alike_rfCamera hafter hfd _ _ _
  split
  · split
    · split
      · exact alike_complaint h hfd _ _ _
      · exact alike_rfSecurity8 h hfd _ _
    split
    · split
      · exact alike_complaint h hfd _ _ _
      · exact alike_rfStandard h hfd hparse _ _
    · exact alike_complaint h hfd _ _ _
  split
  · split
    · exact alike_rfSecurityLong h hfd _ _ _ _ _ _
    · exact h.sockprintf hfd _
    · exact h.sockprintf hfd _
  · exact alike_complaint h hfd _ _ _

end

/-! ## Commands -/

/-- Two calls of `processcommandline` come to the same. -/
structure SameCommand (O : Observer) (r r' : Int × Strtok × World) : Prop where
  value : r.1 = r'.1
  buffer : r.2.1 = r'.2.1
  world : Alike O r.2.2 r'.2.2

section
variable {O : Observer} {w v : World} (h : Alike O w v)
include h

/-- A power line packet is decoded for every client and queued. -/
theorem alike_plTransmit (buf : Ptr) (len : Nat) (out : List UInt8) (outlen : Nat) :
    Alike O ((cm15aDecodePlc (-1) buf len w).x10Write out outlen).2
      ((cm15aDecodePlc (-1) buf len v).x10Write out outlen).2 :=
  (alike_decodePlc h O.everybody buf len).x10Write out outlen

/-- The packet that addresses a unit. -/
theorem alike_plTxHouseunit (house unit : Int) :
    Alike O (plTxHouseunit house unit w).2 (plTxHouseunit house unit v).2 :=
  alike_plTransmit ((h.access _ _).access _ _) _ _ _ _

/-- The packet of an extended code. -/
theorem alike_plTxExtendedCode1 (house unit command subcmd param : Int) :
    Alike O (plTxExtendedCode1 house unit command subcmd param w).2
      (plTxExtendedCode1 house unit command subcmd param v).2 :=
  alike_plTransmit ((h.access _ _).access _ _) _ _ _ _

/-- The packet of a function, in each of its three forms. -/
theorem alike_plTxHousefunc (house func param : Int) :
    Alike O (plTxHousefunc house func param w).2 (plTxHousefunc house func param v).2 := by
  unfold plTxHousefunc
  dsimp only
  split
  · exact alike_plTransmit (h.access _ _) _ _ _ _
  split
  · exact alike_plTransmit (h.access _ _) _ _ _ _
  · exact alike_plTransmit (h.access _ _) _ _ _ _

/-- `PL` for a unit returns the same on both sides and keeps them alike. -/
theorem sameCommand_plUnit (house unit : Int) (t : Strtok) :
    SameCommand O (plUnit house unit t w) (plUnit house unit t v) := by
  have hselect := alike_plTxHouseunit h house unit
  unfold plUnit
  dsimp only
  split
  · exact ⟨rfl, rfl, hselect⟩
  split
  · exact ⟨rfl, rfl, alike_plTxExtendedCode1 h house unit _ _ _⟩
  split
  · exact ⟨rfl, rfl, alike_plTxHousefunc hselect house _ _⟩
  split
  · exact ⟨rfl, rfl, alike_plTxExtendedCode1 h house unit _ _ _⟩
  · exact ⟨rfl, rfl, alike_plTxHousefunc hselect house _ _⟩

/-- So does `PL` for a house. -/
theorem sameCommand_plHouse (house : Int) (t : Strtok) :
    SameCommand O (plHouse house t w) (plHouse house t v) := by
  unfold plHouse
  dsimp only
  split
  · exact ⟨rfl, rfl, h⟩
  split
  · exact ⟨rfl, rfl, alike_plTxHousefunc h house _ _⟩
  · exact ⟨rfl, rfl, alike_plTxHousefunc h house _ _⟩

variable (t : Strtok) {fd fd' : Int} (hfd : O.sender fd fd')
include hfd


/-- `PL` does the same on both sides. -/
theorem sameCommand_plCommand : SameCommand O (plCommand fd t w) (plCommand fd' t v) := by
  have hack := h.ackOr20 hfd
  unfold plCommand
  dsimp only
  split
  · exact ⟨rfl, rfl, hack⟩
  split
  · exact sameCommand_plHouse hack _ _
  · exact sameCommand_plUnit hack _ _ _

/-- `PT` writes the same bytes. -/
theorem sameCommand_ptCommand : SameCommand O (ptCommand fd t w) (ptCommand fd' t v) := by
  have hack := h.ackOr20 hfd
  unfold ptCommand
  dsimp only
  split
  · exact ⟨rfl, rfl, hack.x10Write _ _⟩
  · exact ⟨rfl, rfl, hack⟩

/-- `GETSTATUSSEC` gives the same reply. -/
theorem sameCommand_getstatussecCommand :
    SameCommand O (getstatussecCommand fd t w) (getstatussecCommand fd' t v) := by
  unfold getstatussecCommand
  dsimp only
  rw [h.state]
  split
  · exact ⟨rfl, rfl, h⟩
  · exact ⟨rfl, rfl, h.statusprintf hfd _⟩

/-- So does `GETSTATUS`. -/
theorem sameCommand_getstatusCommand : SameCommand O (getstatusCommand fd t w) (getstatusCommand fd' t v) := by
  unfold getstatusCommand
  dsimp only
  split
  · split
    · split
      · have hindices := (h.access .house (getdeviceaddr t).1).access .unit (getdeviceaddr t).2.1
        rw [hindices.state]
        exact ⟨rfl, rfl, (hindices.statusprintf hfd _).sendMessage _⟩
      · exact ⟨rfl, rfl, (h.statusprintf hfd _).sendMessage _⟩
    · have hindices := (h.access .house (getdeviceaddr t).1).access .unit (getdeviceaddr t).2.1
      rw [hindices.state]
      exact ⟨rfl, rfl, (hindices.statusprintf hfd _).sendMessage _⟩
  · exact ⟨rfl, rfl, h⟩

/-- `RFTOPL` enables the same houses. -/
theorem sameCommand_rftoplCommand : SameCommand O (rftoplCommand fd t w) (rftoplCommand fd' t v) :=
  ⟨rfl, rfl, ((h.ackOr20 hfd).setRfToPl16 _).sockprintf hfd _⟩

/-- `RFTORF` switches the repeater alike. -/
theorem sameCommand_rftorfCommand : SameCommand O (rftorfCommand fd t w) (rftorfCommand fd' t v) := by
  have hack := h.ackOr20 hfd
  unfold rftorfCommand
  obtain ⟨_ | arg1, t'⟩ := nextWord t
  · refine ⟨rfl, rfl, ?_⟩
    dsimp only
    rw [hack.rfToRf16]
    exact hack.sockprintf hfd _
  · exact ⟨rfl, rfl, (hack.setRfToRf16 _).sockprintf hfd _⟩

/-- The report of `ST` is the same for both descriptors. -/
theorem alike_huaShow : Alike O (huaShow fd w) (huaShow fd' v) := by
  have hline : ∀ w v line, Alike O w v → Alike O (showLine fd w line) (showLine fd' v line) :=
    fun w v line h => (h.sockprintf hfd line).sendMessage _
  have hsensor : ∀ w v sen, Alike O w v → Alike O (showSensor fd w sen) (showSensor fd' v sen) := by
    intro w v sen h
    obtain ⟨hnow, hafter⟩ := h.time
    unfold showSensor
    generalize w.time = r at hnow hafter
    generalize v.time = r' at hnow hafter
    obtain ⟨now, w⟩ := r
    obtain ⟨now', v⟩ := r'
    obtain rfl : now = now' := hnow
    exact (hafter.sendMessage _).sockprintf hfd _
  have hselected := h.sockprintf hfd (cstr "Device selected\n")
  unfold huaShow
  extract_lets w₁ w₂ w₃ w₄ w₅ w₆ w₇ v₁ v₂ v₃ v₄ v₅ v₆ v₇
  have h₂ : Alike O w₂ v₂ := by
    simp only [w₂, v₂]
    rw [hselected.state]
    exact Alike.foldl hline _ hselected
  have h₃ : Alike O w₃ v₃ := h₂.sockprintf hfd _
  have h₄ : Alike O w₄ v₄ := by
    simp only [w₄, v₄]
    rw [h₃.state]
    exact Alike.foldl hline _ h₃
  have h₆ : Alike O w₆ v₆ := (h₄.sockprintf hfd _).setState sortSensors
  have h₇ : Alike O w₇ v₇ := by
    simp only [w₇, v₇]
    rw [h₆.state]
    exact Alike.foldl hsensor _ h₆
  exact h₇.sockprintf hfd _

/-- `ST` resets or reports alike. -/
theorem sameCommand_stCommand : SameCommand O (stCommand fd t w) (stCommand fd' t v) := by
  unfold stCommand
  dsimp only
  split
  · exact ⟨rfl, rfl, h.setState fun _ => huaSecInit⟩
  · exact ⟨rfl, rfl, alike_huaShow h hfd⟩

/-! ### Radio -/

/-- Decoders that do the same for alike worlds. -/
def AlikeDecoders (O : Observer) (d d' : Int → Ptr → Nat → World → World) : Prop :=
  ∀ fd fd' buf len w v, O.sender fd fd' → Alike O w v → Alike O (d fd buf len w) (d' fd' buf len v)

variable {d d' : Int → Ptr → Nat → World → World} (hd : AlikeDecoders O d d')
include hd

omit hfd in
/-- An RF packet is decoded like a received one and queued. -/
theorem alike_rfTransmit (buf : List UInt8) : Alike O (rfTransmit d buf w).2 (rfTransmit d' buf v).2 := by
  have hdec := hd (-1) (-1) (Ptr.ofList buf) buf.length w v O.everybody h
  unfold rfTransmit
  dsimp only
  rw [hdec.cm19a]
  split
  · exact hdec.x10Write _ _
  · exact hdec.x10Write _ _

omit hfd in
/-- A security packet is made alike. -/
theorem alike_rfsecTx (rf8bitaddr : Int) (rfaddr : Nat) (func : Int) :
    Alike O (rfsecTx d rf8bitaddr rfaddr func w).2 (rfsecTx d' rf8bitaddr rfaddr func v).2 := by
  unfold rfsecTx
  split
  · exact alike_rfTransmit h hd _
  · exact alike_rfTransmit h hd _

omit hfd in
/-- So is a packet for a house and unit. -/
theorem alike_rfTxHouseunitfunc (house unit func : Int) :
    Alike O (rfTxHouseunitfunc d house unit func w).2 (rfTxHouseunitfunc d' house unit func v).2 := by
  unfold rfTxHouseunitfunc
  split
  · exact h
  dsimp only
  split
  · exact h.access _ _
  · exact alike_rfTransmit (h.access _ _) hd _

/-- `RF` does the same on both sides, if the decoders do. -/
theorem sameCommand_rfCommand : SameCommand O (rfCommand d fd t w) (rfCommand d' fd' t v) := by
  have hack := h.ackOr20 hfd
  unfold rfCommand
  dsimp only
  split
  · exact ⟨rfl, rfl, hack⟩
  split
  · exact ⟨rfl, rfl, hack⟩
  · exact ⟨rfl, rfl, alike_rfTxHouseunitfunc hack hd _ _ _⟩

/-- So does `RFSEC`. -/
theorem sameCommand_rfsecCommand : SameCommand O (rfsecCommand d fd t w) (rfsecCommand d' fd' t v) := by
  have hack := h.ackOr20 hfd
  unfold rfsecCommand
  dsimp only
  split
  · exact ⟨rfl, rfl, hack⟩
  split
  · exact ⟨rfl, rfl, hack⟩
  · exact ⟨rfl, rfl, alike_rfsecTx hack hd _ _ _⟩

/-- So does `RFCAM`. -/
theorem sameCommand_rfcamCommand : SameCommand O (rfcamCommand d fd t w) (rfcamCommand d' fd' t v) := by
  have hack := h.ackOr20 hfd
  unfold rfcamCommand
  dsimp only
  split
  · exact ⟨rfl, rfl, hack⟩
  obtain ⟨_ | arg1, t'⟩ := nextWord (getdeviceaddr t).2.2
  · exact ⟨rfl, rfl, hack⟩
  dsimp only
  split
  · exact ⟨rfl, rfl, alike_rfTransmit (hack.access _ _) hd _⟩
  · exact ⟨rfl, rfl, hack.sockprintf hfd _⟩

/-- A command does the same whichever it is. -/
theorem sameCommand_runCommand (command : Text) :
    SameCommand O (runCommand d fd command t w) (runCommand d' fd' command t v) := by
  unfold runCommand
  split
  · exact sameCommand_plCommand h t hfd
  split
  · exact sameCommand_rfCommand h t hfd hd
  split
  · exact sameCommand_rfsecCommand h t hfd hd
  split
  · exact sameCommand_rfcamCommand h t hfd hd
  split
  · exact sameCommand_ptCommand h t hfd
  split
  · exact sameCommand_rftoplCommand h t hfd
  split
  · exact sameCommand_rftorfCommand h t hfd
  split
  · exact sameCommand_stCommand h t hfd
  split
  · exact sameCommand_getstatusCommand h t hfd
  split
  · exact sameCommand_getstatussecCommand h t hfd
  · exact ⟨rfl, rfl, h⟩

omit t in
/-- So a whole command line does the same on both sides. -/
theorem sameCommand_processcommandlineWith (aLine : Text) :
    SameCommand O (processcommandlineWith d fd aLine w) (processcommandlineWith d' fd' aLine v) := by
  unfold processcommandlineWith
  dsimp only
  split
  · exact ⟨rfl, rfl, h.statusprintf hfd _⟩
  obtain ⟨_ | command, t⟩ := nextWord (Strtok.start (strupper aLine))
  · exact ⟨rfl, rfl, h⟩
  · exact sameCommand_runCommand h t hfd hd command

end

/-- The decoder of the program keeps worlds alike for every observer. -/
theorem alike_decodeRf {O : Observer} : AlikeDecoders O cm15aDecodeRf cm15aDecodeRf := by
  intro fd fd' buf len w v hfd h
  have hskip : AlikeDecoders O (fun _ _ _ w => w) (fun _ _ _ w => w) := fun _ _ _ _ _ _ _ h => h
  exact alike_decodeRfWith h hfd
    (fun _ _ aLine _ _ hfd h => (sameCommand_processcommandlineWith h hfd hskip aLine).world) buf len

/-- A command does the same whoever sends it and whoever is connected. -/
theorem sameCommand_processcommandline {O : Observer} {w v : World} (h : Alike O w v) {fd fd' : Int}
    (hfd : O.sender fd fd') (aLine : Text) : SameCommand O (processcommandline fd aLine w) (processcommandline fd' aLine v) :=
  sameCommand_processcommandlineWith h hfd alike_decodeRf aLine

/-- And so does a packet. -/
theorem alike_decode {O : Observer} {w v : World} (h : Alike O w v) (buf : Ptr) (len : Nat) :
    Alike O (cm15aDecode (-1) buf len w) (cm15aDecode (-1) buf len v) := by
  have hjunk : w.junk = v.junk := congrArg Core.junk h.core
  have hraw : w.rawData = v.rawData := congrArg Core.rawData h.core
  unfold cm15aDecode
  dsimp only
  rw [h.cm19a, hjunk, hraw]
  split
  · exact h
  generalize (if v.cm19a then len + 1 else len) = n
  generalize (if v.cm19a = true then fun i => if i = 0 then 0x5d else if i ≤ len then buf (i - 1) else v.junk i
    else buf : Ptr) = p
  have hshown : Alike O (if v.rawData then w.mhSockhexdump (-1) p n else w)
      (if v.rawData then v.mhSockhexdump (-1) p n else v) := by
    split
    · exact h.mhSockhexdump O.everybody p n
    · exact h
  split
  · exact alike_decodePlc hshown O.everybody p n
  split
  · exact alike_decodeRf _ _ p n _ _ O.everybody hshown
  · exact hshown

end Mochad
