import Mochad.X10state
import Mochad.X10write
import Mochad.DupFilter
import Mathlib.Tactic.Simps.Basic

/-!
# Mochad.World

The state of the running daemon, and its effects on the outside.

`World` collects the variables of all source files: the globals of
`global.c`, the tracked state, the output FIFO, the duplicate table, the
pending input line, and the client tables of `mochad.c` with the descriptors
the operating system has open.  The clock is the stream of the readings still
to come.

The last five fields are a record of what happened, each in order: lines passed
to the command parser, socket output, calls of `x10_write`, calls of
`write_usb` and indices used on fixed arrays.
No function reads them.  The date and time `sockprintf` prints in front of a
line is left out of the recorded text, and the debug output to the terminal is
not recorded at all.
-/

namespace Mochad

open CString

/-! ## Data -/

/-- A C pointer to bytes: what is stored from the pointer on. -/
abbrev Ptr := Nat → UInt8

/-- `p + k`. -/
def Ptr.add (p : Ptr) (k : Nat) : Ptr := fun i => p (k + i)

/-- The first `n` bytes behind a pointer. -/
def Ptr.bytes (p : Ptr) (n : Nat) : List UInt8 := (List.range n).map p

@[simp] theorem Ptr.add_zero (p : Ptr) : p.add 0 = p := funext fun i => congrArg p (Nat.zero_add i)

theorem Ptr.add_add (p : Ptr) (j k : Nat) : (p.add j).add k = p.add (j + k) :=
  funext fun i => congrArg p (Nat.add_assoc j k i).symm

/-- The bytes from a pointer on, by the first. -/
theorem Ptr.bytes_succ (p : Ptr) (n : Nat) : p.bytes (n + 1) = p 0 :: (p.add 1).bytes n := by
  rw [Ptr.bytes, Ptr.bytes, List.range_succ_eq_map, List.map_cons, List.map_map]
  exact congrArg _ (List.map_congr_left fun i _ => congrArg p (Nat.add_comm i 1))

/-- A pointer to a local array. -/
def Ptr.ofList (bs : List UInt8) : Ptr := fun i => bs.getD i 0

/-- `MAXCLISOCKETS`. -/
def maxclisockets : Nat := 32

/-- `SERVER_PORT`. -/
def serverPort : Nat := 1099

/-- The client tables of `mochad.c`.  Of a `struct pollfd` only `fd` varies
(`events` is always `POLLIN`); -1 marks a free entry. -/
structure Clients where
  clientsocks : List Int
  clientxmlsocks : List Int
  clientor20socks : List Int
  nClients : Nat
  nxmlClients : Nat
  nor20Clients : Nat
deriving DecidableEq, Repr

/-- Socket and message output. -/
inductive Io where
  | send (fd : Int) (text : Text)
  /-- `sendMessage`; `none` is a null pointer. -/
  | sendMessage (messagebody : Option Text)
  | shutdown (fd : Int)
  | close (fd : Int)
deriving DecidableEq, Repr

/-- The fixed arrays that are indexed with computed values. -/
inductive CArray where
  | x10housecode
  | x10housecoderf
  | houseUnitTable
  | houseUnitTableRF
  | funcname
  | rfcamKeyCodes
  /-- First index of `HouseUnitState`, `HouseUnitSelected`, `HouseUnitDim` and
  index of `X10protostate`. -/
  | house
  /-- Second index of the house/unit arrays. -/
  | unit
  /-- The line buffer of `cm15a_encode`. -/
  | remainder
deriving DecidableEq, Repr

/-- One index used on a fixed array. -/
structure Access where
  array : CArray
  index : Int
deriving DecidableEq, Repr

/-- The whole state of the daemon. -/
structure World where
  /-- 1 = CM19A, 0 = CM15A. -/
  cm19a : Bool
  rawData : Bool
  /-- 1 bit per house code, 1 = RF to PL. -/
  rfToPl16 : Nat
  rfToRf16 : Nat
  /-- The readings of the system clock to come, in milliseconds. -/
  clock : Nat → Nat
  state : X10state
  fifo : Fifo
  dups : List DupEntry
  /-- Any leftover of the input, not seen `\n` yet. -/
  remainder : List UInt8
  remlen : Nat
  clients : Clients
  /-- The local port of each open socket descriptor. -/
  sockPort : Int → Option Nat
  /-- What an automatic buffer holds before it is written. -/
  junk : Ptr
  /-- The lines `cm15a_encode` passes to `processcommandline`, with the client. -/
  lines : List (Int × Text)
  io : List Io
  writes : List OutBuf
  usb : List OutBuf
  accesses : List Access

namespace World

/-! ## Recording -/

/-- Record socket output. -/
@[simps] def emit (e : Io) (w : World) : World := { w with io := w.io ++ [e] }

/-- Record the use of an index on a fixed array. -/
@[simps] def access (a : CArray) (i : Int) (w : World) : World :=
  { w with accesses := w.accesses ++ [⟨a, i⟩] }

/-! ## Clock -/

/-- `get_timems`: the next reading of the clock. -/
@[simps] def getTimems (w : World) : Nat × World :=
  (w.clock 0, { w with clock := fun n => w.clock (n + 1) })

/-- `time(NULL)`: the next reading of the clock, in seconds. -/
@[simps] def time (w : World) : Nat × World :=
  (w.clock 0 / 1000, { w with clock := fun n => w.clock (n + 1) })

/-! ## Sockets -/

/-- `xmlclient`. -/
def xmlclient (fd : Int) (w : World) : Bool := w.clients.clientxmlsocks.contains fd

/-- `or20client`: the descriptor is open on local port `SERVER_PORT + 2`. -/
def or20client (fd : Int) (w : World) : Bool := w.sockPort fd == some (serverPort + 2)

/-- Replace a trailing newline with NUL. -/
def newlineToNul (text : Text) : Text :=
  if text.getLast? = some 10 then text.dropLast ++ [0] else text

/-- The sends of one text to every used entry of a client table. -/
def sendAll (text : Text) (fds : List Int) : List Io :=
  (fds.filter (0 < ·)).map fun fd => .send fd text

/-- What `sockprintf` sends: to one client, or with `fd == -1` to all of them. -/
def sockprintfIo (fd : Int) (text : Text) (w : World) : List Io :=
  if fd ≠ -1 then [.send fd (if w.xmlclient fd then newlineToNul text else text)]
  else
    .sendMessage (some text) :: sendAll text w.clients.clientsocks ++
      sendAll (newlineToNul text) w.clients.clientxmlsocks

/-- `sockprintf`. -/
@[simps] def sockprintf (fd : Int) (text : Text) (w : World) : World :=
  { w with io := w.io ++ sockprintfIo fd text w }

/-- `statusprintf`. -/
def statusprintf (fd : Int) (text : Text) (w : World) : World := w.emit (.send fd text)

/-- `sendMessage`. -/
def sendMessage (messagebody : Option Text) (w : World) : World :=
  w.emit (.sendMessage messagebody)

/-! ## Hex dumps -/

/-- The loop of `_hexdump`: the `sprintf` of byte `i` writes three characters
and a NUL at `outbuf + 3 * i`. -/
def hexdumpLoop (ptr : Ptr) : Nat → Nat → List UInt8 → List UInt8
  | _, 0, outbuf => outbuf
  | i, l + 1, outbuf =>
      let piece := hexPad 2 (ptr i).toNat ++ cstr " " ++ [0]
      hexdumpLoop ptr (i + 1) l
        (outbuf.take (3 * i) ++ piece ++ outbuf.drop (3 * i + piece.length))

/-- `_hexdump`: what it leaves in `outbuf`. -/
def hexdumpInto (p : Ptr) (len : Nat) (outbuf : List UInt8) (outlen : Nat) : List UInt8 :=
  if len = 0 then outbuf
  else hexdumpLoop p 0 (if len > outlen / 3 then outlen / 3 else len) outbuf

/-- The text `_hexdump` prints through an automatic buffer of 301 characters. -/
def hexdumpText (p : Ptr) (len : Nat) (w : World) : Text :=
  let outlen := 3 * 100 + 1
  cString (hexdumpInto p len (w.junk.bytes outlen) outlen)

/-- `sockhexdump`. -/
def sockhexdump (fd : Int) (p : Ptr) (len : Nat) (w : World) : World :=
  w.sockprintf fd (w.hexdumpText p len ++ cstr "\n")

/-- `mh_sockhexdump`. -/
def mhSockhexdump (fd : Int) (p : Ptr) (len : Nat) (w : World) : World :=
  w.sockprintf fd (cstr "Raw data received: " ++ w.hexdumpText p len ++ cstr "\n")

/-! ## Output to the controller -/

/-- `x10_write`. -/
@[simps] def x10Write (buf : List UInt8) (buflen : Nat) (w : World) : Int × World :=
  ((Mochad.x10Write buf buflen w.fifo).1, { w with
    fifo := (Mochad.x10Write buf buflen w.fifo).2.1
    writes := w.writes ++ [⟨buf.take buflen, buflen⟩]
    usb := w.usb ++ (Mochad.x10Write buf buflen w.fifo).2.2 })

/-- `send_next_x10out`. -/
@[simps] def sendNextX10out (w : World) : World :=
  { w with
    fifo := (Mochad.sendNextX10out w.fifo).1
    usb := w.usb ++ (Mochad.sendNextX10out w.fifo).2 }

/-! ## Tracked state -/

/-- An array index 0..15 from an `int`. -/
def idx16 (i : Int) : Fin 16 := Fin.ofNat 16 i.toNat

/-- `hua_add` at an address computed as `int`. -/
@[simps] def huaAdd (house unit : Int) (w : World) : World :=
  { w with
    state := Mochad.huaAdd (idx16 house) (idx16 unit) w.state
    accesses := w.accesses ++ [⟨.house, house⟩, ⟨.unit, unit⟩] }

/-- `hua_setstatus_xdim` at an address computed as `int`. -/
@[simps] def huaSetstatusXdim (house unit xdim : Int) (w : World) : World :=
  { w with
    state := Mochad.huaSetstatusXdim (idx16 house) (idx16 unit) xdim w.state
    accesses := w.accesses ++ [⟨.house, house⟩, ⟨.unit, unit⟩] }

/-- A house function (`hua_func_on` and its siblings) at a computed house. -/
@[simps] def huaFunc (f : Fin 16 → X10state → X10state) (house : Int) (w : World) : World :=
  { w with
    state := f (idx16 house) w.state
    accesses := w.accesses ++ [⟨.house, house⟩] }

/-- `hua_sec_event`; the time of the event is read from the clock when an entry is
written. -/
def huaSecEvent (addr : Nat) (funct secaddr8 : UInt8) (w : World) : World :=
  if w.state.Records addr then
    { w.time.2 with state := Mochad.huaSecEvent w.time.1 addr funct secaddr8 w.state }
  else w

/-- Only the tracked state and the clock are changed. -/
theorem huaSecEvent_eq (addr : Nat) (funct secaddr8 : UInt8) (w : World) :
    w.huaSecEvent addr funct secaddr8 = { w with
      clock := if w.state.Records addr then w.time.2.clock else w.clock
      state := Mochad.huaSecEvent w.time.1 addr funct secaddr8 w.state } := by
  unfold huaSecEvent
  by_cases h : w.state.Records addr
  · rw [if_pos h, if_pos h]
    rfl
  · rw [if_neg h, if_neg h, huaSecEvent_of_not_records h]

@[simp] theorem huaSecEvent_state (addr : Nat) (funct secaddr8 : UInt8) (w : World) :
    (w.huaSecEvent addr funct secaddr8).state = Mochad.huaSecEvent w.time.1 addr funct secaddr8 w.state := by
  rw [huaSecEvent_eq]

end World

/-! ## Frames -/

/-- Only the records of socket output and of indices have grown. -/
def Quiet (w w' : World) : Prop :=
  ∃ io acc, w' = { w with io := w.io ++ io, accesses := w.accesses ++ acc }

namespace Quiet

theorem refl (w : World) : Quiet w w := ⟨[], [], by simp⟩

theorem trans {a b c : World} (h₁ : Quiet a b) (h₂ : Quiet b c) : Quiet a c := by
  obtain ⟨io₁, acc₁, rfl⟩ := h₁
  obtain ⟨io₂, acc₂, rfl⟩ := h₂
  exact ⟨io₁ ++ io₂, acc₁ ++ acc₂, by simp⟩

section
variable {w w' : World} (h : Quiet w w')
include h

/-- A quiet step tracks nothing. -/
theorem state : w'.state = w.state := by
  obtain ⟨io, acc, rfl⟩ := h
  rfl

/-- It has the same controller. -/
theorem cm19a : w'.cm19a = w.cm19a := by
  obtain ⟨io, acc, rfl⟩ := h
  rfl

/-- It bridges the same houses. -/
theorem rfToPl16 : w'.rfToPl16 = w.rfToPl16 := by
  obtain ⟨io, acc, rfl⟩ := h
  rfl

/-- It leaves the repeater. -/
theorem rfToRf16 : w'.rfToRf16 = w.rfToRf16 := by
  obtain ⟨io, acc, rfl⟩ := h
  rfl

/-- It writes nothing. -/
theorem writes : w'.writes = w.writes := by
  obtain ⟨io, acc, rfl⟩ := h
  rfl

/-- It leaves the output queue. -/
theorem fifo : w'.fifo = w.fifo := by
  obtain ⟨io, acc, rfl⟩ := h
  rfl

/-- It leaves the table of the filter. -/
theorem dups : w'.dups = w.dups := by
  obtain ⟨io, acc, rfl⟩ := h
  rfl

/-- It reads no time. -/
theorem clock : w'.clock = w.clock := by
  obtain ⟨io, acc, rfl⟩ := h
  rfl

end

/-- Changing the tracked state commutes with output. -/
theorem setState {w w' : World} (h : Quiet w w') (s : X10state) :
    Quiet { w with state := s } { w' with state := s } := by
  obtain ⟨io, acc, rfl⟩ := h
  exact ⟨io, acc, rfl⟩

section
variable {a b : World} (h : Quiet a b)
include h

/-- A call on a socket is quiet. -/
theorem emit (e : Io) : Quiet a (b.emit e) := h.trans ⟨[e], [], by simp [World.emit]⟩

theorem access (x : CArray) (i : Int) : Quiet a (b.access x i) :=
  h.trans ⟨[], [⟨x, i⟩], by simp [World.access]⟩

theorem sockprintf (fd : Int) (text : Text) : Quiet a (b.sockprintf fd text) :=
  h.trans ⟨World.sockprintfIo fd text b, [], by simp [World.sockprintf]⟩

theorem statusprintf (fd : Int) (text : Text) : Quiet a (b.statusprintf fd text) := h.emit _

theorem sendMessage (text : Option Text) : Quiet a (b.sendMessage text) := h.emit _

theorem sockhexdump (fd : Int) (p : Ptr) (len : Nat) : Quiet a (b.sockhexdump fd p len) :=
  h.sockprintf _ _

theorem mhSockhexdump (fd : Int) (p : Ptr) (len : Nat) : Quiet a (b.mhSockhexdump fd p len) :=
  h.sockprintf _ _

/-- A step that changes the tracked state and uses some indices. -/
theorem setStateAccess (s : X10state) (acc : List Access) :
    Quiet { a with state := s } { b with state := s, accesses := b.accesses ++ acc } :=
  (h.setState s).trans ⟨[], acc, by simp⟩

/-- Selecting a unit after a quiet step, the indices apart. -/
theorem huaAdd (house unit : Int) :
    Quiet { a with state := Mochad.huaAdd (World.idx16 house) (World.idx16 unit) a.state }
      (b.huaAdd house unit) := by
  rw [← h.state]
  exact h.setStateAccess _ _

theorem huaSetstatusXdim (house unit xdim : Int) :
    Quiet { a with
        state := Mochad.huaSetstatusXdim (World.idx16 house) (World.idx16 unit) xdim a.state }
      (b.huaSetstatusXdim house unit xdim) := by
  rw [← h.state]
  exact h.setStateAccess _ _

/-- After quiet steps the same bytes are queued. -/
theorem x10Write (buf : List UInt8) (buflen : Nat) :
    Quiet (a.x10Write buf buflen).2 (b.x10Write buf buflen).2 := by
  obtain ⟨io, acc, rfl⟩ := h
  exact ⟨io, acc, rfl⟩

theorem huaFunc (f : Fin 16 → X10state → X10state) (house : Int) :
    Quiet { a with state := f (World.idx16 house) a.state } (b.huaFunc f house) := by
  rw [← h.state]
  exact h.setStateAccess _ _

end

end Quiet

end Mochad
