import Mochad.Rejected
import Mochad.ClientTables

/-!
# Mochad.View

What can be seen of the daemon from outside: the tracked devices, the client
tables, the lines it executes and its output.

`Act fd n e` is an abstract machine on these: the things the daemon can do, one
text at a time, while it handles a packet or the input of client `fd`.  What goes to
everybody is an `Announcement`, and it says which operations on the devices
belong to it; what goes to the client alone is a `Reply`.  `Mochad.Acts` shows
that the program only does such acts.
-/

namespace Mochad

open CString
open Relation (ReflTransGen)

/-! ## The view -/

/-- The house/unit devices of the tracked state. -/
def X10state.devices (s : X10state) : X10state := { s with x10sensors := [] }

/-- An operation on the devices does not depend on the sensors. -/
theorem devices_apply (op : HuaOp) (s : X10state) : (op.apply s).devices = op.apply s.devices := by
  cases op with
  | add house unit =>
      change (huaAdd house unit s).devices = huaAdd house unit s.devices
      unfold huaAdd
      rw [apply_ite X10state.devices, apply_ite X10state.devices]
      rfl
  | _ => rfl

theorem devices_applyOps (ops : List HuaOp) (s : X10state) :
    (applyOps ops s).devices = applyOps ops s.devices := by
  induction ops generalizing s with
  | nil => rfl
  | cons op ops ih => exact (ih _).trans (congrArg (applyOps ops) (devices_apply op s))

/-- A security event leaves the devices. -/
theorem devices_huaSecEvent (now addr : Nat) (funct secaddr8 : UInt8) (s : X10state) :
    (huaSecEvent now addr funct secaddr8 s).devices = s.devices := by
  unfold huaSecEvent
  split
  · rfl
  · split <;> rfl

/-- What can be seen of the daemon. -/
structure View where
  devices : X10state
  clients : Clients
  sockPort : Int → Option Nat
  junk : Ptr
  lines : List (Int × Text)
  io : List Io

def World.view (w : World) : View :=
  ⟨w.state.devices, w.clients, w.sockPort, w.junk, w.lines, w.io⟩

/-- What `sockprintf` sends with these client tables. -/
def Clients.printed (c : Clients) (fd : Int) (text : Text) : List Io :=
  if fd ≠ -1 then
    [.send fd (if c.clientxmlsocks.contains fd then World.newlineToNul text else text)]
  else
    .sendMessage (some text) :: World.sendAll text c.clientsocks ++
      World.sendAll (World.newlineToNul text) c.clientxmlsocks

namespace View

/-- Print a text. -/
def print (fd : Int) (text : Text) (v : View) : View := { v with io := v.io ++ v.clients.printed fd text }

/-- Other output. -/
def emit (e : Io) (v : View) : View := { v with io := v.io ++ [e] }

/-- Track operations. -/
def track (ops : List HuaOp) (v : View) : View := { v with devices := applyOps ops v.devices }

/-- The text of a dump. -/
def hexdumpText (p : Ptr) (len : Nat) (v : View) : Text :=
  cString (World.hexdumpInto p len (v.junk.bytes (3 * 100 + 1)) (3 * 100 + 1))

@[simp] theorem track_nil (v : View) : v.track [] = v := rfl

end View

@[simp] theorem view_sockprintf (fd : Int) (text : Text) (w : World) :
    (w.sockprintf fd text).view = w.view.print fd text := rfl

@[simp] theorem view_emit (e : Io) (w : World) : (w.emit e).view = w.view.emit e := rfl

@[simp] theorem view_access (x : CArray) (i : Int) (w : World) : (w.access x i).view = w.view := rfl

@[simp] theorem view_accessAll (acc : List Access) (w : World) : (w.accessAll acc).view = w.view := rfl

@[simp] theorem view_x10Write (buf : List UInt8) (n : Nat) (w : World) :
    (w.x10Write buf n).2.view = w.view := rfl

theorem view_huaAdd (house unit : Int) (w : World) :
    (w.huaAdd house unit).view = w.view.track [.add (World.idx16 house) (World.idx16 unit)] := by
  simp only [World.view, World.huaAdd, View.track]
  rw [View.mk.injEq]
  exact ⟨devices_apply (.add _ _) w.state, rfl, rfl, rfl, rfl, rfl⟩

/-- A security event is not seen. -/
theorem view_huaSecEvent (addr : Nat) (funct secaddr8 : UInt8) (w : World) :
    (w.huaSecEvent addr funct secaddr8).view = w.view := by
  simp only [World.view, World.huaSecEvent_eq, devices_huaSecEvent]

theorem view_dupFilter (buf : Ptr) (len : Int) (w : World) : (dupFilter buf len w).2.view = w.view := by
  obtain ⟨clock, dups, h⟩ := dupFilter_eq buf len w
  rw [h]
  rfl

/-! ## Texts -/

/-- What is announced to everybody. -/
inductive Announcement where
  | houseunit (b0 hu : UInt8)
  | housefunc (b0 hf : UInt8)
  | dimbright (b0 hf dims : UInt8)
  | extended (b0 hf u data command : UInt8)
  | standard (b0 hu uf : UInt8)
  | security8 (b0 addr funct : UInt8)
  | securityLong (b0 a0 a1 a2 funct : UInt8)
  /-- House code and the place of the key in the table. -/
  | camera (b0 housecode : UInt8) (keyindex : Nat)
  | rejected (e : RfExit)
  | rfToRf

namespace Announcement

/-- The text, with its line end. -/
def text : Announcement → Text
  | houseunit b0 hu =>
      rxTx b0 0x5a ++ cstr "x PL HouseUnit: " ++ [(hucDecode hu).1] ++ dec (hucDecode hu).2 ++ cstr "\n"
  | housefunc b0 hf =>
      rxTx b0 0x5a ++ cstr "x PL House: " ++ [(hfcDecode hf).1] ++ cstr " Func: " ++
        funcnameAt (hfcDecode hf).2.toNat ++ cstr "\n"
  | dimbright b0 hf dims =>
      rxTx b0 0x5a ++ cstr "x PL House: " ++ [(hfcDecode hf).1] ++ cstr " Func: " ++
        funcnameAt (hfcDecode hf).2.toNat ++ cstr "(" ++ dec dims.toNat ++ cstr ")\n"
  | extended b0 hf u data command =>
      rxTx b0 0x5a ++ cstr "x PL HouseUnit: " ++ [(hfcDecode hf).1] ++ dec (ucDecode u) ++
        cstr " Func: " ++ funcnameAt (hfcDecode hf).2.toNat ++ cstr " Data: " ++
        hexPad 2 data.toNat ++ cstr " Command: " ++ hexPad 2 command.toNat ++ cstr "\n"
  | standard b0 hu uf =>
      let (housechar, unitint, funcint) := hufcDecode hu uf
      rxTx b0 0x5d ++ ((if funcint > 1 then cstr "x RF House: " ++ [housechar]
        else cstr "x RF HouseUnit: " ++ [housechar] ++ dec unitint) ++
        cstr " Func: " ++ funcnameAt (funcint + 2) ++ cstr "\n")
  | security8 b0 addr funct =>
      rxTx b0 0x5d ++ (cstr "x RFSEC Addr: 0x" ++ hexPad 2 addr.toNat ++ cstr " Func: " ++
        strArg ((findSecRemoteKeyName funct).map cstr) ++ cstr "\n")
  | securityLong b0 a0 a1 a2 funct =>
      rxTx b0 0x5d ++ (cstr "x RFSEC Addr: " ++ hexPad 2 a0.toNat ++ cstr ":" ++ hexPad 2 a1.toNat ++
        cstr ":" ++ hexPad 2 a2.toNat ++ cstr " Func: " ++
        strArg ((findSecEventName funct).map cstr) ++ cstr "\n")
  | camera b0 housecode keyindex =>
      rxTx b0 0x5d ++ (cstr "x RFCAM " ++ ([houseUnitTableRF.getD housecode.toNat 0] ++ cstr " " ++
        cstr ((rfcamKeyCodes.getD keyindex none).getD "")) ++ cstr "\n")
  | rejected e => e.message
  | rfToRf => cstr "RfToRf repeat\n"

/-- The operations that belong to it. -/
def ops : Announcement → List HuaOp
  | houseunit _ hu => [.add (plcHouse hu) (plcUnit hu)]
  | housefunc _ hf => (plcFuncOp hf).toList
  | extended _ hf u data _ => [.setstatusXdim (plcHouse hf) (plcUnit u) data.toNat]
  | standard _ hu uf => rfOps hu uf
  | _ => []

end Announcement

/-- What a client alone is told by `sockprintf`, while the devices are in state `s`. -/
inductive Reply (s : X10state) : Text → Prop
  | heading {text : Text} (h : text ∈ [cstr "Device selected\n", cstr "Device status\n",
      cstr "Security sensor status\n", cstr "End status\n"]) : Reply s text
  | selected {text : Text} (h : text ∈ houseLines (selectedItem s)) : Reply s text
  | status {text : Text} (h : text ∈ houseLines (statusItem s)) : Reply s text
  | sensor (addr : Nat) (mins deltat : Int) (sen : X10secsensor) :
      Reply s (cstr "Sensor addr: " ++ hexPad 6 addr ++ cstr " Last: " ++ dec2 mins ++ cstr ":" ++
        dec2 deltat ++ cstr " " ++ strArg (sensorMessage sen) ++ cstr " \n")
  | rftopl (mask : Nat) : Reply s (cstr "RfToPl " ++ hexPad 4 mask ++ cstr "\n")
  | rftorf (flags : Nat) : Reply s (cstr "RfToRf " ++ hexPad 4 flags ++ cstr "\n")
  | invalid {arg1 : Text} (h : 10 ∉ arg1) : Reply s (cstr "Invalid command " ++ arg1 ++ cstr "\n")

/-- What a client is told by `statusprintf`. -/
inductive StatusReply : Text → Prop
  | word {text : Text} (h : text ∈ [cstr "ok", cstr "on", cstr "off", cstr "-1"]) :
      StatusReply (text ++ cstr "\n")
  | level (b : UInt8) : StatusReply (dec b.toNat ++ cstr "\n")

/-- What is passed to `sendMessage` besides the announcements. -/
inductive Message (s : X10state) : Option Text → Prop
  | selected {text : Text} (h : text ∈ houseLines (selectedItem s)) : Message s (some text)
  | status {text : Text} (h : text ∈ houseLines (statusItem s)) : Message s (some text)
  | sensor (sen : X10secsensor) : Message s (sensorMessage sen)
  | getstatus (house unit : Fin 16) {text : Text} (h : StatusReply text) :
      Message s (some ([UInt8.ofInt (65 + house.val)] ++ dec (1 + unit.val) ++ cstr " " ++ text))

/-- The line asks for the policy file. -/
def PolicyLine (aLine : Text) : Prop := strupper aLine = cstr "<POLICY-FILE-REQUEST/>"

/-- The line clears the tracked state. -/
def ResetLine (aLine : Text) : Prop := ∃ ws, words 32 (strupper aLine) = cstr "ST" :: cstr "0" :: ws

instance : DecidablePred PolicyLine := fun _ => inferInstanceAs (Decidable (_ = _))

instance : DecidablePred ResetLine := fun aLine =>
  decidable_of_iff (List.IsPrefix [cstr "ST", cstr "0"] (words 32 (strupper aLine)))
    ⟨fun ⟨ws, h⟩ => ⟨ws, h.symm⟩, fun ⟨ws, h⟩ => ⟨ws, h.symm⟩⟩

/-! ## Acts -/

/-- The line is the last one executed, behind the first `n`. -/
def LastLine (n : Nat) (l : Int × Text) (lines : List (Int × Text)) : Prop :=
  n < lines.length ∧ lines.getLast? = some l

/-- One thing the daemon does while it handles a packet or the input of client
`fd`, with `n` lines executed before; a dump of no bytes, which shows what the stack
holds, only if `e`. -/
inductive Act (fd : Int) (n : Nat) (e : Prop) (v : View) : View → Prop
  | announce (a : Announcement) : Act fd n e v ((v.track a.ops).print (-1) a.text)
  | dump {heading : Text} (h : heading ∈ [[], cstr "Raw data received: "]) (p : Ptr) {len : Nat}
      (hlen : len = 0 → e) :
      Act fd n e v (v.print (-1) (heading ++ v.hexdumpText p len ++ cstr "\n"))
  | reply (hfd : fd ≠ -1) {text : Text} (h : Reply v.devices text) : Act fd n e v (v.print fd text)
  | status {fd' : Int} (hfd : fd' = fd ∨ fd' = -1) {text : Text} (h : StatusReply text) :
      Act fd n e v (v.emit (.send fd' text))
  | message {m : Option Text} (h : Message v.devices m) : Act fd n e v (v.emit (.sendMessage m))
  | policy {aLine : Text} (hline : LastLine n (fd, aLine) v.lines) (h : PolicyLine aLine) :
      Act fd n e v (v.emit (.send fd domainpolicy))
  | reset {aLine : Text} (hline : LastLine n (fd, aLine) v.lines) (h : ResetLine aLine) :
      Act fd n e v { v with devices := huaSecInit }
  | line {aLine : Text} (h : ∀ b ∈ aLine, isLineEnd b = false) :
      Act fd n e v { v with lines := v.lines ++ [(fd, aLine)] }
  /-- An OpenRemote 2.0 client is closed behind its command. -/
  | finish (k : Fin 3) (i : Nat) (hport : v.sockPort fd = some (serverPort + 2))
      (hi : (v.clients.table k)[i]? = some fd) :
      Act fd n e v { v with
        clients := v.clients.setTable k ((v.clients.table k).set i (-1)) (v.clients.count k - 1)
        sockPort := if k = 2 then Function.update v.sockPort fd none else v.sockPort
        io := v.io ++ if k = 2 then [.shutdown fd, .close fd] else [] }

/-- Any number of acts. -/
abbrev Acts (fd : Int) (n : Nat) (e : Prop) : View → View → Prop := ReflTransGen (Act fd n e)

end Mochad
