import Mathlib.Logic.Function.Basic
import Mathlib.Tactic.Simps.Basic
import Mochad.Lib.Run

/-!
# Mochad.Usb

`mochad.c` and libusb: how the controller is found, claimed and given back, and
how the two transfers are allocated, submitted and resubmitted.

What libusb returns is given (`SetupAnswers`, `WriteAnswers`, `StopAnswers`), and
so are the callbacks it makes; the calls are recorded in order.  What a packet
says does not matter here: a callback with a packet is followed by whatever
packets the daemon hands to `write_usb` for it, and so is a line of a client.
The callbacks libusb makes inside the waiting loop of `write_usb` are taken as
made after it, since nothing is done behind that loop.  Calls with a null pointer
that libusb ignores are not recorded, and neither is `libusb_set_debug`.  The
`die` functions and the `exit` of `sensorflare.c`, which end the program on the
spot when the message broker fails, are left out: no life here is cut short.
-/

namespace Mochad

/-! ## Calls -/

/-- `IntrIn_transfer` and `IntrOut_transfer`. -/
inductive TransferName where
  | intrIn
  | intrOut
deriving DecidableEq, Repr

/-- The calls of libusb, with what they return, and the callbacks it makes. -/
inductive UsbCall where
  | init (r : Int)
  | openDeviceWithVidPid (product : Nat) (found : Bool)
  | claimInterface (r : Int)
  | kernelDriverActive (r : Int)
  | detachKernelDriver (r : Int)
  | getDevice (found : Bool)
  | getDeviceDescriptor (r : Int)
  | getActiveConfigDescriptor (r : Int)
  | freeConfigDescriptor
  | allocTransfer (t : TransferName) (allocated : Bool)
  | fillInterruptTransfer (t : TransferName) (endpoint : UInt8)
  | submitTransfer (t : TransferName) (r : Int)
  | cancelTransfer (t : TransferName) (r : Int)
  | freeTransfer (t : TransferName)
  | handleEvents (r : Int)
  | releaseInterface
  | close
  | attachKernelDriver
  | exit
  /-- libusb is through with a transfer and calls its callback. -/
  | callback (t : TransferName)
deriving DecidableEq, Repr

/-- The variables of `mochad.c` about the controller; of a pointer only whether it
is null. -/
structure Usb where
  devh : Bool
  intrInTransfer : Bool
  intrOutTransfer : Bool
  inEndpoint : UInt8
  outEndpoint : UInt8
  cm19a : Bool
  reattach : Bool
  /-- 1 after a signal, 2 after a failure. -/
  doExit : Nat
  calls : List UsbCall

namespace Usb

/-- All variables as the program starts. -/
def initial : Usb where
  devh := false
  intrInTransfer := false
  intrOutTransfer := false
  inEndpoint := 0
  outEndpoint := 0
  cm19a := false
  reattach := false
  doExit := 0
  calls := []

/-- A call of libusb. -/
@[simps] def call (c : UsbCall) (s : Usb) : Usb := { s with calls := s.calls ++ [c] }

/-! ## Start-up -/

/-- `EIO`. -/
def eio : Int := 5

/-- `ENOMEM`. -/
def enomem : Int := 12

end Usb

/-- What libusb returns until the main loop.  A configuration is the endpoint
addresses of the alternate settings of its interfaces. -/
structure SetupAnswers where
  init : Int
  /-- A CM15A is found, or else a CM19A. -/
  cm15a : Bool
  cm19a : Bool
  claim : Int
  kernelDriver : Int
  detach : Int
  claimAgain : Int
  device : Bool
  deviceDescriptor : Int
  configDescriptor : Int
  config : List (List (List UInt8))
  allocIn : Bool
  allocOut : Bool
  submit : Int

namespace Usb

/-- `find_cm15a` when the device has been opened: the interface is claimed, if need
be from a kernel driver. -/
def claimCm15a (a : SetupAnswers) (s : Usb) : Int × Usb :=
  let s := s.call (.claimInterface a.claim)
  if a.claim = 0 then (0, s)
  else
    let s := s.call (.kernelDriverActive a.kernelDriver)
    if a.kernelDriver < 0 then (-eio, s)
    else
      let s := s.call (.detachKernelDriver a.detach)
      if a.detach < 0 then (-eio, s)
      else
        let s := { s with reattach := true }
        let s := s.call (.claimInterface a.claimAgain)
        if a.claimAgain < 0 then (-eio, s) else (0, s)

/-- `find_cm15a`. -/
def findCm15a (a : SetupAnswers) (s : Usb) : Int × Usb :=
  let s := { s with cm19a := false }
  let s := { s.call (.openDeviceWithVidPid 0x0001 a.cm15a) with devh := a.cm15a }
  if s.devh then claimCm15a a s
  else
    let s := { s.call (.openDeviceWithVidPid 0x0002 a.cm19a) with devh := a.cm19a }
    if !s.devh then (-eio, s) else claimCm15a a { s with cm19a := true }

/-- One endpoint of `get_endpoint_address`. -/
def takeEndpoint (s : Usb) (bEndpointAddress : UInt8) : Usb :=
  if bEndpointAddress &&& 0x80 ≠ 0 then { s with inEndpoint := bEndpointAddress }
  else { s with outEndpoint := bEndpointAddress }

/-- `get_endpoint_address`. -/
def getEndpointAddress (a : SetupAnswers) (s : Usb) : Int × Usb :=
  let s := s.call (.getDevice a.device)
  if !a.device then (-1, s)
  else
    let s := s.call (.getDeviceDescriptor a.deviceDescriptor)
    if a.deviceDescriptor < 0 then (a.deviceDescriptor, s)
    else
      let s := s.call (.getActiveConfigDescriptor a.configDescriptor)
      if a.configDescriptor < 0 then (a.configDescriptor, s)
      else
        let s := a.config.foldl (fun s interface =>
          interface.foldl (fun s altsetting => altsetting.foldl takeEndpoint s) s) s
        (0, s.call .freeConfigDescriptor)

/-- `alloc_transfers`. -/
def allocTransfers (a : SetupAnswers) (s : Usb) : Int × Usb :=
  let s := { s.call (.allocTransfer .intrIn a.allocIn) with intrInTransfer := a.allocIn }
  if !s.intrInTransfer then (-enomem, s)
  else
    let s := s.call (.fillInterruptTransfer .intrIn s.inEndpoint)
    let s := { s.call (.allocTransfer .intrOut a.allocOut) with intrOutTransfer := a.allocOut }
    if !s.intrOutTransfer then (-enomem, s) else (0, s)

/-- `start_transfers`. -/
def startTransfers (a : SetupAnswers) (s : Usb) : Int × Usb :=
  let s := s.call (.submitTransfer .intrIn a.submit)
  if a.submit < 0 then (a.submit, s) else (0, s)

end Usb

/-! ## Transfers -/

/-- What libusb returns in `write_usb`; `wait i` is the result of
`libusb_handle_events` with `i` rounds to go. -/
structure WriteAnswers where
  submit : Int
  cancel : Int
  wait : Nat → Int

/-- How `IntrIn_cb` is called: with a packet, for which `writes` are handed to
`write_usb`, or with another status. -/
inductive IntrIn where
  | completed (writes : List WriteAnswers) (resubmit : Int)
  | failed

/-- What reaches the daemon from outside while it waits. -/
inductive Callback where
  | intrIn (e : IntrIn)
  | intrOut
  /-- SIGINT, SIGTERM or SIGQUIT. -/
  | signal

/-- What happens in an iteration of the main loop, as far as libusb is concerned. -/
inductive UsbEvent where
  | callback (c : Callback)
  /-- A packet handed to `write_usb` outside the callbacks. -/
  | write (a : WriteAnswers)

namespace Usb

/-- The loop of `write_usb` with `i` rounds to go. -/
def waitOut (wait : Nat → Int) : Nat → Usb → Usb
  | 0, s => s
  | i + 1, s =>
      if s.intrOutTransfer then
        let s := s.call (.handleEvents (wait i))
        if wait i < 0 then s else waitOut wait i s
      else s

/-- `write_usb`. -/
def writeUsb (a : WriteAnswers) (s : Usb) : Int × Usb :=
  let s := s.call (.fillInterruptTransfer .intrOut s.outEndpoint)
  let s := s.call (.submitTransfer .intrOut a.submit)
  if a.submit < 0 then
    let s := s.call (.cancelTransfer .intrOut a.cancel)
    (a.submit, waitOut a.wait 100 s)
  else (0, s)

/-- Packets handed to `write_usb` one after the other. -/
def writeAll (writes : List WriteAnswers) (s : Usb) : Usb :=
  writes.foldl (fun s a => (writeUsb a s).2) s

/-- `IntrIn_cb`. -/
def intrInCb (e : IntrIn) (s : Usb) : Usb :=
  let s := s.call (.callback .intrIn)
  match e with
  | .failed =>
      let s := { s with doExit := 2 }
      let s := s.call (.freeTransfer .intrIn)
      { s with intrInTransfer := false }
  | .completed writes resubmit =>
      let s := writeAll writes s
      let s := s.call (.submitTransfer .intrIn resubmit)
      if resubmit < 0 then { s with doExit := 2 } else s

/-- `IntrOut_cb` does nothing. -/
def intrOutCb (s : Usb) : Usb := s.call (.callback .intrOut)

/-- `sighandler`. -/
def sighandler (s : Usb) : Usb := { s with doExit := 1 }

/-- A callback, or a signal. -/
def calledBack (s : Usb) : Callback → Usb
  | .intrIn e => intrInCb e s
  | .intrOut => intrOutCb s
  | .signal => sighandler s

/-- One event. -/
def react (s : Usb) : UsbEvent → Usb
  | .callback c => s.calledBack c
  | .write a => (writeUsb a s).2

/-- `while (!Do_exit)`, with the events of each iteration. -/
def mainLoop : List (List UsbEvent) → Usb → Usb
  | [], s => s
  | events :: iterations, s =>
      if s.doExit ≠ 0 then s else mainLoop iterations (events.foldl react s)

end Usb

/-! ## The way out -/

/-- What libusb returns when the loop has ended; in a round of
`libusb_handle_events` it also makes callbacks. -/
structure StopAnswers where
  cancelOut : Int
  cancelIn : Int
  wait : Nat → List Callback × Int

namespace Usb

/-- The waiting loop with `i` rounds to go. -/
def waitTransfers (wait : Nat → List Callback × Int) : Nat → Usb → Usb
  | 0, s => s
  | i + 1, s =>
      if s.intrOutTransfer || s.intrInTransfer then
        let s := ((wait i).1.foldl calledBack s).call (.handleEvents (wait i).2)
        if (wait i).2 < 0 then s else waitTransfers wait i s
      else s

/-- `mydaemon` from the end of the loop to `out_deinit`. -/
def cancelTransfers (a : StopAnswers) (s : Usb) : Int × Usb :=
  let s := if s.intrOutTransfer then s.call (.cancelTransfer .intrOut a.cancelOut) else s
  if s.intrOutTransfer && a.cancelOut < 0 then (a.cancelOut, s)
  else
    let s := if s.intrInTransfer then s.call (.cancelTransfer .intrIn a.cancelIn) else s
    if s.intrInTransfer && a.cancelIn < 0 then (a.cancelIn, s)
    else
      let s := waitTransfers a.wait 100 s
      (if s.doExit = 1 then 0 else 1, s)

/-- `libusb_free_transfer`; nothing is done with a null pointer. -/
def freeTransfer (t : TransferName) (transfer : Bool) (s : Usb) : Usb :=
  if transfer then s.call (.freeTransfer t) else s

/-- `mydaemon` from `out` on. -/
def out (s : Usb) : Usb :=
  let s := if s.devh then s.call .close else s
  let s := if s.reattach then s.call .attachKernelDriver else s
  s.call .exit

/-- `mydaemon` from `out_deinit` on. -/
def outDeinit (s : Usb) : Usb :=
  let s := freeTransfer .intrIn s.intrInTransfer s
  let s := freeTransfer .intrOut s.intrOutTransfer s
  out (s.call .releaseInterface)

end Usb

/-- Everything that comes from outside in a life of the daemon; it is not ended by
`die` or `exit` in `sensorflare.c`. -/
structure Life where
  setup : SetupAnswers
  /-- `write_usb` of the first initialisation packet of a CM19A; the others wait. -/
  first : WriteAnswers
  iterations : List (List UsbEvent)
  stop : StopAnswers

namespace Usb

/-- `return r >= 0 ? r : -r`. -/
def exitStatus (r : Int) : Int := if 0 ≤ r then r else -r

/-- `mydaemon` up to the main loop: the failure that ends it, or nothing. -/
def attach (l : Life) : Except (Int × Usb) Usb :=
  let s := initial.call (.init l.setup.init)
  if l.setup.init < 0 then .error (1, s)
  else
    let (r, s) := findCm15a l.setup s
    if r < 0 then .error (exitStatus r, out s)
    else
      let (r, s) := getEndpointAddress l.setup s
      if r < 0 then .error (exitStatus r, outDeinit s)
      else
        let (r, s) := allocTransfers l.setup s
        if r < 0 then .error (exitStatus r, outDeinit s)
        else
          let (r, s) := startTransfers l.setup s
          if r < 0 then .error (exitStatus r, outDeinit s)
          else .ok (if s.cm19a then (writeUsb l.first s).2 else s)

/-- `mydaemon`: the exit status, unless it is still running. -/
def mydaemon (l : Life) : Option Int × Usb :=
  match attach l with
  | .error (status, s) => (some status, s)
  | .ok s =>
      let s := mainLoop l.iterations s
      if s.doExit = 0 then (none, s)
      else
        let (r, s) := cancelTransfers l.stop s
        (some (exitStatus r), outDeinit s)

end Usb

end Mochad
