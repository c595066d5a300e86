import Mochad.Lib.CString
import Mochad.Lib.Ring

/-!
# Mochad.X10write

The output FIFO of `x10_write.c`.  X10 I/O is slow, so a packet that arrives
while another one is being sent waits in a ring of 256 records until
`send_next_x10out` is called (an acknowledge from the controller, or a
time-out of `poll`).

`write_usb` is an effect: the packets handed to it are returned by each
operation, in order.  `PollTimeOut` is a global of `global.h` that only this
file and the main loop write, so it lives here.
-/

namespace Mochad

open CString

/-- One FIFO record (`x10out_t`): an 8-byte slot and the used length. -/
structure X10out where
  outlen : Nat
  outdata : List UInt8
deriving DecidableEq, Repr

/-- `OUTPTRSSIZE`. -/
def outptrsSize : Nat := 256

/-- The file-scope variables of `x10_write.c`, and `PollTimeOut`. -/
structure Fifo where
  outrecs : Nat → X10out
  outhead : Nat
  outtail : Nat
  outbusy : Bool
  pollTimeOut : Int

/-- The arguments `(buf, len)` of a call of `x10_write` or `write_usb`; `data`
holds what the buffer has of `buf[0..len-1]`. -/
structure OutBuf where
  data : List UInt8
  len : Nat
deriving DecidableEq, Repr

/-- `next_index`. -/
def nextIndex (idx : Nat) : Nat := (idx + 1) % outptrsSize

/-- `memcpy(dst, src, n)` into a fixed array. -/
def memcpy (dst src : List UInt8) (n : Nat) : List UInt8 := src.take n ++ dst.drop n

/-- `add_x10out`: -1 when the ring is full. -/
def addX10out (buf : List UInt8) (buflen : Nat) (s : Fifo) : Int × Fifo :=
  let nxt := nextIndex s.outtail
  if nxt = s.outhead then (-1, s)
  else
    let rec' : X10out :=
      { outlen := buflen, outdata := memcpy (s.outrecs nxt).outdata buf buflen }
    (cInt buflen, { s with outrecs := Function.update s.outrecs nxt rec', outtail := nxt })

/-- `send_next_x10out`: the acknowledged packet is done, send the next one. -/
def sendNextX10out (s : Fifo) : Fifo × List OutBuf :=
  if s.outbusy then
    if s.outhead = s.outtail then
      ({ s with outbusy := false, pollTimeOut := -1 }, [])
    else
      let s := { s with outhead := nextIndex s.outhead }
      let outrec := s.outrecs s.outhead
      (s, [⟨outrec.outdata.take outrec.outlen, outrec.outlen⟩])
  else (s, [])

/-- `x10_write`; the result of `add_x10out` is not looked at. -/
def x10Write (buf : List UInt8) (buflen : Nat) (s : Fifo) : Int × Fifo × List OutBuf :=
  if s.outbusy then (cInt buflen, (addX10out buf buflen s).2, [])
  else
    (cInt buflen, { s with outbusy := true, pollTimeOut := 2 * 1000 },
      [⟨buf.take buflen, buflen⟩])

/-- The FIFO at program start; `PollTimeOut` is a zero-initialised global. -/
def fifoInit : Fifo where
  outrecs := fun _ => ⟨0, List.replicate 8 0⟩
  outhead := 0
  outtail := 0
  outbusy := false
  pollTimeOut := 0

end Mochad
