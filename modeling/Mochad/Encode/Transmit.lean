import Mochad.Decode.Rf
import Mochad.Encode.Words

/-!
# Mochad.Encode.Transmit

The functions of `encode.c` that build a packet.  Each makes the buffer look
as if it had been received, gives it to the decoder to be shown and tracked,
then rewrites it into the form the controller expects and calls `x10_write`.
-/

namespace Mochad

open CString

/-- `x10housecode[i]` for an index computed as `int`. -/
def housecodeAt (i : Int) : UInt8 := x10housecode.getD i.toNat 0

/-- `x10housecoderf[i]` for an index computed as `int`. -/
def housecoderfAt (i : Int) : UInt8 := x10housecoderf.getD i.toNat 0

/-- The low byte of an `int`. -/
def lowByte (n : Int) : UInt8 := UInt8.ofInt n

/-! ## Power line -/

/-- `pl_tx_houseunit`. -/
def plTxHouseunit (house unit : Int) (w : World) : Int × World :=
  let w := (w.access .x10housecode house).access .x10housecode unit
  let hu := housecodeAt house <<< 4 ||| housecodeAt unit
  -- make buffer as if received so decoder prints
  let w := cm15aDecodePlc (-1) (Ptr.ofList [0x00, 0x02, 0x00, hu]) 4 w
  w.x10Write [0x04, hu] 2

/-- `pl_tx_extended_code_1`. -/
def plTxExtendedCode1 (house unit command subcmd param : Int) (w : World) : Int × World :=
  let w := (w.access .x10housecode house).access .x10housecode unit
  let hf := housecodeAt house <<< 4 ||| 0x7
  let u := housecodeAt unit
  let data := lowByte param &&& 0xFF
  let cmd := (lowByte command &&& 0x0F) <<< 4 ||| (lowByte subcmd &&& 0x0F)
  let buf := [0x00, 0x05, 0x07, hf, u, data, cmd]
  let w := cm15aDecodePlc (-1) (Ptr.ofList buf) 7 w
  -- transmit only requires last 5 bytes
  w.x10Write (buf.drop 2) 5

/-- `pl_tx_housefunc`. -/
def plTxHousefunc (house func param : Int) (w : World) : Int × World :=
  let w := w.access .x10housecode house
  if func = funcDim ∨ func = funcBright then
    let dims := (lowByte param &&& 0x1F) <<< 3
    let hf := housecodeAt house <<< 4 ||| lowByte func
    let w := cm15aDecodePlc (-1) (Ptr.ofList [0x00, 0x03, 0x02, dims ||| 0x01, hf]) 5 w
    -- transmit using the 0x06 prefix, the remaining two bytes are reversed
    w.x10Write [0x06, hf, 0x06 ||| dims] 3
  else if func = funcExtendedDim then
    let hf := housecodeAt house <<< 4 ||| 0x7
    let buf := [0x00, 0x05, 0x07, hf, 0x02, lowByte param, 0x31]
    let w := cm15aDecodePlc (-1) (Ptr.ofList buf) 7 w
    w.x10Write (buf.drop 2) 5
  else
    let hf := housecodeAt house <<< 4 ||| lowByte func
    let w := cm15aDecodePlc (-1) (Ptr.ofList [0x00, 0x02, 0x01, hf]) 4 w
    -- transmit only requires last 2 bytes
    w.x10Write [0x06, hf] 2

/-! ## Radio -/

section
variable (cm15aDecodeRf : Int → Ptr → Nat → World → World)

/-- The end of each RF transmit function: decode the packet, then send it, on a
CM19A without its first byte. -/
def rfTransmit (buf : List UInt8) (w : World) : Int × World :=
  let w := cm15aDecodeRf (-1) (Ptr.ofList buf) buf.length w
  if w.cm19a then w.x10Write buf.tail (buf.length - 1) else w.x10Write buf buf.length

/-- `rfsec_tx`. -/
def rfsecTx (rf8bitaddr : Int) (rfaddr : Nat) (func : Int) (w : World) : Int × World :=
  if rf8bitaddr ≠ 0 then
    let addr := UInt8.ofNat rfaddr
    rfTransmit cm15aDecodeRf
      [0xEB, 0x20, addr, addr ^^^ 0x0f, lowByte func, ~~~lowByte func] w
  else
    let addr1 := UInt8.ofNat (rfaddr >>> 16)
    rfTransmit cm15aDecodeRf
      [0xEB, 0x29, addr1, addr1 ^^^ 0x0f, lowByte func, ~~~lowByte func,
        UInt8.ofNat (rfaddr >>> 8), UInt8.ofNat rfaddr] w

/-- The unit and function byte of a standard RF packet, if there is one. -/
def unitfuncByte (unit func : Int) : Option UInt8 :=
  let unit4 := lowByte unit &&& 0x04
  let unit2 := lowByte unit &&& 0x02
  let unit1 := lowByte unit &&& 0x01
  let unitbits := unit4 <<< 4 ||| unit2 <<< 2 ||| unit1 <<< 4
  if func = funcOff then if unit < 0 then none else some (0x20 ||| unitbits)
  else if func = funcOn then if unit < 0 then none else some unitbits
  else if func = funcDim then some 0x98
  else if func = funcBright then some 0x88
  else none

/-- `rf_tx_houseunitfunc`. -/
def rfTxHouseunitfunc (house unit func : Int) (w : World) : Int × World :=
  if house < 0 then (-1, w)
  else
    let w := w.access .x10housecoderf house
    let unit8 := lowByte unit &&& 0x08
    let buf2 := housecoderfAt house <<< 4 ||| unit8 >>> 1
    match unitfuncByte unit func with
    | none => (-1, w)
    | some buf4 => rfTransmit cm15aDecodeRf [0xeb, 0x20, buf2, ~~~buf2, buf4, ~~~buf4] w

/-- The camera packet of the `RFCAM` command. -/
def rfcamTx (house : Int) (rfcamkey : Int) (w : World) : World :=
  let w := w.access .x10housecoderf house
  let house := housecoderfAt house <<< 4
  let key := lowByte rfcamkey
  (rfTransmit cm15aDecodeRf [0xeb, 0x14, house + (key - 0x2B), key, house] w).2

end

end Mochad
