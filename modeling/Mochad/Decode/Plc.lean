import Mochad.World
import Mochad.Decode.Tables

/-!
# Mochad.Decode.Plc

`cm15a_decode_plc`: packets received from the power line, and packets about to
be sent, which `encode.c` first passes through the decoder so that they are
shown and tracked.

Every packet comes as a pointer and a length, and the bytes behind the length
can be read.
-/

namespace Mochad

open CString
open World (idx16)

/-- `(buf[0] == code) ? 'R' : 'T'`. -/
def rxTx (b code : UInt8) : Text := if b = code then cstr "R" else cstr "T"

/-- Indices of `HouseUnitTable` used by `huc_decode`. -/
def World.accessHuc (houseunit : UInt8) (w : World) : World :=
  (w.access .houseUnitTable ((houseunit &&& 0xf0) >>> 4).toNat).access .houseUnitTable
    (houseunit &&& 0x0f).toNat

/-- Index of `HouseUnitTable` used by `hfc_decode`. -/
def World.accessHfc (houseunit : UInt8) (w : World) : World :=
  w.access .houseUnitTable ((houseunit &&& 0xf0) >>> 4).toNat

/-- Index of `HouseUnitTable` used by `uc_decode`. -/
def World.accessUc (unit : UInt8) (w : World) : World :=
  w.access .houseUnitTable (unit &&& 0x0f).toNat

/-- The inner `switch` on the function of a house/function packet: the
functions that reach units, and those that are only shown. -/
def plcFunc (funcint : Int) (house : Int) (w : World) : World :=
  if funcint = 0 ∨ funcint = 6 then w.huaFunc huaFuncAllOff house
  else if funcint = 1 then w.huaFunc huaFuncAllOn house
  else if funcint = 2 ∨ funcint = 13 then w.huaFunc huaFuncOn house
  else if funcint = 3 ∨ funcint = 14 then w.huaFunc huaFuncOff house
  else w -- dim, bright, extended codes, hail, pre-set dim, status request

/-- Show and track an extended code; the two packet kinds have the same four
bytes in reversed order. -/
def plcExtended (fd : Int) (b0 housefunc unit data command : UInt8) (w : World) : World :=
  let w := w.accessHfc housefunc
  let (housechar, funcint) := hfcDecode housefunc
  let w := w.accessUc unit
  let unitint := ucDecode unit
  let w := w.access .funcname funcint
  let w := w.sockprintf fd (rxTx b0 0x5a ++ cstr "x PL HouseUnit: " ++ [housechar] ++ dec unitint ++
    cstr " Func: " ++ funcnameAt funcint.toNat ++ cstr " Data: " ++ hexPad 2 data.toNat ++
    cstr " Command: " ++ hexPad 2 command.toNat ++ cstr "\n")
  w.huaSetstatusXdim (housechar.toNat - 65) (unitint - 1) data.toNat

/-- `cm15a_decode_plc`. -/
def cm15aDecodePlc (fd : Int) (buf : Ptr) (len : Nat) (w : World) : World :=
  if len < 4 then w
  else if len > 8 then w
  else if buf 2 = 0x00 then -- house/unit code follows
    if buf 1 ≠ 2 then w
    else
      let w := w.accessHuc (buf 3)
      let (housechar, unitint) := hucDecode (buf 3)
      let w := w.huaAdd (housechar.toNat - 65) (unitint - 1)
      w.sockprintf fd (rxTx (buf 0) 0x5a ++ cstr "x PL HouseUnit: " ++ [housechar] ++ dec unitint ++
        cstr "\n")
  else if buf 2 = 0x01 then -- house/function code follows
    if buf 1 ≠ 2 then w
    else
      let w := w.accessHfc (buf 3)
      let (housechar, funcint) := hfcDecode (buf 3)
      let w := plcFunc funcint (housechar.toNat - 65) w
      let w := w.access .funcname funcint
      w.sockprintf fd (rxTx (buf 0) 0x5a ++ cstr "x PL House: " ++ [housechar] ++ cstr " Func: " ++
        funcnameAt funcint.toNat ++ cstr "\n")
  else if buf 2 = 0x02 then -- dim/bright code follows
    if buf 1 ≠ 3 then w
    else
      let dims := (buf 3 &&& 0xF8) >>> 3
      let w := w.accessHfc (buf 4)
      let (housechar, funcint) := hfcDecode (buf 4)
      let w := w.access .funcname funcint
      w.sockprintf fd (rxTx (buf 0) 0x5a ++ cstr "x PL House: " ++ [housechar] ++ cstr " Func: " ++
        funcnameAt funcint.toNat ++ cstr "(" ++ dec dims.toNat ++ cstr ")\n")
  else if buf 2 = 0x07 then -- extended transmission follows
    if len ≠ 7 then w
    else plcExtended fd (buf 0) (buf 3) (buf 4) (buf 5) (buf 6) w
  else if buf 2 = 0x08 then -- extended receive follows
    if len ≠ 7 then w
    else plcExtended fd (buf 0) (buf 6) (buf 5) (buf 4) (buf 3) w
  else w

end Mochad
