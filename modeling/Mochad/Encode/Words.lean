import Mochad.Lib.CString

/-!
# Mochad.Encode.Words

The tables of `encode.c`, and the functions that take the next word of a
command line: each calls `strtok(NULL, " ")`, so each takes and returns the
state of the scanner.
-/

namespace Mochad

open CString

/-! ## Tables -/

/-- Function words; the position is the function number. -/
def funccommands : List String :=
  ["ALL_UNITS_OFF", "ALL_LIGHTS_ON", "ON", "OFF",
   "DIM", "BRIGHT", "ALL_LIGHTS_OFF", "EXTENDED_CODE_1",
   "HAIL_REQUEST", "HAIL_ACK", "EXTENDED_CODE_3", "UNUSED",
   "EXTENDED_CODE_2", "STATUS_ON", "STATUS_OFF", "STATUS_REQUEST",
   "XDIM"]

/-- Power line code of house A..P, and of unit 1..16. -/
def x10housecode : List UInt8 :=
  [0x06, 0x0e, 0x02, 0x0a, 0x01, 0x09, 0x05, 0x0d,
   0x07, 0x0f, 0x03, 0x0b, 0x00, 0x08, 0x04, 0x0c]

/-- RF code of house A..P. -/
def x10housecoderf : List UInt8 :=
  [0x06, 0x07, 0x04, 0x05, 0x08, 0x09, 0x0a, 0x0b,
   0x0e, 0x0f, 0x0c, 0x0d, 0x00, 0x01, 0x02, 0x03]

/-- Function words of `RFSEC` with a long address. -/
def secEventNameslongaddr : List (UInt8 × String) :=
  [(0x0C, "MOTION_ALERT"),
   (0x8C, "MOTION_NORMAL"),
   (0x0D, "MOTION_ALERT_LOW"),
   (0x8D, "MOTION_NORMAL_LOW"),
   (0x04, "CONTACT_ALERT_MIN"),
   (0x84, "CONTACT_NORMAL_MIN"),
   (0x00, "CONTACT_ALERT_MAX"),
   (0x80, "CONTACT_NORMAL_MAX"),
   (0x01, "CONTACT_ALERT_MIN_LOW"),
   (0x81, "CONTACT_NORMAL_MIN_LOW"),
   (0x05, "CONTACT_ALERT_MAX_LOW"),
   (0x85, "CONTACT_NORMAL_MAX_LOW"),
   (0x06, "ARM"),
   (0x86, "DISARM"),
   (0x46, "LIGHTS_ON"),
   (0xC6, "LIGHTS_OFF"),
   (0x26, "PANIC")]

/-- Function words of `RFSEC` with an 8-bit address. -/
def secRemoteKeyNames8bitaddr : List (UInt8 × String) :=
  [(0x06, "ARM"),
   (0x0E, "ARM_HOME_MIN"),
   (0x06, "ARM_AWAY_MIN"),
   (0x0A, "ARM_HOME_MAX"),
   (0x02, "ARM_AWAY_MAX"),
   (0x82, "DISARM"),
   (0x22, "PANIC"),
   (0x42, "LIGHTS_ON"),
   (0xC2, "LIGHTS_OFF")]

def funcOn : Int := 2
def funcOff : Int := 3
def funcDim : Int := 4
def funcBright : Int := 5
def funcExtendedCode1 : Int := 7
def funcExtendedDim : Int := 16

/-! ## The next word -/

/-- `strupper`. -/
def strupper (buf : Text) : Text := buf.map toupper

/-- `strtok(NULL, " ")`. -/
def nextWord (t : Strtok) : Option Text × Strtok := strtok 32 t

/-- `getfunc`: the number of a function word, -1 for none or an unknown one. -/
def getfunc (t : Strtok) : Int × Strtok :=
  match nextWord t with
  | (none, t) => (-1, t)
  | (some command, t) =>
      match funccommands.findIdx? fun name => command = cstr name with
      | some i => (i, t)
      | none => (-1, t)

/-- First row of a code/name table with the name. -/
def findFunct (table : List (UInt8 × String)) (command : Text) : Option UInt8 :=
  (table.find? fun row => command = cstr row.2).map Prod.fst

/-- `getrffunc`. -/
def getrffunc (rf8bitaddr : Int) (t : Strtok) : Int × Strtok :=
  match nextWord t with
  | (none, t) => (-1, t)
  | (some command, t) =>
      let table :=
        if rf8bitaddr = 1 then secRemoteKeyNames8bitaddr
        else if rf8bitaddr = 0 then secEventNameslongaddr
        else []
      match findFunct table command with
      | some funct => (funct.toNat, t)
      | none => (-1, t)

/-- `getparam`: a decimal number as `int`, -1 when there is no word. -/
def getparam (t : Strtok) : Int × Strtok :=
  match nextWord t with
  | (none, t) => (-1, t)
  | (some param, t) => (cInt (strtol 10 param), t)

/-- `ishouse`. -/
def ishouse (h : UInt8) : Bool := 65 ≤ h && h ≤ 80

/-- A house is one of the letters A to P. -/
theorem ishouse_range {h : UInt8} (hh : ishouse h = true) : 65 ≤ h.toNat ∧ h.toNat ≤ 80 := by
  simpa [ishouse, UInt8.le_iff_toNat_le] using hh

/-- The address word of `getdeviceaddr`: house and unit value, -1 for none. -/
def deviceaddr (parm : Text) : Int × Int :=
  if parm.length > 3 then (-1, -1)
  else
    let c := parm.getD 0 0
    if !ishouse c then (-1, -1)
    else
      let house : Int := c.toNat - 65
      let c := parm.getD 1 0
      if !isdigit c then (house, -1)
      else
        let unit : Int := c.toNat - 48
        let c := parm.getD 2 0
        if !isdigit c then (house, unit - 1)
        else
          let unit := unit * 10 + (c.toNat - 48)
          if unit > 16 then (house, -1) else (house, unit - 1)

/-- `getdeviceaddr`. -/
def getdeviceaddr (t : Strtok) : Int × Int × Strtok :=
  match nextWord t with
  | (none, t) => (-1, -1, t)
  | (some parm, t) => ((deviceaddr parm).1, (deviceaddr parm).2, t)

/-- The address word of `getrfaddr`: 1 with an 8-bit address, 0 with a long one. -/
def rfaddrWord (parm : Text) : Int × Nat :=
  if parm.take 2 = cstr "0x" ∨ parm.take 2 = cstr "0X" then (1, (strtoul 16 (parm.drop 2)).1)
  else (0, (strtoul 16 parm).1)

/-- `getrfaddr`; -1 without a word, and then the address stays 0. -/
def getrfaddr (t : Strtok) : Int × Nat × Strtok :=
  match nextWord t with
  | (none, t) => (-1, 0, t)
  | (some parm, t) => ((rfaddrWord parm).1, (rfaddrWord parm).2, t)

/-- The house letters of a word as a bit mask. -/
def houseMask (parm : Text) : Nat :=
  parm.foldl (fun rc house => if ishouse house then rc ||| 1 <<< (house.toNat - 65) else rc) 0

/-- `gethousecodes`: no word turns all house codes off, `*` all of them on. -/
def gethousecodes (t : Strtok) : Nat × Strtok :=
  match nextWord t with
  | (none, t) => (0, t)
  | (some parm, t) => (if parm = cstr "*" then 0xFFFF else houseMask parm, t)

/-- The loop of `gethexdata` with `slots` bytes of the buffer left: the bytes
stored, and their number or -1 for a number out of range. -/
def gethexdataLoop : Nat → List UInt8 → Strtok → List UInt8 × Int × Strtok
  | slots, buf8, t =>
    match nextWord t with
    | (none, t) => (buf8, buf8.length, t)
    | (some parm, t) =>
        match slots with
        | 0 => (buf8, buf8.length, t)
        | slots + 1 =>
            let (value, erange) := strtoul 16 parm
            let buf8 := buf8 ++ [UInt8.ofNat value]
            if erange then (buf8, -1, t) else gethexdataLoop slots buf8 t

/-- `gethexdata`. -/
def gethexdata (t : Strtok) : List UInt8 × Int × Strtok := gethexdataLoop 8 [] t

end Mochad
