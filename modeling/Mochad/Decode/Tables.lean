import Mochad.Lib.CString
import Mathlib.Data.Nat.Bitwise

/-!
# Mochad.Decode.Tables

The lookup tables of `decode.c` and the functions that only read them.

The house tables hold characters; `HouseUnitTable` is indexed with the 4-bit
code of the power line, `HouseUnitTableRF` with that of standard RF packets.
-/

namespace Mochad

open CString

/-! ## Tables -/

/-- For all input values 0..255, 1 for odd parity, 0 for even. -/
def paritytable : List UInt8 :=
  [0, 1, 1, 0, 1, 0, 0, 1, 1, 0, 0, 1, 0, 1, 1, 0, 1, 0, 0, 1, 0, 1, 1, 0,
   0, 1, 1, 0, 1, 0, 0, 1, 1, 0, 0, 1, 0, 1, 1, 0, 0, 1, 1, 0, 1, 0, 0, 1,
   0, 1, 1, 0, 1, 0, 0, 1, 1, 0, 0, 1, 0, 1, 1, 0, 1, 0, 0, 1, 0, 1, 1, 0,
   0, 1, 1, 0, 1, 0, 0, 1, 0, 1, 1, 0, 1, 0, 0, 1, 1, 0, 0, 1, 0, 1, 1, 0,
   0, 1, 1, 0, 1, 0, 0, 1, 1, 0, 0, 1, 0, 1, 1, 0, 1, 0, 0, 1, 0, 1, 1, 0,
   0, 1, 1, 0, 1, 0, 0, 1, 1, 0, 0, 1, 0, 1, 1, 0, 0, 1, 1, 0, 1, 0, 0, 1,
   0, 1, 1, 0, 1, 0, 0, 1, 1, 0, 0, 1, 0, 1, 1, 0, 0, 1, 1, 0, 1, 0, 0, 1,
   1, 0, 0, 1, 0, 1, 1, 0, 1, 0, 0, 1, 0, 1, 1, 0, 0, 1, 1, 0, 1, 0, 0, 1,
   0, 1, 1, 0, 1, 0, 0, 1, 1, 0, 0, 1, 0, 1, 1, 0, 1, 0, 0, 1, 0, 1, 1, 0,
   0, 1, 1, 0, 1, 0, 0, 1, 1, 0, 0, 1, 0, 1, 1, 0, 0, 1, 1, 0, 1, 0, 0, 1,
   0, 1, 1, 0, 1, 0, 0, 1, 1, 0, 0, 1, 0, 1, 1, 0]

/-- House code characters (and unit codes) of the power line. -/
def houseUnitTable : List UInt8 :=
  cstr "MECKOGAINFDLPHBJ"

/-- House code characters of standard RF packets. -/
def houseUnitTableRF : List UInt8 :=
  cstr "MNOPCDABEFGHKLIJ"

/-- Names of the 16 power line functions. -/
def funcname : List String :=
  ["All units off",
   "All lights on",
   "On",
   "Off",
   "Dim",
   "Bright",
   "All lights off",
   "Ext code 1, data, control",
   "Hail request",
   "Hail ack",
   "Ext code 3, security msg",
   "Unused",
   "Ext code 2, meter read, DSM",
   "Status on",
   "Status off",
   "Status request"]

/-- Events of sensors with a long address.
bit 7: 1 = close/normal, 0 = open/alert; bit 6: 1 = cover off (tamper);
bit 2: delay 0 = max, 1 = min; bit 0: 1 = battery low. -/
def secEventNames : List (UInt8 × String) :=
  [(0x0C, "Motion_alert_MS10A"),
   (0x8C, "Motion_normal_MS10A"),
   (0x0D, "Motion_alert_low_MS10A"),
   (0x8D, "Motion_normal_low_MS10A"),
   (0x04, "Contact_alert_min_DS10A"),
   (0x84, "Contact_normal_min_DS10A"),
   (0x44, "Contact_alert_min_tamper_DS12A"),
   (0xC4, "Contact_normal_min_tamper_DS12A"),
   (0x00, "Contact_alert_max_DS10A"),
   (0x80, "Contact_normal_max_DS10A"),
   (0x40, "Contact_alert_max_tamper_DS12A"),
   (0xC0, "Contact_normal_max_tamper_DS12A"),
   (0x01, "Contact_alert_min_low_DS10A"),
   (0x81, "Contact_normal_min_low_DS10A"),
   (0x05, "Contact_alert_max_low_DS10A"),
   (0x85, "Contact_normal_max_low_DS10A"),
   (0x06, "Arm_KR10A"),
   (0x86, "Disarm_KR10A"),
   (0x46, "Lights_On_KR10A"),
   (0xC6, "Lights_Off_KR10A"),
   (0x26, "Panic_KR10A"),
   (0x03, "Panic_KR15A")]

/-- Events of sensors and remotes with an 8-bit address. -/
def secRemoteKeyNames : List (UInt8 × String) :=
  [(0x0E, "Arm_Home_min_SH624"),
   (0x06, "Arm_Away_min_SH624"),
   (0x0A, "Arm_Home_max_SH624"),
   (0x02, "Arm_Away_max_SH624"),
   (0x82, "Disarm_SH624"),
   (0x22, "Panic_SH624"),
   (0x42, "Lights_On_SH624"),
   (0xC2, "Lights_Off_SH624"),
   (0x04, "Motion_alert_SP554A"),
   (0x84, "Motion_normal_SP554A"),
   (0x0C, "Motion_alert_Home_Away_SP554A"),
   (0x8C, "Motion_normal_Home_Away_SP554A")]

/-- RF camera keys, from key code 0x54 on. -/
def rfcamKeyCodes : List (Option String) :=
  [some "CAMPRESET5",
   some "CAMEDITPRESET5",
   some "CAMPRESET6",
   some "CAMEDITPRESET6",
   some "CAMPRESET7",
   some "CAMEDITPRESET7",
   some "CAMPRESET8",
   some "CAMEDITPRESET8",
   some "CAMPRESET9",
   some "CAMEDITPRESET9",
   none,
   none,
   some "CAMLEFT",
   some "CAMRIGHT",
   some "CAMUP",
   some "CAMDOWN",
   some "CAMPRESET1",
   some "CAMEDITPRESET1",
   some "CAMPRESET2",
   some "CAMEDITPRESET2",
   some "CAMPRESET3",
   some "CAMEDITPRESET3",
   some "CAMPRESET4",
   some "CAMEDITPRESET4",
   some "CAMCENTER",
   none,
   some "CAMSWEEP"]

/-! ## Lookups -/

/-- `huc_decode`: house character and unit number 1..16. -/
def hucDecode (houseunit : UInt8) : UInt8 × Int :=
  (houseUnitTable.getD ((houseunit &&& 0xf0) >>> 4).toNat 0,
    ((houseUnitTable.getD (houseunit &&& 0x0f).toNat 0).toNat : Int) - 65 + 1)

/-- `hfc_decode`: house character and function number. -/
def hfcDecode (houseunit : UInt8) : UInt8 × Int :=
  (houseUnitTable.getD ((houseunit &&& 0xf0) >>> 4).toNat 0, (houseunit &&& 0x0f).toNat)

/-- `uc_decode`: unit number 1..16. -/
def ucDecode (unit : UInt8) : Int :=
  ((houseUnitTable.getD (unit &&& 0x0f).toNat 0).toNat : Int) - 65 + 1

/-- `hufc_decode`: house character, unit number and function number (0 = on,
1 = off, 2 = dim, 3 = bright).  Dim and bright carry no unit. -/
def hufcDecode (houseunit unitfunc : UInt8) : UInt8 × Int × Nat :=
  let housechar := houseUnitTableRF.getD ((houseunit &&& 0xf0) >>> 4).toNat 0
  if unitfunc = 0x88 then (housechar, 0, 3)
  else if unitfunc = 0x98 then (housechar, 0, 2)
  else
    let unitint := (houseunit &&& 0x04) <<< 1 ||| (unitfunc &&& 0x40) >>> 4 |||
      (unitfunc &&& 0x08) >>> 2 ||| (unitfunc &&& 0x10) >>> 4
    (housechar, unitint.toNat + 1, ((unitfunc &&& 0x20) >>> 5).toNat)

/-- `Funcname[i]`. -/
def funcnameAt (i : Nat) : Text := cstr (funcname.getD i "")

/-- First row of a code/name table with the code. -/
def findName (table : List (UInt8 × String)) (secev : UInt8) : Option String :=
  (table.find? fun row => secev = row.1).map Prod.snd

/-- A name that is found stands in the table. -/
theorem findName_mem {table : List (UInt8 × String)} {secev : UInt8} {name : String}
    (h : findName table secev = some name) : (secev, name) ∈ table := by
  obtain ⟨row, hrow, rfl⟩ := Option.map_eq_some_iff.mp h
  have hcode : secev = row.1 := by simpa using List.find?_some hrow
  rw [hcode]
  exact List.mem_of_find?_eq_some hrow

/-- `findSecEventName`. -/
def findSecEventName (secev : UInt8) : Option String := findName secEventNames secev

/-- `findSecRemoteKeyName`. -/
def findSecRemoteKeyName (secev : UInt8) : Option String := findName secRemoteKeyNames secev

/-- `findCamRemoteCommand`: the key code of a key name, or -1. -/
def findCamRemoteCommand (keyname : Text) : Int :=
  match rfcamKeyCodes.findIdx? fun p => p.map cstr = some keyname with
  | some keyindex => keyindex + 0x54
  | none => -1

/-! ## Bits of a byte -/

/-- A masked byte is at most the mask. -/
theorem and_toNat_le (b m : UInt8) : (b &&& m).toNat ≤ m.toNat := by
  rw [UInt8.toNat_and]
  exact Nat.and_le_right

/-- So is the masked byte shifted right, by the shifted mask. -/
theorem and_shiftRight_le (b m k : UInt8) : ((b &&& m) >>> k).toNat ≤ (m >>> k).toNat := by
  rw [UInt8.shiftRight_and]
  exact and_toNat_le _ _

theorem and_shiftLeft_le (b m k : UInt8) : ((b &&& m) <<< k).toNat ≤ (m <<< k).toNat := by
  rw [UInt8.shiftLeft_and]
  exact and_toNat_le _ _

/-- A nibble is an index of the house and unit tables. -/
theorem highNibble_lt (b : UInt8) : ((b &&& 0xf0) >>> 4).toNat < 16 :=
  Nat.lt_succ_of_le (and_shiftRight_le b 0xf0 4)

/-- The low half of a byte is below 16. -/
theorem lowNibble_lt (b : UInt8) : (b &&& 0x0f).toNat < 16 :=
  Nat.lt_succ_of_le (and_toNat_le b 0x0f)

/-- The two ways of the source to take the high nibble. -/
theorem highNibble_eq (b : UInt8) : (b >>> 4) &&& (0x0f : UInt8) = (b &&& 0xf0) >>> 4 := by
  have hmask : (0xf0 : UInt8) >>> 4 = 0x0f := by decide
  rw [UInt8.shiftRight_and, hmask]

/-- A bit of a byte is clear or set. -/
theorem and_bit_cases (b : UInt8) {m : UInt8} {i : Nat} (hm : m.toNat = 2 ^ i) :
    b &&& m = 0 ∨ b &&& m = m := by
  rw [← UInt8.toNat_inj, ← UInt8.toNat_inj, UInt8.toNat_and, hm, Nat.and_two_pow]
  cases b.toNat.testBit i with
  | false => exact .inl (Nat.zero_mul _)
  | true => exact .inr (Nat.one_mul _)

/-! ## Parity -/

/-- An even number of bits is set. -/
def evenParity (b : UInt8) : Bool := ((List.range 8).filter (b.toNat.testBit ·)).length % 2 = 0

/-- The table of the source has the parities. -/
theorem paritytable_eq (b : UInt8) :
    paritytable.getD b.toNat 0 = if evenParity b then 0 else 1 := by
  have htable :
      paritytable = (List.range 256).map fun n => if evenParity (UInt8.ofNat n) then 0 else 1 := by
    decide +kernel
  rw [htable, List.getD_eq_getElem?_getD, List.getElem?_map, List.getElem?_range b.toNat_lt]
  simp

end Mochad
