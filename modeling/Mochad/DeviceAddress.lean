import Mochad.Encode.Argv
import Mochad.Encode.Command
import Mochad.Daemon

/-!
# Mochad.DeviceAddress

The address word of a command.  The comment above `getdeviceaddr` lists the valid
strings: a house code `A`..`P`, alone or with a unit code `1`..`16` behind it.  A
word that has a house code and something else behind it is not refused, and
becomes the address of the whole house or of another unit.
-/

namespace Mochad

open CString

/-! ## The valid strings -/

/-- The house code of a house value. -/
def housecode (house : Fin 16) : UInt8 := UInt8.ofNat (65 + house.val)

/-- The unit code of a unit value. -/
def unitcode (unit : Fin 16) : Text := dec (unit.val + 1)

/-- The valid strings, each with its house and unit value. -/
inductive ValidAddr : Text → Int → Int → Prop where
  | house (house : Fin 16) : ValidAddr [housecode house] house.val (-1)
  | unit (house unit : Fin 16) : ValidAddr (housecode house :: unitcode unit) house.val unit.val

/-- A result of `getdeviceaddr` is as documented: there is a house value exactly
for the valid strings, and then house and unit are those of the string. -/
def AddrDocumented (parm : Option Text) (house unit : Int) : Prop :=
  (0 ≤ house ↔ ∃ s ∈ parm, ∃ h u, ValidAddr s h u) ∧
    ∀ s ∈ parm, ∀ h u, ValidAddr s h u → house = h ∧ unit = u

/-- A house code and one or two characters behind it that are no unit code. -/
def MistypedUnit : Text → Prop
  | [c, d] => ishouse c ∧ ¬ (49 ≤ d ∧ d ≤ 57)
  | [c, d, e] => ishouse c ∧ ¬ (d = 49 ∧ 48 ≤ e ∧ e ≤ 54)
  | _ => False

instance : DecidablePred MistypedUnit
  | [] | [_] | _ :: _ :: _ :: _ :: _ => inferInstanceAs (Decidable False)
  | [_, _] | [_, _, _] => inferInstanceAs (Decidable (_ ∧ _))

/-! ## Characters -/

/-- The bytes taken for a house are the house codes. -/
theorem ishouse_iff (c : UInt8) : ishouse c = true ↔ ∃ house, c = housecode house := by
  constructor
  · intro hc
    have hrange := ishouse_range hc
    refine ⟨⟨c.toNat - 65, by omega⟩, ?_⟩
    rw [housecode, Nat.add_sub_cancel' hrange.1, UInt8.ofNat_toNat]
  · rintro ⟨house, rfl⟩
    revert house
    decide

/-- Unit codes have one digit up to `9` and a `1` in front from `10` on. -/
theorem unitcode_eq : ∀ unit : Fin 16, unitcode unit =
    if unit.val < 9 then [UInt8.ofNat (49 + unit.val)] else [49, UInt8.ofNat (39 + unit.val)] := by
  decide

/-- One digit from 1 on is a unit code. -/
theorem exists_unitcode_one {d : UInt8} (h : 49 ≤ d ∧ d ≤ 57) : ∃ unit, unitcode unit = [d] := by
  rw [UInt8.le_iff_toNat_le, UInt8.le_iff_toNat_le] at h
  change 49 ≤ d.toNat ∧ d.toNat ≤ 57 at h
  refine ⟨⟨d.toNat - 49, by omega⟩, ?_⟩
  rw [unitcode_eq, if_pos (by dsimp only; omega), Nat.add_sub_cancel' h.1, UInt8.ofNat_toNat]

/-- So is a 1 followed by a digit up to 6. -/
theorem exists_unitcode_two {e : UInt8} (h : 48 ≤ e ∧ e ≤ 54) : ∃ unit, unitcode unit = [49, e] := by
  rw [UInt8.le_iff_toNat_le, UInt8.le_iff_toNat_le] at h
  change 48 ≤ e.toNat ∧ e.toNat ≤ 54 at h
  refine ⟨⟨e.toNat - 39, by omega⟩, ?_⟩
  rw [unitcode_eq, if_neg (by dsimp only; omega), Nat.add_sub_cancel' (by omega), UInt8.ofNat_toNat]

/-! ## The parser -/

/-- Valid strings are read. -/
theorem deviceaddr_of_valid {parm : Text} {house unit : Int} (h : ValidAddr parm house unit) :
    deviceaddr parm = (house, unit) := by
  cases h with
  | house house =>
      revert house
      decide
  | unit house unit =>
      revert house unit
      decide

/-- A documented word is not mistyped. -/
theorem not_mistypedUnit_of_valid {parm : Text} {house unit : Int} (h : ValidAddr parm house unit) :
    ¬ MistypedUnit parm := by
  cases h with
  | house house => exact id
  | unit house unit =>
      revert house unit
      decide

/-- A mistyped unit leaves the house value as it is. -/
theorem deviceaddr_of_mistypedUnit {parm : Text} (h : MistypedUnit parm) :
    0 ≤ (deviceaddr parm).1 := by
  obtain ⟨c, hc, hlen, hget⟩ : ∃ c, ishouse c = true ∧ parm.length ≤ 3 ∧ parm.getD 0 0 = c := by
    match parm, h with
    | [c, d], h => exact ⟨c, h.1, by simp, rfl⟩
    | [c, d, e], h => exact ⟨c, h.1, by simp, rfl⟩
  obtain ⟨house, rfl⟩ := (ishouse_iff c).mp hc
  have hval : ∀ house : Fin 16, (0 : Int) ≤ (housecode house).toNat - 65 := by decide
  simp only [deviceaddr, hget, hc, Nat.not_lt.mpr hlen, if_false, Bool.not_true, Bool.false_eq_true]
  split
  · exact hval house
  split
  · exact hval house
  split <;> exact hval house

/-- A word with a house value is valid, or its unit is mistyped. -/
theorem valid_or_mistypedUnit {parm : Text} (h : 0 ≤ (deviceaddr parm).1) :
    MistypedUnit parm ∨ ∃ house unit, ValidAddr parm house unit := by
  have hlen : parm.length ≤ 3 := by
    by_contra hlong
    rw [deviceaddr, if_pos (by omega)] at h
    exact absurd h (by decide)
  obtain ⟨house, hhouse⟩ : ∃ house, parm.getD 0 0 = housecode house := by
    rw [← ishouse_iff]
    by_contra hc
    rw [deviceaddr, if_neg (by omega), if_pos (by simpa using hc)] at h
    exact absurd h (by decide)
  have hc := (ishouse_iff _).mpr ⟨house, rfl⟩
  obtain _ | ⟨c, _ | ⟨d, _ | ⟨e, _ | ⟨f, rest⟩⟩⟩⟩ := parm
  · rw [← hhouse] at hc
    exact absurd hc (by decide)
  · obtain rfl : c = housecode house := hhouse
    exact .inr ⟨_, _, .house house⟩
  · obtain rfl : c = housecode house := hhouse
    by_cases hd : 49 ≤ d ∧ d ≤ 57
    · obtain ⟨unit, hunit⟩ := exists_unitcode_one hd
      rw [← hunit]
      exact .inr ⟨_, _, .unit house unit⟩
    · exact .inl ⟨hc, hd⟩
  · obtain rfl : c = housecode house := hhouse
    by_cases hde : d = 49 ∧ 48 ≤ e ∧ e ≤ 54
    · obtain ⟨rfl, he⟩ := hde
      obtain ⟨unit, hunit⟩ := exists_unitcode_two he
      rw [← hunit]
      exact .inr ⟨_, _, .unit house unit⟩
    · exact .inl ⟨hc, hde⟩
  · simp only [List.length_cons] at hlen
    omega

/-- The parser accepts what is documented: this holds exactly when the word is not
a house code with a mistyped unit behind it. -/
theorem getdeviceaddr_documented_iff (t : Strtok) :
    AddrDocumented (nextWord t).1 (getdeviceaddr t).1 (getdeviceaddr t).2.1 ↔
      ∀ parm ∈ (nextWord t).1, ¬ MistypedUnit parm := by
  rw [nextWord_fst, getdeviceaddr_eq]
  generalize (argv t).head? = word
  constructor
  · intro hdoc parm hparm hmistyped
    cases hparm
    obtain ⟨s, hs, house, unit, hvalid⟩ := hdoc.1.mp (deviceaddr_of_mistypedUnit hmistyped)
    cases hs
    exact not_mistypedUnit_of_valid hvalid hmistyped
  · intro hno
    refine ⟨⟨fun hhouse => ?_, ?_⟩, ?_⟩
    · cases word with
      | none => exact absurd (show (0 : Int) ≤ -1 from hhouse) (by decide)
      | some parm =>
          obtain hm | hvalid := valid_or_mistypedUnit hhouse
          · exact absurd hm (hno parm rfl)
          · exact ⟨parm, rfl, hvalid⟩
    · rintro ⟨s, hs, house, unit, hvalid⟩
      cases hs
      rw [deviceaddrOf, deviceaddr_of_valid hvalid]
      cases hvalid <;> exact Int.natCast_nonneg _
    · intro s hs house unit hvalid
      cases hs
      rw [deviceaddrOf, deviceaddr_of_valid hvalid]
      exact ⟨rfl, rfl⟩

/-- `A17` is read as `A`: the lamp that is on in A1 goes off by `PL A17 OFF`. -/
theorem a17_is_house :
    let t := (nextWord (Strtok.start (cstr "PL A17 OFF"))).2
    let w := { worldInit (stillSetup false) with state := huaFuncOn 0 (huaAdd 0 0 huaSecInit) }
    let w' := (processcommandline 5 (cstr "PL A17 OFF") w).2.2
    (nextWord t).1 = some (cstr "A17") ∧
      ¬ AddrDocumented (nextWord t).1 (getdeviceaddr t).1 (getdeviceaddr t).2.1 ∧
      w.state.houseUnitState 0 0 = charOn ∧ w'.state.houseUnitState 0 0 = charOff := by
  intro t w w'
  have hword : (nextWord t).1 = some (cstr "A17") := by decide
  refine ⟨hword, fun hdoc => ?_, by decide⟩
  obtain ⟨s, hs, house, unit, hvalid⟩ := hdoc.1.mp (by decide)
  rw [hword] at hs
  cases hs
  exact not_mistypedUnit_of_valid hvalid (by decide)

end Mochad
