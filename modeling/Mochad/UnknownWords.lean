import Mochad.Encode.RfSend
import Mochad.Listener
import Mochad.Rejected

/-!
# Mochad.UnknownWords

Command lines with a function or key word that is in no table.  The RF commands
refuse them before anything is sent, and so does `PL` with a house alone.  `PL`
with a house and a unit does not tell an unknown word from none at all, and sends
the address.
-/

namespace Mochad

open CString

/-- The function words of an address kind. -/
def rffuncTable (rf8bitaddr : Int) : List (UInt8 × String) :=
  if rf8bitaddr = 1 then secRemoteKeyNames8bitaddr
  else if rf8bitaddr = 0 then secEventNameslongaddr
  else []

/-- The functions of the `RF` command. -/
def rfFunccommands : List String := ["ON", "OFF", "DIM", "BRIGHT"]

/-- The function or key word is not one of its command, or an RF On or Off has no
unit. -/
inductive UnknownWord : Text → List Text → Prop where
  | pl {ws : List Text} {word : Text} (hhouse : 0 ≤ (deviceaddrOf ws[0]?).1)
      (hunit : 0 ≤ (deviceaddrOf ws[0]?).2) (hword : ws[1]? = some word)
      (hunknown : ∀ name ∈ funccommands, word ≠ cstr name) : UnknownWord (cstr "PL") ws
  | rf {ws : List Text} {word : Text} (hword : ws[1]? = some word)
      (hunknown : ∀ name ∈ rfFunccommands, word ≠ cstr name) : UnknownWord (cstr "RF") ws
  | rfUnit {ws : List Text} (hword : ws[1]? = some (cstr "ON") ∨ ws[1]? = some (cstr "OFF"))
      (hunit : (deviceaddrOf ws[0]?).2 < 0) : UnknownWord (cstr "RF") ws
  | rfsec {ws : List Text} {word : Text} (hword : ws[1]? = some word)
      (hunknown : ∀ row ∈ rffuncTable (rfaddrOf ws[0]?).1, word ≠ cstr row.2) :
      UnknownWord (cstr "RFSEC") ws
  | rfcam {ws : List Text} {key : Text} (hkey : ws[1]? = some key)
      (hunknown : ∀ name, some name ∈ rfcamKeyCodes → key ≠ cstr name) :
      UnknownWord (cstr "RFCAM") ws

/-! ## Lookups -/

/-- A word that is no function has no number. -/
theorem funcNumber_unknown {word : Text} (h : ∀ name ∈ funccommands, word ≠ cstr name) :
    funcNumber (some word) = -1 := by
  have hnone : funccommands.findIdx? (fun name => word = cstr name) = none :=
    List.findIdx?_eq_none_iff.mpr fun name hname => by simpa using h name hname
  rw [funcNumber, hnone]

/-- A function number stands for its word. -/
theorem funcNumber_eq {word : Text} {n : Nat} (h : funcNumber (some word) = n) :
    ∃ name, funccommands[n]? = some name ∧ word = cstr name := by
  unfold funcNumber at h
  dsimp only at h
  split at h
  · rename_i i hi
    obtain ⟨hlt, hname, -⟩ := List.findIdx?_eq_some_iff_getElem.mp hi
    obtain rfl : i = n := Int.ofNat.inj h
    exact ⟨_, List.getElem?_eq_getElem hlt, of_decide_eq_true hname⟩
  · cases h

/-- RF knows four functions. -/
theorem unitfuncByte_unknown {word : Text} (h : ∀ name ∈ rfFunccommands, word ≠ cstr name)
    (unit : Int) : unitfuncByte unit (funcNumber (some word)) = none := by
  have hne : ∀ n : Nat, (∃ name ∈ rfFunccommands, funccommands[n]? = some name) →
      funcNumber (some word) ≠ n := by
    rintro n ⟨name, hname, hn⟩ hword
    obtain ⟨name', hn', hname'⟩ := funcNumber_eq hword
    rw [hn] at hn'
    cases hn'
    exact h name hname hname'
  have hoff : funcNumber (some word) ≠ funcOff := hne 3 ⟨"OFF", by decide, rfl⟩
  have hon : funcNumber (some word) ≠ funcOn := hne 2 ⟨"ON", by decide, rfl⟩
  have hdim : funcNumber (some word) ≠ funcDim := hne 4 ⟨"DIM", by decide, rfl⟩
  have hbright : funcNumber (some word) ≠ funcBright := hne 5 ⟨"BRIGHT", by decide, rfl⟩
  simp only [unitfuncByte, hoff, hon, hdim, hbright, if_false]

/-- Nor has one that is no RF function. -/
theorem rffuncNumber_unknown {rf8bitaddr : Int} {word : Text}
    (h : ∀ row ∈ rffuncTable rf8bitaddr, word ≠ cstr row.2) :
    rffuncNumber rf8bitaddr (some word) = -1 := by
  have hnone : findFunct (rffuncTable rf8bitaddr) word = none := by
    rw [findFunct, Option.map_eq_none_iff, List.find?_eq_none]
    exact fun row hrow => by simpa using h row hrow
  unfold rffuncTable at hnone
  simp only [rffuncNumber, hnone]

/-- Nor has one that is no key of a camera. -/
theorem findCamRemoteCommand_unknown {key : Text}
    (h : ∀ name, some name ∈ rfcamKeyCodes → key ≠ cstr name) : findCamRemoteCommand key = -1 := by
  have hnone : rfcamKeyCodes.findIdx? (fun p => p.map cstr = some key) = none := by
    refine List.findIdx?_eq_none_iff.mpr fun p hp => decide_eq_false fun hkey => ?_
    obtain ⟨name, rfl, hname⟩ := Option.map_eq_some_iff.mp hkey
    exact h name hp hname.symm
  rw [findCamRemoteCommand, hnone]

/-- A line with an unknown word has no RF packet. -/
theorem commandPacket_unknown {command : Text} {ws : List Text} (h : UnknownWord command ws) :
    commandPacket (command :: ws) = none := by
  have hneg : (-1 : Int) < 0 := by decide
  cases h with
  | pl hhouse hunit hword hunknown =>
      have hne : cstr "PL" ≠ cstr "RF" ∧ cstr "PL" ≠ cstr "RFCAM" ∧ cstr "PL" ≠ cstr "RFSEC" := by decide
      simp only [commandPacket, hne, if_false]
  | rf hword hunknown =>
      simp only [commandPacket, if_true, hword, unitfuncByte_unknown hunknown, Option.map_none, ite_self]
  | rfUnit hword hunit =>
      have hbyte : ∀ unit : Int, unit < 0 →
          unitfuncByte unit funcOn = none ∧ unitfuncByte unit funcOff = none := by
        intro unit hunit
        have hoff : ¬ funcOn = funcOff := by decide
        exact ⟨by simp only [unitfuncByte, hoff, hunit, if_false, if_true],
          by simp only [unitfuncByte, hunit, if_true]⟩
      obtain ⟨hon, hoff⟩ := hbyte _ hunit
      have hfunc : funcNumber (some (cstr "ON")) = funcOn ∧ funcNumber (some (cstr "OFF")) = funcOff := by
        decide
      obtain hword | hword := hword
      · simp only [commandPacket, if_true, hword, hfunc.1, hon, Option.map_none, ite_self]
      · simp only [commandPacket, if_true, hword, hfunc.2, hoff, Option.map_none, ite_self]
  | rfsec hword hunknown =>
      have hne : cstr "RFSEC" ≠ cstr "RF" ∧ cstr "RFSEC" ≠ cstr "RFCAM" := by decide
      simp only [commandPacket, hne, if_false, if_true, hword, rffuncNumber_unknown hunknown, hneg,
        or_true]
  | rfcam hkey hunknown =>
      have hne : cstr "RFCAM" ≠ cstr "RF" := by decide
      have hkey' : ¬ (-1 : Int) > 0 := by decide
      simp only [commandPacket, hne, if_false, if_true, hkey, findCamRemoteCommand_unknown hunknown,
        hkey', ite_self]

/-! ## `PL` commands -/

/-- `PL` with an unknown word answers -1 and sends the address. -/
theorem plCommand_unknown {t : Strtok} (h : UnknownWord (cstr "PL") (argv t)) (fd : Int) (w : World) :
    (plCommand fd t w).1 = -1 ∧ ∃ hu, plPackets (argv t) = [.houseunit hu] := by
  obtain ⟨word, hhouse, hunit, hword, hunknown⟩ : ∃ word, 0 ≤ (deviceaddrOf (argv t)[0]?).1 ∧
      0 ≤ (deviceaddrOf (argv t)[0]?).2 ∧ (argv t)[1]? = some word ∧
      ∀ name ∈ funccommands, word ≠ cstr name := by
    cases h with
    | pl hhouse hunit hword hunknown => exact ⟨_, hhouse, hunit, hword, hunknown⟩
  have hfunc := funcNumber_unknown hunknown
  have hneg : (-1 : Int) < 0 := by decide
  constructor
  · simp only [plCommand, plUnit, getdeviceaddr_eq, getfunc_fst, argv_nextWord,
      List.head?_eq_getElem?, List.getElem?_tail, zero_add, Int.not_lt.mpr hhouse,
      Int.not_lt.mpr hunit, hword, hfunc, hneg, if_false, if_true]
  · simp only [plPackets, plUnitPackets, List.getElem?_tail, zero_add, Int.not_lt.mpr hhouse,
      Int.not_lt.mpr hunit, hword, hfunc, hneg, if_false, if_true]
    exact ⟨_, rfl⟩

/-- Lines with an unknown word send nothing and leave no trace, and `PL` answers
-1: this holds exactly when the command is not `PL`. -/
theorem unknownWord_noTrace_iff {aLine command : Text} {ws : List Text}
    (hwords : words 32 (strupper aLine) = command :: ws) (h : UnknownWord command ws) (fd : Int)
    (w : World) :
    let r := processcommandline fd aLine w
    ((command = cstr "PL" → r.1 = -1) ∧ NoTrace w r.2.2) ↔ command ≠ cstr "PL" := by
  intro r
  have hpolicy : command ≠ cstr "<POLICY-FILE-REQUEST/>" := by
    cases h <;> decide
  obtain ⟨t, rfl, heq⟩ := @processcommandlineWith_words cm15aDecodeRf fd aLine command ws w hwords hpolicy
  constructor
  · rintro ⟨-, htrace⟩ rfl
    obtain ⟨-, hu, hpackets⟩ := plCommand_unknown h fd w
    have hwrites := (processcommandline_pl hwords fd w).writes.symm.trans htrace.writes
    rw [hpackets, foldl_transmit_writes] at hwrites
    simp at hwrites
  · intro hpl
    have hcommand : command = cstr "RF" ∨ command = cstr "RFCAM" ∨ command = cstr "RFSEC" := by
      cases h with
      | pl hhouse hunit hword hunknown => exact absurd rfl hpl
      | rf hword hunknown => exact .inl rfl
      | rfUnit hword hunit => exact .inl rfl
      | rfsec hword hunknown => exact .inr (.inr rfl)
      | rfcam hkey hunknown => exact .inr (.inl rfl)
    have hquiet := runCommand_sends fd t w hcommand
    rw [commandPacket_unknown h, ← heq] at hquiet
    exact ⟨fun h => absurd h hpl, .of_quiet hquiet⟩

/-- `rf a1 foo` is refused. -/
theorem rf_unknown_noTrace :
    let w := worldInit (stillSetup false)
    (words 32 (strupper (cstr "rf a1 foo")) = [cstr "RF", cstr "A1", cstr "FOO"]) ∧
      UnknownWord (cstr "RF") [cstr "A1", cstr "FOO"] ∧
      NoTrace w (processcommandline 5 (cstr "rf a1 foo") w).2.2 := by
  intro w
  have hwords : words 32 (strupper (cstr "rf a1 foo")) = [cstr "RF", cstr "A1", cstr "FOO"] := by decide
  have hbad : UnknownWord (cstr "RF") [cstr "A1", cstr "FOO"] :=
    @UnknownWord.rf _ (cstr "FOO") rfl (by decide)
  exact ⟨hwords, hbad, ((unknownWord_noTrace_iff hwords hbad 5 w).mpr (by decide)).2⟩

/-- `pl a1 foo` answers -1, and the address of A1 is sent and selected. -/
theorem pl_unknown_sends :
    let w := worldInit (stillSetup false)
    let r := processcommandline 5 (cstr "pl a1 foo") w
    words 32 (strupper (cstr "pl a1 foo")) = [cstr "PL", cstr "A1", cstr "FOO"] ∧
      UnknownWord (cstr "PL") [cstr "A1", cstr "FOO"] ∧ r.1 = -1 ∧
      r.2.2.writes = [⟨[0x04, 0x66], 2⟩] ∧ r.2.2.state.houseUnitSelected 0 0 = charOn ∧
      ¬ NoTrace w r.2.2 := by
  intro w r
  have hwrites : r.2.2.writes = [⟨[0x04, 0x66], 2⟩] := by decide
  refine ⟨by decide, @UnknownWord.pl _ (cstr "FOO") (by decide) (by decide) rfl (by decide), by decide,
    hwrites, by decide, fun htrace => ?_⟩
  have hnone := htrace.writes
  rw [hwrites] at hnone
  cases hnone

end Mochad
