import Mochad.Encode.PlcSend

/-!
# Mochad.Encode.RfSend

What an RF command line sends: the packet of its words (`commandPacket`), by one
call of `rfTransmit`; everything else the command does is output
(`processcommandline_rf`).
-/

namespace Mochad

open CString

/-! ## Packets -/

/-- The packet of an `RF` command, without its transmit code. -/
def rfTail (house unit : Int) (buf4 : UInt8) : List UInt8 :=
  let buf2 := housecoderfAt house <<< 4 ||| (lowByte unit &&& 0x08) >>> 1
  [0x20, buf2, ~~~buf2, buf4, ~~~buf4]

/-- The packet of an `RFCAM` command, without its transmit code. -/
def rfcamTail (house rfcamkey : Int) : List UInt8 :=
  let house := housecoderfAt house <<< 4
  let key := lowByte rfcamkey
  [0x14, house + (key - 0x2B), key, house]

/-- The packet of an `RFSEC` command, without its transmit code. -/
def rfsecTail (rf8bitaddr : Int) (rfaddr : Nat) (func : Int) : List UInt8 :=
  if rf8bitaddr ≠ 0 then
    [0x20, UInt8.ofNat rfaddr, UInt8.ofNat rfaddr ^^^ 0x0f, lowByte func, ~~~lowByte func]
  else
    [0x29, UInt8.ofNat (rfaddr >>> 16), UInt8.ofNat (rfaddr >>> 16) ^^^ 0x0f, lowByte func,
      ~~~lowByte func, UInt8.ofNat (rfaddr >>> 8), UInt8.ofNat rfaddr]

/-- The packet the words of a command line encode, if they are a valid RF
command. -/
def commandPacket : List Text → Option (List UInt8)
  | [] => none
  | command :: ws =>
      let (house, unit) := deviceaddrOf ws[0]?
      if command = cstr "RF" then
        let func := funcNumber ws[1]?
        if house < 0 ∨ func < 0 then none
        else (unitfuncByte unit func).map fun buf4 => 0xeb :: rfTail house unit buf4
      else if command = cstr "RFCAM" then
        if house < 0 then none
        else
          match ws[1]? with
          | none => none
          | some key =>
              if findCamRemoteCommand key > 0 then
                some (0xeb :: rfcamTail house (findCamRemoteCommand key))
              else none
      else if command = cstr "RFSEC" then
        let (rf8bitaddr, rfaddr) := rfaddrOf ws[0]?
        let func := rffuncNumber rf8bitaddr ws[1]?
        if rf8bitaddr < 0 ∨ func < 0 then none
        else some (0xeb :: rfsecTail rf8bitaddr rfaddr func)
      else none

/-! ## Commands -/

/-- The packet is transmitted, and nothing else done but output. -/
def Transmits (buf : List UInt8) (w r : World) : Prop :=
  ∃ v, Quiet w v ∧ r = (rfTransmit cm15aDecodeRf buf v).2

/-- A packet is transmitted; without one there is only output. -/
def SendsPacket (packet : Option (List UInt8)) (w r : World) : Prop :=
  match packet with
  | some buf => Transmits buf w r
  | none => Quiet w r

variable {buf : List UInt8} (fd : Int) (t : Strtok) (w : World)

/-- `RF` sends the packet of its words. -/
theorem rfCommand_sends :
    SendsPacket (commandPacket (cstr "RF" :: argv t)) w (rfCommand cm15aDecodeRf fd t w).2.2 := by
  have hack := ackOr20_quiet (Quiet.refl w) fd
  simp only [commandPacket, if_true, rfCommand, getdeviceaddr_eq, getfunc_fst, argv_nextWord,
    List.head?_eq_getElem?, List.getElem?_tail, zero_add]
  generalize deviceaddrOf (argv t)[0]? = addr
  obtain ⟨house, unit⟩ := addr
  generalize funcNumber (argv t)[1]? = func
  dsimp only
  by_cases hhouse : house < 0
  · rw [if_pos (.inl hhouse), if_pos hhouse]
    exact hack
  by_cases hfunc : func < 0
  · rw [if_pos (.inr hfunc), if_neg hhouse, if_pos hfunc]
    exact hack
  rw [if_neg (not_or.mpr ⟨hhouse, hfunc⟩), if_neg hhouse, if_neg hfunc]
  simp only [rfTxHouseunitfunc, hhouse, if_false]
  cases unitfuncByte unit func with
  | none => exact hack.access _ _
  | some buf4 => exact ⟨_, hack.access _ _, rfl⟩

theorem rfcamCommand_sends :
    SendsPacket (commandPacket (cstr "RFCAM" :: argv t)) w
      (rfcamCommand cm15aDecodeRf fd t w).2.2 := by
  have hack := ackOr20_quiet (Quiet.refl w) fd
  have hne : cstr "RFCAM" ≠ cstr "RF" := by decide
  have hfst := nextWord_fst (nextWord t).2
  rw [argv_nextWord, List.head?_tail] at hfst
  simp only [commandPacket, hne, if_false, if_true, rfcamCommand, getdeviceaddr_eq,
    List.head?_eq_getElem?]
  rw [← hfst]
  generalize (deviceaddrOf (argv t)[0]?).1 = house
  generalize nextWord (nextWord t).2 = word
  by_cases hhouse : house < 0
  · rw [if_pos hhouse, if_pos hhouse]
    exact hack
  rw [if_neg hhouse, if_neg hhouse]
  obtain ⟨_ | key, t'⟩ := word
  · exact hack
  dsimp only
  by_cases hkey : findCamRemoteCommand key > 0
  · rw [if_pos hkey, if_pos hkey]
    exact ⟨_, hack.access _ _, rfl⟩
  · rw [if_neg hkey, if_neg hkey]
    exact hack.sockprintf fd _

theorem rfsecCommand_sends :
    SendsPacket (commandPacket (cstr "RFSEC" :: argv t)) w
      (rfsecCommand cm15aDecodeRf fd t w).2.2 := by
  have hack := ackOr20_quiet (Quiet.refl w) fd
  have hrf : cstr "RFSEC" ≠ cstr "RF" := by decide
  have hcam : cstr "RFSEC" ≠ cstr "RFCAM" := by decide
  simp only [commandPacket, hrf, hcam, if_false, if_true, rfsecCommand, getrfaddr_eq, getrffunc_fst,
    argv_nextWord, List.head?_eq_getElem?, List.getElem?_tail, zero_add]
  generalize rfaddrOf (argv t)[0]? = addr
  obtain ⟨rf8bitaddr, rfaddr⟩ := addr
  dsimp only
  generalize rffuncNumber rf8bitaddr (argv t)[1]? = func
  by_cases haddr : rf8bitaddr < 0
  · rw [if_pos (.inl haddr), if_pos haddr]
    exact hack
  by_cases hfunc : func < 0
  · rw [if_pos (.inr hfunc), if_neg haddr, if_pos hfunc]
    exact hack
  rw [if_neg (not_or.mpr ⟨haddr, hfunc⟩), if_neg haddr, if_neg hfunc]
  refine ⟨ackOr20 fd w, hack, ?_⟩
  by_cases h8 : rf8bitaddr ≠ 0
  · rw [rfsecTx, rfsecTail, if_pos h8, if_pos h8]
  · rw [rfsecTx, rfsecTail, if_neg h8, if_neg h8]

/-- An RF command transmits the packet of its words, or only prints. -/
theorem runCommand_sends {command : Text}
    (hcommand : command = cstr "RF" ∨ command = cstr "RFCAM" ∨ command = cstr "RFSEC") :
    SendsPacket (commandPacket (command :: argv t)) w
      (runCommand cm15aDecodeRf fd command t w).2.2 := by
  obtain rfl | rfl | rfl := hcommand
  · exact rfCommand_sends fd t w
  · exact rfcamCommand_sends fd t w
  · exact rfsecCommand_sends fd t w

/-- A command that has a packet transmits it. -/
theorem transmits_runCommand {command : Text} (h : commandPacket (command :: argv t) = some buf) :
    Transmits buf w (runCommand cm15aDecodeRf fd command t w).2.2 := by
  have hcommand : command = cstr "RF" ∨ command = cstr "RFCAM" ∨ command = cstr "RFSEC" := by
    by_contra hno
    obtain ⟨hrf, hcam, hsec⟩ := by simpa only [not_or] using hno
    simp [commandPacket, hrf, hcam, hsec] at h
  have hsends := runCommand_sends fd t w hcommand
  rwa [h] at hsends

/-- A line with a packet transmits it. -/
theorem processcommandline_rf {aLine : Text}
    (h : commandPacket (words 32 (strupper aLine)) = some buf) :
    Transmits buf w (processcommandline fd aLine w).2.2 := by
  obtain ⟨hpolicy, -⟩ | ⟨hnone, -⟩ | ⟨command, t, hwords, heq⟩ :=
    processcommandlineWith_cases cm15aDecodeRf fd aLine w
  · rw [hpolicy, words_of_not_mem 32 (by decide) (by decide)] at h
    cases h
  · rw [hnone] at h
    cases h
  · rw [hwords] at h
    rw [processcommandline, heq]
    exact transmits_runCommand fd t w h

end Mochad
