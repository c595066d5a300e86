import Mochad.View

/-!
# Mochad.Acts

The program refines the abstract machine of `Mochad.View`: whatever the daemon
does with a packet or with the input of a client is a number of acts
(`acts_packet`, `acts_chunk`).  There is one lemma for each function that prints
or tracks something, in the order in which they call each other.
-/

namespace Mochad

open CString
open Relation (ReflTransGen)

section
variable {fd : Int} {n : Nat} {e : Prop}

/-- Lines are only added. -/
theorem lines_acts {v v' : View} (h : Acts fd n e v v') : v.lines <+: v'.lines := by
  induction h with
  | refl => exact List.prefix_rfl
  | tail _ hact ih =>
      refine ih.trans ?_
      cases hact with
      | line _ => exact List.prefix_append _ _
      | _ => exact List.prefix_rfl

/-- An announcement and its operations are one act. -/
theorem acts_announce (a : Announcement) (v : View) :
    Acts fd n e v ((v.track a.ops).print (-1) a.text) := .single (.announce a)

/-- A dump is one act; an empty one has to be allowed. -/
theorem acts_sockhexdump (p : Ptr) {len : Nat} (hlen : len = 0 → e) (w : World) :
    Acts fd n e w.view (w.sockhexdump (-1) p len).view :=
  .single (@Act.dump fd n e w.view [] (by simp) p len hlen)

/-- So is the dump of the raw data, under its heading. -/
theorem acts_mhSockhexdump (p : Ptr) {len : Nat} (hlen : len = 0 → e) (w : World) :
    Acts fd n e w.view (w.mhSockhexdump (-1) p len).view :=
  .single (@Act.dump fd n e w.view (cstr "Raw data received: ") (by simp) p len hlen)

/-! ## Power line packets -/

/-- A house function at a computed house tracks its operation. -/
theorem view_huaFunc {f : Fin 16 → X10state → X10state} {house : Int} {op : HuaOp}
    (h : op.apply = f (World.idx16 house)) (w : World) :
    (w.huaFunc f house).view = w.view.track [op] := by
  simp only [World.view, World.huaFunc, View.track]
  rw [View.mk.injEq, ← h]
  exact ⟨devices_apply op w.state, rfl, rfl, rfl, rfl, rfl⟩

/-- The function of a power line packet tracks the operation it stands for, or none. -/
theorem view_plcFunc (hf : UInt8) (w : World) :
    (plcFunc (hfcDecode hf).2 ((hfcDecode hf).1.toNat - 65) w).view =
      w.view.track (plcFuncOp hf).toList := by
  unfold plcFunc plcFuncOp
  by_cases h0 : (hfcDecode hf).2 = 0 ∨ (hfcDecode hf).2 = 6
  · rw [if_pos h0, if_pos h0]
    exact view_huaFunc rfl w
  rw [if_neg h0, if_neg h0]
  by_cases h1 : (hfcDecode hf).2 = 1
  · rw [if_pos h1, if_pos h1]
    exact view_huaFunc rfl w
  rw [if_neg h1, if_neg h1]
  by_cases h2 : (hfcDecode hf).2 = 2 ∨ (hfcDecode hf).2 = 13
  · rw [if_pos h2, if_pos h2]
    exact view_huaFunc rfl w
  rw [if_neg h2, if_neg h2]
  by_cases h3 : (hfcDecode hf).2 = 3 ∨ (hfcDecode hf).2 = 14
  · rw [if_pos h3, if_pos h3]
    exact view_huaFunc rfl w
  · rw [if_neg h3, if_neg h3]
    rfl

/-- An extended code is announced, and tracked as it is announced. -/
theorem acts_plcExtended (b0 hf u data command : UInt8) (w : World) :
    Acts fd n e w.view (plcExtended (-1) b0 hf u data command w).view := by
  have hview : (plcExtended (-1) b0 hf u data command w).view =
      (w.view.track [.setstatusXdim (plcHouse hf) (plcUnit u) data.toNat]).print (-1)
        (Announcement.extended b0 hf u data command).text := rfl
  rw [hview]
  exact acts_announce (.extended b0 hf u data command) w.view

/-- A power line packet is announced once, or ignored. -/
theorem acts_decodePlc (buf : Ptr) (len : Nat) (w : World) :
    Acts fd n e w.view (cm15aDecodePlc (-1) buf len w).view := by
  let Q : World → Prop := fun r => Acts fd n e w.view r.view
  have hself : Q w := .refl
  change Q _
  unfold cm15aDecodePlc
  refine iteInduction (fun _ => hself) fun _ => ?_
  refine iteInduction (fun _ => hself) fun _ => ?_
  refine iteInduction (fun _ => iteInduction (fun _ => hself) fun _ => ?_) fun _ => ?_
  · change Acts fd n e w.view (View.print (-1) _ (World.huaAdd _ _ (w.accessHuc (buf 3))).view)
    rw [view_huaAdd]
    exact acts_announce (.houseunit (buf 0) (buf 3)) w.view
  refine iteInduction (fun _ => iteInduction (fun _ => hself) fun _ => ?_) fun _ => ?_
  · have hfunc : _ = w.view.track (plcFuncOp (buf 3)).toList := view_plcFunc (buf 3) (w.accessHfc (buf 3))
    have hannounce : Acts fd n e w.view (View.print (-1) _ (w.view.track (plcFuncOp (buf 3)).toList)) :=
      acts_announce (.housefunc (buf 0) (buf 3)) w.view
    rw [← hfunc] at hannounce
    exact hannounce
  refine iteInduction (fun _ => iteInduction (fun _ => hself) fun _ => ?_) fun _ => ?_
  · exact acts_announce (.dimbright (buf 0) (buf 4) ((buf 3 &&& 0xF8) >>> 3)) w.view
  refine iteInduction (fun _ => iteInduction (fun _ => hself) fun _ => ?_) fun _ => ?_
  · exact acts_plcExtended _ _ _ _ _ w
  refine iteInduction (fun _ => iteInduction (fun _ => hself) fun _ => ?_) fun _ => hself
  exact acts_plcExtended _ _ _ _ _ w

/-! ## Power line commands -/

/-- The address a client sends is announced as if it had been received. -/
theorem acts_plTxHouseunit (house unit : Int) (w : World) :
    Acts fd n e w.view (plTxHouseunit house unit w).2.view :=
  acts_decodePlc _ _ ((w.access .x10housecode house).access .x10housecode unit)

/-- So is an extended code. -/
theorem acts_plTxExtendedCode1 (house unit command subcmd param : Int) (w : World) :
    Acts fd n e w.view (plTxExtendedCode1 house unit command subcmd param w).2.view :=
  acts_decodePlc _ _ ((w.access .x10housecode house).access .x10housecode unit)

/-- So is a function, in each of the three forms it is sent in. -/
theorem acts_plTxHousefunc (house func param : Int) (w : World) :
    Acts fd n e w.view (plTxHousefunc house func param w).2.view := by
  unfold plTxHousefunc
  dsimp only
  split
  · exact acts_decodePlc _ _ (w.access .x10housecode house)
  split
  · exact acts_decodePlc _ _ (w.access .x10housecode house)
  · exact acts_decodePlc _ _ (w.access .x10housecode house)

/-- Commands behind the bridge have no client to answer. -/
theorem acts_ackOr20 {fd' : Int} (hfd : fd' = fd ∨ fd' = -1) (w : World) :
    Acts fd n e w.view (ackOr20 fd' w).view := by
  unfold ackOr20
  split
  · exact .single (.status hfd (@StatusReply.word (cstr "ok") (by simp)))
  · exact .refl

/-- A function for a house. -/
theorem acts_plHouse (house : Int) (t : Strtok) (w : World) :
    Acts fd n e w.view (plHouse house t w).2.2.view := by
  unfold plHouse
  dsimp only
  split
  · exact .refl
  split
  · exact acts_plTxHousefunc _ _ _ w
  · exact acts_plTxHousefunc _ _ _ w

/-- The address of a unit, and a function or an extended code. -/
theorem acts_plUnit (house unit : Int) (t : Strtok) (w : World) :
    Acts fd n e w.view (plUnit house unit t w).2.2.view := by
  have hselect := @acts_plTxHouseunit fd n e house unit w
  unfold plUnit
  dsimp only
  split
  · exact hselect
  split
  · exact acts_plTxExtendedCode1 _ _ _ _ _ w
  split
  · exact hselect.trans (acts_plTxHousefunc _ _ _ _)
  split
  · exact acts_plTxExtendedCode1 _ _ _ _ _ w
  · exact hselect.trans (acts_plTxHousefunc _ _ _ _)

/-- `PL`, for a client or for the bridge. -/
theorem acts_plCommand {fd' : Int} (hfd : fd' = fd ∨ fd' = -1) (t : Strtok) (w : World) :
    Acts fd n e w.view (plCommand fd' t w).2.2.view := by
  have hack := @acts_ackOr20 fd n e fd' hfd w
  unfold plCommand
  dsimp only
  split
  · exact hack
  split
  · exact hack.trans (acts_plHouse _ _ _)
  · exact hack.trans (acts_plUnit _ _ _ _)

/-! ## RF packets -/

/-- What the decoder needs of its parser: the bridge commands are acts. -/
def ActsParser (fd : Int) (n : Nat) (e : Prop) (parse : Int → Text → World → World) : Prop :=
  ∀ housechar unit funcint w, Acts fd n e w.view (parse (-1) (bridgeCommand housechar unit funcint) w).view

/-- `processcommandline` does only acts with the commands of the bridge, whatever
decoder it has. -/
theorem actsParser_pl (d : Int → Ptr → Nat → World → World) :
    ActsParser fd n e fun fd aLine w => (processcommandlineWith d fd aLine w).2.2 := by
  intro housechar unit funcint w
  obtain ⟨ws, hws⟩ := words_bridgeCommand housechar unit funcint
  obtain ⟨t, -, heq⟩ := @processcommandlineWith_words d (-1) _ _ _ w hws (by decide)
  dsimp only
  rw [heq, runCommand, if_pos rfl]
  exact acts_plCommand (.inr rfl) t w

/-- Repeating a packet is announced. -/
theorem acts_repeatRF (buf : Ptr) (len : Nat) (w : World) :
    Acts fd n e w.view (repeatRF (-1) buf len w).view := by
  have hannounce := @acts_announce fd n e .rfToRf w.view
  unfold repeatRF
  dsimp only
  split
  · split <;> exact hannounce
  · exact .refl

/-- The text of a camera packet is a house and the name of a key. -/
theorem camera_text {buf : Ptr} {len : Nat} {commandp : Text} (h : classifyRf buf len = .camera commandp) :
    ∃ (housecode : UInt8) (keyindex : Nat), commandp = [houseUnitTableRF.getD housecode.toNat 0] ++
      cstr " " ++ cstr ((rfcamKeyCodes.getD keyindex none).getD "") := by
  have hcam : camRemoteText (buf.add 1) (len - 1) = some commandp := by
    revert h
    unfold classifyRf
    split
    · rintro ⟨⟩
    split
    · cases camRemoteText (buf.add 1) (len - 1) with
      | none => rintro ⟨⟩
      | some text =>
          rintro ⟨⟩
          rfl
    split
    · split
      · split <;> rintro ⟨⟩
      · split
        · split <;> rintro ⟨⟩
        · rintro ⟨⟩
    split
    · cases secafDecode buf len <;> rintro ⟨⟩
    · rintro ⟨⟩
  revert hcam
  unfold camRemoteText
  split
  · rintro ⟨⟩
  dsimp only
  split
  · rintro ⟨⟩
  split
  · rintro ⟨⟩
  · intro hmap
    obtain ⟨name, hname, rfl⟩ := Option.map_eq_some_iff.mp hmap
    exact ⟨_, _, by rw [hname]; rfl⟩

/-- An accepted packet is tracked as its announcement says. -/
theorem exists_announcement {k : RfPacket} {buf : Ptr} {len : Nat} (hk : classifyRf buf len = k)
    (hne : k ≠ .rejected) : ∃ a : Announcement,
      a.text = rfShown k buf ∧ ∀ w, (rfTrack k buf w).view = w.view.track a.ops := by
  cases k with
  | rejected => exact absurd rfl hne
  | security8 => exact ⟨.security8 (buf 0) (buf 2) (buf 4), rfl, view_huaSecEvent _ _ _⟩
  | securityLong a0 a1 a2 funcint =>
      exact ⟨.securityLong (buf 0) a0 a1 a2 funcint, rfl, view_huaSecEvent _ _ _⟩
  | standard =>
      refine ⟨.standard (buf 0) (buf 2) (buf 4), rfl, fun w => ?_⟩
      simp only [rfTrack, World.view, View.track, devices_applyOps]
      rfl
  | camera commandp =>
      obtain ⟨housecode, keyindex, rfl⟩ := camera_text hk
      exact ⟨.camera (buf 0) housecode keyindex, rfl, fun w => rfl⟩

/-- The bridge does only acts, if its parser does. -/
theorem acts_rfBridge {parse : Int → Text → World → World} (hparse : ActsParser fd n e parse) (k : RfPacket)
    (buf : Ptr) (w : World) : Acts fd n e w.view (rfBridge parse (-1) k buf w).view := by
  cases k with
  | standard =>
      simp only [rfBridge]
      split
      · exact hparse _ _ _ (w.access _ _)
      · exact .refl
  | _ => exact .refl

/-- A decoded packet is announced and tracked, then repeated, then bridged. -/
theorem acts_decoded {parse : Int → Text → World → World} (hparse : ActsParser fd n e parse) {k : RfPacket}
    {buf : Ptr} {len : Nat} {w r : World} (hk : classifyRf buf len = k) (hne : k ≠ .rejected)
    (h : RfDecoded parse (-1) k buf len w r) : Acts fd n e w.view r.view := by
  obtain ⟨acc, rfl⟩ := h
  obtain ⟨a, htext, htrack⟩ := exists_announcement hk hne
  refine .trans ?_ (acts_rfBridge hparse k buf _)
  refine .trans ?_ (acts_repeatRF buf len _)
  rw [view_sockprintf, view_accessAll, htrack, view_dupFilter, ← htext]
  exact acts_announce a w.view

/-- What becomes of a packet that is not rejected. -/
theorem acts_accepted {parse : Int → Text → World → World} (hparse : ActsParser fd n e parse) {k : RfPacket}
    {buf : Ptr} {len : Nat} {w r : World} (hk : classifyRf buf len = k) (hne : k ≠ .rejected)
    (h : RfAccepted parse (-1) k buf len w r)
    (hdup : (dupFilter buf len w).1 = true → r = (dupFilter buf len w).2) : Acts fd n e w.view r.view := by
  obtain ⟨hd, -⟩ | ⟨-, hdec⟩ := h
  · rw [hdup hd, view_dupFilter]
  · exact acts_decoded hparse hk hne hdec

/-- A packet that is not decoded is complained of, and its bytes are shown. -/
theorem acts_complaint (x : RfExit) (p : Ptr) {len : Nat} (hlen : len = 0 → e) (w : World) :
    Acts fd n e w.view ((w.sockprintf (-1) x.message).sockhexdump (-1) p len).view :=
  .trans (acts_announce (.rejected x) w.view) (acts_sockhexdump p hlen (w.sockprintf (-1) x.message))

/-- The RF decoder makes an empty dump only of a packet that it skips whole. -/
theorem acts_decodeRfWith {parse : Int → Text → World → World} (hparse : ActsParser fd n e parse) {buf : Ptr}
    {len : Nat} (hskip : (skipExtra buf len).2 = 0 → e) (w : World) :
    Acts fd n e w.view (cm15aDecodeRfWith parse (-1) buf len w).view := by
  unfold cm15aDecodeRfWith
  revert hskip
  obtain ⟨p, m⟩ := skipExtra buf len
  intro hskip
  dsimp only
  by_cases h5 : m < 5
  · rw [if_pos h5]
    exact acts_complaint (.tooShort m) p hskip w
  rw [if_neg h5]
  by_cases h8 : m > 8
  · rw [if_pos h8]
    exact acts_complaint (.tooLong m) p hskip w
  rw [if_neg h8]
  have hlen : ¬ (m < 5 ∨ m > 8) := not_or.mpr ⟨h5, h8⟩
  by_cases k14 : p 1 = 0x14
  · rw [if_pos k14]
    obtain ⟨acc, hcam⟩ := findCamRemoteName_spec (p.add 1) (m - 1) w
    rw [hcam]
    cases htext : camRemoteText (p.add 1) (m - 1) with
    | none => exact acts_complaint .unknownCamera p hskip (w.accessAll acc)
    | some commandp =>
        have hk : classifyRf p m = .camera commandp := by
          rw [classifyRf, if_neg hlen, if_pos k14, htext]
        have hcase := rfCamera_accepted parse (-1) p m commandp (w.accessAll acc)
        have hacts : Acts fd n e (w.accessAll acc).view (rfCamera (-1) p m commandp (w.accessAll acc)).view :=
          acts_accepted hparse hk (by simp) hcase fun hd => by simp only [rfCamera, hd, if_true]
        exact hacts
  rw [if_neg k14]
  by_cases k20 : p 1 = 0x20
  · rw [if_pos k20]
    by_cases c0 : p 2 ^^^ p 3 = 0x0f
    · rw [if_pos c0]
      by_cases c4 : p 4 ^^^ p 5 ≠ 0xff
      · rw [if_pos c4]
        exact acts_complaint .invalidChecksum p hskip w
      · rw [if_neg c4]
        have hk : classifyRf p m = .security8 := by
          rw [classifyRf, if_neg hlen, if_neg k14, if_pos k20, if_pos c0, if_neg c4]
        exact acts_accepted hparse hk (by simp) (rfSecurity8_accepted parse (-1) p m w)
          fun hd => by simp only [rfSecurity8, hd, if_true]
    rw [if_neg c0]
    by_cases cf : p 2 ^^^ p 3 = 0xff
    · rw [if_pos cf]
      by_cases c4 : p 4 ^^^ p 5 ≠ 0xff ∧ p 4 ^^^ p 5 ≠ 0xfb
      · rw [if_pos c4]
        exact acts_complaint .invalidChecksum p hskip w
      · rw [if_neg c4]
        have hk : classifyRf p m = .standard := by
          rw [classifyRf, if_neg hlen, if_neg k14, if_pos k20, if_neg c0, if_pos cf, if_neg c4]
        exact acts_accepted hparse hk (by simp) (rfStandard_accepted parse (-1) p m w)
          fun hd => by simp only [rfStandard, hd, if_true]
    · rw [if_neg cf]
      exact acts_complaint (.invalidHouse _) p hskip w
  rw [if_neg k20]
  by_cases k29 : p 1 = 0x29
  · rw [if_pos k29]
    cases hsec : secafDecode p m with
    | invalidChecksum => exact acts_announce (.rejected .invalidChecksum) w.view
    | invalidParity => exact acts_announce (.rejected .invalidParity) w.view
    | ok a0 a1 a2 funcint =>
        have hk : classifyRf p m = .securityLong a0 a1 a2 funcint := by
          rw [classifyRf, if_neg hlen, if_neg k14, if_neg k20, if_pos k29, hsec]
        exact acts_accepted hparse hk (by simp) (rfSecurityLong_accepted parse (-1) p m a0 a1 a2 funcint w)
          fun hd => by simp only [rfSecurityLong, hd, if_true]
  · rw [if_neg k29]
    exact acts_complaint (.notSupported (p 1)) p hskip w

/-- The RF decoder with the parser of the program. -/
theorem acts_decodeRf {buf : Ptr} {len : Nat} (hskip : (skipExtra buf len).2 = 0 → e) (w : World) :
    Acts fd n e w.view (cm15aDecodeRf (-1) buf len w).view :=
  acts_decodeRfWith (actsParser_pl _) hskip w

/-- A radio packet that is nothing but extra `5D` bytes. -/
def Happening.Vanishes : Happening → Prop
  | .packet buf len => 4 ≤ len ∧ ∀ i < len, buf i = 0x5d
  | _ => False

instance : DecidablePred Happening.Vanishes
  | .packet _ _ => inferInstanceAs (Decidable (_ ∧ _))
  | .accept _ _ | .chunk _ _ | .disconnect _ _ | .timeout => inferInstanceAs (Decidable False)

/-- A packet that is skipped whole has `5D` in all places behind the first. -/
theorem extra_of_skipExtra {buf : Ptr} {len : Nat} (h : (skipExtra buf len).2 = 0) :
    ∀ i < len, buf (i + 1) = 0x5d := by
  induction len generalizing buf with
  | zero => exact fun i hi => absurd hi (Nat.not_lt_zero i)
  | succ len ih =>
      rw [skipExtra] at h
      split at h
      · rename_i hfirst
        intro i hi
        cases i with
        | zero => exact hfirst
        | succ i =>
            have hrest := ih h i (Nat.lt_of_succ_lt_succ hi)
            rwa [Ptr.add, Nat.add_comm 1] at hrest
      · cases h

/-- A packet from the controller. -/
theorem acts_packet (buf : Ptr) (len : Nat) (w : World) :
    Acts fd n (Happening.Vanishes (.packet buf len)) w.view (cm15aDecode (-1) buf len w).view := by
  unfold cm15aDecode
  split
  · exact .refl
  rename_i hlen
  dsimp only
  obtain ⟨m, hm⟩ : ∃ m, m = if w.cm19a then len + 1 else len := ⟨_, rfl⟩
  obtain ⟨p, hp⟩ : ∃ p : Ptr, p = if w.cm19a then
    fun i => if i = 0 then 0x5d else if i ≤ len then buf (i - 1) else w.junk i else buf := ⟨_, rfl⟩
  rw [← hm, ← hp]
  have hm0 : m ≠ 0 := by
    rw [hm]
    split <;> omega
  have hskip : p 0 = 0x5d → (skipExtra p m).2 = 0 → Happening.Vanishes (.packet buf len) := by
    intro hrf hzero
    have hextra := extra_of_skipExtra hzero
    refine ⟨by omega, fun i hi => ?_⟩
    by_cases hcm19a : w.cm19a = true
    · rw [if_pos hcm19a] at hm hp
      have hbyte := hextra i (by omega)
      simpa [hp, show i + 1 ≤ len by omega] using hbyte
    · rw [if_neg hcm19a] at hm hp
      rw [hp] at hrf hextra
      cases i with
      | zero => exact hrf
      | succ i => exact hextra i (by omega)
  have hraw : ∀ e, Acts fd n e w.view (if w.rawData then w.mhSockhexdump (-1) p m else w).view := by
    intro e
    split
    · exact acts_mhSockhexdump p (fun h => absurd h hm0) w
    · exact .refl
  split
  · exact (hraw _).trans (acts_decodePlc _ _ _)
  split
  · exact (hraw _).trans (acts_decodeRf (hskip ‹_›) _)
  · exact hraw _

/-! ## RF commands -/

/-- No command makes a packet that starts with an extra `5D`. -/
theorem acts_rfTransmit {b0 b1 : UInt8} (h1 : b1 ≠ 0x5d) (rest : List UInt8) (w : World) :
    Acts fd n e w.view (rfTransmit cm15aDecodeRf (b0 :: b1 :: rest) w).2.view := by
  have hskip : (skipExtra (Ptr.ofList (b0 :: b1 :: rest)) (b0 :: b1 :: rest).length).2 = 0 → e := by
    rw [skipExtra_of_ne h1]
    exact fun h => absurd h (Nat.succ_ne_zero _)
  have hdecode := @acts_decodeRf fd n e _ _ hskip w
  unfold rfTransmit
  dsimp only
  split <;> exact hdecode

/-! ## Commands -/

/-- `RF`: the packet it makes is decoded like a received one. -/
theorem acts_rfCommand (t : Strtok) (w : World) :
    Acts fd n e w.view (rfCommand cm15aDecodeRf fd t w).2.2.view := by
  have hack := @acts_ackOr20 fd n e fd (.inl rfl) w
  unfold rfCommand
  dsimp only
  split
  · exact hack
  split
  · exact hack
  unfold rfTxHouseunitfunc
  split
  · exact hack
  dsimp only
  split
  · exact hack
  · exact hack.trans (acts_rfTransmit (by decide) _ ((ackOr20 fd w).access _ _))

/-- `RFSEC`, with an address of 8 bits or a long one. -/
theorem acts_rfsecCommand (t : Strtok) (w : World) :
    Acts fd n e w.view (rfsecCommand cm15aDecodeRf fd t w).2.2.view := by
  have hack := @acts_ackOr20 fd n e fd (.inl rfl) w
  unfold rfsecCommand
  dsimp only
  split
  · exact hack
  split
  · exact hack
  unfold rfsecTx
  dsimp only
  split <;> exact hack.trans (acts_rfTransmit (by decide) _ _)

/-- `RFCAM`; a key it does not know is named in the reply. -/
theorem acts_rfcamCommand (hfd : fd ≠ -1) {t : Strtok} (hargs : ∀ arg ∈ argv t, 10 ∉ arg) (w : World) :
    Acts fd n e w.view (rfcamCommand cm15aDecodeRf fd t w).2.2.view := by
  have hack := @acts_ackOr20 fd n e fd (.inl rfl) w
  have hkey := nextWord_fst (nextWord t).2
  rw [argv_nextWord] at hkey
  unfold rfcamCommand
  simp only [getdeviceaddr_eq]
  split
  · exact hack
  revert hkey
  obtain ⟨_ | arg1, t'⟩ := nextWord (nextWord t).2
  · exact fun _ => hack
  intro hkey
  have hmem : arg1 ∈ argv t := List.mem_of_mem_tail (List.mem_of_mem_head? hkey.symm)
  dsimp only
  split
  · exact hack.trans (acts_rfTransmit (by decide) _ ((ackOr20 fd w).access _ _))
  · exact hack.tail (.reply hfd (.invalid (hargs arg1 hmem)))

/-- `PT` tells an OpenRemote 2.0 client that it has arrived, and says nothing else. -/
theorem acts_ptCommand (t : Strtok) (w : World) : Acts fd n e w.view (ptCommand fd t w).2.2.view := by
  have hack := @acts_ackOr20 fd n e fd (.inl rfl) w
  simp only [ptCommand]
  split <;> exact hack

/-- `RFTOPL` replies with the houses it has enabled. -/
theorem acts_rftoplCommand (hfd : fd ≠ -1) (t : Strtok) (w : World) :
    Acts fd n e w.view (rftoplCommand fd t w).2.2.view :=
  (acts_ackOr20 (.inl rfl) w).tail (.reply hfd (.rftopl _))

/-- `RFTORF` replies with the switch of the repeater. -/
theorem acts_rftorfCommand (hfd : fd ≠ -1) (t : Strtok) (w : World) :
    Acts fd n e w.view (rftorfCommand fd t w).2.2.view := by
  have hack := @acts_ackOr20 fd n e fd (.inl rfl) w
  unfold rftorfCommand
  obtain ⟨_ | arg1, t'⟩ := nextWord t <;> exact hack.tail (.reply hfd (.rftorf _))

/-- The lines of a device list are printed and sent as messages. -/
theorem acts_showLine (hfd : fd ≠ -1) {lines : List Text} {s : X10state}
    (hreply : ∀ text ∈ lines, Reply s text) (hmessage : ∀ text ∈ lines, Message s (some text))
    {w : World} (hs : w.state.devices = s) : Acts fd n e w.view (lines.foldl (showLine fd) w).view := by
  induction lines generalizing w with
  | nil => exact .refl
  | cons text lines ih =>
      obtain ⟨hr, hreply⟩ := List.forall_mem_cons.mp hreply
      obtain ⟨hm, hmessage⟩ := List.forall_mem_cons.mp hmessage
      have hone : Acts fd n e w.view (showLine fd w text).view := by
        subst hs
        exact .tail (.single (.reply hfd hr)) (.message hm)
      exact hone.trans (ih hreply hmessage hs)

/-- The lines of the sensors are printed, and their names sent as messages. -/
theorem acts_showSensor (hfd : fd ≠ -1) (sens : List X10secsensor) (w : World) :
    Acts fd n e w.view (sens.foldl (showSensor fd) w).view := by
  induction sens generalizing w with
  | nil => exact .refl
  | cons sen sens ih =>
      have hone : Acts fd n e w.view (showSensor fd w sen).view :=
        .tail (.single (.message (.sensor sen))) (.reply hfd (.sensor sen.secaddr _ _ sen))
      exact hone.trans (ih _)

/-- The whole report of `ST` is headings, device lists and sensors for the client. -/
theorem acts_huaShow (hfd : fd ≠ -1) (w : World) : Acts fd n e w.view (huaShow fd w).view := by
  have hprint : ∀ {text : Text} (v : World), text ∈ [cstr "Device selected\n", cstr "Device status\n",
      cstr "Security sensor status\n", cstr "End status\n"] → Acts fd n e v.view (v.sockprintf fd text).view :=
    fun v htext => .single (.reply hfd (.heading htext))
  have hselected : ∀ v : World,
      Acts fd n e v.view ((houseLines (selectedItem v.state)).foldl (showLine fd) v).view := fun v =>
    acts_showLine hfd (s := v.state.devices) (fun _ => .selected) (fun _ => .selected) rfl
  have hstatus : ∀ v : World,
      Acts fd n e v.view ((houseLines (statusItem v.state)).foldl (showLine fd) v).view := fun v =>
    acts_showLine hfd (s := v.state.devices) (fun _ => .status) (fun _ => .status) rfl
  have hsort : ∀ v : World, Acts fd n e v.view ({ v with state := sortSensors v.state } : World).view :=
    fun _ => .refl
  exact (hprint w (by simp)).trans <| (hselected _).trans <| (hprint _ (by simp)).trans <|
    (hstatus _).trans <| (hprint _ (by simp)).trans <| (hsort _).trans <|
    (acts_showSensor hfd _ _).trans (hprint _ (by simp))

/-- `ST 0` is a reset of the devices; any other `ST` is answered by the report. -/
theorem acts_stCommand (hfd : fd ≠ -1) {t : Strtok} {w : World} {aLine : Text}
    (hline : LastLine n (fd, aLine) w.lines) (hwords : words 32 (strupper aLine) = cstr "ST" :: argv t) :
    Acts fd n e w.view (stCommand fd t w).2.2.view := by
  have hfst := nextWord_fst t
  unfold stCommand
  dsimp only
  split
  · rename_i h0
    rw [h0] at hfst
    obtain ⟨ws, hws⟩ := List.head?_eq_some_iff.mp hfst.symm
    exact .single (.reset hline ⟨ws, by rw [hwords, hws]⟩)
  · exact acts_huaShow hfd w

/-- An answer to `GETSTATUS`, and the message that goes with it. -/
theorem acts_answer (house unit : Fin 16) {text message : Text} (h : StatusReply text)
    (hmessage : message = [UInt8.ofInt (65 + house.val)] ++ dec (1 + unit.val) ++ cstr " " ++ text)
    (w : World) : Acts fd n e w.view ((w.statusprintf fd text).sendMessage (some message)).view := by
  subst hmessage
  exact .tail (.single (.status (.inl rfl) h)) (.message (.getstatus house unit h))

/-- On and off are replies. -/
theorem statusReply_onOff (c : Prop) [Decidable c] :
    StatusReply ((if c then cstr "on" else cstr "off") ++ cstr "\n") := by
  refine .word ?_
  split <;> simp

/-- `GETSTATUS`, for a dim level or for on and off. -/
theorem acts_getstatusCommand (t : Strtok) (w : World) :
    Acts fd n e w.view (getstatusCommand fd t w).2.2.view := by
  unfold getstatusCommand
  simp only [getdeviceaddr_eq]
  split
  · rename_i hpos
    obtain hneg | ⟨house, hhouse, hneg | ⟨unit, hunit⟩⟩ := deviceaddrOf_range (argv t).head?
    · omega
    · omega
    rw [hhouse, hunit]
    split
    · split
      · exact acts_answer house unit (.level _) (List.append_assoc ..)
          ((w.access .house house.val).access .unit unit.val)
      · exact acts_answer house unit (@StatusReply.word (cstr "-1") (by simp)) rfl w
    · exact acts_answer house unit (statusReply_onOff _) (List.append_assoc ..)
        ((w.access .house house.val).access .unit unit.val)
  · exact .refl

/-- `GETSTATUSSEC` is answered without a message. -/
theorem acts_getstatussecCommand (t : Strtok) (w : World) :
    Acts fd n e w.view (getstatussecCommand fd t w).2.2.view := by
  unfold getstatussecCommand
  simp only [getrfaddr_eq]
  split
  · exact .refl
  · exact .single (.status (.inl rfl) (statusReply_onOff _))

/-- Whatever the command word is, the command does only acts of its client. -/
theorem acts_runCommand (hfd : fd ≠ -1) {command : Text} {t : Strtok} {w : World} {aLine : Text}
    (hline : LastLine n (fd, aLine) w.lines) (hwords : words 32 (strupper aLine) = command :: argv t)
    (hargs : ∀ arg ∈ argv t, 10 ∉ arg) :
    Acts fd n e w.view (runCommand cm15aDecodeRf fd command t w).2.2.view :=
  runCommand_cases (P := fun r => Acts fd n e w.view r.view)
    (fun _ => acts_plCommand (.inl rfl) t w)
    (fun _ => acts_rfCommand t w)
    (fun _ => acts_rfsecCommand t w)
    (fun _ => acts_rfcamCommand hfd hargs w)
    (fun _ => acts_ptCommand t w)
    (fun _ => acts_rftoplCommand hfd t w)
    (fun _ => acts_rftorfCommand hfd t w)
    (fun hst => acts_stCommand hfd hline (hst ▸ hwords))
    (fun _ => acts_getstatusCommand t w)
    (fun _ => acts_getstatussecCommand t w)
    .refl

/-- Upper case letters end no line. -/
theorem newline_not_mem_strupper {aLine : Text} (h : ∀ b ∈ aLine, isLineEnd b = false) :
    10 ∉ strupper aLine := by
  intro hmem
  obtain ⟨b, hb, hup⟩ := List.mem_map.mp hmem
  have hb10 : b = 10 := by
    revert hup
    unfold toupper
    split
    · rename_i hl
      intro hup
      have h97 : 97 ≤ b.toNat := by
        simpa [islower, UInt8.le_iff_toNat_le] using (Bool.and_eq_true_iff.mp hl).1
      have hsub := UInt8.toNat_sub_of_le b 32 (UInt8.le_iff_toNat_le.mpr (le_trans (by decide) h97))
      rw [hup] at hsub
      have h32 : (32 : UInt8).toNat = 32 := rfl
      have h10 : (10 : UInt8).toNat = 10 := rfl
      omega
    · exact id
  rw [hb10] at hb
  exact absurd (h 10 hb) (by decide)

/-- A line without a line end in it, just noted as executed, is a number of acts. -/
theorem acts_processcommandline (hfd : fd ≠ -1) {w : World} {aLine : Text}
    (hline : LastLine n (fd, aLine) w.lines) (hclean : ∀ b ∈ aLine, isLineEnd b = false) :
    Acts fd n e w.view (processcommandline fd aLine w).2.2.view := by
  have hupper := newline_not_mem_strupper hclean
  obtain ⟨hpolicy, heq⟩ | ⟨-, heq⟩ | ⟨command, t, hwords, heq⟩ :=
    processcommandlineWith_cases cm15aDecodeRf fd aLine w
  · rw [processcommandline, heq]
    exact .single (.policy hline hpolicy)
  · rw [processcommandline, heq]
  · rw [processcommandline, heq]
    refine acts_runCommand hfd hline hwords fun arg harg hnewline => hupper ?_
    refine @mem_of_mem_words 32 10 _ arg ?_ hnewline
    rw [hwords]
    exact List.mem_cons_of_mem command harg

/-! ## Lines -/

/-- A closed client is one of the OpenRemote 2.0 port. -/
theorem acts_finish {w : World} (h : w.or20client fd = true) : Acts fd n e w.view (w.delClient fd).2.view := by
  have hport : w.view.sockPort fd = some (serverPort + 2) := beq_iff_eq.mp h
  obtain ⟨-, heq⟩ | ⟨k, i, hi, heq⟩ := delClient_cases fd w
  · rw [heq]
  · have hview : (w.delClient fd).2.view = { w.view with
        clients := w.clients.setTable k ((w.clients.table k).set i (-1)) (w.clients.count k - 1)
        sockPort := if k = 2 then Function.update w.sockPort fd none else w.sockPort
        io := w.io ++ if k = 2 then [.shutdown fd, .close fd] else [] } := by
      rw [heq]
      split <;> simp [World.view, World.emit, World.close]
    rw [hview]
    exact .single (.finish k i hport hi)

/-- Passing the buffer on: the line is noted, executed, and an OpenRemote 2.0 client
is closed. -/
theorem acts_runRemainder (hfd : fd ≠ -1) {w : World} (hn : n ≤ w.lines.length)
    (hclean : ∀ b ∈ cString w.remainder, isLineEnd b = false) :
    Acts fd n e w.view (w.runRemainder fd).view := by
  by_cases hne : cString w.remainder = []
  · have hskip : w.runRemainder fd = w := if_neg (not_not_intro hne)
    rw [hskip]
  obtain ⟨remainder, -, hrun⟩ := @runRemainder_run fd w hne
  have hline : Acts fd n e w.view ({ w with lines := w.lines ++ [(fd, cString w.remainder)] } : World).view :=
    .single (.line hclean)
  have hlast : LastLine n (fd, cString w.remainder) (w.lines ++ [(fd, cString w.remainder)]) := by
    refine ⟨?_, List.getLast?_concat⟩
    rw [List.length_append]
    exact Nat.lt_succ_of_le hn
  have hcommand := hline.trans (acts_processcommandline hfd hlast hclean)
  rw [hrun]
  generalize (processcommandline fd (cString w.remainder)
    { w with lines := w.lines ++ [(fd, cString w.remainder)] }).2.2 = u at hcommand ⊢
  split
  · rename_i h20
    exact hcommand.trans (@acts_finish fd n e { u with remainder := remainder } h20)
  · exact hcommand

end

/-- The string in front of a terminator. -/
theorem mem_take_of_mem_cString {r : List UInt8} {n : Nat} {b : UInt8} (h : b ∈ cString (r.set n 0)) :
    b ∈ r.take n := by
  by_cases hn : n < r.length
  · rw [List.set_eq_take_append_cons_drop, if_pos hn, cString,
      List.takeWhile_append] at h
    split at h
    · simpa using h
    · exact (List.takeWhile_sublist _).mem h
  · rw [List.set_eq_of_length_le (Nat.le_of_not_lt hn)] at h
    rw [List.take_of_length_le (Nat.le_of_not_lt hn)]
    exact (List.takeWhile_sublist _).mem h

/-- What stands up to a place that has been written is that byte, or stood there before. -/
theorem mem_take_set {r : List UInt8} {n : Nat} {b c : UInt8} (h : c ∈ (r.set n b).take (n + 1)) :
    c = b ∨ c ∈ r.take n := by
  by_cases hn : n < r.length
  · rw [List.set_eq_take_append_cons_drop, if_pos hn, ← List.singleton_append, ← List.append_assoc,
      List.take_left' (by simp; omega)] at h
    simpa [or_comm] using h
  · rw [List.set_eq_of_length_le (Nat.le_of_not_lt hn), List.take_of_length_le (by omega)] at h
    rw [List.take_of_length_le (Nat.le_of_not_lt hn)]
    exact .inr h

/-- No line end stands in the line that has not been passed on. -/
def Unended (remptr : Nat) (w : World) : Prop := ∀ b ∈ w.remainder.take remptr, isLineEnd b = false

/-- The bytes of a chunk one after the other: the acts of the lines they finish. -/
theorem acts_encodeLoop {fd : Int} (hfd : fd ≠ -1) {n : Nat} {e : Prop} (buf : List UInt8) {remptr : Nat}
    {w : World} (hn : n ≤ w.lines.length) (h : Unended remptr w) :
    Acts fd n e w.view (encodeLoop fd buf remptr w).2.view ∧
      Unended (encodeLoop fd buf remptr w).1 (encodeLoop fd buf remptr w).2 := by
  induction buf generalizing remptr w with
  | nil => exact ⟨.refl, h⟩
  | cons b buf ih =>
      rw [encodeLoop]
      split
      · have hclean : ∀ c ∈ cString ((w.storeRemainder remptr b).storeRemainder remptr 0).remainder,
            isLineEnd c = false := by
          intro c hc
          rw [World.storeRemainder_remainder, World.storeRemainder_remainder, List.set_set] at hc
          exact h c (mem_take_of_mem_cString hc)
        let v := (w.storeRemainder remptr b).storeRemainder remptr 0
        have hfirst : Acts fd n e v.view (v.runRemainder fd).view := acts_runRemainder hfd hn hclean
        obtain ⟨hrest, hend⟩ := @ih 0 (v.runRemainder fd) (hn.trans (lines_acts hfirst).length_le)
          (fun c hc => by simp at hc)
        exact ⟨hfirst.trans hrest, hend⟩
      · rename_i hb
        refine @ih (remptr + 1) (w.storeRemainder remptr b) hn fun c hc => ?_
        obtain rfl | hc := mem_take_set hc
        · exact Bool.eq_false_iff.mpr hb
        · exact h c hc

/-- The input of a client. -/
theorem acts_chunk {c : Client} (hfd : 0 ≤ c.fd) (buf : List UInt8) {w : World} (h : Unended w.remlen w)
    {e : Prop} : Acts c.fd w.lines.length e w.view (w.after (.chunk c buf)).view :=
  (acts_encodeLoop (by omega) buf le_rfl h).1

/-- No happening leaves a line end in the buffer. -/
theorem Unended.after {w : World} (h : Unended w.remlen w) {i : Happening} (hread : i.Readable) :
    Unended (w.after i).remlen (w.after i) := by
  have hsame : SameBuffer w (w.after i) → Unended (w.after i).remlen (w.after i) := by
    intro hs
    rw [Unended, hs.remainder, hs.remlen]
    exact h
  cases i with
  | chunk c buf =>
      have hread : 0 ≤ c.fd := hread
      exact (acts_encodeLoop (e := False) (by omega) buf le_rfl h).2
  | accept k clifd => exact hsame (happen_other (by rintro _ _ ⟨⟩) w).1
  | disconnect c error => exact hsame (happen_other (by rintro _ _ ⟨⟩) w).1
  | packet buf len => exact hsame (happen_other (by rintro _ _ ⟨⟩) w).1
  | timeout => exact hsame (happen_other (by rintro _ _ ⟨⟩) w).1

end Mochad
