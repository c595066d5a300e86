import Mochad.Decode.RfState
import Mochad.Encode.PlcSend

/-!
# Mochad.Writes

What a part of the program passes to `x10_write`.  `Fed P w w'` says that
between `w` and `w'` the output FIFO has changed by calls of `x10_write` with
arguments in `P` and in no other way, and `Emits P w w'` that the configuration
has not changed either; both compose, so one lemma for each function of the
decoder and the encoder is enough.

All of them pass 1 to 8 bytes (`Fits`), with one exception: `gethexdata`
returns -1 for a number out of range, and the `PT` command takes that for the
length of the packet.
-/

namespace Mochad

open CString

/-! ## Emission -/

/-- The FIFO after some calls of `x10_write`. -/
def feed (bufs : List OutBuf) (s : Fifo) : Fifo :=
  bufs.foldl (fun s b => (Mochad.x10Write b.data b.len s).2.1) s

/-- The length of a FIFO slot and of the USB output buffer is kept. -/
def Fits (b : OutBuf) : Prop := 1 ≤ b.len ∧ b.len ≤ 8

/-- The output changes by calls of `x10_write` with arguments in `P`, and in no
other way. -/
def Fed (P : OutBuf → Prop) (w w' : World) : Prop :=
  ∃ bufs, (∀ b ∈ bufs, P b) ∧ w'.writes = w.writes ++ bufs ∧ w'.fifo = feed bufs w.fifo

namespace Fed

variable {P Q : OutBuf → Prop} {a b c : World}

/-- A step that leaves the output alone. -/
theorem of_eq (hw : b.writes = a.writes) (hf : b.fifo = a.fifo) : Fed P a b :=
  ⟨[], by simp, by simpa using hw, by simpa [feed] using hf⟩

theorem trans (h₁ : Fed P a b) (h₂ : Fed P b c) : Fed P a c := by
  obtain ⟨xs, hxs, hwx, hfx⟩ := h₁
  obtain ⟨ys, hys, hwy, hfy⟩ := h₂
  refine ⟨xs ++ ys, fun x hx => ?_, ?_, ?_⟩
  · exact (List.mem_append.mp hx).elim (hxs x) (hys x)
  · rw [hwy, hwx, List.append_assoc]
  · rw [hfy, hfx, feed, feed, feed, List.foldl_append]

theorem mono (h : Fed P a b) (hPQ : ∀ x, P x → Q x) : Fed Q a b := by
  obtain ⟨bufs, hP, hrest⟩ := h
  exact ⟨bufs, fun x hx => hPQ x (hP x hx), hrest⟩

/-- The new calls of `x10_write`. -/
theorem mem_drop (h : Fed P a b) : ∀ x ∈ b.writes.drop a.writes.length, P x := by
  obtain ⟨bufs, hP, hw, -⟩ := h
  rw [hw, List.drop_left]
  exact hP

/-- A step that calls `x10_write` in no way. -/
theorem writes_eq (h : Fed (fun _ => False) a b) : b.writes = a.writes := by
  obtain ⟨bufs, hP, hw, -⟩ := h
  rw [hw, List.eq_nil_iff_forall_not_mem.mpr hP, List.append_nil]

end Fed

/-- The variables that only some commands and the main loop set. -/
structure Config where
  cm19a : Bool
  rawData : Bool
  rfToPl16 : Nat
  rfToRf16 : Nat
  remainder : List UInt8
  remlen : Nat
  clients : Clients
  sockPort : Int → Option Nat
  junk : Ptr
  lines : List (Int × Text)

def World.config (w : World) : Config :=
  ⟨w.cm19a, w.rawData, w.rfToPl16, w.rfToRf16, w.remainder, w.remlen, w.clients, w.sockPort, w.junk,
    w.lines⟩

/-- The step calls `x10_write` with arguments in `P` and sets none of the
variables of the configuration. -/
structure Emits (P : OutBuf → Prop) (w w' : World) : Prop where
  fed : Fed P w w'
  config : w'.config = w.config

namespace Emits

variable {P Q : OutBuf → Prop} {a b c : World}

/-- A step that leaves the output and the configuration alone. -/
theorem of_eq (hw : b.writes = a.writes) (hf : b.fifo = a.fifo) (hc : b.config = a.config) :
    Emits P a b :=
  ⟨Fed.of_eq hw hf, hc⟩

theorem refl (w : World) : Emits P w w := of_eq rfl rfl rfl

theorem trans (h₁ : Emits P a b) (h₂ : Emits P b c) : Emits P a c :=
  ⟨h₁.fed.trans h₂.fed, h₂.config.trans h₁.config⟩

theorem of_quiet (h : Quiet a b) : Emits P a b := by
  obtain ⟨io, acc, rfl⟩ := h
  exact of_eq rfl rfl rfl

theorem rfToPl16 (h : Emits P a b) : b.rfToPl16 = a.rfToPl16 := congrArg Config.rfToPl16 h.config

theorem cm19a (h : Emits P a b) : b.cm19a = a.cm19a := congrArg Config.cm19a h.config

end Emits

/-- `x10_write` looks at the bytes inside the length only. -/
theorem x10Write_take (buf : List UInt8) (n : Nat) (s : Fifo) :
    Mochad.x10Write (buf.take n) n s = Mochad.x10Write buf n s := by
  simp [Mochad.x10Write, addX10out, memcpy, List.take_take]

/-- `x10_write` emits its argument. -/
theorem emits_x10Write {P : OutBuf → Prop} {buf : List UInt8} {n : Nat} (h : P ⟨buf.take n, n⟩)
    (w : World) : Emits P w (w.x10Write buf n).2 := by
  refine ⟨⟨[⟨buf.take n, n⟩], by simpa using h, rfl, ?_⟩, rfl⟩
  simp [feed, x10Write_take, World.x10Write]

/-! ## The decoder -/

/-- A received power line packet emits nothing. -/
theorem emits_decodePlc {P : OutBuf → Prop} (fd : Int) (buf : Ptr) (len : Nat) (w : World) :
    Emits P w (cm15aDecodePlc fd buf len w) := by
  have hs : Emits P w { w with state := applyOp (plcOp buf len) w.state } := Emits.of_eq rfl rfl rfl
  exact hs.trans (Emits.of_quiet (cm15aDecodePlc_quiet fd buf len w))

theorem emits_dupFilter {P : OutBuf → Prop} (buf : Ptr) (len : Int) (w : World) :
    Emits P w (dupFilter buf len w).2 := by
  obtain ⟨clock, dups, h⟩ := dupFilter_eq buf len w
  rw [h]
  exact Emits.of_eq rfl rfl rfl

/-- A repeated packet fits into a buffer. -/
theorem repeatBufs_fits {buf : Ptr} {len : Nat} (h5 : 5 ≤ len) (h8 : len ≤ 8) (w : World) :
    ∀ b ∈ repeatBufs buf len w, Fits ⟨b.data.take b.len, b.len⟩ := by
  intro b hb
  unfold repeatBufs at hb
  split at hb
  · split at hb <;> obtain rfl := List.mem_singleton.mp hb <;> constructor <;> dsimp only <;> omega
  · simp at hb

/-- A loop emits what its body does. -/
theorem emits_foldl {α : Type} {P : OutBuf → Prop} {f : World → α → World}
    (h : ∀ w x, Emits P w (f w x)) (xs : List α) (w : World) : Emits P w (xs.foldl f w) := by
  induction xs generalizing w with
  | nil => exact Emits.refl w
  | cons x xs ih => exact (h w x).trans (ih _)

/-- A packet for the power line fits. -/
theorem emits_transmit (w : World) (p : PlcPacket) : Emits Fits w (w.transmit p) := by
  have hfits : Fits ⟨p.wire.take p.wire.length, p.wire.length⟩ := by
    cases p <;> simp [Fits, PlcPacket.wire]
  have hs : Emits Fits w { w with state := applyOp p.op w.state } := Emits.of_eq rfl rfl rfl
  exact hs.trans (emits_x10Write hfits _)

/-- The command printed for the bridge is a `PL` command. -/
theorem words_bridgeCommand_split (housechar : UInt8) (unit : Text) (funcint : Nat) :
    words 32 (strupper (bridgeCommand housechar unit funcint)) =
      cstr "PL" :: words 32 (strupper (housechar :: unit) ++ 32 :: strupper (funcnameAt (funcint + 2))) := by
  have hsplit : strupper (bridgeCommand housechar unit funcint) =
      cstr "PL" ++ 32 :: (strupper (housechar :: unit) ++ 32 :: strupper (funcnameAt (funcint + 2))) := by
    simp only [bridgeCommand, strupper, List.map_append, List.append_assoc]
    rfl
  rw [hsplit, words_append_sep, words_of_not_mem 32 (by decide) (by decide), List.singleton_append]

/-- The line of the bridge is a `PL`. -/
theorem words_bridgeCommand (housechar : UInt8) (unit : Text) (funcint : Nat) :
    ∃ ws, words 32 (strupper (bridgeCommand housechar unit funcint)) = cstr "PL" :: ws :=
  ⟨_, words_bridgeCommand_split housechar unit funcint⟩

/-- What `PL` emits fits into a buffer. -/
theorem emits_pl {d : Int → Ptr → Nat → World → World} {aLine : Text} {ws : List Text}
    (hwords : words 32 (strupper aLine) = cstr "PL" :: ws) (fd : Int) (w : World) :
    Emits Fits w (processcommandlineWith d fd aLine w).2.2 :=
  (emits_foldl emits_transmit _ w).trans (Emits.of_quiet (processcommandline_pl hwords fd w))

/-- Buffers that are handed over are emitted. -/
theorem emits_xmit {P : OutBuf → Prop} {bufs : List OutBuf}
    (h : ∀ b ∈ bufs, P ⟨b.data.take b.len, b.len⟩) (w : World) : Emits P w (w.xmit bufs) := by
  induction bufs generalizing w with
  | nil => exact Emits.refl w
  | cons b bufs ih =>
      exact (emits_x10Write (h b List.mem_cons_self) w).trans
        (ih (fun c hc => h c (List.mem_cons_of_mem b hc)) _)

/-- Tracking emits nothing. -/
theorem emits_rfTrack {P : OutBuf → Prop} (k : RfPacket) (buf : Ptr) (w : World) :
    Emits P w (rfTrack k buf w) := by
  obtain ⟨clock, state, h⟩ := rfTrack_eq k buf w
  rw [h]
  exact Emits.of_eq rfl rfl rfl

/-- A parser that passes packets of the right size on the commands of the bridge. -/
def ParserFits (parse : Int → Text → World → World) : Prop :=
  ∀ fd housechar unit funcint w, Emits Fits w (parse fd (bridgeCommand housechar unit funcint) w)

/-- What the bridge's line emits fits. -/
theorem parserFits_pl (d : Int → Ptr → Nat → World → World) :
    ParserFits fun fd aLine w => (processcommandlineWith d fd aLine w).2.2 := by
  intro fd housechar unit funcint w
  obtain ⟨ws, hws⟩ := words_bridgeCommand housechar unit funcint
  exact emits_pl hws fd w

/-- So does what the bridge emits. -/
theorem emits_rfBridge {parse : Int → Text → World → World} (hparse : ParserFits parse) (fd : Int)
    (k : RfPacket) (buf : Ptr) (w : World) : Emits Fits w (rfBridge parse fd k buf w) := by
  cases k with
  | standard =>
      simp only [rfBridge]
      split
      · exact (Emits.of_quiet ((Quiet.refl w).access _ _)).trans (hparse _ _ _ _ _)
      · exact Emits.refl w
  | rejected => exact Emits.refl w
  | camera commandp => exact Emits.refl w
  | security8 => exact Emits.refl w
  | securityLong a0 a1 a2 funcint => exact Emits.refl w

/-- And what the repeater emits. -/
theorem emits_repeatRF {len : Nat} (h5 : 5 ≤ len) (h8 : len ≤ 8) (fd : Int) (buf : Ptr) (w : World) :
    Emits Fits w (repeatRF fd buf len w) :=
  (emits_xmit (repeatBufs_fits h5 h8 w) w).trans
    (Emits.of_quiet ((Quiet.refl w).repeatRF fd buf len))

/-- And what the RF decoder emits. -/
theorem emits_decodeRfWith {parse : Int → Text → World → World} (hparse : ParserFits parse)
    (fd : Int) (buf : Ptr) (len : Nat) (w : World) :
    Emits Fits w (cm15aDecodeRfWith parse fd buf len w) := by
  obtain ⟨-, hq⟩ | ⟨hk, ⟨-, hq⟩ | ⟨-, hdec⟩⟩ := cm15aDecodeRf_cases parse fd buf len w
  · exact Emits.of_quiet hq
  · exact (emits_dupFilter _ _ w).trans (Emits.of_quiet hq)
  · obtain ⟨u, hu, hr⟩ := hdec.quiet
    obtain ⟨h5, h8⟩ := classifyRf_length hk
    rw [hr]
    exact (emits_dupFilter _ _ w).trans <| (emits_rfTrack _ _ _).trans <| (Emits.of_quiet hu).trans <|
      (emits_repeatRF h5 h8 fd _ u).trans (emits_rfBridge hparse fd _ _ _)

/-- The decoder with the parser of the program. -/
theorem emits_decodeRf (fd : Int) (buf : Ptr) (len : Nat) (w : World) :
    Emits Fits w (cm15aDecodeRf fd buf len w) :=
  emits_decodeRfWith (parserFits_pl _) fd buf len w

/-- A packet from the controller. -/
theorem emits_decode (fd : Int) (buf : Ptr) (len : Nat) (w : World) :
    Emits Fits w (cm15aDecode fd buf len w) := by
  unfold cm15aDecode
  split
  · exact Emits.refl w
  · extract_lets p n v
    have hv : Emits Fits w v := by
      change Emits Fits w (if w.rawData then w.mhSockhexdump fd p n else w)
      split
      · exact Emits.of_quiet ((Quiet.refl w).mhSockhexdump fd p n)
      · exact Emits.refl w
    split
    · exact hv.trans (emits_decodePlc _ _ _ _)
    · split
      · exact hv.trans (emits_decodeRf _ _ _ _)
      · exact hv

/-! ## The encoder -/

/-- An RF packet of a client fits. -/
theorem emits_rfTransmit {buf : List UInt8} (h5 : 5 ≤ buf.length) (h8 : buf.length ≤ 8) (w : World) :
    Emits Fits w (rfTransmit cm15aDecodeRf buf w).2 := by
  have hd := emits_decodeRf (-1) (Ptr.ofList buf) buf.length w
  unfold rfTransmit
  dsimp only
  split
  · exact hd.trans (emits_x10Write ⟨show 1 ≤ buf.length - 1 by omega,
      show buf.length - 1 ≤ 8 by omega⟩ _)
  · exact hd.trans (emits_x10Write ⟨show 1 ≤ buf.length by omega, h8⟩ _)

/-- So does a security packet. -/
theorem emits_rfsecTx (rf8bitaddr : Int) (rfaddr : Nat) (func : Int) (w : World) :
    Emits Fits w (rfsecTx cm15aDecodeRf rf8bitaddr rfaddr func w).2 := by
  unfold rfsecTx
  split <;> exact emits_rfTransmit (by simp) (by simp) w

/-- And a packet for a house and unit. -/
theorem emits_rfTxHouseunitfunc (house unit func : Int) (w : World) :
    Emits Fits w (rfTxHouseunitfunc cm15aDecodeRf house unit func w).2 := by
  have hacc : Emits Fits w (w.access .x10housecoderf house) :=
    Emits.of_quiet ((Quiet.refl w).access _ _)
  unfold rfTxHouseunitfunc
  split
  · exact Emits.refl w
  · dsimp only
    split
    · exact hacc
    · exact hacc.trans (emits_rfTransmit (by simp) (by simp) _)

/-- And a camera packet. -/
theorem emits_rfcamTx (house rfcamkey : Int) (w : World) :
    Emits Fits w (rfcamTx cm15aDecodeRf house rfcamkey w) :=
  (Emits.of_quiet ((Quiet.refl w).access _ _)).trans (emits_rfTransmit (by simp) (by simp) _)

/-- The report emits nothing. -/
theorem emits_huaShow {P : OutBuf → Prop} (fd : Int) (w : World) : Emits P w (huaShow fd w) := by
  have hprint : ∀ text (v : World), Emits P v (v.sockprintf fd text) := fun text v =>
    Emits.of_quiet ((Quiet.refl v).sockprintf fd text)
  have hline : ∀ (v : World) line, Emits P v (showLine fd v line) := fun v line =>
    Emits.of_quiet (((Quiet.refl v).sockprintf fd line).sendMessage _)
  have hsensor : ∀ (v : World) sen, Emits P v (showSensor fd v sen) := fun v sen =>
    Emits.of_eq rfl rfl rfl
  have hsort : ∀ v : World, Emits P v { v with state := sortSensors v.state } := fun v =>
    Emits.of_eq rfl rfl rfl
  exact (hprint _ w).trans <| (emits_foldl hline _ _).trans <| (hprint _ _).trans <|
    (emits_foldl hline _ _).trans <| (hprint _ _).trans <| (hsort _).trans <|
    (emits_foldl hsensor _ _).trans (hprint _ _)

/-! ## Commands -/

section
variable (fd : Int) (t : Strtok) (w : World)

theorem emits_ackOr20 {P : OutBuf → Prop} : Emits P w (ackOr20 fd w) :=
  Emits.of_quiet (ackOr20_quiet (Quiet.refl w) fd)

/-- What `RF` emits fits. -/
theorem emits_rfCommand : Emits Fits w (rfCommand cm15aDecodeRf fd t w).2.2 := by
  have hack : Emits Fits w (ackOr20 fd w) := emits_ackOr20 fd w
  unfold rfCommand
  simp only [getdeviceaddr_eq]
  split
  · exact hack
  · split
    · exact hack
    · exact hack.trans (emits_rfTxHouseunitfunc _ _ _ _)

/-- So does what `RFSEC` emits. -/
theorem emits_rfsecCommand : Emits Fits w (rfsecCommand cm15aDecodeRf fd t w).2.2 := by
  have hack : Emits Fits w (ackOr20 fd w) := emits_ackOr20 fd w
  unfold rfsecCommand
  simp only [getrfaddr_eq]
  split
  · exact hack
  · split
    · exact hack
    · exact hack.trans (emits_rfsecTx _ _ _ _)

/-- And what `RFCAM` emits. -/
theorem emits_rfcamCommand : Emits Fits w (rfcamCommand cm15aDecodeRf fd t w).2.2 := by
  have hack : Emits Fits w (ackOr20 fd w) := emits_ackOr20 fd w
  unfold rfcamCommand
  simp only [getdeviceaddr_eq]
  split
  · exact hack
  · split
    · exact hack
    · split
      · exact hack.trans (emits_rfcamTx _ _ _)
      · exact hack.trans (Emits.of_quiet ((Quiet.refl _).sockprintf fd _))

/-- `PT` passes whatever length `gethexdata` returns. -/
theorem emits_ptCommand : Emits (fun _ => True) w (ptCommand fd t w).2.2 := by
  have hack : Emits (fun _ => True) w (ackOr20 fd w) := emits_ackOr20 fd w
  simp only [ptCommand]
  split
  · exact hack.trans (emits_x10Write trivial _)
  · exact hack

/-- `RFTOPL` feeds the FIFO nothing. -/
theorem fed_rftoplCommand {P : OutBuf → Prop} : Fed P w (rftoplCommand fd t w).2.2 :=
  (emits_ackOr20 fd w).fed.trans (Fed.of_eq rfl rfl)

/-- Nor does `RFTORF`. -/
theorem fed_rftorfCommand {P : OutBuf → Prop} : Fed P w (rftorfCommand fd t w).2.2 := by
  refine (emits_ackOr20 fd w).fed.trans ?_
  unfold rftorfCommand
  obtain ⟨_ | arg1, t'⟩ := nextWord t <;> exact Fed.of_eq rfl rfl

/-- Nor does `ST` emit anything. -/
theorem emits_stCommand {P : OutBuf → Prop} : Emits P w (stCommand fd t w).2.2 := by
  unfold stCommand
  simp only
  split
  · exact Emits.of_eq rfl rfl rfl
  · exact emits_huaShow fd w

/-- `GETSTATUS` only replies. -/
theorem getstatusCommand_quiet : Quiet w (getstatusCommand fd t w).2.2 := by
  have h := Quiet.refl w
  unfold getstatusCommand
  simp only [getdeviceaddr_eq]
  split
  · split
    · split
      · exact (((h.access _ _).access _ _).statusprintf fd _).sendMessage _
      · exact (h.statusprintf fd _).sendMessage _
    · exact (((h.access _ _).access _ _).statusprintf fd _).sendMessage _
  · exact h

/-- So does `GETSTATUSSEC`. -/
theorem getstatussecCommand_quiet : Quiet w (getstatussecCommand fd t w).2.2 := by
  unfold getstatussecCommand
  simp only [getrfaddr_eq]
  split
  · exact Quiet.refl w
  · exact (Quiet.refl w).statusprintf fd _

/-- The commands that set no variable of the configuration, `PT` apart, pass
packets of 1 to 8 bytes. -/
theorem emits_runCommand {command : Text} (hpt : command ≠ cstr "PT")
    (hpl : command ≠ cstr "RFTOPL") (hrf : command ≠ cstr "RFTORF") :
    Emits Fits w (runCommand cm15aDecodeRf fd command t w).2.2 := by
  have hcommand : Emits Fits w (plCommand fd t w).2.2 :=
    (emits_foldl emits_transmit _ w).trans (Emits.of_quiet (plCommand_quiet fd t w))
  exact runCommand_cases (P := Emits Fits w)
    (fun _ => hcommand)
    (fun _ => emits_rfCommand fd t w)
    (fun _ => emits_rfsecCommand fd t w)
    (fun _ => emits_rfcamCommand fd t w)
    (fun h => absurd h hpt)
    (fun h => absurd h hpl)
    (fun h => absurd h hrf)
    (fun _ => emits_stCommand fd t w)
    (fun _ => Emits.of_quiet (getstatusCommand_quiet fd t w))
    (fun _ => Emits.of_quiet (getstatussecCommand_quiet fd t w))
    (Emits.refl w)

/-- Every command but `PT` passes packets of 1 to 8 bytes. -/
theorem fed_runCommand {command : Text} (hpt : command ≠ cstr "PT") :
    Fed Fits w (runCommand cm15aDecodeRf fd command t w).2.2 := by
  by_cases hpl : command = cstr "RFTOPL"
  · subst hpl
    exact fed_rftoplCommand fd t w
  by_cases hrf : command = cstr "RFTORF"
  · subst hrf
    exact fed_rftorfCommand fd t w
  exact (emits_runCommand fd t w hpt hpl hrf).fed

/-- Only `RFTOPL` and `RFTORF` set a variable of the configuration. -/
theorem runCommand_config (command : Text) : ∃ rfToRf16,
    (runCommand cm15aDecodeRf fd command t w).2.2.config = { w.config with
      rfToPl16 := if command = cstr "RFTOPL" then houseMaskOf (argv t).head? else w.rfToPl16
      rfToRf16 := rfToRf16 } := by
  have hack : Emits Fits w (ackOr20 fd w) := emits_ackOr20 fd w
  by_cases hpl : command = cstr "RFTOPL"
  · subst hpl
    refine ⟨(ackOr20 fd w).rfToRf16, ?_⟩
    change (rftoplCommand fd t w).2.2.config = _
    rw [if_pos rfl, ← gethousecodes_fst, ← hack.config]
    rfl
  rw [if_neg hpl]
  by_cases hrf : command = cstr "RFTORF"
  · subst hrf
    change ∃ rfToRf16, (rftorfCommand fd t w).2.2.config = _
    rw [← hack.config, ← hack.rfToPl16]
    unfold rftorfCommand
    obtain ⟨_ | arg1, t'⟩ := nextWord t <;> exact ⟨_, rfl⟩
  refine ⟨w.rfToRf16, ?_⟩
  by_cases hpt : command = cstr "PT"
  · subst hpt
    exact (emits_ptCommand fd t w).config
  · exact (emits_runCommand fd t w hpt hpl hrf).config

end

/-! ## Command lines -/

/-- What every `PT` command of a line passes and what the other commands pass,
the line passes. -/
theorem fed_processcommandline_of {P : OutBuf → Prop} (hfits : ∀ b, Fits b → P b) (fd : Int)
    {aLine : Text} {w : World}
    (hpt : ∀ t, words 32 (strupper aLine) = cstr "PT" :: argv t → Fed P w (ptCommand fd t w).2.2) :
    Fed P w (processcommandline fd aLine w).2.2 := by
  rw [processcommandline]
  obtain ⟨-, heq⟩ | ⟨-, heq⟩ | ⟨command, t, hws, heq⟩ :=
    processcommandlineWith_cases cm15aDecodeRf fd aLine w
  · rw [heq]
    exact Fed.of_eq rfl rfl
  · rw [heq]
    exact Fed.of_eq rfl rfl
  · rw [heq]
    by_cases hc : command = cstr "PT"
    · subst hc
      exact hpt t hws
    · exact (fed_runCommand fd t w hc).mono hfits

/-- `RfToPl16` after a command line. -/
def lineMask (aLine : Text) (rfToPl16 : Nat) : Nat :=
  match words 32 (strupper aLine) with
  | [] => rfToPl16
  | command :: ws => if command = cstr "RFTOPL" then houseMaskOf ws.head? else rfToPl16

/-- Of the configuration a line sets only the bridge and the repeater. -/
theorem processcommandline_config (fd : Int) (aLine : Text) (w : World) : ∃ rfToRf16,
    (processcommandline fd aLine w).2.2.config =
      { w.config with rfToPl16 := lineMask aLine w.rfToPl16, rfToRf16 := rfToRf16 } := by
  rw [processcommandline, lineMask]
  obtain ⟨hp, heq⟩ | ⟨hn, heq⟩ | ⟨command, t, hws, heq⟩ :=
    processcommandlineWith_cases cm15aDecodeRf fd aLine w
  · have hone : words 32 (cstr "<POLICY-FILE-REQUEST/>") = [cstr "<POLICY-FILE-REQUEST/>"] :=
      words_of_not_mem 32 (by decide) (by decide)
    have hne : cstr "<POLICY-FILE-REQUEST/>" ≠ cstr "RFTOPL" := by decide
    refine ⟨w.rfToRf16, ?_⟩
    simp only [heq, hp, hone, hne, if_false]
    rfl
  · refine ⟨w.rfToRf16, ?_⟩
    simp only [heq, hn]
    rfl
  · simp only [heq, hws]
    exact runCommand_config fd t w command

end Mochad
