import Mochad.FullQueue
import Mochad.MainLoop
import Mochad.PassThrough
import Mochad.PollTimeout
import Mochad.Encode.RfSend

/-!
# Mochad.Delivery

The way of a packet through the whole program.  Whatever a happening does to the
output it does by calls of `x10_write` and `send_next_x10out` (`Passes`), and how
many packets it makes is bounded: three for a packet from the controller, which
may be repeated and bridged, and four for a line of a client, which may be an RF
command that is decoded in turn (`serves_after`).  So the output of a run is a
run of the stop-and-wait queue of `Mochad.Lib.Spool`, and the queue's laws hold
of it: `output_delivered` says what is delivered and when, `burst_delivered` how
much there can be.
-/

namespace Mochad

open CString

/-! ## Calls -/

/-- The output goes through the calls: what has been passed to `x10_write`, what
has been handed to `write_usb` and the queue between them. -/
structure Passes (calls : List FifoCall) (w w' : World) : Prop where
  writes : w'.writes = w.writes ++ Spool.puts (calls.map FifoCall.toSpool)
  fifo : w'.fifo = (Run.trace fifoStep w.fifo calls).1
  usb : w'.usb = w.usb ++ Spool.emitted (Run.trace fifoStep w.fifo calls).2

theorem Passes.trans {cs ds : List FifoCall} {a b c : World} (h₁ : Passes cs a b) (h₂ : Passes ds b c) :
    Passes (cs ++ ds) a c where
  writes := by rw [h₂.writes, h₁.writes, List.append_assoc, List.map_append, Spool.puts_append]
  fifo := by rw [h₂.fifo, h₁.fifo, Run.trace_append]
  usb := by
    rw [h₂.usb, h₁.usb, h₁.fifo, Run.trace_append, Spool.emitted_append, List.append_assoc]

/-- The lines a step takes from clients; and if none of them is a `PT` with a
number out of range, the step makes at most `n` packets and four for each line,
and there are `a` acknowledges or timeouts. -/
def Serves (n a : Nat) (w w' : World) : Prop :=
  ∃ lines, w'.lines = w.lines ++ lines ∧ ((∀ l ∈ lines, ¬ PtOverflow l.2) →
    ∃ calls, Passes calls w w' ∧ (Spool.puts (calls.map FifoCall.toSpool)).length ≤ n + 4 * lines.length ∧
      Spool.acks (calls.map FifoCall.toSpool) = a)

namespace Serves

variable {m n j k : Nat} {a b c : World}

/-- Some calls, and no line. -/
theorem of_passes (calls : List FifoCall) (h : Passes calls a b) (hlines : b.lines = a.lines)
    (hputs : (Spool.puts (calls.map FifoCall.toSpool)).length ≤ n) :
    Serves n (Spool.acks (calls.map FifoCall.toSpool)) a b :=
  ⟨[], by rw [hlines, List.append_nil], fun _ => ⟨calls, h, hputs, rfl⟩⟩

/-- A step that leaves the output and the lines alone. -/
theorem of_eq (hwrites : b.writes = a.writes) (hfifo : b.fifo = a.fifo) (husb : b.usb = a.usb)
    (hlines : b.lines = a.lines) : Serves 0 0 a b :=
  of_passes [] ⟨by simpa using hwrites, hfifo, by simpa [Run.trace, Spool.emitted] using husb⟩
    hlines le_rfl

theorem refl (w : World) : Serves 0 0 w w := of_eq rfl rfl rfl rfl

/-- A step that only tells the clients serves nothing. -/
theorem of_quiet (h : Quiet a b) : Serves 0 0 a b := by
  obtain ⟨io, acc, rfl⟩ := h
  exact of_eq rfl rfl rfl rfl

theorem trans (h₁ : Serves m j a b) (h₂ : Serves n k b c) : Serves (m + n) (j + k) a c := by
  obtain ⟨ls, hls, h₁⟩ := h₁
  obtain ⟨ls', hls', h₂⟩ := h₂
  refine ⟨ls ++ ls', by rw [hls', hls, List.append_assoc], fun hpt => ?_⟩
  obtain ⟨hpt₁, hpt₂⟩ := List.forall_mem_append.mp hpt
  obtain ⟨cs, hcs, hputs, rfl⟩ := h₁ hpt₁
  obtain ⟨ds, hds, hputs', rfl⟩ := h₂ hpt₂
  refine ⟨cs ++ ds, hcs.trans hds, ?_, by rw [List.map_append, Spool.acks_append]⟩
  rw [List.map_append, Spool.puts_append, List.length_append, List.length_append]
  omega

theorem mono (h : Serves m j a b) (hle : m ≤ n) : Serves n j a b := by
  obtain ⟨ls, hls, h⟩ := h
  refine ⟨ls, hls, fun hpt => ?_⟩
  obtain ⟨cs, hcs, hputs, hacks⟩ := h hpt
  exact ⟨cs, hcs, by omega, hacks⟩

end Serves

/-- A call of `x10_write` with a packet of 1 to 8 bytes. -/
theorem serves_x10Write {buf : List UInt8} {n : Nat} (hlen : n ≤ buf.length) (h1 : 1 ≤ n) (h8 : n ≤ 8)
    (w : World) : Serves 1 0 w (w.x10Write buf n).2 := by
  have htake : (buf.take n).length = n := List.length_take_of_le hlen
  let p : Packet := ⟨buf.take n, by rw [htake]; exact h1, by rw [htake]; exact h8⟩
  have hwrite : Mochad.x10Write p.bytes p.bytes.length w.fifo = Mochad.x10Write buf n w.fifo := by
    change Mochad.x10Write (buf.take n) (buf.take n).length w.fifo = _
    rw [htake, x10Write_take]
  have houtBuf : p.outBuf = ⟨buf.take n, n⟩ := by rw [Packet.outBuf]; exact congrArg _ htake
  refine Serves.of_passes [.x10Write p] ⟨?_, ?_, ?_⟩ rfl le_rfl
  · change w.writes ++ [⟨buf.take n, n⟩] = w.writes ++ [p.outBuf]
    rw [houtBuf]
  · rw [World.x10Write_snd_fifo, ← hwrite]
    rfl
  · rw [World.x10Write_snd_usb, ← hwrite, ← emitted_x10Write]
    simp [Run.trace]

/-- A loop serves what its body does, as often as it runs. -/
theorem serves_foldl {α : Type} {f : World → α → World} {n : Nat} (h : ∀ w x, Serves n 0 w (f w x))
    (xs : List α) (w : World) : Serves (n * xs.length) 0 w (xs.foldl f w) := by
  induction xs generalizing w with
  | nil => exact Serves.refl w
  | cons x xs ih =>
      refine ((h w x).trans (ih _)).mono ?_
      rw [List.length_cons, Nat.mul_succ]
      omega

/-! ## Packets of the controller -/

/-- One packet for the power line is one write. -/
theorem serves_transmit (w : World) (p : PlcPacket) : Serves 1 0 w (w.transmit p) := by
  have hs : Serves 0 0 w { w with state := applyOp p.op w.state } := Serves.of_eq rfl rfl rfl rfl
  exact hs.trans (serves_x10Write le_rfl p.packet.length_pos p.packet.length_le _)

/-- `PL` makes at most two writes. -/
theorem serves_pl {d : Int → Ptr → Nat → World → World} {aLine : Text} {ws : List Text}
    (hwords : words 32 (strupper aLine) = cstr "PL" :: ws) (fd : Int) (w : World) :
    Serves 2 0 w (processcommandlineWith d fd aLine w).2.2 := by
  refine ((serves_foldl serves_transmit (plPackets ws) w).trans
    (.of_quiet (processcommandline_pl hwords fd w))).mono ?_
  have htwo := length_plPackets ws
  omega

/-- A received power line packet makes none. -/
theorem serves_decodePlc (fd : Int) (buf : Ptr) (len : Nat) (w : World) :
    Serves 0 0 w (cm15aDecodePlc fd buf len w) := by
  have hs : Serves 0 0 w { w with state := applyOp (plcOp buf len) w.state } := Serves.of_eq rfl rfl rfl rfl
  exact hs.trans (.of_quiet (cm15aDecodePlc_quiet fd buf len w))

/-- The duplicate filter makes none. -/
theorem serves_dupFilter (buf : Ptr) (len : Int) (w : World) : Serves 0 0 w (dupFilter buf len w).2 := by
  obtain ⟨clock, dups, h⟩ := dupFilter_eq buf len w
  rw [h]
  exact Serves.of_eq rfl rfl rfl rfl

/-- Nor does tracking what a packet says. -/
theorem serves_rfTrack (k : RfPacket) (buf : Ptr) (w : World) : Serves 0 0 w (rfTrack k buf w) := by
  obtain ⟨clock, state, h⟩ := rfTrack_eq k buf w
  rw [h]
  exact Serves.of_eq rfl rfl rfl rfl

/-- The repeater sends the packet once more, or nothing. -/
theorem serves_repeatRF {len : Nat} (h5 : 5 ≤ len) (h8 : len ≤ 8) (fd : Int) (buf : Ptr) (w : World) :
    Serves 1 0 w (repeatRF fd buf len w) := by
  refine Serves.trans (m := 1) (j := 0) (b := w.xmit (repeatBufs buf len w)) ?_
    (.of_quiet ((Quiet.refl w).repeatRF fd buf len))
  have hbytes : ((buf.add 1).bytes (len - 1)).length = len - 1 := by simp [Ptr.bytes]
  have h1 : 1 ≤ len - 1 := by omega
  have h7 : len - 1 ≤ 8 := by omega
  unfold repeatBufs
  split
  · split
    · exact serves_x10Write hbytes.ge h1 h7 w
    · exact serves_x10Write (by rw [List.length_cons, hbytes]; omega) (by omega) h8 w
  · exact (Serves.refl w).mono (Nat.zero_le 1)

/-- A parser that makes at most two packets of the commands of the bridge. -/
def ParserServes (parse : Int → Text → World → World) : Prop :=
  ∀ fd housechar unit funcint w, Serves 2 0 w (parse fd (bridgeCommand housechar unit funcint) w)

/-- The line of the bridge is a `PL`. -/
theorem parserServes_pl (d : Int → Ptr → Nat → World → World) :
    ParserServes fun fd aLine w => (processcommandlineWith d fd aLine w).2.2 := by
  intro fd housechar unit funcint w
  obtain ⟨ws, hws⟩ := words_bridgeCommand housechar unit funcint
  exact serves_pl hws fd w

/-- The bridge makes at most two writes. -/
theorem serves_rfBridge {parse : Int → Text → World → World} (hparse : ParserServes parse) (fd : Int)
    (k : RfPacket) (buf : Ptr) (w : World) : Serves 2 0 w (rfBridge parse fd k buf w) := by
  have hskip : Serves 2 0 w w := (Serves.refl w).mono (Nat.zero_le 2)
  cases k with
  | standard =>
      simp only [rfBridge]
      split
      · exact (Serves.of_quiet ((Quiet.refl w).access _ _)).trans (hparse _ _ _ _ _)
      · exact hskip
  | rejected => exact hskip
  | camera commandp => exact hskip
  | security8 => exact hskip
  | securityLong a0 a1 a2 funcint => exact hskip

/-- An RF packet is repeated and bridged at most. -/
theorem serves_decodeRfWith {parse : Int → Text → World → World} (hparse : ParserServes parse)
    (fd : Int) (buf : Ptr) (len : Nat) (w : World) :
    Serves 3 0 w (cm15aDecodeRfWith parse fd buf len w) := by
  obtain ⟨-, hq⟩ | ⟨hk, ⟨-, hq⟩ | ⟨-, hdec⟩⟩ := cm15aDecodeRf_cases parse fd buf len w
  · exact (Serves.of_quiet hq).mono (Nat.zero_le 3)
  · exact ((serves_dupFilter _ _ w).trans (.of_quiet hq)).mono (Nat.zero_le 3)
  · obtain ⟨u, hu, hr⟩ := hdec.quiet
    obtain ⟨h5, h8⟩ := classifyRf_length hk
    rw [hr]
    exact (serves_dupFilter _ _ w).trans <| (serves_rfTrack _ _ _).trans <| (Serves.of_quiet hu).trans <|
      (serves_repeatRF h5 h8 fd _ u).trans (serves_rfBridge hparse fd _ _ _)

/-- A received RF packet is repeated in one write, and bridged in two. -/
theorem serves_decodeRf (fd : Int) (buf : Ptr) (len : Nat) (w : World) :
    Serves 3 0 w (cm15aDecodeRf fd buf len w) :=
  serves_decodeRfWith (parserServes_pl _) fd buf len w

/-- A packet from the controller. -/
theorem serves_decode (fd : Int) (buf : Ptr) (len : Nat) (w : World) :
    Serves 3 0 w (cm15aDecode fd buf len w) := by
  unfold cm15aDecode
  split
  · exact (Serves.refl w).mono (Nat.zero_le 3)
  · extract_lets p n v
    have hv : Serves 0 0 w v := by
      change Serves 0 0 w (if w.rawData then w.mhSockhexdump fd p n else w)
      split
      · exact .of_quiet ((Quiet.refl w).mhSockhexdump fd p n)
      · exact Serves.refl w
    split
    · exact (hv.trans (serves_decodePlc _ _ _ _)).mono (Nat.zero_le 3)
    · split
      · exact hv.trans (serves_decodeRf _ _ _ _)
      · exact hv.mono (Nat.zero_le 3)

/-! ## Commands -/

/-- An RF packet that is transmitted is decoded first. -/
theorem serves_rfTransmit {buf : List UInt8} (h2 : 2 ≤ buf.length) (h8 : buf.length ≤ 8) (w : World) :
    Serves 4 0 w (rfTransmit cm15aDecodeRf buf w).2 := by
  have hd := serves_decodeRf (-1) (Ptr.ofList buf) buf.length w
  unfold rfTransmit
  dsimp only
  split
  · exact hd.trans (serves_x10Write List.length_tail.ge (by omega) (by omega) _)
  · exact hd.trans (serves_x10Write le_rfl (by omega) h8 _)

/-- The packets of the RF commands. -/
theorem length_commandPacket {ws : List Text} {buf : List UInt8} (h : commandPacket ws = some buf) :
    2 ≤ buf.length ∧ buf.length ≤ 8 := by
  have hsec : ∀ rf8bitaddr rfaddr func, (rfsecTail rf8bitaddr rfaddr func).length ≤ 7 ∧
      1 ≤ (rfsecTail rf8bitaddr rfaddr func).length := by
    intro rf8bitaddr rfaddr func
    unfold rfsecTail
    split <;> simp
  cases ws with
  | nil => cases h
  | cons command ws =>
      simp only [commandPacket] at h
      split_ifs at h
      · obtain ⟨buf4, -, rfl⟩ := Option.map_eq_some_iff.mp h
        simp [rfTail]
      · split at h
        · cases h
        · split_ifs at h
          obtain rfl := Option.some.inj h
          simp [rfcamTail]
      · obtain rfl := Option.some.inj h
        obtain ⟨h7, h1⟩ := hsec (rfaddrOf ws[0]?).1 (rfaddrOf ws[0]?).2
          (rffuncNumber (rfaddrOf ws[0]?).1 ws[1]?)
        rw [List.length_cons]
        omega

/-- An RF command makes its own write besides those of the decoder. -/
theorem serves_sendsPacket {ws : List Text} {w r : World} (h : SendsPacket (commandPacket ws) w r) :
    Serves 4 0 w r := by
  cases hpacket : commandPacket ws with
  | none =>
      rw [hpacket] at h
      exact (Serves.of_quiet h).mono (Nat.zero_le 4)
  | some buf =>
      rw [hpacket] at h
      obtain ⟨v, hv, rfl⟩ := h
      obtain ⟨h2, h8⟩ := length_commandPacket hpacket
      exact (Serves.of_quiet hv).trans (serves_rfTransmit h2 h8 v)

/-- The report of `ST` makes none. -/
theorem serves_huaShow (fd : Int) (w : World) : Serves 0 0 w (huaShow fd w) := by
  have hprint : ∀ text (v : World), Serves 0 0 v (v.sockprintf fd text) := fun text v =>
    .of_quiet ((Quiet.refl v).sockprintf fd text)
  have hlines : ∀ (lines : List Text) (v : World), Serves 0 0 v (lines.foldl (showLine fd) v) := fun lines v =>
    (serves_foldl (fun w _ => .of_quiet (((Quiet.refl w).sockprintf fd _).sendMessage _)) lines v).mono
      (Nat.zero_mul _).le
  have hsensor : ∀ (v : World) sen, Serves 0 0 v (showSensor fd v sen) := fun v sen =>
    Serves.of_eq rfl rfl rfl rfl
  have hsensors : ∀ (sensors : List X10secsensor) (v : World), Serves 0 0 v (sensors.foldl (showSensor fd) v) :=
    fun sensors v => (serves_foldl hsensor sensors v).mono (Nat.zero_mul _).le
  have hsort : ∀ v : World, Serves 0 0 v { v with state := sortSensors v.state } := fun v =>
    Serves.of_eq rfl rfl rfl rfl
  exact (hprint _ w).trans <| (hlines _ _).trans <| (hprint _ _).trans <| (hlines _ _).trans <|
    (hprint _ _).trans <| (hsort _).trans <| (hsensors _ _).trans (hprint _ _)

/-- The bytes `gethexdata` counts are those it stores, unless it fails. -/
theorem length_gethexdataLoop (slots : Nat) (buf8 : List UInt8) (t : Strtok) :
    (gethexdataLoop slots buf8 t).2.1 = -1 ∨
      (gethexdataLoop slots buf8 t).2.1 = (gethexdataLoop slots buf8 t).1.length := by
  induction slots generalizing buf8 t with
  | zero =>
      unfold gethexdataLoop
      obtain ⟨_ | parm, t'⟩ := nextWord t <;> exact .inr rfl
  | succ slots ih =>
      unfold gethexdataLoop
      obtain ⟨_ | parm, t'⟩ := nextWord t
      · exact .inr rfl
      · rcases hs : strtoul 16 parm with ⟨value, erange⟩
        cases erange with
        | true => exact .inl (by simp [hs])
        | false => simpa [hs] using ih (buf8 ++ [UInt8.ofNat value]) t'

section
variable (fd : Int) (t : Strtok) (w : World)

/-- Nor does the acknowledgement of a `PT`. -/
theorem serves_ackOr20 : Serves 0 0 w (ackOr20 fd w) := .of_quiet (ackOr20_quiet (Quiet.refl w) fd)

/-- `PT` passes on what it was given, when the numbers are in range. -/
theorem serves_ptCommand (h : ¬ HexOverflow (argv t)) : Serves 1 0 w (ptCommand fd t w).2.2 := by
  have hack := serves_ackOr20 fd w
  have hlength := length_gethexdataLoop 8 [] t
  have hrc : (gethexdataLoop 8 [] t).2.1 = min 8 (argv t).length := by
    obtain ⟨hov, -⟩ | ⟨-, hrc⟩ := gethexdataLoop_rc 8 [] t
    · exact absurd hov h
    · rw [hrc, List.length_nil]
      omega
  unfold ptCommand gethexdata
  revert hrc hlength
  obtain ⟨x10bytes8, rc, t'⟩ := gethexdataLoop 8 [] t
  intro hlength hrc
  dsimp only at hlength hrc ⊢
  have hlen : (rc % 2 ^ 64).toNat = x10bytes8.length := by omega
  rw [hlen]
  split
  · exact hack.trans (serves_x10Write le_rfl (by omega) (by omega) _)
  · exact hack.mono (Nat.zero_le 1)

theorem serves_rftoplCommand : Serves 0 0 w (rftoplCommand fd t w).2.2 :=
  Serves.trans (n := 0) (k := 0) (serves_ackOr20 fd w) (Serves.of_eq rfl rfl rfl rfl)

theorem serves_rftorfCommand : Serves 0 0 w (rftorfCommand fd t w).2.2 := by
  refine Serves.trans (n := 0) (k := 0) (serves_ackOr20 fd w) ?_
  unfold rftorfCommand
  obtain ⟨_ | arg1, t'⟩ := nextWord t <;> exact Serves.of_eq rfl rfl rfl rfl

theorem serves_stCommand : Serves 0 0 w (stCommand fd t w).2.2 := by
  unfold stCommand
  simp only
  split
  · exact Serves.of_eq rfl rfl rfl rfl
  · exact serves_huaShow fd w

/-- A command makes at most four writes. -/
theorem serves_runCommand {command : Text} (hpt : command = cstr "PT" → ¬ HexOverflow (argv t)) :
    Serves 4 0 w (runCommand cm15aDecodeRf fd command t w).2.2 := by
  have hquiet : ∀ {r}, Quiet w r → Serves 4 0 w r := fun h => (Serves.of_quiet h).mono (Nat.zero_le 4)
  exact runCommand_cases (P := Serves 4 0 w)
    (fun _ => ((serves_foldl serves_transmit (plPackets (argv t)) w).trans
      (.of_quiet (plCommand_quiet fd t w))).mono (by have := length_plPackets (argv t); omega))
    (fun _ => serves_sendsPacket (rfCommand_sends fd t w))
    (fun _ => serves_sendsPacket (rfsecCommand_sends fd t w))
    (fun _ => serves_sendsPacket (rfcamCommand_sends fd t w))
    (fun h => (serves_ptCommand fd t w (hpt h)).mono (by decide))
    (fun _ => (serves_rftoplCommand fd t w).mono (Nat.zero_le 4))
    (fun _ => (serves_rftorfCommand fd t w).mono (Nat.zero_le 4))
    (fun _ => (serves_stCommand fd t w).mono (Nat.zero_le 4))
    (fun _ => hquiet (getstatusCommand_quiet fd t w))
    (fun _ => hquiet (getstatussecCommand_quiet fd t w))
    (hquiet (Quiet.refl w))

/-- So does a line, unless it is a `PT` with a number out of range. -/
theorem serves_processcommandline {aLine : Text} (h : ¬ PtOverflow aLine) :
    Serves 4 0 w (processcommandline fd aLine w).2.2 := by
  rw [processcommandline]
  obtain ⟨-, heq⟩ | ⟨-, heq⟩ | ⟨command, t, hws, heq⟩ :=
    processcommandlineWith_cases cm15aDecodeRf fd aLine w
  · rw [heq]
    refine Serves.mono (m := 0) ?_ (Nat.zero_le 4)
    exact Serves.of_eq rfl rfl rfl rfl
  · rw [heq]
    exact (Serves.refl w).mono (Nat.zero_le 4)
  · rw [heq]
    exact serves_runCommand fd t w fun hpt hov => h ⟨argv t, hpt ▸ hws, hov⟩

end

/-! ## Happenings -/

/-- A line that is taken from a client, and what it makes. -/
theorem Serves.line {w v w' : World} {l : Int × Text} (hv : v = { w with lines := w.lines ++ [l] })
    (h : ¬ PtOverflow l.2 → Serves 4 0 v w') (hsame : w'.lines = v.lines) : Serves 0 0 w w' := by
  subst hv
  refine ⟨[l], hsame, fun hpt => ?_⟩
  obtain ⟨ls, hls, hcalls⟩ := h (hpt l (List.mem_singleton_self l))
  obtain rfl : ls = [] := List.append_right_eq_self.mp (hls.symm.trans hsame)
  obtain ⟨calls, hpass, hputs, hacks⟩ := hcalls (by simp)
  exact ⟨calls, ⟨hpass.writes, hpass.fifo, hpass.usb⟩, hputs, hacks⟩

/-- Removing a client makes none. -/
theorem serves_delClient (fd : Int) (w : World) : Serves 0 0 w (w.delClient fd).2 := by
  obtain ⟨clients, sockPort, io, h⟩ := w.delClient_eq fd
  rw [h]
  exact Serves.of_eq rfl rfl rfl rfl

/-- A line that is run is charged to itself. -/
theorem serves_runRemainder (fd : Int) (w : World) : Serves 0 0 w (w.runRemainder fd) := by
  by_cases hne : cString w.remainder = []
  · have hskip : w.runRemainder fd = w := if_neg (not_not_intro hne)
    rw [hskip]
    exact Serves.refl w
  obtain ⟨remainder, -, hrun⟩ := @runRemainder_run fd w hne
  obtain ⟨rfToRf16, hconfig⟩ := processcommandline_config fd (cString w.remainder)
    { w with lines := w.lines ++ [(fd, cString w.remainder)] }
  have hline := @Serves.line w _ _ (fd, cString w.remainder) rfl
    (fun hpt => serves_processcommandline fd _ hpt) (congrArg Config.lines hconfig)
  rw [hrun]
  generalize (processcommandline fd (cString w.remainder)
    { w with lines := w.lines ++ [(fd, cString w.remainder)] }).2.2 = u at hline ⊢
  have hrest : Serves 0 0 w { u with remainder := remainder } :=
    Serves.trans (n := 0) (k := 0) hline (Serves.of_eq rfl rfl rfl rfl)
  split
  · exact hrest.trans (serves_delClient fd _)
  · exact hrest

/-- So are all lines of a chunk. -/
theorem serves_encodeLoop (fd : Int) (buf : List UInt8) (remptr : Nat) (w : World) :
    Serves 0 0 w (encodeLoop fd buf remptr w).2 := by
  induction buf generalizing remptr w with
  | nil => exact Serves.refl w
  | cons b buf ih =>
      have hstore : ∀ i c (v : World), Serves 0 0 v (v.storeRemainder i c) := fun i c v =>
        Serves.of_eq rfl rfl rfl rfl
      simp only [encodeLoop]
      split
      · exact (hstore _ _ w).trans <| (hstore _ _ _).trans <| (serves_runRemainder fd _).trans (ih _ _)
      · exact (hstore _ _ w).trans (ih _ _)

/-- A packet comes from the controller. -/
def Happening.isPacket : Happening → Bool
  | .packet _ _ => true
  | _ => false

/-- The packet on its way is acknowledged, or given up. -/
def Happening.isTimeout : Happening → Bool
  | .timeout => true
  | _ => false

/-- What a happening does to the output. -/
theorem serves_after (w : World) (i : Happening) :
    Serves (if i.isPacket then 3 else 0) (if i.isTimeout then 1 else 0) w (w.after i) := by
  cases i with
  | accept k clifd =>
      obtain ⟨clients, sockPort, h⟩ :=
        acceptClient_eq k ([addClient, addXmlclient, addOr20client].get k) clifd w
      change Serves 0 0 w (acceptClient k ([addClient, addXmlclient, addOr20client].get k) clifd w)
      rw [h]
      exact Serves.of_eq rfl rfl rfl rfl
  | chunk c buf =>
      exact Serves.trans (n := 0) (k := 0) (serves_encodeLoop c.fd buf w.remlen w)
        (Serves.of_eq rfl rfl rfl rfl)
  | disconnect c error =>
      have hclose : Serves 0 0 w (w.close c.fd) := Serves.of_eq rfl rfl rfl rfl
      cases error <;> exact hclose.trans (serves_delClient c.fd _)
  | packet buf len => exact serves_decode (-1) buf len w
  | timeout =>
      refine Serves.of_passes [.sendNextX10out] ⟨?_, rfl, ?_⟩ rfl le_rfl
      · exact (List.append_nil _).symm
      · change w.usb ++ (sendNextX10out w.fifo).2 = _
        simp [Run.trace, fifoStep, Spool.emitted, List.filterMap_map]

/-- A run by its packets, its lines and its timeouts. -/
theorem serves_run (w : World) (is : List Happening) :
    Serves (3 * is.countP Happening.isPacket) (is.countP Happening.isTimeout) w (Run.run World.after w is) := by
  induction is generalizing w with
  | nil => exact Serves.refl w
  | cons i is ih =>
      have hpackets : 3 * (i :: is).countP Happening.isPacket =
          (if i.isPacket then 3 else 0) + 3 * is.countP Happening.isPacket := by
        rw [List.countP_cons]
        split <;> omega
      have htimeouts : (i :: is).countP Happening.isTimeout =
          (if i.isTimeout then 1 else 0) + is.countP Happening.isTimeout := by
        rw [List.countP_cons, Nat.add_comm]
      rw [hpackets, htimeouts]
      exact (serves_after w i).trans (ih (w.after i))

/-! ## Whole runs -/

/-- Calls of `x10_write.c` lead from a queue that can be reached to another one. -/
theorem Fifo.Reachable.trace {s : Fifo} (h : s.Reachable) (calls : List FifoCall) :
    (Run.trace fifoStep s calls).1.Reachable := by
  induction calls generalizing s with
  | nil => exact h
  | cons c calls ih => exact ih (h.call c)

/-- The queue before the first `poll`. -/
theorem reachable_startup (e : Setup) : (startup e).fifo.Reachable := by
  have hwrite : ∀ (ps : List (List UInt8)) (w : World), (∀ p ∈ ps, 1 ≤ p.length ∧ p.length ≤ 8) →
      w.fifo.Reachable → (initcm1Xa ps w).fifo.Reachable := by
    intro ps
    induction ps with
    | nil => exact fun w _ h => h
    | cons p ps ih =>
        intro w hps h
        obtain ⟨⟨h1, h8⟩, hps⟩ := List.forall_mem_cons.mp hps
        exact ih _ hps (h.call (.x10Write ⟨p, h1, h8⟩))
  rw [startup_fifo]
  refine .pollTimeOut (hwrite _ _ ?_ .init) _
  split <;> decide

/-- No line has been run at start-up. -/
theorem lines_startup (e : Setup) : (startup e).lines = [] := by
  obtain ⟨_ | _, rawData, clock, junk⟩ := e <;> rfl

/-- A stretch of a run as one of the queue: the queue at its start, the calls,
and what they come to. -/
theorem stretch_passes (e : Setup) {earlier later : List Happening} {w w' : World}
    (hw : w = Run.run World.after (startup e) earlier) (hw' : w' = Run.run World.after w later)
    (hpt : ∀ l ∈ w'.lines, ¬ PtOverflow l.2) :
    ∃ q calls, w.fifo.Refines q ∧ Passes calls w w' ∧
      (Spool.puts (calls.map FifoCall.toSpool)).length ≤
        3 * later.countP Happening.isPacket + 4 * (w'.lines.drop w.lines.length).length ∧
      Spool.acks (calls.map FifoCall.toSpool) = later.countP Happening.isTimeout := by
  subst hw'
  obtain ⟨lines, hlines, hlater⟩ := serves_run w later
  obtain ⟨first, hfirst, hearlier⟩ := serves_run (startup e) earlier
  rw [← hw] at hfirst hearlier
  rw [hlines] at hpt ⊢
  obtain ⟨hpt, hptLater⟩ := List.forall_mem_append.mp hpt
  rw [hfirst, lines_startup, List.nil_append] at hpt
  obtain ⟨calls, hcalls, -, -⟩ := hearlier hpt
  have hreach : w.fifo.Reachable := hcalls.fifo ▸ (reachable_startup e).trace calls
  obtain ⟨q, hq⟩ := hreach.refines
  obtain ⟨calls, hcalls, hputs, hacks⟩ := hlater hptLater
  rw [List.drop_left]
  exact ⟨q, calls, hq, hcalls, hputs, hacks⟩

/-- The calls of a stretch, as the queue sees them. -/
theorem Passes.spool {calls : List FifoCall} {w w' : World} (h : Passes calls w w')
    {q : Spool.Queue OutBuf} (hq : w.fifo.Refines q) :
    let t := Run.trace (Spool.step 255) q (calls.map FifoCall.toSpool)
    w'.fifo.Refines t.1 ∧ w'.usb = w.usb ++ Spool.emitted t.2 ∧
      w'.writes.drop w.writes.length = Spool.puts (calls.map FifoCall.toSpool) := by
  intro t
  have hsim := fifo_simulates_from hq calls
  refine ⟨h.fifo ▸ hsim.1, ?_, by rw [h.writes, List.drop_left]⟩
  rw [h.usb, hsim.2]

/-- From every state a run can reach, what follows goes to the output by some calls,
and the stop-and-wait queue with 255 places answers these calls in the same way.
What is handed to `write_usb` is what waits and then what that queue accepts of
what is written, in order: the acknowledges and timeouts take the packets that wait
one by one, and at most one packet more is handed over than there are of them. -/
theorem output_delivered (e : Setup) (earlier later : List Happening) :
    let w := Run.run World.after (startup e) earlier
    let w' := Run.run World.after w later
    let timeouts := later.countP Happening.isTimeout
    (∀ l ∈ w'.lines, ¬ PtOverflow l.2) →
      ∃ calls : List FifoCall, Passes calls w w' ∧ Spool.acks (calls.map FifoCall.toSpool) = timeouts ∧
        let queue := Run.trace (Spool.step 255) ⟨w.fifo.outbusy, w.fifo.waiting⟩ (calls.map FifoCall.toSpool)
        (Run.trace fifoStep w.fifo calls).2 = queue.2 ∧ w'.fifo.outbusy = queue.1.busy ∧
          w'.fifo.waiting = queue.1.waiting ∧
        ∃ sent, w'.usb = w.usb ++ sent ∧ sent ++ w'.fifo.waiting = w.fifo.waiting ++ Spool.accepted queue.2 ∧
          w.fifo.waiting.take timeouts <+: sent ∧ sent.length ≤ timeouts + 1 := by
  intro w w' timeouts hpt
  obtain ⟨q, calls, hq, hcalls, -, hacks⟩ := stretch_passes e rfl rfl hpt
  have hqueue : (⟨w.fifo.outbusy, w.fifo.waiting⟩ : Spool.Queue OutBuf) = q := by
    rw [hq.busy_eq, hq.waiting_eq]
  obtain ⟨hrefines, husb, -⟩ := hcalls.spool hq
  let t := Run.trace (Spool.step 255) q (calls.map FifoCall.toSpool)
  have hbalance : Spool.emitted t.2 ++ t.1.waiting = q.waiting ++ Spool.accepted t.2 :=
    Spool.trace_balance hq.ok _
  have hdrain := @Spool.trace_drain _ 255 _ hq.ok (calls.map FifoCall.toSpool)
  have hpace : (Spool.emitted t.2).length + t.1.credit ≤ _ := Spool.trace_pace 255 q _
  have hcredit : q.credit ≤ 1 := by
    unfold Spool.Queue.credit
    split <;> decide
  rw [hacks] at hdrain hpace
  refine ⟨calls, hcalls, hacks, ?_⟩
  rw [hqueue]
  refine ⟨(fifo_simulates_from hq calls).2, hrefines.busy_eq, hrefines.waiting_eq, Spool.emitted t.2, husb,
    ?_, ?_, ?_⟩
  · rw [hrefines.waiting_eq, hq.waiting_eq]
    exact hbalance
  · rw [hq.waiting_eq]
    have hleft : q.waiting.take timeouts <+: Spool.emitted t.2 ++ t.1.waiting :=
      hbalance ▸ (List.take_prefix _ _).trans (List.prefix_append _ _)
    exact List.prefix_of_prefix_length_le hleft (List.prefix_append _ _) (by rwa [List.length_take])
  · omega

/-- A1 on by radio is bridged: its address is on its way, and the acknowledge
takes the function. -/
theorem output_delivered_bridged :
    let w := Run.run World.after (startup (stillSetup false))
      [.packet (Ptr.ofList [0x5d, 0x20, 0x60, 0x9f, 0x00, 0xff]) 6]
    let w' := Run.run World.after w [.timeout]
    w.usb = [⟨[0x04, 0x66], 2⟩] ∧ w.fifo.waiting = [⟨[0x06, 0x62], 2⟩] ∧
      ∃ calls : List FifoCall, Passes calls w w' ∧ Spool.acks (calls.map FifoCall.toSpool) = 1 ∧
        let queue := Run.trace (Spool.step 255) ⟨w.fifo.outbusy, w.fifo.waiting⟩ (calls.map FifoCall.toSpool)
        (Run.trace fifoStep w.fifo calls).2 = queue.2 ∧ w'.fifo.outbusy = queue.1.busy ∧
          w'.fifo.waiting = queue.1.waiting ∧
        ∃ sent, w'.usb = w.usb ++ sent ∧ sent ++ w'.fifo.waiting = w.fifo.waiting ++ Spool.accepted queue.2 ∧
          w.fifo.waiting.take 1 <+: sent ∧ sent.length ≤ 1 + 1 := by
  refine ⟨by decide +kernel, by decide +kernel, @output_delivered (stillSetup false)
    [.packet (Ptr.ofList [0x5d, 0x20, 0x60, 0x9f, 0x00, 0xff]) 6] [.timeout] ?_⟩
  have hnone : (Run.run World.after (Run.run World.after (startup (stillSetup false))
      [.packet (Ptr.ofList [0x5d, 0x20, 0x60, 0x9f, 0x00, 0xff]) 6]) [.timeout]).lines = [] := by
    decide +kernel
  rw [hnone]
  exact fun l hl => absurd hl List.not_mem_nil

/-- What a stretch of a run can make of packets is bounded by what comes in; and
while so much finds room beside what waits already, nothing is lost: all of it is
delivered, in order. -/
theorem burst_delivered (e : Setup) (earlier later : List Happening) :
    let w := Run.run World.after (startup e) earlier
    let w' := Run.run World.after w later
    let bound := 3 * later.countP Happening.isPacket + 4 * (w'.lines.drop w.lines.length).length
    (∀ l ∈ w'.lines, ¬ PtOverflow l.2) →
      (w'.writes.drop w.writes.length).length ≤ bound ∧
        (w.fifo.waiting.length + bound ≤ 255 →
          w'.delivered = w.delivered ++ w'.writes.drop w.writes.length) := by
  intro w w' bound hpt
  obtain ⟨q, calls, hq, hcalls, hputs, -⟩ := stretch_passes e rfl rfl hpt
  obtain ⟨hrefines, husb, hwrites⟩ := hcalls.spool hq
  rw [hwrites]
  refine ⟨hputs, fun hroom => ?_⟩
  rw [hq.waiting_eq] at hroom
  have hputs : (Spool.puts (calls.map FifoCall.toSpool)).length ≤ bound := hputs
  have htaken := @Spool.accepted_eq_puts _ 255 q (calls.map FifoCall.toSpool) (by omega)
  have hbalance := @Spool.trace_balance _ 255 _ hq.ok (calls.map FifoCall.toSpool)
  rw [World.delivered, World.delivered, hrefines.waiting_eq, hq.waiting_eq, husb, List.append_assoc, hbalance,
    htaken, List.append_assoc]

/-- The packets of A1 on by radio, for an idle controller. -/
theorem burst_delivered_bridged :
    let w := startup (stillSetup false)
    let w' := Run.run World.after w [.packet (Ptr.ofList [0x5d, 0x20, 0x60, 0x9f, 0x00, 0xff]) 6]
    w'.writes = [⟨[0x04, 0x66], 2⟩, ⟨[0x06, 0x62], 2⟩] ∧ (w'.writes.drop w.writes.length).length ≤ 3 ∧
      w'.delivered = w.delivered ++ w'.writes.drop w.writes.length := by
  have hnone : (Run.run World.after (startup (stillSetup false))
      [.packet (Ptr.ofList [0x5d, 0x20, 0x60, 0x9f, 0x00, 0xff]) 6]).lines = [] := by decide +kernel
  obtain ⟨hbound, hdelivered⟩ := @burst_delivered (stillSetup false) []
    [.packet (Ptr.ofList [0x5d, 0x20, 0x60, 0x9f, 0x00, 0xff]) 6]
    (by
      rw [Run.run_nil, hnone]
      exact fun l hl => absurd hl List.not_mem_nil)
  rw [Run.run_nil, hnone] at hbound hdelivered
  exact ⟨by decide +kernel, hbound, hdelivered (by decide +kernel)⟩

end Mochad
