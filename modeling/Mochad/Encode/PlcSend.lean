import Mochad.Decode.PlcState
import Mochad.Encode.Argv
import Mochad.Encode.Command

/-!
# Mochad.Encode.PlcSend

What a `PL` command sends: a list of packets read off its words (`plPackets`),
each shown and tracked by the decoder and then passed to `x10_write`
(`World.transmit`).  That is all the command does besides output
(`processcommandline_pl`).
-/

namespace Mochad

open CString

/-! ## Packets -/

/-- A packet for the power line. -/
inductive PlcPacket where
  | houseunit (hu : UInt8)
  | housefunc (hf : UInt8)
  /-- House/function with the amount for dim and bright. -/
  | dimbright (hf dims : UInt8)
  | extended (hf u data cmd : UInt8)
deriving DecidableEq, Repr

/-- The bytes passed to `x10_write`. -/
def PlcPacket.wire : PlcPacket → List UInt8
  | houseunit hu => [0x04, hu]
  | housefunc hf => [0x06, hf]
  | dimbright hf dims => [0x06, hf, dims]
  | extended hf u data cmd => [0x07, hf, u, data, cmd]

/-- The decoder reads back the house and unit of the transmit table. -/
theorem plcHouse_plcUnit_housecode : ∀ house unit : Fin 16,
    plcHouse (housecodeAt house <<< 4 ||| housecodeAt unit) = house ∧
      plcUnit (housecodeAt house <<< 4 ||| housecodeAt unit) = unit := by
  decide

/-- The operation on the tracked state. -/
def PlcPacket.op : PlcPacket → Option HuaOp
  | houseunit hu => some (.add (plcHouse hu) (plcUnit hu))
  | housefunc hf => plcFuncOp hf
  | dimbright _ _ => none
  | extended hf u data _ => some (.setstatusXdim (plcHouse hf) (plcUnit u) data.toNat)

/-- Track a packet and send it. -/
def World.transmit (w : World) (p : PlcPacket) : World :=
  (({ w with state := applyOp p.op w.state } : World).x10Write p.wire p.wire.length).2

/-! ## Frames -/

namespace Quiet

variable {a b : World} (h : Quiet a b)
include h

/-- Decode a packet with a known operation. -/
theorem decodePlc {op : Option HuaOp} {buf : Ptr} {len : Nat} (hop : plcOp buf len = op) (fd : Int) :
    Quiet { a with state := applyOp op a.state } (cm15aDecodePlc fd buf len b) := by
  have hd := cm15aDecodePlc_quiet fd buf len b
  rw [hop, h.state] at hd
  exact (h.setState _).trans hd

/-- Decode the packet as if it had been received, then send it. -/
theorem transmit {p : PlcPacket} {buf : Ptr} {len : Nat} (hop : plcOp buf len = p.op) (fd : Int) :
    Quiet (a.transmit p)
      ((cm15aDecodePlc fd buf len b).x10Write p.wire p.wire.length).2 :=
  (h.decodePlc hop fd).x10Write _ _

/-- The address of a unit is one packet, after a quiet step. -/
theorem plTxHouseunit (house unit : Int) :
    Quiet (a.transmit (.houseunit (housecodeAt house <<< 4 ||| housecodeAt unit)))
      (plTxHouseunit house unit b).2 :=
  ((h.access _ _).access _ _).transmit (p := .houseunit _) rfl (-1)

theorem plTxExtendedCode1 (house unit command subcmd param : Int) :
    Quiet (a.transmit (.extended (housecodeAt house <<< 4 ||| 0x7) (housecodeAt unit)
        (lowByte param &&& 0xFF) ((lowByte command &&& 0x0F) <<< 4 ||| (lowByte subcmd &&& 0x0F))))
      (plTxExtendedCode1 house unit command subcmd param b).2 :=
  ((h.access _ _).access _ _).transmit (p := .extended _ _ _ _) rfl (-1)

end Quiet

/-- The packet of `pl_tx_housefunc`. -/
def housefuncPacket (house func param : Int) : PlcPacket :=
  if func = funcDim ∨ func = funcBright then
    .dimbright (housecodeAt house <<< 4 ||| lowByte func)
      ((0x06 : UInt8) ||| (lowByte param &&& 0x1F) <<< 3)
  else if func = funcExtendedDim then
    .extended (housecodeAt house <<< 4 ||| 0x7) 0x02 (lowByte param) 0x31
  else .housefunc (housecodeAt house <<< 4 ||| lowByte func)

/-- So is a function, in the form its parameter asks for. -/
theorem Quiet.plTxHousefunc {a b : World} (h : Quiet a b) (house func param : Int) :
    Quiet (a.transmit (housefuncPacket house func param)) (plTxHousefunc house func param b).2 := by
  have h := h.access .x10housecode house
  unfold Mochad.plTxHousefunc housefuncPacket
  by_cases hd : func = funcDim ∨ func = funcBright
  · simp only [hd, if_true]
    exact h.transmit (p := .dimbright _ _) (by rfl) (-1)
  by_cases hx : func = funcExtendedDim
  · simp only [hx, if_true]
    exact h.transmit (p := .extended _ _ _ _) (by rfl) (-1)
  · simp only [hd, hx, if_false]
    exact h.transmit (p := .housefunc _) (by rfl) (-1)

/-! ## Commands -/

/-- The packets of `PL` with a house and a unit, from the words behind them. -/
def plUnitPackets (house unit : Int) (ws : List Text) : List PlcPacket :=
  let houseunit := PlcPacket.houseunit (housecodeAt house <<< 4 ||| housecodeAt unit)
  let extended (command subcmd param : Int) := PlcPacket.extended (housecodeAt house <<< 4 ||| 0x7)
    (housecodeAt unit) (lowByte param &&& 0xFF)
    ((lowByte command &&& 0x0F) <<< 4 ||| (lowByte subcmd &&& 0x0F))
  let func := funcNumber ws[0]?
  if func < 0 then [houseunit]
  else if func = funcExtendedDim then [extended 3 1 (paramOr 1 ws[1]?)]
  else if func = funcDim ∨ func = funcBright then
    [houseunit, housefuncPacket house func (paramOr 1 ws[1]?)]
  else if func = funcExtendedCode1 then
    [extended (paramOr 0 ws[1]?) (paramOr 0 ws[2]?) (paramOr 0 ws[3]?)]
  else [houseunit, housefuncPacket house func 0]

/-- The packets of `PL` with a house only, from the words behind it. -/
def plHousePackets (house : Int) (ws : List Text) : List PlcPacket :=
  let func := funcNumber ws[0]?
  if func < 0 ∨ func = funcExtendedDim then []
  else if func = funcDim ∨ func = funcBright then
    [housefuncPacket house func (paramOr 1 ws[1]?)]
  else [housefuncPacket house func 0]

/-- The packets of a `PL` command, from the words behind `PL`. -/
def plPackets (ws : List Text) : List PlcPacket :=
  let (house, unit) := deviceaddrOf ws[0]?
  if house < 0 then []
  else if unit < 0 then plHousePackets house ws.tail
  else plUnitPackets house unit ws.tail

/-- A parameter with a default. -/
theorem getparamOr_fst (default : Int) (t : Strtok) :
    (getparamOr default t).1 = paramOr default (argv t).head? := by
  simp [getparamOr, paramOr]

theorem argv_getparamOr (default : Int) (t : Strtok) :
    argv (getparamOr default t).2 = (argv t).tail := by
  simp [getparamOr]

/-- `PL` for a unit transmits its packets, and has no other effect. -/
theorem plUnit_quiet {a b : World} (h : Quiet a b) (house unit : Int) (t : Strtok) :
    Quiet ((plUnitPackets house unit (argv t)).foldl World.transmit a)
      (plUnit house unit t b).2.2 := by
  have hu := h.plTxHouseunit house unit
  have h0 : (argv t)[0]? = (argv t).head? := List.head?_eq_getElem?.symm
  have h1 : (argv t)[1]? = (argv t).tail.head? := by simp
  have h2 : (argv t)[2]? = (argv t).tail.tail.head? := by simp
  have h3 : (argv t)[3]? = (argv t).tail.tail.tail.head? := by simp
  unfold plUnit plUnitPackets
  rw [h0, h1, h2, h3]
  simp only [getfunc_fst, argv_getfunc, getparamOr_fst, argv_getparamOr]
  generalize funcNumber (argv t).head? = func
  by_cases k1 : func < 0
  · simp only [k1, if_true]
    exact hu
  by_cases k2 : func = funcExtendedDim
  · simp only [k2, if_true]
    exact h.plTxExtendedCode1 _ _ _ _ _
  by_cases k3 : func = funcDim ∨ func = funcBright
  · simp only [k1, k2, k3, if_true, if_false]
    exact hu.plTxHousefunc _ _ _
  by_cases k4 : func = funcExtendedCode1
  · simp only [k4, if_true]
    exact h.plTxExtendedCode1 _ _ _ _ _
  · simp only [k1, k2, k3, k4, if_false]
    exact hu.plTxHousefunc _ _ _

/-- So does `PL` for a house. -/
theorem plHouse_quiet {a b : World} (h : Quiet a b) (house : Int) (t : Strtok) :
    Quiet ((plHousePackets house (argv t)).foldl World.transmit a) (plHouse house t b).2.2 := by
  have h0 : (argv t)[0]? = (argv t).head? := List.head?_eq_getElem?.symm
  have h1 : (argv t)[1]? = (argv t).tail.head? := by simp
  unfold plHouse plHousePackets
  rw [h0, h1]
  simp only [getfunc_fst, argv_getfunc, getparamOr_fst]
  generalize funcNumber (argv t).head? = func
  by_cases k1 : func < 0 ∨ func = funcExtendedDim
  · simp only [k1, if_true]
    exact h
  by_cases k2 : func = funcDim ∨ func = funcBright
  · simp only [k1, k2, if_true, if_false]
    exact h.plTxHousefunc _ _ _
  · simp only [k1, k2, if_false]
    exact h.plTxHousefunc _ _ _

/-- An acknowledgement only tells. -/
theorem ackOr20_quiet {a b : World} (h : Quiet a b) (fd : Int) : Quiet a (ackOr20 fd b) := by
  unfold ackOr20
  by_cases ho : b.or20client fd = true
  · simp only [ho, if_true]
    exact h.statusprintf fd _
  · simp only [ho]
    exact h

/-- `PL` transmits the packets of its words, and has no other effect. -/
theorem plCommand_quiet (fd : Int) (t : Strtok) (w : World) :
    Quiet ((plPackets (argv t)).foldl World.transmit w) (plCommand fd t w).2.2 := by
  have h := ackOr20_quiet (Quiet.refl w) fd
  have h0 : (argv t)[0]? = (argv t).head? := List.head?_eq_getElem?.symm
  unfold plCommand plPackets
  rw [h0]
  simp only [getdeviceaddr_eq]
  by_cases k1 : (deviceaddrOf (argv t).head?).1 < 0
  · simp only [k1, if_true]
    exact h
  by_cases k2 : (deviceaddrOf (argv t).head?).2 < 0
  · simp only [k1, k2, if_true, if_false]
    rw [← argv_nextWord]
    exact plHouse_quiet h _ _
  · simp only [k1, k2, if_false]
    rw [← argv_nextWord]
    exact plUnit_quiet h _ _ _

/-- A line is the policy request, or has no words, or is dispatched on its first
word. -/
theorem processcommandlineWith_cases (d : Int → Ptr → Nat → World → World) (fd : Int) (aLine : Text)
    (w : World) :
    (strupper aLine = cstr "<POLICY-FILE-REQUEST/>" ∧
      (processcommandlineWith d fd aLine w).2.2 = w.emit (.send fd domainpolicy)) ∨
    (words 32 (strupper aLine) = [] ∧ (processcommandlineWith d fd aLine w).2.2 = w) ∨
    ∃ command t, words 32 (strupper aLine) = command :: argv t ∧
      processcommandlineWith d fd aLine w = runCommand d fd command t w := by
  by_cases hpolicy : strupper aLine = cstr "<POLICY-FILE-REQUEST/>"
  · exact .inl ⟨hpolicy, by simp only [processcommandlineWith, hpolicy, if_true]⟩
  right
  have hfst := nextWord_fst (Strtok.start (strupper aLine))
  have hsnd := argv_nextWord (Strtok.start (strupper aLine))
  rw [argv_start] at hfst hsnd
  unfold processcommandlineWith
  simp only [hpolicy, if_false]
  revert hfst hsnd
  obtain ⟨_ | command, t⟩ := nextWord (Strtok.start (strupper aLine)) <;> intro hfst hsnd
  · exact .inl ⟨List.head?_eq_none_iff.mp hfst.symm, rfl⟩
  · obtain ⟨ws, hws⟩ := List.head?_eq_some_iff.mp hfst.symm
    refine .inr ⟨command, t, ?_, rfl⟩
    rw [hsnd, hws, List.tail_cons]

/-- A line with words is dispatched on the first of them. -/
theorem processcommandlineWith_words {d : Int → Ptr → Nat → World → World} {fd : Int}
    {aLine command : Text} {ws : List Text} {w : World}
    (hwords : words 32 (strupper aLine) = command :: ws)
    (hpolicy : command ≠ cstr "<POLICY-FILE-REQUEST/>") :
    ∃ t, argv t = ws ∧ processcommandlineWith d fd aLine w = runCommand d fd command t w := by
  have hone : words 32 (cstr "<POLICY-FILE-REQUEST/>") = [cstr "<POLICY-FILE-REQUEST/>"] :=
    words_of_not_mem 32 (by decide) (by decide)
  obtain ⟨hp, -⟩ | ⟨hn, -⟩ | ⟨c, t, hc, heq⟩ := processcommandlineWith_cases d fd aLine w
  · rw [hp, hone] at hwords
    exact absurd (List.cons.inj hwords).1.symm hpolicy
  · simp [hn] at hwords
  · obtain ⟨rfl, rfl⟩ := List.cons.inj (hc.symm.trans hwords)
    exact ⟨t, rfl, heq⟩

/-- What holds of the state behind each command holds behind `runCommand`. -/
theorem runCommand_cases {P : World → Prop} {d : Int → Ptr → Nat → World → World} {fd : Int}
    {command : Text} {t : Strtok} {w : World}
    (hpl : command = cstr "PL" → P (plCommand fd t w).2.2)
    (hrf : command = cstr "RF" → P (rfCommand d fd t w).2.2)
    (hrfsec : command = cstr "RFSEC" → P (rfsecCommand d fd t w).2.2)
    (hrfcam : command = cstr "RFCAM" → P (rfcamCommand d fd t w).2.2)
    (hpt : command = cstr "PT" → P (ptCommand fd t w).2.2)
    (hrftopl : command = cstr "RFTOPL" → P (rftoplCommand fd t w).2.2)
    (hrftorf : command = cstr "RFTORF" → P (rftorfCommand fd t w).2.2)
    (hst : command = cstr "ST" → P (stCommand fd t w).2.2)
    (hgetstatus : command = cstr "GETSTATUS" → P (getstatusCommand fd t w).2.2)
    (hgetstatussec : command = cstr "GETSTATUSSEC" → P (getstatussecCommand fd t w).2.2)
    (hunknown : P w) : P (runCommand d fd command t w).2.2 := by
  let Q : Int × Strtok × World → Prop := fun r => P r.2.2
  change Q (runCommand d fd command t w)
  unfold runCommand
  refine iteInduction hpl fun _ => ?_
  refine iteInduction hrf fun _ => ?_
  refine iteInduction hrfsec fun _ => ?_
  refine iteInduction hrfcam fun _ => ?_
  refine iteInduction hpt fun _ => ?_
  refine iteInduction hrftopl fun _ => ?_
  refine iteInduction hrftorf fun _ => ?_
  refine iteInduction hst fun _ => ?_
  refine iteInduction hgetstatus fun _ => ?_
  exact iteInduction hgetstatussec fun _ => hunknown

/-- A `GETSTATUS` line. -/
theorem processcommandlineWith_getstatus {d : Int → Ptr → Nat → World → World} {fd : Int}
    {aLine : Text} {ws : List Text} {w : World}
    (hwords : words 32 (strupper aLine) = cstr "GETSTATUS" :: ws) :
    ∃ t, argv t = ws ∧ processcommandlineWith d fd aLine w = getstatusCommand fd t w := by
  obtain ⟨t, ht, heq⟩ := @processcommandlineWith_words d fd _ _ _ w hwords (by decide)
  have hrun : runCommand d fd (cstr "GETSTATUS") t w = getstatusCommand fd t w := rfl
  exact ⟨t, ht, heq.trans hrun⟩

/-- The RF decoder has no part in a `PL` line. -/
theorem processcommandlineWith_pl_congr (d d' : Int → Ptr → Nat → World → World) {aLine : Text}
    {ws : List Text} (hwords : words 32 (strupper aLine) = cstr "PL" :: ws) (fd : Int) (w : World) :
    processcommandlineWith d fd aLine w = processcommandlineWith d' fd aLine w := by
  have hfst := nextWord_fst (Strtok.start (strupper aLine))
  rw [argv_start, hwords] at hfst
  unfold processcommandlineWith
  dsimp only
  revert hfst
  obtain ⟨command, t⟩ := nextWord (Strtok.start (strupper aLine))
  rintro rfl
  simp only [List.head?_cons, runCommand, if_true]

/-- A `PL` line sends its packets and prints; the RF decoder has no part in it. -/
theorem processcommandline_pl {d : Int → Ptr → Nat → World → World} {aLine : Text}
    {ws : List Text} (hwords : words 32 (strupper aLine) = cstr "PL" :: ws) (fd : Int) (w : World) :
    Quiet ((plPackets ws).foldl World.transmit w) (processcommandlineWith d fd aLine w).2.2 := by
  obtain ⟨t, rfl, heq⟩ := processcommandlineWith_words hwords (by decide)
  rw [heq, runCommand, if_pos rfl]
  exact plCommand_quiet fd t w

end Mochad
