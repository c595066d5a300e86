import Mochad.Bridge

/-!
# Mochad.Bounds

What the decoder and the commands do to the outside.  No function of the source
checks an index before it uses it on one of the fixed tables; `Clean w w'` says
that all indices used between `w` and `w'` are inside their arrays, and that no
descriptor was closed.  It composes, so one lemma for each function is enough,
and `indices_inside` puts them together for every command line and every packet.
-/

namespace Mochad

open CString

/-! ## Arrays -/

/-- The number of entries of an array. -/
def CArray.size : CArray → Nat
  | .x10housecode => Mochad.x10housecode.length
  | .x10housecoderf => Mochad.x10housecoderf.length
  | .houseUnitTable => Mochad.houseUnitTable.length
  | .houseUnitTableRF => Mochad.houseUnitTableRF.length
  | .funcname => Mochad.funcname.length
  | .rfcamKeyCodes => Mochad.rfcamKeyCodes.length
  | .house => 16
  | .unit => 16
  | .remainder => remainderSize

/-- The index is inside the array. -/
def Access.Inside (a : Access) : Prop := 0 ≤ a.index ∧ a.index < a.array.size

/-- The descriptor that is closed. -/
def Io.closed : Io → Option Int
  | .close fd => some fd
  | _ => none

/-- All indices used are inside their arrays, and no descriptor is closed. -/
def Clean (w w' : World) : Prop :=
  ∃ io acc, w'.io = w.io ++ io ∧ (∀ e ∈ io, e.closed = none) ∧
    w'.accesses = w.accesses ++ acc ∧ ∀ a ∈ acc, a.Inside

namespace Clean

/-- A step that records nothing. -/
theorem of_eq {a b : World} (hio : b.io = a.io) (hacc : b.accesses = a.accesses) : Clean a b :=
  ⟨[], [], by simpa using hio, by simp, by simpa using hacc, by simp⟩

/-- A step that does nothing is clean. -/
theorem refl (w : World) : Clean w w := of_eq rfl rfl

/-- Clean steps one after the other are clean. -/
theorem trans {a b c : World} (h₁ : Clean a b) (h₂ : Clean b c) : Clean a c := by
  obtain ⟨io₁, acc₁, hio₁, hc₁, hacc₁, hi₁⟩ := h₁
  obtain ⟨io₂, acc₂, hio₂, hc₂, hacc₂, hi₂⟩ := h₂
  refine ⟨io₁ ++ io₂, acc₁ ++ acc₂, by rw [hio₂, hio₁, List.append_assoc], fun e he => ?_,
    by rw [hacc₂, hacc₁, List.append_assoc], fun x hx => ?_⟩
  · exact (List.mem_append.mp he).elim (hc₁ e) (hc₂ e)
  · exact (List.mem_append.mp hx).elim (hi₁ x) (hi₂ x)

/-- The indices a run of the program used are inside their arrays. -/
theorem inside {w w' : World} (h : Clean w w') :
    ∀ a ∈ w'.accesses.drop w.accesses.length, a.Inside := by
  obtain ⟨io, acc, -, -, hacc, hi⟩ := h
  rw [hacc, List.drop_left]
  exact hi

/-- A loop over clean steps is clean. -/
theorem foldl {α : Type} {f : World → α → World} (h : ∀ w x, Clean w (f w x)) (xs : List α)
    (w : World) : Clean w (xs.foldl f w) := by
  induction xs generalizing w with
  | nil => exact refl w
  | cons x xs ih => exact (h w x).trans (ih _)

section
variable {a b : World} (h : Clean a b)
include h

/-- Socket output closes nothing. -/
theorem output {io : List Io} (hio : ∀ e ∈ io, e.closed = none) :
    Clean a { b with io := b.io ++ io } :=
  h.trans ⟨io, [], rfl, hio, by simp, by simp⟩

/-- Indices inside their arrays may be used. -/
theorem indices {acc : List Access} (hacc : ∀ x ∈ acc, x.Inside) :
    Clean a { b with accesses := b.accesses ++ acc } :=
  h.trans ⟨[], acc, by simp, by simp, rfl, hacc⟩

/-- Output that closes no descriptor is clean. -/
theorem emit {e : Io} (he : e.closed = none) : Clean a (b.emit e) :=
  h.output (by simpa using he)

/-- One index inside its array. -/
theorem access {x : CArray} {i : Int} (hi : (⟨x, i⟩ : Access).Inside) : Clean a (b.access x i) :=
  h.indices (by simpa using hi)

/-- Printing closes nothing, whoever is told. -/
theorem sockprintf (fd : Int) (text : Text) : Clean a (b.sockprintf fd text) := by
  refine h.output fun e he => ?_
  unfold World.sockprintfIo at he
  split at he
  · rw [List.mem_singleton] at he
    rw [he]
    rfl
  · simp only [World.sendAll, List.cons_append, List.mem_cons, List.mem_append, List.mem_map] at he
    obtain rfl | ⟨fd, -, rfl⟩ | ⟨fd, -, rfl⟩ := he <;> rfl

theorem statusprintf (fd : Int) (text : Text) : Clean a (b.statusprintf fd text) := h.emit rfl

theorem sendMessage (text : Option Text) : Clean a (b.sendMessage text) := h.emit rfl

theorem sockhexdump (fd : Int) (p : Ptr) (len : Nat) : Clean a (b.sockhexdump fd p len) :=
  h.sockprintf _ _

/-- Passing bytes to the queue. -/
theorem x10Write (buf : List UInt8) (buflen : Nat) : Clean a (b.x10Write buf buflen).2 :=
  h.trans (of_eq rfl rfl)

/-- A sensor event uses no computed index. -/
theorem huaSecEvent (addr : Nat) (funct secaddr8 : UInt8) :
    Clean a (b.huaSecEvent addr funct secaddr8) := by
  rw [World.huaSecEvent_eq]
  exact h.trans (of_eq rfl rfl)

/-- Selecting a unit uses the house and the unit as indices. -/
theorem huaAdd {house unit : Int} (hh : (⟨.house, house⟩ : Access).Inside)
    (hu : (⟨.unit, unit⟩ : Access).Inside) : Clean a (b.huaAdd house unit) :=
  h.trans ⟨[], [⟨.house, house⟩, ⟨.unit, unit⟩], by simp, by simp, rfl, by simp [hh, hu]⟩

/-- Setting a dim level uses the house and the unit as indices. -/
theorem huaSetstatusXdim {house unit : Int} (xdim : Int) (hh : (⟨.house, house⟩ : Access).Inside)
    (hu : (⟨.unit, unit⟩ : Access).Inside) : Clean a (b.huaSetstatusXdim house unit xdim) :=
  h.trans ⟨[], [⟨.house, house⟩, ⟨.unit, unit⟩], by simp, by simp, rfl, by simp [hh, hu]⟩

/-- A house function uses the house as index. -/
theorem huaFunc (f : Fin 16 → X10state → X10state) {house : Int}
    (hh : (⟨.house, house⟩ : Access).Inside) : Clean a (b.huaFunc f house) :=
  h.trans ⟨[], [⟨.house, house⟩], by simp, by simp, rfl, by simp [hh]⟩

end

end Clean

/-! ## Indices -/

instance (a : Access) : Decidable a.Inside := inferInstanceAs (Decidable (_ ∧ _))

/-- Every byte has two nibbles. -/
theorem nibble_inside : ∀ b : UInt8,
    (⟨.houseUnitTable, ((b &&& 0xf0) >>> 4).toNat⟩ : Access).Inside ∧
    (⟨.houseUnitTable, (b &&& 0x0f).toNat⟩ : Access).Inside ∧
    (⟨.houseUnitTableRF, ((b &&& 0xf0) >>> 4).toNat⟩ : Access).Inside ∧
    (⟨.houseUnitTableRF, ((b >>> 4) &&& 0x0f).toNat⟩ : Access).Inside := by
  intro b
  have hhigh := highNibble_lt b
  rw [highNibble_eq]
  exact ⟨⟨Int.natCast_nonneg _, Int.ofNat_lt.mpr hhigh⟩,
    ⟨Int.natCast_nonneg _, Int.ofNat_lt.mpr (lowNibble_lt b)⟩,
    ⟨Int.natCast_nonneg _, Int.ofNat_lt.mpr hhigh⟩, Int.natCast_nonneg _, Int.ofNat_lt.mpr hhigh⟩

/-- The house tables hold the letters A..P. -/
theorem hfcDecode_inside : ∀ b : UInt8,
    (⟨.house, ((hfcDecode b).1.toNat : Int) - 65⟩ : Access).Inside ∧
    (⟨.funcname, (hfcDecode b).2⟩ : Access).Inside := by
  have hhouse : ∀ i : Fin 16,
      (⟨.house, ((houseUnitTable.getD i.val 0).toNat : Int) - 65⟩ : Access).Inside := by decide
  exact fun b => ⟨hhouse ⟨_, highNibble_lt b⟩, Int.natCast_nonneg _, Int.ofNat_lt.mpr (lowNibble_lt b)⟩

/-- The unit of an extended code is one of the sixteen. -/
theorem ucDecode_inside : ∀ b : UInt8, (⟨.unit, ucDecode b - 1⟩ : Access).Inside := by
  have hunit : ∀ i : Fin 16,
      (⟨.unit, ((houseUnitTable.getD i.val 0).toNat : Int) - 65 + 1 - 1⟩ : Access).Inside := by decide
  exact fun b => hunit ⟨_, lowNibble_lt b⟩

/-- House, unit and function of a standard RF packet are inside their tables. -/
theorem hufcDecode_inside (houseunit unitfunc : UInt8) :
    let r := hufcDecode houseunit unitfunc
    (⟨.house, (r.1.toNat : Int) - 65⟩ : Access).Inside ∧ (⟨.funcname, r.2.2 + 2⟩ : Access).Inside ∧
      (¬ r.2.2 > 1 → (⟨.unit, r.2.1 - 1⟩ : Access).Inside) := by
  obtain ⟨house, unit, f, h⟩ := hufcDecode_range houseunit unitfunc
  have hhouse : ∀ house : Fin 16, (⟨.house, ((houseByte house).toNat : Int) - 65⟩ : Access).Inside := by
    decide
  have hfunc : ∀ f : Fin 4, (⟨.funcname, (f.val : Int) + 2⟩ : Access).Inside := by decide
  have hunit : ∀ unit : Fin 16, ∀ f : Fin 4, ¬ f.val > 1 →
      (⟨.unit, bridgeUnitint unit f - 1⟩ : Access).Inside := by decide
  rw [h]
  exact ⟨hhouse house, hfunc f, hunit unit f⟩

/-- A house or unit 0..15 is inside the tables of the encoder. -/
theorem housecode_inside : ∀ i : Fin 16, (⟨.x10housecode, i.val⟩ : Access).Inside ∧
    (⟨.x10housecoderf, i.val⟩ : Access).Inside ∧ (⟨.house, i.val⟩ : Access).Inside ∧
    (⟨.unit, i.val⟩ : Access).Inside := by
  decide

/-! ## The decoder -/

section
variable (fd : Int) (w : World)

/-- The indices used to decode a house/unit byte. -/
theorem clean_accessHuc {a b : World} (h : Clean a b) (hu : UInt8) : Clean a (b.accessHuc hu) :=
  (h.access (nibble_inside hu).1).access (nibble_inside hu).2.1

/-- The indices used to decode a house/function byte. -/
theorem clean_accessHfc {a b : World} (h : Clean a b) (hf : UInt8) : Clean a (b.accessHfc hf) :=
  h.access (nibble_inside hf).1

/-- The index used to decode a unit byte. -/
theorem clean_accessUc {a b : World} (h : Clean a b) (u : UInt8) : Clean a (b.accessUc u) :=
  h.access (nibble_inside u).2.1

/-- Tracking a function at a house that is inside. -/
theorem clean_plcFunc {a b : World} (h : Clean a b) (funcint : Int) {house : Int}
    (hh : (⟨.house, house⟩ : Access).Inside) : Clean a (plcFunc funcint house b) := by
  unfold plcFunc
  split
  · exact h.huaFunc _ hh
  split
  · exact h.huaFunc _ hh
  split
  · exact h.huaFunc _ hh
  split
  · exact h.huaFunc _ hh
  · exact h

/-- An extended code uses house, unit and function as indices, all inside. -/
theorem clean_plcExtended (b0 hf u data command : UInt8) :
    Clean w (plcExtended fd b0 hf u data command w) := by
  have h := clean_accessUc (clean_accessHfc (Clean.refl w) hf) u
  have hname := h.access (hfcDecode_inside hf).2
  exact (hname.sockprintf fd _).huaSetstatusXdim _ (hfcDecode_inside hf).1 (ucDecode_inside u)

/-- `cm15a_decode_plc` is clean for every buffer and length. -/
theorem clean_decodePlc (buf : Ptr) (len : Nat) : Clean w (cm15aDecodePlc fd buf len w) := by
  have h := Clean.refl w
  have hhuc : Clean w ((w.accessHuc (buf 3)).huaAdd ((hucDecode (buf 3)).1.toNat - 65)
      ((hucDecode (buf 3)).2 - 1)) :=
    (clean_accessHuc h (buf 3)).huaAdd (hfcDecode_inside (buf 3)).1 (ucDecode_inside (buf 3))
  have hfunc := clean_plcFunc (clean_accessHfc h (buf 3)) (hfcDecode (buf 3)).2
    (hfcDecode_inside (buf 3)).1
  unfold cm15aDecodePlc
  refine iteInduction (fun _ => h) fun _ => ?_
  refine iteInduction (fun _ => h) fun _ => ?_
  refine iteInduction (fun _ => ?_) fun _ => ?_
  · exact iteInduction (fun _ => h) fun _ => hhuc.sockprintf fd _
  refine iteInduction (fun _ => ?_) fun _ => ?_
  · exact iteInduction (fun _ => h) fun _ => (hfunc.access (hfcDecode_inside (buf 3)).2).sockprintf fd _
  refine iteInduction (fun _ => ?_) fun _ => ?_
  · exact iteInduction (fun _ => h) fun _ =>
      ((clean_accessHfc h (buf 4)).access (hfcDecode_inside (buf 4)).2).sockprintf fd _
  refine iteInduction (fun _ => ?_) fun _ => ?_
  · exact iteInduction (fun _ => h) fun _ => clean_plcExtended fd w _ _ _ _ _
  refine iteInduction (fun _ => ?_) fun _ => h
  exact iteInduction (fun _ => h) fun _ => clean_plcExtended fd w _ _ _ _ _

/-- The duplicate filter uses no computed index of the recorded arrays. -/
theorem clean_dupFilter {a b : World} (h : Clean a b) (buf : Ptr) (len : Int) :
    Clean a (dupFilter buf len b).2 := by
  obtain ⟨clock, dups, heq⟩ := dupFilter_eq buf len b
  rw [heq]
  exact h.trans (.of_eq rfl rfl)

/-- The repeater prints and writes. -/
theorem clean_repeatRF {a b : World} (h : Clean a b) (buf : Ptr) (len : Nat) :
    Clean a (repeatRF fd buf len b) := by
  unfold repeatRF
  split
  · dsimp only
    split
    · exact (h.sockprintf fd _).x10Write _ _
    · exact (h.sockprintf fd _).x10Write _ _
  · exact h

/-- A camera key is looked up only behind the check of its index. -/
theorem clean_findCamRemoteName (camcommand : Ptr) (commandlen : Nat) :
    Clean w (findCamRemoteName camcommand commandlen w).2 := by
  have h := Clean.refl w
  unfold findCamRemoteName
  split
  · exact h
  dsimp only
  split
  · exact h
  split
  · exact h
  · rename_i hkey
    have hinside : (⟨.rfcamKeyCodes, ((camcommand 2).toNat : Int) - 0x54⟩ : Access).Inside := by
      simp only [Access.Inside, CArray.size]
      omega
    split
    · exact h.access hinside
    · exact (h.access hinside).access (nibble_inside (camcommand 3)).2.2.2

/-- A message about a packet that is not decoded. -/
theorem clean_complaint {a b : World} (h : Clean a b) (text : Text) (buf : Ptr) (len : Nat) :
    Clean a ((b.sockprintf fd text).sockhexdump fd buf len) :=
  (h.sockprintf fd text).sockhexdump fd buf len

/-- An accepted 8-bit security packet. -/
theorem clean_rfSecurity8 (buf : Ptr) (len : Nat) : Clean w (rfSecurity8 fd buf len w) := by
  have h := clean_dupFilter (Clean.refl w) buf len
  unfold rfSecurity8
  split
  rename_i hdup
  rw [hdup] at h
  dsimp only
  split
  · exact h
  · exact clean_repeatRF fd ((h.huaSecEvent _ _ _).sockprintf fd _) buf len

/-- An accepted long security packet. -/
theorem clean_rfSecurityLong (buf : Ptr) (len : Nat) (a0 a1 a2 funcint : UInt8) :
    Clean w (rfSecurityLong fd buf len a0 a1 a2 funcint w) := by
  have h := clean_dupFilter (Clean.refl w) buf len
  unfold rfSecurityLong
  split
  rename_i hdup
  rw [hdup] at h
  dsimp only
  split
  · exact h
  · exact clean_repeatRF fd ((h.huaSecEvent _ _ _).sockprintf fd _) buf len

/-- An accepted camera packet. -/
theorem clean_rfCamera {a b : World} (h : Clean a b) (buf : Ptr) (len : Nat) (commandp : Text) :
    Clean a (rfCamera fd buf len commandp b) := by
  have h := clean_dupFilter h buf len
  unfold rfCamera
  split
  rename_i hdup
  rw [hdup] at h
  dsimp only
  split
  · exact h
  · exact clean_repeatRF fd (h.sockprintf fd _) buf len

/-- A parser that is clean on every command. -/
def CleanParser (parse : Int → Text → World → World) : Prop :=
  ∀ fd aLine w, Clean w (parse fd aLine w)

variable {parse : Int → Text → World → World} (hparse : CleanParser parse)
include hparse

/-- The bridge looks up the name of a function and runs a clean parser. -/
theorem clean_bridge {a b : World} (h : Clean a b) (housechar : UInt8) (aLine : Text) {i : Int}
    (hi : (⟨.funcname, i⟩ : Access).Inside) :
    Clean a (if bridged housechar b then parse fd aLine (b.access .funcname i) else b) := by
  split
  · exact (h.access hi).trans (hparse _ _ _)
  · exact h

/-- An accepted standard packet, with the bridge behind it. -/
theorem clean_rfStandard (buf : Ptr) (len : Nat) : Clean w (rfStandard parse fd buf len w) := by
  have h := clean_dupFilter (Clean.refl w) buf len
  obtain ⟨hhouse, hfunc, hunit⟩ := hufcDecode_inside (buf 2) (buf 4)
  unfold rfStandard
  split
  rename_i hdup
  rw [hdup] at h
  dsimp only
  split
  · exact h
  have ht := h.access (nibble_inside (buf 2)).2.2.1
  split
  · exact clean_bridge fd hparse (clean_repeatRF fd ((ht.access hfunc).sockprintf fd _) buf len)
      _ _ hfunc
  · rename_i hf
    have hon := (ht.huaAdd hhouse (hunit hf)).huaFunc
      (if (hufcDecode (buf 2) (buf 4)).2.2 ≠ 0 then huaFuncOff else huaFuncOn) hhouse
    exact clean_bridge fd hparse (clean_repeatRF fd ((hon.access hfunc).sockprintf fd _) buf len)
      _ _ hfunc

/-- `cm15a_decode_rf` is clean for every buffer and length, if its parser is. -/
theorem clean_decodeRfWith (buf : Ptr) (len : Nat) :
    Clean w (cm15aDecodeRfWith parse fd buf len w) := by
  have h := Clean.refl w
  unfold cm15aDecodeRfWith
  obtain ⟨buf, len⟩ := skipExtra buf len
  dsimp only
  split
  · exact clean_complaint fd h _ _ _
  split
  · exact clean_complaint fd h _ _ _
  split
  · have hcam := clean_findCamRemoteName w (buf.add 1) (len - 1)
    split
    · rename_i heq
      rw [heq] at hcam
      exact clean_rfCamera fd hcam _ _ _
    · rename_i heq
      rw [heq] at hcam
      exact clean_complaint fd hcam _ _ _
  split
  · split
    · split
      · exact clean_complaint fd h _ _ _
      · exact clean_rfSecurity8 fd w _ _
    split
    · split
      · exact clean_complaint fd h _ _ _
      · exact clean_rfStandard fd w hparse _ _
    · exact clean_complaint fd h _ _ _
  split
  · split
    · exact clean_rfSecurityLong fd w _ _ _ _ _ _
    · exact h.sockprintf fd _
    · exact h.sockprintf fd _
  · exact clean_complaint fd h _ _ _

end

/-! ## The encoder -/

section
variable (fd : Int) (w : World)

/-- Make the packet look as if received, decode it, and send it. -/
theorem clean_plTransmit {a b : World} (h : Clean a b) (buf : Ptr) (len : Nat) (out : List UInt8)
    (outlen : Nat) : Clean a ((cm15aDecodePlc (-1) buf len b).x10Write out outlen).2 :=
  (h.trans (clean_decodePlc _ _ _ _)).x10Write _ _

/-- Sending an address that is inside. -/
theorem clean_plTxHouseunit (house unit : Fin 16) : Clean w (plTxHouseunit house.val unit.val w).2 :=
  clean_plTransmit (((Clean.refl w).access (housecode_inside house).1).access
    (housecode_inside unit).1) _ _ _ _

/-- Sending an extended code to an address that is inside. -/
theorem clean_plTxExtendedCode1 (house unit : Fin 16) (command subcmd param : Int) :
    Clean w (plTxExtendedCode1 house.val unit.val command subcmd param w).2 :=
  clean_plTransmit (((Clean.refl w).access (housecode_inside house).1).access
    (housecode_inside unit).1) _ _ _ _

/-- Sending a function to a house that is inside. -/
theorem clean_plTxHousefunc (house : Fin 16) (func param : Int) :
    Clean w (plTxHousefunc house.val func param w).2 := by
  have h := (Clean.refl w).access (housecode_inside house).1
  unfold plTxHousefunc
  dsimp only
  split
  · exact clean_plTransmit h _ _ _ _
  split
  · exact clean_plTransmit h _ _ _ _
  · exact clean_plTransmit h _ _ _ _

variable (t : Strtok)

/-- The acknowledge of an OpenRemote 2.0 client. -/
theorem clean_ackOr20 : Clean w (ackOr20 fd w) := by
  unfold ackOr20
  split
  · exact (Clean.refl w).statusprintf fd _
  · exact Clean.refl w

/-- A function for a house. -/
theorem clean_plHouse (house : Fin 16) : Clean w (plHouse house.val t w).2.2 := by
  unfold plHouse
  dsimp only
  split
  · exact Clean.refl w
  split
  · exact clean_plTxHousefunc w house _ _
  · exact clean_plTxHousefunc w house _ _

/-- A function for a unit. -/
theorem clean_plUnit (house unit : Fin 16) : Clean w (plUnit house.val unit.val t w).2.2 := by
  have hselect := clean_plTxHouseunit w house unit
  unfold plUnit
  dsimp only
  split
  · exact hselect
  split
  · exact clean_plTxExtendedCode1 w house unit _ _ _
  split
  · exact hselect.trans (clean_plTxHousefunc _ house _ _)
  split
  · exact clean_plTxExtendedCode1 w house unit _ _ _
  · exact hselect.trans (clean_plTxHousefunc _ house _ _)

/-- `PL`: `getdeviceaddr` accepts only addresses that are inside. -/
theorem clean_plCommand : Clean w (plCommand fd t w).2.2 := by
  have hack := clean_ackOr20 fd w
  unfold plCommand
  simp only [getdeviceaddr_eq]
  obtain hneg | ⟨house, hhouse, hunit⟩ := deviceaddrOf_range (argv t).head?
  · rw [if_pos hneg]
    exact hack
  · have hpos : ¬ ((house.val : Int) < 0) := by omega
    rw [hhouse, if_neg hpos]
    obtain hneg | ⟨unit, hunit⟩ := hunit
    · rw [if_pos hneg]
      exact hack.trans (clean_plHouse _ _ house)
    · have hpos : ¬ ((unit.val : Int) < 0) := by omega
      rw [hunit, if_neg hpos]
      exact hack.trans (clean_plUnit _ _ house unit)

/-- `PT` copies its numbers without a recorded array. -/
theorem clean_ptCommand : Clean w (ptCommand fd t w).2.2 := by
  have hack := clean_ackOr20 fd w
  simp only [ptCommand]
  split
  · exact hack.x10Write _ _
  · exact hack

/-- `RFTOPL` sets bits and replies. -/
theorem clean_rftoplCommand : Clean w (rftoplCommand fd t w).2.2 := by
  have hset : ∀ (v : World) mask, Clean v { v with rfToPl16 := mask } := fun _ _ => .of_eq rfl rfl
  exact ((clean_ackOr20 fd w).trans (hset _ _)).sockprintf fd _

/-- `RFTORF` sets a switch and replies. -/
theorem clean_rftorfCommand : Clean w (rftorfCommand fd t w).2.2 := by
  have hset : ∀ (v : World) mask, Clean v { v with rfToRf16 := mask } := fun _ _ => .of_eq rfl rfl
  unfold rftorfCommand
  obtain ⟨_ | arg1, t'⟩ := nextWord t
  · exact (clean_ackOr20 fd w).sockprintf fd _
  · exact ((clean_ackOr20 fd w).trans (hset _ _)).sockprintf fd _

/-- `hua_show` runs over its tables with loop counters only. -/
theorem clean_huaShow : Clean w (huaShow fd w) := by
  have hprint : ∀ text (v : World), Clean v (v.sockprintf fd text) := fun text v =>
    (Clean.refl v).sockprintf fd text
  have hline : ∀ (v : World) line, Clean v (showLine fd v line) := fun v line =>
    (hprint line v).sendMessage _
  have hsensor : ∀ (v : World) sen, Clean v (showSensor fd v sen) := fun v sen => by
    have htime : Clean v v.time.2 := .of_eq rfl rfl
    exact (htime.sendMessage _).sockprintf fd _
  have hsort : ∀ v : World, Clean v { v with state := sortSensors v.state } := fun _ => .of_eq rfl rfl
  exact (hprint _ w).trans <| (Clean.foldl hline _ _).trans <| (hprint _ _).trans <|
    (Clean.foldl hline _ _).trans <| (hprint _ _).trans <| (hsort _).trans <|
    (Clean.foldl hsensor _ _).trans (hprint _ _)

/-- `ST` resets or shows. -/
theorem clean_stCommand : Clean w (stCommand fd t w).2.2 := by
  unfold stCommand
  simp only
  split
  · exact .of_eq rfl rfl
  · exact clean_huaShow fd w

/-- `GETSTATUS`: the address is checked before it is used. -/
theorem clean_getstatusCommand : Clean w (getstatusCommand fd t w).2.2 := by
  have h := Clean.refl w
  unfold getstatusCommand
  simp only [getdeviceaddr_eq]
  split
  · rename_i hpos
    obtain hneg | ⟨house, hhouse, hunit⟩ := deviceaddrOf_range (argv t).head?
    · omega
    obtain hneg | ⟨unit, hunit⟩ := hunit
    · omega
    rw [hhouse, hunit]
    have hindex := (h.access (housecode_inside house).2.2.1).access (housecode_inside unit).2.2.2
    split
    · split
      · exact (hindex.statusprintf fd _).sendMessage _
      · exact (h.statusprintf fd _).sendMessage _
    · exact (hindex.statusprintf fd _).sendMessage _
  · exact h

/-- `GETSTATUSSEC` scans the sensors. -/
theorem clean_getstatussecCommand : Clean w (getstatussecCommand fd t w).2.2 := by
  unfold getstatussecCommand
  simp only [getrfaddr_eq]
  split
  · exact Clean.refl w
  · exact (Clean.refl w).statusprintf fd _

/-! ### Radio -/

/-- A decoder that is clean on every packet. -/
def CleanDecoder (d : Int → Ptr → Nat → World → World) : Prop :=
  ∀ fd buf len w, Clean w (d fd buf len w)

variable {d : Int → Ptr → Nat → World → World} (hd : CleanDecoder d)
include hd

/-- Decoding and sending an RF packet, if the decoder is clean. -/
theorem clean_rfTransmit {a b : World} (h : Clean a b) (buf : List UInt8) :
    Clean a (rfTransmit d buf b).2 := by
  have hdec := h.trans (hd (-1) (Ptr.ofList buf) buf.length b)
  unfold rfTransmit
  dsimp only
  split
  · exact hdec.x10Write _ _
  · exact hdec.x10Write _ _

/-- `rfsec_tx`, with either kind of address. -/
theorem clean_rfsecTx {a b : World} (h : Clean a b) (rf8bitaddr : Int) (rfaddr : Nat) (func : Int) :
    Clean a (rfsecTx d rf8bitaddr rfaddr func b).2 := by
  unfold rfsecTx
  split
  · exact clean_rfTransmit hd h _
  · exact clean_rfTransmit hd h _

/-- `rf_tx_houseunitfunc` at a house that is inside. -/
theorem clean_rfTxHouseunitfunc {a b : World} (h : Clean a b) (house : Fin 16) (unit func : Int) :
    Clean a (rfTxHouseunitfunc d house.val unit func b).2 := by
  have hhouse := h.access (housecode_inside house).2.1
  unfold rfTxHouseunitfunc
  split
  · exact h
  dsimp only
  split
  · exact hhouse
  · exact clean_rfTransmit hd hhouse _

/-- The camera packet at a house that is inside. -/
theorem clean_rfcamTx {a b : World} (h : Clean a b) (house : Fin 16) (rfcamkey : Int) :
    Clean a (rfcamTx d house.val rfcamkey b) :=
  clean_rfTransmit hd (h.access (housecode_inside house).2.1) _

/-- `RF` goes on only with an address that is inside. -/
theorem clean_rfCommand : Clean w (rfCommand d fd t w).2.2 := by
  have hack := clean_ackOr20 fd w
  unfold rfCommand
  simp only [getdeviceaddr_eq]
  obtain hneg | ⟨house, hhouse, -⟩ := deviceaddrOf_range (argv t).head?
  · rw [if_pos hneg]
    exact hack
  · have hpos : ¬ ((house.val : Int) < 0) := by omega
    rw [hhouse, if_neg hpos]
    split
    · exact hack
    · exact clean_rfTxHouseunitfunc hd hack house _ _

/-- `RFSEC` uses its address as a number only. -/
theorem clean_rfsecCommand : Clean w (rfsecCommand d fd t w).2.2 := by
  have hack := clean_ackOr20 fd w
  unfold rfsecCommand
  simp only [getrfaddr_eq]
  split
  · exact hack
  split
  · exact hack
  · exact clean_rfsecTx hd hack _ _ _

/-- `RFCAM` goes on only with a house that is inside. -/
theorem clean_rfcamCommand : Clean w (rfcamCommand d fd t w).2.2 := by
  have hack := clean_ackOr20 fd w
  unfold rfcamCommand
  simp only [getdeviceaddr_eq]
  obtain hneg | ⟨house, hhouse, -⟩ := deviceaddrOf_range (argv t).head?
  · rw [if_pos hneg]
    exact hack
  · have hpos : ¬ ((house.val : Int) < 0) := by omega
    rw [hhouse, if_neg hpos]
    split
    · exact hack
    split
    · exact clean_rfcamTx hd hack house _
    · exact hack.sockprintf fd _

/-- Every command is clean, if the decoder is. -/
theorem clean_runCommand (command : Text) : Clean w (runCommand d fd command t w).2.2 :=
  runCommand_cases (P := Clean w)
    (fun _ => clean_plCommand fd w t)
    (fun _ => clean_rfCommand fd w t hd)
    (fun _ => clean_rfsecCommand fd w t hd)
    (fun _ => clean_rfcamCommand fd w t hd)
    (fun _ => clean_ptCommand fd w t)
    (fun _ => clean_rftoplCommand fd w t)
    (fun _ => clean_rftorfCommand fd w t)
    (fun _ => clean_stCommand fd w t)
    (fun _ => clean_getstatusCommand fd w t)
    (fun _ => clean_getstatussecCommand fd w t)
    (Clean.refl w)

omit t in
/-- Every line is clean, if the decoder is. -/
theorem clean_processcommandlineWith (aLine : Text) :
    Clean w (processcommandlineWith d fd aLine w).2.2 := by
  obtain ⟨-, heq⟩ | ⟨-, heq⟩ | ⟨command, t, -, heq⟩ := processcommandlineWith_cases d fd aLine w
  · rw [heq]
    exact (Clean.refl w).emit rfl
  · rw [heq]
    exact Clean.refl w
  · rw [heq]
    exact clean_runCommand fd w t hd command

end

/-- The decoder is clean, with the parser for the bridge that decodes nothing itself. -/
theorem clean_decodeRf : CleanDecoder cm15aDecodeRf := by
  have hskip : CleanDecoder fun _ _ _ w => w := fun _ _ _ w => Clean.refl w
  exact fun fd buf len w => clean_decodeRfWith fd w
    (fun fd aLine w => clean_processcommandlineWith fd w hskip aLine) buf len

/-- A packet from the controller. -/
theorem clean_decode (fd : Int) (buf : Ptr) (len : Nat) (w : World) :
    Clean w (cm15aDecode fd buf len w) := by
  unfold cm15aDecode
  split
  · exact Clean.refl w
  · extract_lets p n v
    have hv : Clean w v := by
      change Clean w (if w.rawData then w.mhSockhexdump fd p n else w)
      split
      · exact (Clean.refl w).sockprintf fd _
      · exact Clean.refl w
    split
    · exact hv.trans (clean_decodePlc fd v p n)
    split
    · exact hv.trans (clean_decodeRf fd p n v)
    · exact hv

/-- A line from a client. -/
theorem clean_processcommandline (fd : Int) (aLine : Text) (w : World) :
    Clean w (processcommandline fd aLine w).2.2 :=
  clean_processcommandlineWith fd w clean_decodeRf aLine

/-! ## Replies -/

/-- `sizeof(sensoflare_message)`. -/
def sensoflareMessageSize : Nat := 10

/-- The text fits the message buffer with its terminator. -/
def FitsMessage (text : Text) : Prop := text.length + 1 ≤ sensoflareMessageSize

/-- The messages among some output. -/
def messages (io : List Io) : List Text :=
  io.filterMap fun e => match e with
    | .sendMessage messagebody => messagebody
    | _ => none

/-- A reply and the message that repeats it with the address. -/
theorem reply_messages (fd : Int) (reply : Text) {housechar : UInt8} (unit : Fin 16) {rest : Text}
    (hrest : rest.length ≤ 4) {v w : World} (hio : v.io = w.io) :
    ∃ io, ((v.statusprintf fd reply).sendMessage
        (some ([housechar] ++ dec (1 + (unit.val : Int)) ++ cstr " " ++ rest))).io = w.io ++ io ∧
      ∀ text ∈ messages io, FitsMessage text := by
  have hunit : ∀ unit : Fin 16, (dec (1 + (unit.val : Int))).length ≤ 2 := by decide
  have hfits : FitsMessage ([housechar] ++ dec (1 + (unit.val : Int)) ++ cstr " " ++ rest) := by
    have hu := hunit unit
    have hblank : (cstr " ").length = 1 := by decide
    simp only [FitsMessage, sensoflareMessageSize, List.length_append, List.length_singleton, hblank]
    omega
  refine ⟨[_, _], by rw [World.sendMessage, World.emit_io, World.statusprintf, World.emit_io, hio,
    List.append_assoc, List.singleton_append], ?_⟩
  simpa [messages] using hfits

/-- The message of `GETSTATUS` fits its buffer of ten bytes. -/
theorem getstatusCommand_messages (fd : Int) (t : Strtok) (w : World) :
    ∃ io, (getstatusCommand fd t w).2.2.io = w.io ++ io ∧ ∀ text ∈ messages io, FitsMessage text := by
  have hxdim : ∀ b : UInt8, (dec b.toNat ++ cstr "\n").length ≤ 4 := by
    intro b
    have hlevel : (dec b.toNat).length ≤ 3 := dec_length_le (by decide) (b.toNat_lt.trans (by decide))
    rw [List.length_append]
    exact Nat.add_le_add_right hlevel 1
  have honoff : ∀ (c : Prop) [Decidable c],
      ((if c then cstr "on" else cstr "off") ++ cstr "\n").length ≤ 4 := by
    intro c _
    split <;> decide
  unfold getstatusCommand
  simp only [getdeviceaddr_eq]
  split
  · rename_i hpos
    obtain hneg | ⟨house, hhouse, hunit⟩ := deviceaddrOf_range (argv t).head?
    · omega
    obtain hneg | ⟨unit, hunit⟩ := hunit
    · omega
    rw [hhouse, hunit]
    split
    · split
      · rw [List.append_assoc _ (dec _)]
        exact reply_messages fd _ unit (hxdim _) rfl
      · exact reply_messages fd _ unit (by decide) rfl
    · rw [List.append_assoc _ (ite _ _ _)]
      exact reply_messages fd _ unit (honoff _) rfl
  · exact ⟨[], by simp, by simp [messages]⟩

/-- For every command line and every packet, in every state, all indices used
are inside their arrays, and the replies of `GETSTATUS` fit the message buffer. -/
theorem indices_inside (fd : Int) (w : World) :
    (∀ aLine, ∀ a ∈ (processcommandline fd aLine w).2.2.accesses.drop w.accesses.length, a.Inside) ∧
    (∀ buf len, ∀ a ∈ (cm15aDecodePlc fd buf len w).accesses.drop w.accesses.length, a.Inside) ∧
    (∀ buf len, ∀ a ∈ (cm15aDecodeRf fd buf len w).accesses.drop w.accesses.length, a.Inside) ∧
    ∀ aLine ws, words 32 (strupper aLine) = cstr "GETSTATUS" :: ws →
      ∀ text ∈ messages ((processcommandline fd aLine w).2.2.io.drop w.io.length),
        FitsMessage text := by
  refine ⟨fun aLine => (clean_processcommandline fd aLine w).inside,
    fun buf len => (clean_decodePlc fd w buf len).inside,
    fun buf len => (clean_decodeRf fd buf len w).inside, fun aLine ws hws => ?_⟩
  obtain ⟨t, -, heq⟩ := @processcommandlineWith_getstatus cm15aDecodeRf fd aLine ws w hws
  obtain ⟨io, hio, hfits⟩ := getstatusCommand_messages fd t w
  rw [processcommandline, heq, hio, List.drop_left]
  exact hfits

/-- The longest reply, on the level of an extended dim command. -/
theorem indices_inside_reply :
    let w := worldInit (stillSetup false)
    let io := (processcommandline 5 (cstr "getstatus p16 xdim")
      { w with state := huaSetstatusXdim 15 15 255 w.state }).2.2.io
    messages io = [cstr "P16 255\n"] ∧ ∀ text ∈ messages io, FitsMessage text :=
  ⟨by decide, (indices_inside 5 { worldInit (stillSetup false) with
      state := huaSetstatusXdim 15 15 255 (worldInit (stillSetup false)).state }).2.2.2
    (cstr "getstatus p16 xdim") [cstr "P16", cstr "XDIM"] (by decide)⟩

end Mochad
