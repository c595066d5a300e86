import Mochad.Daemon
import Mochad.Writes

/-!
# Mochad.PassThrough

The lengths passed to `x10_write`.  `x10_write` copies without any check, so
the size of a FIFO slot rests on its callers.  All of them keep it but `PT`:
`gethexdata` answers -1 when one of the numbers it converts is out of range,
and stored in a `size_t` that is the largest length there is.
-/

namespace Mochad

open CString

/-- Among the words `gethexdata` converts, the first eight, is a number out of
range for `strtoul`. -/
def HexOverflow (ws : List Text) : Prop := ∃ parm ∈ ws.take 8, (strtoul 16 parm).2 = true

/-- A `PT` line with a number out of range. -/
def PtOverflow (aLine : Text) : Prop :=
  ∃ ws, words 32 (strupper aLine) = cstr "PT" :: ws ∧ HexOverflow ws

/-- `gethexdata` with `slots` bytes left: -1 when it meets a number out of
range, else the number of bytes. -/
theorem gethexdataLoop_rc (slots : Nat) (buf8 : List UInt8) (t : Strtok) :
    ((∃ parm ∈ (argv t).take slots, (strtoul 16 parm).2 = true) ∧
      (gethexdataLoop slots buf8 t).2.1 = -1) ∨
    ((¬ ∃ parm ∈ (argv t).take slots, (strtoul 16 parm).2 = true) ∧
      (gethexdataLoop slots buf8 t).2.1 = buf8.length + min slots (argv t).length) := by
  induction slots generalizing buf8 t with
  | zero =>
      right
      refine ⟨by simp, ?_⟩
      unfold gethexdataLoop
      obtain ⟨_ | parm, t'⟩ := nextWord t <;> simp
  | succ slots ih =>
      have hfst := nextWord_fst t
      have hsnd := argv_nextWord t
      unfold gethexdataLoop
      revert hfst hsnd
      obtain ⟨_ | parm, t'⟩ := nextWord t <;> intro hfst hsnd
      · have hnil : argv t = [] := List.head?_eq_none_iff.mp hfst.symm
        simp [hnil]
      · obtain ⟨ws, hws⟩ := List.head?_eq_some_iff.mp hfst.symm
        have htail : argv t' = ws := by rw [hsnd, hws, List.tail_cons]
        rcases hs : strtoul 16 parm with ⟨value, erange⟩
        simp only [hws, List.take_succ_cons, List.mem_cons, exists_eq_or_imp, hs]
        cases erange with
        | true => simp
        | false =>
            obtain ⟨hov, hrc⟩ | ⟨hov, hrc⟩ := ih (buf8 ++ [UInt8.ofNat value]) t'
            · rw [htail] at hov
              exact .inl ⟨.inr hov, hrc⟩
            · rw [htail] at hov hrc
              refine .inr ⟨by simpa using hov, ?_⟩
              simp only [Bool.false_eq_true, if_false, hrc, List.length_append, List.length_cons,
                List.length_nil]
              omega

/-- `PT` passes one packet of 1 to 8 bytes or none, or the length `SIZE_MAX`. -/
theorem ptCommand_writes (fd : Int) (t : Strtok) (w : World) :
    (HexOverflow (argv t) ∧ ∃ data, (ptCommand fd t w).2.2.writes = w.writes ++ [⟨data, 2 ^ 64 - 1⟩]) ∨
    (¬ HexOverflow (argv t) ∧ Emits Fits w (ptCommand fd t w).2.2) := by
  have hquiet := ackOr20_quiet (Quiet.refl w) fd
  have hack : Emits Fits w (ackOr20 fd w) := Emits.of_quiet hquiet
  have hrc := gethexdataLoop_rc 8 [] t
  unfold ptCommand gethexdata
  revert hrc
  obtain ⟨x10bytes8, rc, t'⟩ := gethexdataLoop 8 [] t
  rintro (⟨hov, rfl⟩ | ⟨hov, hrc⟩)
  · left
    refine ⟨hov, x10bytes8.take (2 ^ 64 - 1), ?_⟩
    dsimp only
    have hlen : ((-1 : Int) % 2 ^ 64).toNat = 2 ^ 64 - 1 := by decide
    rw [hlen, if_pos (by decide), World.x10Write_snd_writes, hquiet.writes]
  · right
    refine ⟨hov, ?_⟩
    dsimp only at hrc ⊢
    have hlen : (rc % 2 ^ 64).toNat = min 8 (argv t).length := by
      simp only [hrc, List.length_nil]
      omega
    rw [hlen]
    split
    · exact hack.trans (emits_x10Write ⟨by dsimp only; omega, by dsimp only; omega⟩ _)
    · exact hack

/-- A `PT` line that is in range, and every other line, passes packets of 1 to 8
bytes. -/
theorem fed_processcommandline {aLine : Text} (h : ¬ PtOverflow aLine) (fd : Int) (w : World) :
    Fed Fits w (processcommandline fd aLine w).2.2 := by
  refine fed_processcommandline_of (fun _ hb => hb) fd fun t hws => ?_
  have hno : ¬ HexOverflow (argv t) := fun hov => h ⟨argv t, hws, hov⟩
  obtain ⟨hov, -⟩ | ⟨-, hfits⟩ := ptCommand_writes fd t w
  · exact absurd hov hno
  · exact hfits.fed

/-- Every call of `x10_write` that comes from a command line or a USB packet has
a length of 1 to 8, unless the line is a `PT` with a number out of range. -/
theorem x10_write_length_iff (fd : Int) (w : World) :
    (∀ aLine, (∀ b ∈ (processcommandline fd aLine w).2.2.writes.drop w.writes.length,
      1 ≤ b.len ∧ b.len ≤ 8) ↔ ¬ PtOverflow aLine) ∧
    (∀ buf len, ∀ b ∈ (cm15aDecode fd buf len w).writes.drop w.writes.length,
      1 ≤ b.len ∧ b.len ≤ 8) := by
  refine ⟨fun aLine => ⟨fun hall hov => ?_, fun hno => ?_⟩, fun buf len => ?_⟩
  · obtain ⟨ws, hws, hov⟩ := hov
    obtain ⟨t, rfl, heq⟩ : ∃ t, argv t = ws ∧
        processcommandlineWith cm15aDecodeRf fd aLine w = runCommand cm15aDecodeRf fd (cstr "PT") t w :=
      processcommandlineWith_words hws (by decide)
    rw [processcommandline, heq] at hall
    obtain ⟨-, data, hdata⟩ | ⟨hno, -⟩ := ptCommand_writes fd t w
    · have hbig := hall ⟨data, 2 ^ 64 - 1⟩ <| by
        change _ ∈ (ptCommand fd t w).2.2.writes.drop _
        rw [hdata, List.drop_left]
        exact List.mem_singleton_self _
      simp at hbig
    · exact hno hov
  · exact (fed_processcommandline hno fd w).mem_drop
  · exact (emits_decode fd buf len w).fed.mem_drop

/-- `PT FFFFFFFFFFFFFFFFF`: one digit too many. -/
theorem pt_writes_size_max :
    let w := worldInit (stillSetup false)
    let w' := (processcommandline 5 (cstr "PT FFFFFFFFFFFFFFFFF") w).2.2
    PtOverflow (cstr "PT FFFFFFFFFFFFFFFFF") ∧ w'.writes = [⟨[0xff], 2 ^ 64 - 1⟩] ∧
      ¬ ∀ b ∈ w'.writes.drop w.writes.length, 1 ≤ b.len ∧ b.len ≤ 8 := by
  have hw : (processcommandline 5 (cstr "PT FFFFFFFFFFFFFFFFF")
      (worldInit (stillSetup false))).2.2.writes = [⟨[0xff], 2 ^ 64 - 1⟩] := by decide
  refine ⟨⟨[cstr "FFFFFFFFFFFFFFFFF"], by decide, cstr "FFFFFFFFFFFFFFFFF", by decide, by decide⟩,
    hw, fun hall => ?_⟩
  have hbig := hall ⟨[0xff], 2 ^ 64 - 1⟩ (by rw [hw]; exact List.mem_singleton_self _)
  simp at hbig

end Mochad
