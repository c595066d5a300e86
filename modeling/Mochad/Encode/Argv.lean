import Mochad.Encode.Words

/-!
# Mochad.Encode.Argv

The words a command line has left, and what the scanning functions of
`encode.c` do in terms of them: each looks at the first word and leaves the
others.  The proofs about commands use these equations and never look into
`strtok`.
-/

namespace Mochad

open CString

/-- The words still to be scanned. -/
def argv (t : Strtok) : List Text := words 32 t.rest

/-- What `getfunc` makes of a word. -/
def funcNumber (command : Option Text) : Int :=
  match command with
  | none => -1
  | some command =>
      match funccommands.findIdx? fun name => command = cstr name with
      | some i => i
      | none => -1

/-- What `getparam` makes of a word. -/
def paramNumber (param : Option Text) : Int :=
  match param with
  | none => -1
  | some param => cInt (strtol 10 param)

/-- A parameter with its default. -/
def paramOr (default : Int) (param : Option Text) : Int :=
  if paramNumber param = -1 then default else paramNumber param

/-- What `getdeviceaddr` makes of a word. -/
def deviceaddrOf (parm : Option Text) : Int × Int :=
  match parm with
  | none => (-1, -1)
  | some parm => deviceaddr parm

/-- What `getrfaddr` makes of a word. -/
def rfaddrOf (parm : Option Text) : Int × Nat :=
  match parm with
  | none => (-1, 0)
  | some parm => rfaddrWord parm

/-- What `getrffunc` makes of a word. -/
def rffuncNumber (rf8bitaddr : Int) (command : Option Text) : Int :=
  match command with
  | none => -1
  | some command =>
      let table :=
        if rf8bitaddr = 1 then secRemoteKeyNames8bitaddr
        else if rf8bitaddr = 0 then secEventNameslongaddr
        else []
      match findFunct table command with
      | some funct => funct.toNat
      | none => -1

/-- What `gethousecodes` makes of a word. -/
def houseMaskOf (parm : Option Text) : Nat :=
  match parm with
  | none => 0
  | some parm => if parm = cstr "*" then 0xFFFF else houseMask parm

/-- An address word has a house A..P or none, and a unit 1..16 or none. -/
theorem deviceaddrOf_range (parm : Option Text) :
    (deviceaddrOf parm).1 < 0 ∨ ∃ house : Fin 16, (deviceaddrOf parm).1 = house.val ∧
      ((deviceaddrOf parm).2 < 0 ∨ ∃ unit : Fin 16, (deviceaddrOf parm).2 = unit.val) := by
  have hfin : ∀ house unit : Int, 0 ≤ house → house < 16 → unit < 16 →
      ∃ h : Fin 16, house = h.val ∧ (unit < 0 ∨ ∃ u : Fin 16, unit = u.val) := by
    intro house unit h0 h1 h2
    refine ⟨⟨house.toNat, by omega⟩, by simp [h0], ?_⟩
    by_cases hu : unit < 0
    · exact .inl hu
    · exact .inr ⟨⟨unit.toNat, by omega⟩, by simp; omega⟩
  cases parm with
  | none => exact .inl (by decide)
  | some parm =>
      simp only [deviceaddrOf, deviceaddr, Bool.not_eq_eq_eq_not, Bool.not_true]
      split
      · exact .inl (by decide)
      split
      · exact .inl (by decide)
      · rename_i hc
        have hc := ishouse_range (Bool.not_eq_false _ ▸ hc)
        right
        split
        · exact hfin _ _ (by omega) (by omega) (by omega)
        · rename_i hd
          have hd := isdigit_range (Bool.not_eq_false _ ▸ hd)
          split
          · exact hfin _ _ (by omega) (by omega) (by omega)
          · split <;> exact hfin _ _ (by omega) (by omega) (by omega)

variable (t : Strtok)

@[simp] theorem nextWord_fst : (nextWord t).1 = (argv t).head? := strtok_fst 32 t

@[simp] theorem argv_nextWord : argv (nextWord t).2 = (argv t).tail := words_strtok_rest 32 t

@[simp] theorem argv_start (s : Text) : argv (Strtok.start s) = words 32 s := rfl

@[simp] theorem getfunc_fst : (getfunc t).1 = funcNumber (argv t).head? := by
  rw [← nextWord_fst]
  unfold getfunc funcNumber
  obtain ⟨_ | command, t'⟩ := nextWord t
  · rfl
  · dsimp only
    cases funccommands.findIdx? fun name => command = cstr name <;> rfl

@[simp] theorem argv_getfunc : argv (getfunc t).2 = (argv t).tail := by
  rw [← argv_nextWord]
  unfold getfunc
  obtain ⟨_ | command, t'⟩ := nextWord t
  · rfl
  · dsimp only
    cases funccommands.findIdx? fun name => command = cstr name <;> rfl

@[simp] theorem getparam_fst : (getparam t).1 = paramNumber (argv t).head? := by
  rw [← nextWord_fst]
  unfold getparam paramNumber
  obtain ⟨_ | param, t'⟩ := nextWord t <;> rfl

@[simp] theorem argv_getparam : argv (getparam t).2 = (argv t).tail := by
  rw [← argv_nextWord]
  unfold getparam
  obtain ⟨_ | param, t'⟩ := nextWord t <;> rfl

@[simp] theorem getdeviceaddr_eq :
    getdeviceaddr t =
      ((deviceaddrOf (argv t).head?).1, (deviceaddrOf (argv t).head?).2, (nextWord t).2) := by
  rw [← nextWord_fst]
  unfold getdeviceaddr deviceaddrOf
  obtain ⟨_ | parm, t'⟩ := nextWord t <;> rfl

@[simp] theorem getrfaddr_eq :
    getrfaddr t = ((rfaddrOf (argv t).head?).1, (rfaddrOf (argv t).head?).2, (nextWord t).2) := by
  rw [← nextWord_fst]
  unfold getrfaddr rfaddrOf
  obtain ⟨_ | parm, t'⟩ := nextWord t <;> rfl

@[simp] theorem getrffunc_fst (rf8bitaddr : Int) :
    (getrffunc rf8bitaddr t).1 = rffuncNumber rf8bitaddr (argv t).head? := by
  rw [← nextWord_fst]
  unfold getrffunc rffuncNumber
  obtain ⟨_ | command, t'⟩ := nextWord t
  · rfl
  · dsimp only
    cases findFunct _ command <;> rfl

@[simp] theorem gethousecodes_fst : (gethousecodes t).1 = houseMaskOf (argv t).head? := by
  rw [← nextWord_fst]
  unfold gethousecodes houseMaskOf
  obtain ⟨_ | parm, t'⟩ := nextWord t <;> rfl

end Mochad
