import Mochad.View

/-!
# Mochad.Monitor

A client that keeps a copy of the tracked devices by reading what it is sent.

`lineOps` reads a line as such a client does, word by word, and returns the
operations on house/unit devices it reports.  Every announcement reads as its
own operations (`says_announcement`), and every other text as none, so that the
copy may be kept from the whole output (`replay`).
-/

namespace Mochad

open CString Lines

/-! ## The reader -/

/-- The operations of a function, by its name. -/
def funcOps (house : Fin 16) (name : List Text) : List HuaOp :=
  if name = words 32 (cstr "All units off") ∨ name = words 32 (cstr "All lights off") then
    [.funcAllOff house]
  else if name = words 32 (cstr "All lights on") then [.funcAllOn house]
  else if name = words 32 (cstr "On") ∨ name = words 32 (cstr "Status on") then [.funcOn house]
  else if name = words 32 (cstr "Off") ∨ name = words 32 (cstr "Status off") then [.funcOff house]
  else []

/-- The operations a line reports. -/
def lineOps (line : Text) : List HuaOp :=
  match words 32 line with
  | _ :: kind :: tag :: addr :: rest =>
      let house := World.idx16 (deviceaddr addr).1
      let unit := World.idx16 (deviceaddr addr).2
      if kind = cstr "PL" ∧ tag = cstr "House:" then funcOps house rest.tail
      else if kind = cstr "PL" ∧ tag = cstr "HouseUnit:" then
        if rest = [] then [.add house unit]
        else match rest.dropWhile (· ≠ cstr "Data:") with
          | _ :: data :: _ => [.setstatusXdim house unit (strtoul 16 data).1]
          | _ => []
      else if kind = cstr "RF" ∧ tag = cstr "HouseUnit:" then .add house unit :: funcOps house rest.tail
      else []
  | _ => []

/-- `\n` ends a line. -/
def isNewline (b : UInt8) : Bool := b == 10

/-- The devices after the lines of a stream. -/
def replay (stream : List UInt8) (s : X10state) : X10state :=
  applyOps ((finished isNewline stream).flatMap lineOps) s

/-- The text is one line, which reports the operations. -/
def Says (text : Text) (ops : List HuaOp) : Prop :=
  ∃ line, text = line ++ cstr "\n" ∧ 10 ∉ line ∧ lineOps line = ops

theorem Says.mk {line : Text} {ops : List HuaOp} (hline : 10 ∉ line) (hops : lineOps line = ops) :
    Says (line ++ cstr "\n") ops := ⟨line, rfl, hline, hops⟩

/-! ## Lines that report nothing -/

/-- A line of fewer than four words reports nothing. -/
theorem lineOps_few {line : Text} (h : (words 32 line).length < 4) : lineOps line = [] := by
  unfold lineOps
  split
  · rename_i hw
    rw [hw] at h
    simp only [List.length_cons] at h
    omega
  · rfl

/-- Nor does a line of another kind than `PL` and `RF`. -/
theorem lineOps_kind {line a kind : Text} {ws : List Text} (h : words 32 line = a :: kind :: ws)
    (hpl : kind ≠ cstr "PL") (hrf : kind ≠ cstr "RF") : lineOps line = [] := by
  unfold lineOps
  split
  · rename_i hw
    obtain ⟨-, hw⟩ := List.cons.inj (h.symm.trans hw)
    obtain ⟨rfl, -⟩ := List.cons.inj hw
    simp only [hpl, hrf, false_and, if_false]
  · rfl

/-- Neither `PL` nor `RF` stands in the line. -/
theorem lineOps_no_capitals {line : Text} (hp : 80 ∉ line) (hr : 82 ∉ line) : lineOps line = [] := by
  unfold lineOps
  split
  · rename_i first kind tag addr rest hw
    have hkind : kind ∈ words 32 line := by
      rw [hw]
      exact List.mem_cons_of_mem _ List.mem_cons_self
    have hpl : kind ≠ cstr "PL" := by
      rintro rfl
      exact hp (mem_of_mem_words hkind (by decide))
    have hrf : kind ≠ cstr "RF" := by
      rintro rfl
      exact hr (mem_of_mem_words hkind (by decide))
    simp only [hpl, hrf, false_and, if_false]
  · rfl

/-! ## Pieces of lines -/

/-- Neither a blank nor a line end. -/
def Solid (s : Text) : Prop := 10 ∉ s ∧ 32 ∉ s

instance (s : Text) : Decidable (Solid s) := inferInstanceAs (Decidable (_ ∧ _))

/-- Two solid pieces are solid. -/
theorem Solid.append {a b : Text} (ha : Solid a) (hb : Solid b) : Solid (a ++ b) :=
  ⟨by simp [ha.1, hb.1], by simp [ha.2, hb.2]⟩

theorem solid_dec (n : Int) : Solid (dec n) := by
  have hne : ∀ b ∈ dec n, b ≠ 10 ∧ b ≠ 32 := by
    intro b hb
    obtain rfl | hb := mem_dec hb
    · decide
    · constructor <;> rintro rfl <;> exact absurd hb (by decide)
  exact ⟨fun h => (hne 10 h).1 rfl, fun h => (hne 32 h).2 rfl⟩

/-- A hexadecimal digit is none of the bytes the reader looks for. -/
theorem hexDigit_range : ∀ d : Fin 16, hexDigit d.val ≠ 10 ∧ hexDigit d.val ≠ 32 ∧
    hexDigit d.val ≠ 80 ∧ hexDigit d.val ≠ 82 := by
  decide

/-- A padded hexadecimal number is solid. -/
theorem solid_hexPad (w n : Nat) : Solid (hexPad w n) := by
  constructor <;> intro h <;> obtain ⟨d, hd⟩ := mem_hexPad h
  · exact (hexDigit_range d).1 hd.symm
  · exact (hexDigit_range d).2.1 hd.symm

/-- A line begins with `R` or with `T`. -/
theorem rxTx_cases (b code : UInt8) : rxTx b code = cstr "R" ∨ rxTx b code = cstr "T" := by
  unfold rxTx
  split
  · exact .inl rfl
  · exact .inr rfl

/-- The words in front of what a line reports. -/
theorem words_announced {b code : UInt8} {ws : List Text} {head : Text}
    (hr : words 32 (cstr "R" ++ head) = cstr "Rx" :: ws)
    (ht : words 32 (cstr "T" ++ head) = cstr "Tx" :: ws) (hend : head.getLast? = some 32)
    (s : Text) : ∃ x, words 32 (rxTx b code ++ head ++ s) = x :: (ws ++ words 32 s) := by
  have hlast : ∀ x : Text, (x ++ head).getLast? = some 32 := fun x => by
    rw [List.getLast?_append, hend]
    rfl
  obtain hx | hx := rxTx_cases b code
  · exact ⟨cstr "Rx", by rw [hx, words_append_end (hlast _), hr]; rfl⟩
  · exact ⟨cstr "Tx", by rw [hx, words_append_end (hlast _), ht]; rfl⟩

/-- A text without blanks is one word at most. -/
theorem words_length_le_one {s : Text} (hs : 32 ∉ s) : (words 32 s).length ≤ 1 := by
  by_cases hne : s = []
  · rw [hne]
    simp
  · rw [words_of_not_mem 32 hne hs]
    simp

/-- At most three words. -/
theorem lineOps_short {head s : Text} (hend : head.getLast? = some 32) (hlen : (words 32 head).length ≤ 2)
    (hs : 32 ∉ s) : lineOps (head ++ s) = [] := by
  have hone := words_length_le_one hs
  refine lineOps_few ?_
  rw [words_append_end hend, List.length_append]
  omega

/-! ## Addresses and functions -/

/-- A house of the table is the letter of its index. -/
theorem houseUnitTable_house : ∀ i : Fin 16, houseUnitTable.getD i.val 0 =
    houseByte (World.idx16 (((houseUnitTable.getD i.val 0).toNat : Int) - 65)) := by
  decide

/-- A unit of the table is one more than its index. -/
theorem houseUnitTable_unit : ∀ i : Fin 16, ((houseUnitTable.getD i.val 0).toNat : Int) - 65 + 1 =
    (World.idx16 (((houseUnitTable.getD i.val 0).toNat : Int) - 65 + 1 - 1)).val + 1 := by
  decide

/-- The house and the unit of a byte, as they are printed. -/
theorem hucDecode_eq (hu : UInt8) : hucDecode hu = (houseByte (plcHouse hu), ((plcUnit hu).val : Int) + 1) :=
  Prod.ext (houseUnitTable_house ⟨_, highNibble_lt hu⟩) (houseUnitTable_unit ⟨_, lowNibble_lt hu⟩)

theorem ucDecode_eq (u : UInt8) : ucDecode u = ((plcUnit u).val : Int) + 1 :=
  houseUnitTable_unit ⟨_, lowNibble_lt u⟩

/-- The house and the function of a byte. -/
theorem hfcDecode_eq (hf : UInt8) : ∃ f : Fin 16, hfcDecode hf = (houseByte (plcHouse hf), (f.val : Int)) :=
  ⟨⟨_, lowNibble_lt hf⟩, Prod.ext (houseUnitTable_house ⟨_, highNibble_lt hf⟩) rfl⟩

/-- An address is a word that reads as its house and unit. -/
theorem printed_addr : ∀ house unit : Fin 16, Solid (houseByte house :: dec ((unit.val : Int) + 1)) ∧
    deviceaddr (houseByte house :: dec ((unit.val : Int) + 1)) = ((house.val : Int), (unit.val : Int)) := by
  decide

/-- A printed house is read back. -/
theorem printed_house : ∀ house : Fin 16, Solid [houseByte house] ∧
    World.idx16 (deviceaddr [houseByte house]).1 = house := by
  decide

/-- An index below 16 is itself. -/
theorem idx16_val : ∀ i : Fin 16, World.idx16 (i.val : Int) = i := by decide

/-- The name of a function reads as what the function does. -/
theorem funcOps_name (hf : UInt8) : ∃ f : Fin 16, (hfcDecode hf).2 = (f.val : Int) ∧
    funcOps (plcHouse hf) (words 32 (funcnameAt f.val)) = (plcFuncOp hf).toList := by
  obtain ⟨f, hdecode⟩ := hfcDecode_eq hf
  refine ⟨f, by rw [hdecode], ?_⟩
  unfold plcFuncOp
  rw [hdecode]
  generalize plcHouse hf = house
  fin_cases f <;> rfl

/-! ## Lines that report something -/

section
variable {line x addr : Text} {rest : List Text}

theorem lineOps_house (h : words 32 line = x :: cstr "PL" :: cstr "House:" :: addr :: rest) :
    lineOps line = funcOps (World.idx16 (deviceaddr addr).1) rest.tail := by
  unfold lineOps
  rw [h]
  exact if_pos ⟨rfl, rfl⟩

theorem lineOps_houseunit (h : words 32 line = [x, cstr "PL", cstr "HouseUnit:", addr]) :
    lineOps line = [.add (World.idx16 (deviceaddr addr).1) (World.idx16 (deviceaddr addr).2)] := by
  have htag : cstr "HouseUnit:" ≠ cstr "House:" := by decide
  unfold lineOps
  rw [h]
  dsimp only
  rw [if_neg (fun hc => htag hc.2), if_pos ⟨rfl, rfl⟩, if_pos rfl]

/-- The line of an extended code. -/
theorem lineOps_extended {d data : Text} {ws : List Text} (hne : rest ≠ [])
    (h : words 32 line = x :: cstr "PL" :: cstr "HouseUnit:" :: addr :: rest)
    (hdata : rest.dropWhile (· ≠ cstr "Data:") = d :: data :: ws) :
    lineOps line = [.setstatusXdim (World.idx16 (deviceaddr addr).1) (World.idx16 (deviceaddr addr).2)
      (strtoul 16 data).1] := by
  have htag : cstr "HouseUnit:" ≠ cstr "House:" := by decide
  unfold lineOps
  rw [h]
  dsimp only
  rw [if_neg (fun hc => htag hc.2), if_pos ⟨rfl, rfl⟩, if_neg hne, hdata]

/-- The line of an RF packet. -/
theorem lineOps_rf (h : words 32 line = x :: cstr "RF" :: cstr "HouseUnit:" :: addr :: rest) :
    lineOps line = .add (World.idx16 (deviceaddr addr).1) (World.idx16 (deviceaddr addr).2) ::
      funcOps (World.idx16 (deviceaddr addr).1) rest.tail := by
  have hkind : cstr "RF" ≠ cstr "PL" := by decide
  unfold lineOps
  rw [h]
  dsimp only
  rw [if_neg (fun hc => hkind hc.1), if_neg (fun hc => hkind hc.1), if_pos ⟨rfl, rfl⟩]

/-- Dim and bright are not tracked. -/
theorem lineOps_rfHouse (h : words 32 line = x :: cstr "RF" :: cstr "House:" :: addr :: rest) :
    lineOps line = [] := by
  have hkind : cstr "RF" ≠ cstr "PL" := by decide
  have htag : cstr "House:" ≠ cstr "HouseUnit:" := by decide
  unfold lineOps
  rw [h]
  dsimp only
  rw [if_neg (fun hc => hkind hc.1), if_neg (fun hc => hkind hc.1), if_neg (fun hc => htag hc.2)]

end

/-- Pieces without a newline. -/
theorem newline_append {a b : Text} (ha : 10 ∉ a) (hb : 10 ∉ b) : 10 ∉ a ++ b := by
  simp [ha, hb]

/-- The beginning of a line has none. -/
theorem newline_rxTx (b code : UInt8) : 10 ∉ rxTx b code := by
  obtain h | h := rxTx_cases b code <;> rw [h] <;> decide

/-- Nor has the name of a function. -/
theorem newline_funcname (f : Fin 16) : 10 ∉ funcnameAt f.val := by
  revert f
  decide

/-! ## Announcements -/

/-- An address is announced in one line, which is read back. -/
theorem says_houseunit (b0 hu : UInt8) :
    Says (Announcement.houseunit b0 hu).text (Announcement.houseunit b0 hu).ops := by
  obtain ⟨hsolid, haddr⟩ := printed_addr (plcHouse hu) (plcUnit hu)
  have htext : (Announcement.houseunit b0 hu).text = rxTx b0 0x5a ++ cstr "x PL HouseUnit: " ++
      (houseByte (plcHouse hu) :: dec ((plcUnit hu).val + 1)) ++ cstr "\n" := by
    simp only [Announcement.text, hucDecode_eq, List.append_assoc]
    rfl
  obtain ⟨x, hwords⟩ := @words_announced b0 0x5a [cstr "PL", cstr "HouseUnit:"]
    (cstr "x PL HouseUnit: ") (by decide) (by decide) (by decide)
    (houseByte (plcHouse hu) :: dec ((plcUnit hu).val + 1))
  rw [words_of_not_mem 32 (by simp) hsolid.2] at hwords
  rw [htext]
  refine .mk (newline_append (newline_append (newline_rxTx _ _) (by decide)) hsolid.1) ?_
  rw [lineOps_houseunit hwords, haddr, idx16_val, idx16_val]
  rfl

/-- Lines on a whole house. -/
theorem words_house (b0 : UInt8) (house : Fin 16) (name : Text) :
    ∃ x, words 32 (rxTx b0 0x5a ++ cstr "x PL House: " ++ ([houseByte house] ++ (cstr " Func: " ++ name))) =
      x :: cstr "PL" :: cstr "House:" :: [houseByte house] :: cstr "Func:" :: words 32 name := by
  obtain ⟨x, hwords⟩ := @words_announced b0 0x5a [cstr "PL", cstr "House:"] (cstr "x PL House: ")
    (by decide) (by decide) (by decide) ([houseByte house] ++ (cstr " Func: " ++ name))
  have hfunc : cstr " Func: " ++ name = 32 :: (cstr "Func: " ++ name) := rfl
  have hword : words 32 (cstr "Func: ") = [cstr "Func:"] := by decide
  refine ⟨x, ?_⟩
  rw [hwords, hfunc, words_cons_word (by simp) (printed_house house).1.2,
    words_append_end (by decide), hword]
  rfl

theorem says_housefunc (b0 hf : UInt8) :
    Says (Announcement.housefunc b0 hf).text (Announcement.housefunc b0 hf).ops := by
  obtain ⟨f, hf2, hname⟩ := funcOps_name hf
  obtain ⟨_, hdecode⟩ := hfcDecode_eq hf
  have hhouse : (hfcDecode hf).1 = houseByte (plcHouse hf) := congrArg Prod.fst hdecode
  obtain ⟨hsolid, haddr⟩ := printed_house (plcHouse hf)
  have htext : (Announcement.housefunc b0 hf).text = rxTx b0 0x5a ++ cstr "x PL House: " ++
      ([houseByte (plcHouse hf)] ++ (cstr " Func: " ++ funcnameAt f.val)) ++ cstr "\n" := by
    simp only [Announcement.text, hhouse, hf2, Int.toNat_natCast, List.append_assoc]
  obtain ⟨x, hwords⟩ := words_house b0 (plcHouse hf) (funcnameAt f.val)
  rw [htext]
  refine .mk (newline_append (newline_append (newline_rxTx _ _) (by decide))
    (newline_append hsolid.1 (newline_append (by decide) (newline_funcname f)))) ?_
  rw [lineOps_house hwords, haddr, List.tail_cons, hname]
  rfl

/-- A name with an amount behind it is no function that reaches units. -/
theorem funcOps_amount (house : Fin 16) {name : Text} (h : 40 ∈ name) : funcOps house (words 32 name) = [] := by
  obtain ⟨word, hword, h40⟩ := @exists_mem_words 32 40 _ h (by decide)
  have hne : ∀ s, (∀ word ∈ words 32 s, 40 ∉ word) → words 32 name ≠ words 32 s := by
    intro s hs heq
    rw [heq] at hword
    exact hs word hword h40
  unfold funcOps
  rw [if_neg (not_or.mpr ⟨hne _ (by decide), hne _ (by decide)⟩), if_neg (hne _ (by decide)),
    if_neg (not_or.mpr ⟨hne _ (by decide), hne _ (by decide)⟩),
    if_neg (not_or.mpr ⟨hne _ (by decide), hne _ (by decide)⟩)]

/-- A dim or bright step is announced, and tracked as nothing. -/
theorem says_dimbright (b0 hf dims : UInt8) : Says (Announcement.dimbright b0 hf dims).text [] := by
  obtain ⟨f, hdecode⟩ := hfcDecode_eq hf
  obtain ⟨hsolid, haddr⟩ := printed_house (plcHouse hf)
  have htext : (Announcement.dimbright b0 hf dims).text = rxTx b0 0x5a ++ cstr "x PL House: " ++
      ([houseByte (plcHouse hf)] ++ (cstr " Func: " ++
        (funcnameAt f.val ++ (cstr "(" ++ (dec dims.toNat ++ cstr ")"))))) ++ cstr "\n" := by
    simp only [Announcement.text, hdecode, Int.toNat_natCast, List.append_assoc]
    rfl
  obtain ⟨x, hwords⟩ := words_house b0 (plcHouse hf)
    (funcnameAt f.val ++ (cstr "(" ++ (dec dims.toNat ++ cstr ")")))
  rw [htext]
  refine .mk (newline_append (newline_append (newline_rxTx _ _) (by decide))
    (newline_append hsolid.1 (newline_append (by decide) (newline_append (newline_funcname f)
      (newline_append (by decide) (newline_append (solid_dec _).1 (by decide))))))) ?_
  rw [lineOps_house hwords, List.tail_cons]
  refine funcOps_amount _ ?_
  exact List.mem_append_right _ (List.mem_append_left _ (by decide))

/-- The data of an extended code stands behind the name. -/
theorem dropWhile_name : ∀ f : Fin 16, ∀ ws : List Text,
    ((cstr "Func:" :: words 32 (funcnameAt f.val)) ++ cstr "Data:" :: ws).dropWhile (· ≠ cstr "Data:") =
      cstr "Data:" :: ws := by
  have hname : ∀ f : Fin 16, ∀ word ∈ cstr "Func:" :: words 32 (funcnameAt f.val), word ≠ cstr "Data:" := by
    decide
  intro f ws
  rw [List.dropWhile_append_of_pos fun word hword => decide_eq_true (hname f word hword)]
  simp

/-- Two hexadecimal digits are read back. -/
theorem strtoul_hexDigits : ∀ i j : Fin 16,
    (strtoul 16 [hexDigit i.val, hexDigit j.val]).1 = 16 * i.val + j.val := by
  decide

/-- A byte is read back from its two digits. -/
theorem strtoul_hexPad_two (b : UInt8) : (strtoul 16 (hexPad 2 b.toNat)).1 = b.toNat := by
  have hlt := b.toNat_lt
  have hread := strtoul_hexDigits ⟨b.toNat / 16, by omega⟩ ⟨b.toNat % 16, by omega⟩
  rw [hexPad_two hlt, hread]
  exact Nat.div_add_mod _ _

/-- An extended code is announced with its level. -/
theorem says_extended (b0 hf u data command : UInt8) :
    Says (Announcement.extended b0 hf u data command).text
      (Announcement.extended b0 hf u data command).ops := by
  obtain ⟨f, hdecode⟩ := hfcDecode_eq hf
  obtain ⟨hsolid, haddr⟩ := printed_addr (plcHouse hf) (plcUnit u)
  have htext : (Announcement.extended b0 hf u data command).text =
      rxTx b0 0x5a ++ cstr "x PL HouseUnit: " ++
        ((houseByte (plcHouse hf) :: dec ((plcUnit u).val + 1)) ++ 32 :: (cstr "Func: " ++
          (funcnameAt f.val ++ 32 :: (cstr "Data: " ++ (hexPad 2 data.toNat ++ 32 ::
            (cstr "Command: " ++ hexPad 2 command.toNat)))))) ++ cstr "\n" := by
    simp only [Announcement.text, hdecode, ucDecode_eq, Int.toNat_natCast, List.append_assoc,
      List.cons_append]
    rfl
  obtain ⟨x, hwords⟩ := @words_announced b0 0x5a [cstr "PL", cstr "HouseUnit:"]
    (cstr "x PL HouseUnit: ") (by decide) (by decide) (by decide)
    ((houseByte (plcHouse hf) :: dec ((plcUnit u).val + 1)) ++ 32 :: (cstr "Func: " ++
      (funcnameAt f.val ++ 32 :: (cstr "Data: " ++ (hexPad 2 data.toNat ++ 32 ::
        (cstr "Command: " ++ hexPad 2 command.toNat))))))
  have hne : hexPad 2 data.toNat ≠ [] := by
    rw [hexPad_two data.toNat_lt]
    simp
  have hrest : ∀ s, words 32 (cstr "Func: " ++ (funcnameAt f.val ++ 32 :: (cstr "Data: " ++
      (hexPad 2 data.toNat ++ 32 :: s)))) =
        (cstr "Func:" :: words 32 (funcnameAt f.val)) ++ cstr "Data:" :: hexPad 2 data.toNat :: words 32 s := by
    intro s
    have hfunc : words 32 (cstr "Func: ") = [cstr "Func:"] := by decide
    have hdata : words 32 (cstr "Data: ") = [cstr "Data:"] := by decide
    rw [words_append_end (by decide), hfunc, words_append_sep, words_append_end (by decide), hdata,
      words_cons_word hne (solid_hexPad _ _).2]
    rfl
  rw [words_cons_word (by simp) hsolid.2, hrest] at hwords
  rw [htext]
  refine .mk ?_ ?_
  · refine newline_append (newline_append (newline_rxTx _ _) (by decide)) (newline_append hsolid.1 ?_)
    refine newline_append (a := 32 :: cstr "Func: ") (by decide) (newline_append (newline_funcname f) ?_)
    refine newline_append (a := 32 :: cstr "Data: ") (by decide) (newline_append (solid_hexPad _ _).1 ?_)
    exact newline_append (a := 32 :: cstr "Command: ") (by decide) (solid_hexPad _ _).1
  · rw [lineOps_extended (by simp) hwords (dropWhile_name f _), haddr, idx16_val, idx16_val,
      strtoul_hexPad_two]
    rfl

/-- The letter of a house has its index. -/
theorem houseByte_idx : ∀ house : Fin 16, World.idx16 ((houseByte house).toNat - 65) = house := by decide

/-- An RF packet is announced with its address and function. -/
theorem says_standard (b0 hu uf : UInt8) :
    Says (Announcement.standard b0 hu uf).text (Announcement.standard b0 hu uf).ops := by
  obtain ⟨house, unit, f, hdecode⟩ := hufcDecode_range hu uf
  have hname : ∀ f : Fin 4, Solid (funcnameAt (f.val + 2)) ∧ funcnameAt (f.val + 2) ≠ [] := by decide
  have hcolon : words 32 (cstr "Func: ") = [cstr "Func:"] := by decide
  simp only [Announcement.text, Announcement.ops, rfOps, hdecode]
  by_cases hf : f.val > 1
  · obtain ⟨hsolid, -⟩ := printed_house house
    have htext : rxTx b0 0x5d ++ (cstr "x RF House: " ++ [houseByte house] ++ cstr " Func: " ++
        funcnameAt (f.val + 2) ++ cstr "\n") = rxTx b0 0x5d ++ cstr "x RF House: " ++
          ([houseByte house] ++ 32 :: (cstr "Func: " ++ funcnameAt (f.val + 2))) ++ cstr "\n" := by
      simp only [List.append_assoc]
      rfl
    obtain ⟨x, hwords⟩ := @words_announced b0 0x5d [cstr "RF", cstr "House:"] (cstr "x RF House: ")
      (by decide) (by decide) (by decide) ([houseByte house] ++ 32 :: (cstr "Func: " ++ funcnameAt (f.val + 2)))
    rw [if_pos hf, if_pos hf, htext]
    refine .mk ?_ ?_
    · refine newline_append (newline_append (newline_rxTx _ _) (by decide)) (newline_append hsolid.1 ?_)
      exact newline_append (a := 32 :: cstr "Func: ") (by decide) (hname f).1.1
    · rw [words_cons_word (by simp) hsolid.2] at hwords
      exact lineOps_rfHouse hwords
  · obtain ⟨hsolid, haddr⟩ := printed_addr house unit
    have hunit : bridgeUnitint unit f = (unit.val : Int) + 1 := if_neg (mt (val_gt_one f).mpr hf)
    have htext : rxTx b0 0x5d ++ (cstr "x RF HouseUnit: " ++ [houseByte house] ++
        dec ((unit.val : Int) + 1) ++ cstr " Func: " ++ funcnameAt (f.val + 2) ++ cstr "\n") =
          rxTx b0 0x5d ++ cstr "x RF HouseUnit: " ++ ((houseByte house :: dec ((unit.val : Int) + 1)) ++
            32 :: (cstr "Func: " ++ funcnameAt (f.val + 2))) ++ cstr "\n" := by
      simp only [List.append_assoc]
      rfl
    obtain ⟨x, hwords⟩ := @words_announced b0 0x5d [cstr "RF", cstr "HouseUnit:"]
      (cstr "x RF HouseUnit: ") (by decide) (by decide) (by decide)
      ((houseByte house :: dec ((unit.val : Int) + 1)) ++ 32 :: (cstr "Func: " ++ funcnameAt (f.val + 2)))
    rw [if_neg hf, if_neg hf, hunit, htext]
    refine .mk ?_ ?_
    · refine newline_append (newline_append (newline_rxTx _ _) (by decide)) (newline_append hsolid.1 ?_)
      exact newline_append (a := 32 :: cstr "Func: ") (by decide) (hname f).1.1
    · have honOff : ∀ house : Fin 16, ∀ f : Fin 4, ¬ f.val > 1 →
          funcOps house (words 32 (funcnameAt (f.val + 2))) =
            [if f.val ≠ 0 then .funcOff house else .funcOn house] := by
        intro house f hf
        fin_cases f
        · rfl
        · rfl
        · exact absurd (by decide) hf
        · exact absurd (by decide) hf
      rw [words_cons_word (by simp) hsolid.2, @words_append_end 32 (cstr "Func: ") (by decide),
        hcolon] at hwords
      rw [lineOps_rf hwords, haddr, idx16_val, idx16_val, houseByte_idx, add_sub_cancel_right, idx16_val]
      exact congrArg _ (honOff house f hf)

/-- A line about something else. -/
theorem says_other {b code : UInt8} {head kind s : Text}
    (hr : words 32 (cstr "R" ++ head) = [cstr "Rx", kind]) (ht : words 32 (cstr "T" ++ head) = [cstr "Tx", kind])
    (hend : head.getLast? = some 32) (hkind : kind ≠ cstr "PL" ∧ kind ≠ cstr "RF") (hhead : 10 ∉ head)
    (hs : 10 ∉ s) : Says (rxTx b code ++ head ++ s ++ cstr "\n") [] := by
  obtain ⟨x, hwords⟩ := @words_announced b code [kind] head hr ht hend s
  exact .mk (newline_append (newline_append (newline_rxTx _ _) hhead) hs)
    (lineOps_kind hwords hkind.1 hkind.2)

/-- There is no newline in the name of a key. -/
theorem newline_keyName (funct : UInt8) : 10 ∉ strArg ((findSecRemoteKeyName funct).map cstr) := by
  have htable : ∀ row ∈ secRemoteKeyNames, 10 ∉ cstr row.2 := by decide
  cases h : findSecRemoteKeyName funct with
  | none => decide
  | some name => exact htable _ (findName_mem h)

/-- Nor in the name of an event. -/
theorem newline_eventName (funct : UInt8) : 10 ∉ strArg ((findSecEventName funct).map cstr) := by
  have htable : ∀ row ∈ secEventNames, 10 ∉ cstr row.2 := by decide
  cases h : findSecEventName funct with
  | none => decide
  | some name => exact htable _ (findName_mem h)

/-- A security packet tracks no device. -/
theorem says_security8 (b0 addr funct : UInt8) : Says (Announcement.security8 b0 addr funct).text [] := by
  have htext : (Announcement.security8 b0 addr funct).text = rxTx b0 0x5d ++ cstr "x RFSEC " ++
      (cstr "Addr: 0x" ++ (hexPad 2 addr.toNat ++ (cstr " Func: " ++
        strArg ((findSecRemoteKeyName funct).map cstr)))) ++ cstr "\n" := by
    simp only [Announcement.text, List.append_assoc]
    rfl
  rw [htext]
  exact @says_other _ _ (cstr "x RFSEC ") (cstr "RFSEC") _ (by decide) (by decide) (by decide) (by decide)
    (by decide) (newline_append (by decide) (newline_append (solid_hexPad _ _).1
      (newline_append (by decide) (newline_keyName funct))))

/-- Nor does one with a long address. -/
theorem says_securityLong (b0 a0 a1 a2 funct : UInt8) :
    Says (Announcement.securityLong b0 a0 a1 a2 funct).text [] := by
  have htext : (Announcement.securityLong b0 a0 a1 a2 funct).text = rxTx b0 0x5d ++ cstr "x RFSEC " ++
      (cstr "Addr: " ++ (hexPad 2 a0.toNat ++ (cstr ":" ++ (hexPad 2 a1.toNat ++ (cstr ":" ++
        (hexPad 2 a2.toNat ++ (cstr " Func: " ++ strArg ((findSecEventName funct).map cstr)))))))) ++
          cstr "\n" := by
    simp only [Announcement.text, List.append_assoc]
    rfl
  rw [htext]
  exact @says_other _ _ (cstr "x RFSEC ") (cstr "RFSEC") _ (by decide) (by decide) (by decide) (by decide)
    (by decide) (newline_append (by decide) (newline_append (solid_hexPad _ _).1 (newline_append (by decide)
      (newline_append (solid_hexPad _ _).1 (newline_append (by decide) (newline_append (solid_hexPad _ _).1
        (newline_append (by decide) (newline_eventName funct))))))))

/-- An entry of a table, or the default, has no newline. -/
theorem newline_getD {α : Type} {xs : List α} {f : α → Text} {d : α} (h : ∀ x ∈ xs, 10 ∉ f x)
    (hd : 10 ∉ f d) (i : Nat) : 10 ∉ f (xs.getD i d) := by
  by_cases hi : i < xs.length
  · rw [List.getD_eq_getElem _ _ hi]
    exact h _ (List.getElem_mem hi)
  · rw [List.getD_eq_default _ _ (Nat.le_of_not_lt hi)]
    exact hd

/-- A camera packet tracks no device. -/
theorem says_camera (b0 housecode : UInt8) (keyindex : Nat) :
    Says (Announcement.camera b0 housecode keyindex).text [] := by
  have htable : 10 ∉ houseUnitTableRF := by decide
  have hhouse : 10 ∉ [houseUnitTableRF.getD housecode.toNat 0] :=
    newline_getD (f := fun c => [c]) (fun c hc h => htable (List.mem_singleton.mp h ▸ hc)) (by simp) _
  have hkey : 10 ∉ cstr ((rfcamKeyCodes.getD keyindex none).getD "") :=
    newline_getD (f := fun key : Option String => cstr (key.getD "")) (by decide) (by decide) _
  have htext : (Announcement.camera b0 housecode keyindex).text = rxTx b0 0x5d ++ cstr "x RFCAM " ++
      ([houseUnitTableRF.getD housecode.toNat 0] ++ (cstr " " ++
        cstr ((rfcamKeyCodes.getD keyindex none).getD ""))) ++ cstr "\n" := by
    simp only [Announcement.text, List.append_assoc]
  rw [htext]
  exact @says_other _ _ (cstr "x RFCAM ") (cstr "RFCAM") _ (by decide) (by decide) (by decide) (by decide)
    (by decide) (newline_append hhouse (newline_append (by decide) hkey))

/-- A short line reports nothing. -/
theorem says_short {head s : Text} (hend : head.getLast? = some 32) (hlen : (words 32 head).length ≤ 2)
    (hhead : 10 ∉ head) (hs : Solid s) : Says (head ++ s ++ cstr "\n") [] :=
  .mk (newline_append hhead hs.1) (lineOps_short hend hlen hs.2)

/-- Nor does a complaint about a packet. -/
theorem says_message (e : RfExit) : Says e.message [] := by
  cases e with
  | tooShort len => exact says_short (by decide) (by decide) (by decide) (solid_dec _)
  | tooLong len => exact says_short (by decide) (by decide) (by decide) (solid_dec _)
  | unknownCamera => exact ⟨cstr "Unknown RF camera command", rfl, by decide, by decide⟩
  | invalidChecksum => exact ⟨cstr "Invalid checksum", rfl, by decide, by decide⟩
  | invalidParity => exact ⟨cstr "Invalid parity", rfl, by decide, by decide⟩
  | invalidHouse chksum =>
      have hsolid : Solid (cstr "0x" ++ hexPad 2 chksum.toNat) :=
        Solid.append (by decide) (solid_hexPad _ _)
      exact @says_short (cstr "Invalid checksum ") _ (by decide) (by decide) (by decide) hsolid
  | notSupported type => exact says_short (by decide) (by decide) (by decide) (solid_hexPad _ _)

/-- Every announcement reads as its operations. -/
theorem says_announcement (a : Announcement) : Says a.text a.ops := by
  cases a with
  | houseunit b0 hu => exact says_houseunit b0 hu
  | housefunc b0 hf => exact says_housefunc b0 hf
  | dimbright b0 hf dims => exact says_dimbright b0 hf dims
  | extended b0 hf u data command => exact says_extended b0 hf u data command
  | standard b0 hu uf => exact says_standard b0 hu uf
  | security8 b0 addr funct => exact says_security8 b0 addr funct
  | securityLong b0 a0 a1 a2 funct => exact says_securityLong b0 a0 a1 a2 funct
  | camera b0 housecode keyindex => exact says_camera b0 housecode keyindex
  | rejected e => exact says_message e
  | rfToRf => exact ⟨cstr "RfToRf repeat", rfl, by decide, by decide⟩

end Mochad
