import Mochad.Mirror
import Mochad.SensorNames

/-!
# Mochad.Getsensors

The web page of `cgi/getsensors.pl`, which sends `ST` and paints what it is
told.

The script reads line after line with regular expressions.  `getsensors_paints`
says that in every state the daemon can reach it paints the tracked state: the
units of each house with a known state, and the sensors it has a name for, in
the order of their addresses.

The lines here are without the date and time in front, as everywhere; the script
skips two fields more.
-/

namespace Mochad

open CString Lines

/-! ## The script -/

/-- `=~ /pattern/` for a pattern without special characters. -/
def Matches (pattern line : Text) : Prop := pattern <:+: line

instance (pattern line : Text) : Decidable (Matches pattern line) := List.decidableInfix pattern line

/-- A cell of the table of units: `?`, `*` or `-`. -/
inductive Cell where
  | unknown
  | on
  | off
deriving DecidableEq, Repr

/-- A row of the table of sensors. -/
structure SensorRow where
  name : Text
  red : Bool
  secstatus : Text
  secmmss : Text
deriving DecidableEq, Repr

/-- What is painted. -/
structure Page where
  houses : List (Text × List Cell)
  sensors : List SensorRow

/-- One field of a line of units, `1=0`. -/
def paintField (unitrow : Int → Cell) (f : Text) : Int → Cell :=
  let unit := (f.splitOn 61).getD 0 []
  let ustatus := (f.splitOn 61).getD 1 []
  if ustatus = cstr "1" ∨ strtol 10 ustatus = 1 then Function.update unitrow (strtol 10 unit) .on
  else if ustatus = cstr "0" ∨ strtol 10 ustatus = 0 then Function.update unitrow (strtol 10 unit) .off
  else unitrow

/-- The row of a house. -/
def paintHouse (aline : Text) : Text × List Cell :=
  let housechar := ((words 32 aline).getD 1 []).erase 58
  let unitstatus := (words 32 aline).getD 2 []
  let unitrow := (unitstatus.splitOn 44).foldl paintField fun _ => .unknown
  (housechar, (List.range 16).map fun i : Nat => unitrow ((i : Int) + 1))

/-- The row of a sensor that has a name. -/
def paintSensor (sensornames : Text → Option Text) (aline : Text) : Option SensorRow :=
  let secaddr := (words 32 aline).getD 2 []
  let secmmss := (words 32 aline).getD 4 []
  let secstatus := (words 32 aline).getD 5 []
  (sensornames secaddr).map fun name => ⟨name, decide (Matches (cstr "alert") secstatus), secstatus, secmmss⟩

/-- The loop of `getsensors`, from a value of `$devstatus` on. -/
def getsensors (sensornames : Text → Option Text) : Nat → List Text → Page
  | _, [] => ⟨[], []⟩
  | devstatus, aline :: rest =>
      if Matches (cstr "End status") aline then ⟨[], []⟩
      else if devstatus = 0 then
        getsensors sensornames (if Matches (cstr "Device status") aline then 1 else 0) rest
      else if devstatus = 1 then
        if Matches (cstr "Security sensor") aline then getsensors sensornames 2 rest
        else
          let page := getsensors sensornames 1 rest
          { page with houses := paintHouse aline :: page.houses }
      else
        let page := getsensors sensornames devstatus rest
        { page with sensors := (paintSensor sensornames aline).toList ++ page.sensors }

/-! ## Matching -/

/-- A pattern with a blank in it needs a word that starts behind the blank. -/
theorem exists_word_of_matches {a w line : Text} (hne : w ≠ []) (hw : 32 ∉ w) (h : Matches (a ++ 32 :: w) line) :
    ∃ word ∈ words 32 line, w <+: word := by
  obtain ⟨s, t, rfl⟩ := h
  have hsplit : s ++ (a ++ 32 :: w) ++ t = (s ++ a) ++ 32 :: (w ++ t) := by simp
  have ht : t = t.takeWhile (· != 32) ++ t.dropWhile (· != 32) := List.takeWhile_append_dropWhile.symm
  have hword : 32 ∉ w ++ t.takeWhile (· != 32) := by
    simp [hw, not_mem_takeWhile_ne]
  have hmem : w ++ t.takeWhile (· != 32) ∈ words 32 (w ++ t) := by
    cases hd : t.dropWhile (· != 32) with
    | nil =>
        rw [hd, List.append_nil] at ht
        rw [← ht] at hword ⊢
        rw [words_of_not_mem 32 (by simp [hne]) hword]
        exact List.mem_singleton_self _
    | cons b rest =>
        have hb : b = 32 := by
          have hhead := List.head_dropWhile_not (· != 32) (l := t) (by rw [hd]; exact List.cons_ne_nil _ _)
          simpa [hd] using hhead
        have hcut : w ++ t = (w ++ t.takeWhile (· != 32)) ++ 32 :: rest := by
          conv_lhs => rw [ht, hd, hb]
          rw [List.append_assoc]
        rw [hcut, words_cons_word (by simp [hne]) hword]
        exact List.mem_cons_self
  refine ⟨w ++ t.takeWhile (· != 32), ?_, List.prefix_append w _⟩
  rw [hsplit, words_append_sep]
  exact List.mem_append_right _ hmem

/-- A line that does not match a pattern with a blank in it. -/
theorem not_matches {a w line : Text} (hne : w ≠ []) (hw : 32 ∉ w)
    (h : ∀ word ∈ words 32 line, ¬ w <+: word) : ¬ Matches (a ++ 32 :: w) line := by
  intro hmatch
  obtain ⟨word, hword, hpre⟩ := exists_word_of_matches hne hw hmatch
  exact h word hword hpre

/-- None of the three headings matches the line. -/
structure Plain (line : Text) : Prop where
  endStatus : ¬ Matches (cstr "End status") line
  deviceStatus : ¬ Matches (cstr "Device status") line
  securitySensor : ¬ Matches (cstr "Security sensor") line

/-- A line is plain if none of its words begins a section. -/
theorem Plain.of_words {line : Text}
    (h : ∀ word ∈ words 32 line, ¬ cstr "status" <+: word ∧ ¬ cstr "sensor" <+: word) : Plain line where
  endStatus := @not_matches (cstr "End") (cstr "status") _ (by decide) (by decide) fun word hword => (h word hword).1
  deviceStatus := @not_matches (cstr "Device") (cstr "status") _ (by decide) (by decide)
    fun word hword => (h word hword).1
  securitySensor := @not_matches (cstr "Security") (cstr "sensor") _ (by decide) (by decide)
    fun word hword => (h word hword).2

/-- A word without an `s`. -/
theorem not_prefix_of_not_mem {word : Text} (h : 115 ∉ word) :
    ¬ cstr "status" <+: word ∧ ¬ cstr "sensor" <+: word := by
  constructor <;> intro hpre <;> exact h (hpre.mem (by decide))

/-! ## Lines of units -/

/-- The line of a house, without its line end. -/
def unitsLine (house : Fin 16) (items : List Text) : Text :=
  cstr "House " ++ (([UInt8.ofNat (house.val + 65)] ++ cstr ":") ++ 32 :: (cstr ",").intercalate items)

/-- A house without units has no line. -/
theorem houseLine_eq (house : Fin 16) (items : List Text) :
    houseLine house items = if items = [] then none else some (unitsLine house items ++ cstr "\n") := by
  unfold houseLine unitsLine
  simp only [List.append_assoc]
  rfl

/-- Neither a comma, nor a blank, nor an `s`. -/
def Item (t : Text) : Prop := t ≠ [] ∧ 44 ∉ t ∧ 32 ∉ t ∧ 115 ∉ t

instance (t : Text) : Decidable (Item t) := inferInstanceAs (Decidable (_ ∧ _))

/-- Items with commas between them make one word. -/
theorem item_intercalate {items : List Text} (hne : items ≠ []) (h : ∀ t ∈ items, Item t) :
    (cstr ",").intercalate items ≠ [] ∧ 32 ∉ (cstr ",").intercalate items ∧
      115 ∉ (cstr ",").intercalate items := by
  induction items with
  | nil => exact absurd rfl hne
  | cons t items ih =>
      obtain ⟨⟨ht, -, h32, h115⟩, hitems⟩ := List.forall_mem_cons.mp h
      by_cases hnil : items = []
      · rw [hnil, List.intercalate_singleton]
        exact ⟨ht, h32, h115⟩
      · obtain ⟨-, i32, i115⟩ := ih hnil hitems
        rw [List.intercalate_cons_of_ne_nil hnil]
        have hcomma : 32 ∉ cstr "," ∧ 115 ∉ cstr "," := by decide
        refine ⟨by simp [ht], ?_, ?_⟩
        · simp [h32, i32, hcomma.1]
        · simp [h115, i115, hcomma.2]

/-- The words of the line of a house. -/
theorem words_unitsLine (house : Fin 16) {items : List Text} (hne : items ≠ []) (h : ∀ t ∈ items, Item t) :
    words 32 (unitsLine house items) =
      [cstr "House", [UInt8.ofNat (house.val + 65)] ++ cstr ":", (cstr ",").intercalate items] := by
  have hhouse : ∀ house : Fin 16, 32 ∉ [UInt8.ofNat (house.val + 65)] ++ cstr ":" := by decide
  have hword : words 32 (cstr "House ") = [cstr "House"] := by decide
  obtain ⟨hitems, h32, -⟩ := item_intercalate hne h
  rw [unitsLine, words_append_end (by decide), hword, words_cons_word (by simp) (hhouse house),
    words_of_not_mem 32 hitems h32]
  rfl

theorem plain_unitsLine (house : Fin 16) {items : List Text} (hne : items ≠ []) (h : ∀ t ∈ items, Item t) :
    Plain (unitsLine house items) := by
  have hhouse : ∀ house : Fin 16, 115 ∉ [UInt8.ofNat (house.val + 65)] ++ cstr ":" := by decide
  refine .of_words fun word hword => ?_
  rw [words_unitsLine house hne h] at hword
  simp only [List.mem_cons, List.not_mem_nil, or_false] at hword
  obtain rfl | rfl | rfl := hword
  · decide
  · exact not_prefix_of_not_mem (hhouse house)
  · exact not_prefix_of_not_mem (item_intercalate hne h).2.2

/-! ## Rows of houses -/

/-- The cell for a known state. -/
def cellOf (b : UInt8) : Cell := if b = charOn then .on else if b = charOff then .off else .unknown

/-- A decimal number is made of digits and a sign. -/
theorem not_mem_dec {n : Int} {b : UInt8} (h45 : b ≠ 45) (hdigit : isdigit b = false) : b ∉ dec n := by
  intro hb
  obtain rfl | hd := mem_dec hb
  · exact h45 rfl
  · rw [hdigit] at hd
    cases hd

/-- The item of a unit splits into its number and its state. -/
theorem splitOn_item (unit : Fin 16) {b : UInt8} (hb : b = charOff ∨ b = charOn) :
    (dec (unit.val + 1) ++ cstr "=" ++ [b]).splitOn 61 = [dec (unit.val + 1), [b]] := by
  have hcut : dec (unit.val + 1) ++ cstr "=" ++ [b] = dec (unit.val + 1) ++ 61 :: [b] := List.append_assoc ..
  have h61 : 61 ∉ [b] := by
    obtain rfl | rfl := hb <;> decide
  rw [hcut, List.splitOn_append_cons_self,
    List.splitOn_eq_singleton (not_mem_dec (n := unit.val + 1) (by decide) (by decide)),
    List.splitOn_eq_singleton h61]
  rfl

/-- Painting it sets the cell of the unit. -/
theorem paintField_item (row : Int → Cell) (unit : Fin 16) {b : UInt8} (hb : b = charOff ∨ b = charOn) :
    paintField row (dec (unit.val + 1) ++ cstr "=" ++ [b]) = Function.update row (unit.val + 1) (cellOf b) := by
  have hunit : ∀ unit : Fin 16, strtol 10 (dec (unit.val + 1)) = unit.val + 1 := by decide
  have hzero : ¬ ([charOff] = cstr "1" ∨ strtol 10 [charOff] = 1) := by decide
  unfold paintField
  rw [splitOn_item unit hb]
  change (if [b] = cstr "1" ∨ strtol 10 [b] = 1 then
      Function.update row (strtol 10 (dec (unit.val + 1))) .on
    else if [b] = cstr "0" ∨ strtol 10 [b] = 0 then
      Function.update row (strtol 10 (dec (unit.val + 1))) .off
    else row) = _
  rw [hunit]
  obtain rfl | rfl := hb
  · rw [if_neg hzero]
    exact if_pos (.inl rfl)
  · exact if_pos (.inl rfl)

section
variable {s : X10state} {house : Fin 16} (hs : (s.row house).Consistent)
include hs

/-- The status of a unit is such an item. -/
theorem item_statusItem {unit : Fin 16} {t : Text} (h : statusItem s house unit = some t) : Item t := by
  obtain ⟨hne, ht⟩ := Option.ite_none_right_eq_some.mp h
  obtain rfl := Option.some.inj ht
  have hb : s.houseUnitState house unit = charOff ∨ s.houseUnitState house unit = charOn :=
    (hs.state unit).resolve_left hne
  have htail : Item (cstr "=" ++ [s.houseUnitState house unit]) := by
    obtain h | h := hb <;> rw [h] <;> decide
  obtain ⟨-, h44, h32, h115⟩ := htail
  have hdec : ∀ c : UInt8, c ≠ 45 → isdigit c = false → c ∉ dec (unit.val + 1) := fun c => not_mem_dec
  rw [List.append_assoc]
  refine ⟨by simp, ?_, ?_, ?_⟩
  · exact fun h => (List.mem_append.mp h).elim (hdec 44 (by decide) (by decide)) h44
  · exact fun h => (List.mem_append.mp h).elim (hdec 32 (by decide) (by decide)) h32
  · exact fun h => (List.mem_append.mp h).elim (hdec 115 (by decide) (by decide)) h115

/-- The fields leave the cells of the listed units. -/
theorem foldl_paintField (units : List (Fin 16)) (row : Int → Cell) (unit : Fin 16) :
    (units.filterMap (statusItem s house)).foldl paintField row (unit.val + 1) =
      if unit ∈ units ∧ s.houseUnitState house unit ≠ 0 then cellOf (s.houseUnitState house unit)
      else row (unit.val + 1) := by
  induction units generalizing row with
  | nil => exact (if_neg (by simp)).symm
  | cons v units ih =>
      by_cases hv : s.houseUnitState house v = 0
      · have hnone : statusItem s house v = none := if_neg (not_not_intro hv)
        rw [List.filterMap_cons_none hnone, ih]
        refine if_congr ⟨fun h => ⟨List.mem_cons_of_mem v h.1, h.2⟩, fun h => ⟨?_, h.2⟩⟩ rfl rfl
        obtain rfl | hmem := List.mem_cons.mp h.1
        · exact absurd hv h.2
        · exact hmem
      · have hsome : statusItem s house v =
            some (dec (v.val + 1) ++ cstr "=" ++ [s.houseUnitState house v]) := if_pos hv
        have hb : s.houseUnitState house v = charOff ∨ s.houseUnitState house v = charOn :=
          (hs.state v).resolve_left hv
        rw [List.filterMap_cons_some hsome, List.foldl_cons, paintField_item row v hb, ih]
        by_cases hmem : unit ∈ units ∧ s.houseUnitState house unit ≠ 0
        · rw [if_pos hmem, if_pos ⟨List.mem_cons_of_mem v hmem.1, hmem.2⟩]
        rw [if_neg hmem]
        by_cases huv : unit = v
        · subst huv
          rw [Function.update_self, if_pos ⟨List.mem_cons_self, hv⟩]
        · have hne : ((unit.val : Int) + 1) ≠ v.val + 1 := fun heq => huv (Fin.ext (by omega))
          rw [Function.update_of_ne hne, if_neg]
          rintro ⟨hin, hstate⟩
          exact hmem ⟨(List.mem_cons.mp hin).resolve_left huv, hstate⟩

/-- The row of a house shows its units. -/
theorem paintHouse_unitsLine (hne : (List.finRange 16).filterMap (statusItem s house) ≠ []) :
    paintHouse (unitsLine house ((List.finRange 16).filterMap (statusItem s house))) =
      ([UInt8.ofNat (house.val + 65)],
        (List.finRange 16).map fun unit => cellOf (s.houseUnitState house unit)) := by
  have hitem : ∀ t ∈ (List.finRange 16).filterMap (statusItem s house), Item t := by
    intro t ht
    obtain ⟨unit, -, hunit⟩ := List.mem_filterMap.mp ht
    exact item_statusItem hs hunit
  have hchar : ∀ house : Fin 16,
      ([UInt8.ofNat (house.val + 65)] ++ cstr ":").erase 58 = [UInt8.ofNat (house.val + 65)] := by
    decide
  have hsplit : ((cstr ",").intercalate ((List.finRange 16).filterMap (statusItem s house))).splitOn 44 =
      (List.finRange 16).filterMap (statusItem s house) :=
    List.splitOn_intercalate 44 (fun t ht => (hitem t ht).2.1) hne
  have hrange : List.range 16 = (List.finRange 16).map Fin.val := by decide
  unfold paintHouse
  rw [words_unitsLine house hne hitem]
  simp only [List.getD_cons_zero, List.getD_cons_succ]
  rw [hchar, hsplit, hrange, List.map_map]
  refine congrArg _ (List.map_congr_left fun unit _ => ?_)
  refine (foldl_paintField hs _ _ unit).trans ?_
  by_cases hzero : s.houseUnitState house unit = 0
  · rw [if_neg (fun h => h.2 hzero), hzero]
    rfl
  · exact if_pos ⟨List.mem_finRange unit, hzero⟩

end

/-! ## Rows of sensors -/

/-- How long ago a sensor was heard, in minutes and seconds. -/
def lastSeen (now : Nat) (sen : X10secsensor) : Text :=
  let deltat : Int := (now : Int) - sen.lastupdate
  let mins := deltat.tdiv 60
  dec2 mins ++ cstr ":" ++ dec2 (deltat - mins * 60)

/-- The line of a sensor, without its line end. -/
def sensorLine (now : Nat) (sen : X10secsensor) : Text :=
  cstr "Sensor addr: " ++ (hexPad 6 sen.secaddr ++ 32 :: (cstr "Last: " ++
    (lastSeen now sen ++ 32 :: (strArg (sensorMessage sen) ++ cstr " "))))

/-- The row a sensor should have. -/
def sensorRow (sensornames : Text → Option Text) (now : Nat) (sen : X10secsensor) : Option SensorRow :=
  (sensornames (hexPad 6 sen.secaddr)).map fun name =>
    ⟨name, decide (Matches (cstr "alert") (strArg (sensorMessage sen))), strArg (sensorMessage sen),
      lastSeen now sen⟩

/-- A word that starts with none of the headings' second words. -/
def Word (t : Text) : Prop := t ≠ [] ∧ 32 ∉ t ∧ ¬ cstr "status" <+: t ∧ ¬ cstr "sensor" <+: t

instance (t : Text) : Decidable (Word t) := inferInstanceAs (Decidable (_ ∧ _))

/-- The name of a function is one word. -/
theorem word_sensorMessage (sen : X10secsensor) : Word (strArg (sensorMessage sen)) := by
  have hevents : ∀ row ∈ secEventNames, Word (cstr row.2) := by decide
  have hkeys : ∀ row ∈ secRemoteKeyNames, Word (cstr row.2) := by decide
  unfold sensorMessage
  split
  · cases h : findSecRemoteKeyName sen.sensorstatus with
    | none => decide
    | some name => exact hkeys _ (findName_mem h)
  · cases h : findSecEventName sen.sensorstatus with
    | none => decide
    | some name => exact hevents _ (findName_mem h)

theorem word_hexPad (w n : Nat) (hw : w ≠ 0) : Word (hexPad w n) := by
  have hdigit : ∀ d : Fin 16, hexDigit d.val ≠ 115 := by decide
  have hne : hexPad w n ≠ [] := by
    intro hnil
    have hlen := congrArg List.length hnil
    simp only [hexPad, List.length_append, List.length_replicate, List.length_nil] at hlen
    omega
  have h115 : 115 ∉ hexPad w n := by
    intro h
    obtain ⟨d, hd⟩ := mem_hexPad h
    exact hdigit d hd.symm
  exact ⟨hne, (solid_hexPad w n).2, not_prefix_of_not_mem h115⟩

/-- The time since the last message is one word. -/
theorem word_lastSeen (now : Nat) (sen : X10secsensor) : Word (lastSeen now sen) := by
  have hdec : ∀ (n : Int) (c : UInt8), c ≠ 45 → c ≠ 48 → isdigit c = false → c ∉ dec2 n := by
    intro n c h45 h48 hdigit
    unfold dec2
    split
    · simp [h48, not_mem_dec h45 hdigit]
    · exact not_mem_dec h45 hdigit
  have hnot : ∀ c : UInt8, c ≠ 45 → c ≠ 48 → isdigit c = false → c ∉ cstr ":" → c ∉ lastSeen now sen := by
    intro c h45 h48 hdigit hcolon
    simp [lastSeen, hdec _ c h45 h48 hdigit, hcolon]
  refine ⟨by simp [lastSeen, cstr], hnot 32 (by decide) (by decide) (by decide) (by decide), ?_⟩
  exact not_prefix_of_not_mem (hnot 115 (by decide) (by decide) (by decide) (by decide))

/-- The words of the line of a sensor. -/
theorem words_sensorLine (now : Nat) (sen : X10secsensor) : words 32 (sensorLine now sen) =
    [cstr "Sensor", cstr "addr:", hexPad 6 sen.secaddr, cstr "Last:", lastSeen now sen,
      strArg (sensorMessage sen)] := by
  have hfirst : words 32 (cstr "Sensor addr: ") = [cstr "Sensor", cstr "addr:"] := by decide
  have hlast : words 32 (cstr "Last: ") = [cstr "Last:"] := by decide
  have hend : strArg (sensorMessage sen) ++ cstr " " = strArg (sensorMessage sen) ++ 32 :: [] := rfl
  obtain ⟨hne, h32, -⟩ := word_hexPad 6 sen.secaddr (by decide)
  obtain ⟨lne, l32, -⟩ := word_lastSeen now sen
  obtain ⟨nne, n32, -⟩ := word_sensorMessage sen
  rw [sensorLine, words_append_end (by decide), hfirst, words_cons_word hne h32,
    words_append_end (by decide), hlast, words_cons_word lne l32, hend, words_cons_word nne n32]
  rfl

theorem plain_sensorLine (now : Nat) (sen : X10secsensor) : Plain (sensorLine now sen) := by
  refine .of_words fun word hword => ?_
  rw [words_sensorLine] at hword
  simp only [List.mem_cons, List.not_mem_nil, or_false] at hword
  obtain rfl | rfl | rfl | rfl | rfl | rfl := hword
  · decide
  · decide
  · exact (word_hexPad 6 sen.secaddr (by decide)).2.2
  · decide
  · exact (word_lastSeen now sen).2.2
  · exact (word_sensorMessage sen).2.2

/-- Painting it gives the row of the sensor. -/
theorem paintSensor_sensorLine (sensornames : Text → Option Text) (now : Nat) (sen : X10secsensor) :
    paintSensor sensornames (sensorLine now sen) = sensorRow sensornames now sen := by
  unfold paintSensor
  rw [words_sensorLine]
  rfl

/-! ## The report -/

/-- The lines of one of the two device lists. -/
def unitsLines (item : Fin 16 → Fin 16 → Option Text) : List Text :=
  (List.finRange 16).filterMap fun house =>
    let items := (List.finRange 16).filterMap (item house)
    if items = [] then none else some (unitsLine house items)

/-- The lines of the sensors; each takes a reading of the clock. -/
def sensorLines (clock : Nat → Nat) : List X10secsensor → List Text
  | [] => []
  | sen :: sens => sensorLine (clock 0 / 1000) sen :: sensorLines (fun n => clock (n + 1)) sens

/-- The rows the sensors should have. -/
def sensorRows (sensornames : Text → Option Text) (clock : Nat → Nat) : List X10secsensor → List SensorRow
  | [] => []
  | sen :: sens =>
      (sensorRow sensornames (clock 0 / 1000) sen).toList ++ sensorRows sensornames (fun n => clock (n + 1)) sens

/-- The rows the houses should have. -/
def houseRows (s : X10state) : List (Text × List Cell) :=
  (List.finRange 16).filterMap fun house =>
    if ∀ unit, s.houseUnitState house unit = 0 then none
    else some ([UInt8.ofNat (house.val + 65)],
      (List.finRange 16).map fun unit => cellOf (s.houseUnitState house unit))

/-- All lines of the report. -/
def reportLines (w : World) : List Text :=
  cstr "Device selected" :: unitsLines (selectedItem w.state) ++
    cstr "Device status" :: unitsLines (statusItem w.state) ++
    cstr "Security sensor status" :: sensorLines w.clock (sortSensors w.state).x10sensors ++
    [cstr "End status"]

/-- The report has one text for each line. -/
theorem houseLines_eq (item : Fin 16 → Fin 16 → Option Text) :
    houseLines item = (unitsLines item).map (· ++ cstr "\n") := by
  unfold houseLines unitsLines
  rw [List.map_filterMap]
  refine List.filterMap_congr fun house _ => ?_
  rw [houseLine_eq]
  dsimp only
  split <;> rfl

/-- The client is told the lines. -/
def Told (fd : Int) (before after : List Io) (lines : List Text) : Prop :=
  ∃ io, after = before ++ io ∧ sentTo fd io = lines.flatMap (· ++ cstr "\n")

section
variable {fd : Int}

theorem Told.trans {a b c : List Io} {xs ys : List Text} (h : Told fd a b xs) (h' : Told fd b c ys) :
    Told fd a c (xs ++ ys) := by
  obtain ⟨p, hp, hxs⟩ := h
  obtain ⟨q, hq, hys⟩ := h'
  refine ⟨p ++ q, by rw [hq, hp, List.append_assoc], ?_⟩
  rw [sentTo_append, hxs, hys, List.flatMap_append]

/-- A message is for the standard output, and the client is told nothing. -/
theorem told_sendMessage (m : Option Text) (w : World) : Told fd w.io (w.sendMessage m).io [] :=
  ⟨[.sendMessage m], rfl, rfl⟩

variable (hfd : fd ≠ -1)
include hfd

/-- A line that is printed is told. -/
theorem told_sockprintf {w : World} (hxml : w.xmlclient fd = false) (line : Text) :
    Told fd w.io (w.sockprintf fd (line ++ cstr "\n")).io [line] := by
  refine ⟨[.send fd (line ++ cstr "\n")], ?_, ?_⟩
  · rw [World.sockprintf_io, World.sockprintfIo, if_pos hfd, hxml]
    rfl
  · rw [sentTo_send, if_pos rfl]
    exact (List.append_nil _).symm

/-- The lines of a list change nothing but the output. -/
theorem told_showLines {w : World} (hxml : w.xmlclient fd = false) (lines : List Text) :
    ∃ io, (lines.map (· ++ cstr "\n")).foldl (showLine fd) w = { w with io := io } ∧ Told fd w.io io lines := by
  induction lines generalizing w with
  | nil => exact ⟨w.io, rfl, [], (List.append_nil _).symm, rfl⟩
  | cons line lines ih =>
      have hone : Told fd w.io (showLine fd w (line ++ cstr "\n")).io [line] :=
        (told_sockprintf hfd hxml line).trans (told_sendMessage _ _)
      obtain ⟨io, heq, hrest⟩ := @ih (showLine fd w (line ++ cstr "\n")) hxml
      exact ⟨io, heq, hone.trans hrest⟩

/-- A heading and one of the two device lists. -/
theorem told_list {w : World} (hxml : w.xmlclient fd = false) (heading : Text)
    (item : Fin 16 → Fin 16 → Option Text) :
    ∃ io, (houseLines item).foldl (showLine fd) (w.sockprintf fd (heading ++ cstr "\n")) = { w with io := io } ∧
      Told fd w.io io (heading :: unitsLines item) := by
  obtain ⟨io, heq, hlines⟩ :=
    @told_showLines fd hfd (w.sockprintf fd (heading ++ cstr "\n")) hxml (unitsLines item)
  rw [houseLines_eq]
  exact ⟨io, heq, (told_sockprintf hfd hxml heading).trans hlines⟩

/-- The sensors are told line by line. -/
theorem told_showSensors {w : World} (hxml : w.xmlclient fd = false) (sens : List X10secsensor) :
    (sens.foldl (showSensor fd) w).clients = w.clients ∧
      Told fd w.io (sens.foldl (showSensor fd) w).io (sensorLines w.clock sens) := by
  induction sens generalizing w with
  | nil => exact ⟨rfl, [], (List.append_nil _).symm, rfl⟩
  | cons sen sens ih =>
      have hshow : showSensor fd w sen = (w.time.2.sendMessage (sensorMessage sen)).sockprintf fd
          (sensorLine (w.clock 0 / 1000) sen ++ cstr "\n") := by
        have htext : sensorLine (w.clock 0 / 1000) sen ++ cstr "\n" =
            cstr "Sensor addr: " ++ hexPad 6 sen.secaddr ++ cstr " Last: " ++ lastSeen (w.clock 0 / 1000) sen ++
              cstr " " ++ strArg (sensorMessage sen) ++ cstr " \n" := by
          simp only [sensorLine, List.append_assoc, List.cons_append]
          rfl
        rw [htext]
        simp only [showSensor, lastSeen, List.append_assoc]
        rfl
      have hone : Told fd w.io (showSensor fd w sen).io [sensorLine (w.clock 0 / 1000) sen] := by
        rw [hshow]
        have hmessage : Told fd w.io (w.time.2.sendMessage (sensorMessage sen)).io [] :=
          told_sendMessage _ w.time.2
        exact hmessage.trans (@told_sockprintf fd hfd (w.time.2.sendMessage (sensorMessage sen)) hxml _)
      obtain ⟨hclients, hrest⟩ := @ih (showSensor fd w sen) hxml
      exact ⟨hclients, hone.trans hrest⟩

/-- `hua_show` tells the report. -/
theorem told_huaShow {w : World} (hxml : w.xmlclient fd = false) :
    Told fd w.io (huaShow fd w).io (reportLines w) := by
  obtain ⟨io₁, h₁, hselected⟩ := told_list hfd hxml (cstr "Device selected") (selectedItem w.state)
  obtain ⟨io₂, h₂, hstatus⟩ :=
    @told_list fd hfd { w with io := io₁ } hxml (cstr "Device status") (statusItem w.state)
  let v : World := { World.sockprintf fd (cstr "Security sensor status" ++ cstr "\n") { w with io := io₂ } with
    state := sortSensors w.state }
  have hheading : Told fd io₂ v.io [cstr "Security sensor status"] :=
    @told_sockprintf fd hfd { w with io := io₂ } hxml (cstr "Security sensor status")
  obtain ⟨hclients, hsensors⟩ := @told_showSensors fd hfd v hxml (sortSensors w.state).x10sensors
  -- the parts of `hua_show`, one behind the other
  let sensors : World → World := fun w =>
    let w := w.sockprintf fd (cstr "Security sensor status" ++ cstr "\n")
    let w := { w with state := sortSensors w.state }
    World.sockprintf fd (cstr "End status" ++ cstr "\n") (w.state.x10sensors.foldl (showSensor fd) w)
  let status : World → World := fun w => sensors
    ((houseLines (statusItem w.state)).foldl (showLine fd) (w.sockprintf fd (cstr "Device status" ++ cstr "\n")))
  have hparts : huaShow fd w = status ((houseLines (selectedItem w.state)).foldl (showLine fd)
      (w.sockprintf fd (cstr "Device selected" ++ cstr "\n"))) := rfl
  have hsecond : status { w with io := io₁ } = sensors { w with io := io₂ } := congrArg sensors h₂
  rw [hparts, h₁, hsecond]
  have hxml' : World.xmlclient fd ((sortSensors w.state).x10sensors.foldl (showSensor fd) v) = false := by
    rw [World.xmlclient, hclients]
    exact hxml
  have hend := told_sockprintf hfd hxml' (cstr "End status")
  have hall := (((hselected.trans hstatus).trans hheading).trans hsensors).trans hend
  have hlines : reportLines w = (((cstr "Device selected" :: unitsLines (selectedItem w.state)) ++
      (cstr "Device status" :: unitsLines (statusItem w.state))) ++ [cstr "Security sensor status"]) ++
        sensorLines v.clock (sortSensors w.state).x10sensors ++ [cstr "End status"] := by
    simp only [reportLines, List.append_assoc, List.cons_append, List.nil_append]
    rfl
  rw [hlines]
  exact hall

end

/-! ## Reading the report -/

/-- There is no newline in a line that is said. -/
theorem newline_said {line : Text} {ops : List HuaOp} (h : Says (line ++ cstr "\n") ops) : 10 ∉ line := by
  obtain ⟨line', heq, hline, -⟩ := h
  rw [List.append_cancel_right heq]
  exact hline

/-- Lines without a newline in them are the lines of the stream they are sent in. -/
theorem finished_lines {lines : List Text} (h : ∀ line ∈ lines, 10 ∉ line) :
    finished isNewline (lines.flatMap (· ++ cstr "\n")) = lines := by
  induction lines with
  | nil => rfl
  | cons line lines ih =>
      obtain ⟨hline, hlines⟩ := List.forall_mem_cons.mp h
      obtain ⟨hfin, hunf⟩ := unfinished_newline hline
      rw [List.flatMap_cons, finished_append, hfin, hunf, List.nil_append, ih hlines]
      rfl

/-- A line of units belongs to a house. -/
theorem mem_unitsLines {item : Fin 16 → Fin 16 → Option Text} {line : Text} (h : line ∈ unitsLines item) :
    line ++ cstr "\n" ∈ houseLines item := by
  rw [houseLines_eq]
  exact List.mem_map_of_mem h

/-- A line of sensors belongs to a sensor, at some time. -/
theorem mem_sensorLines {clock : Nat → Nat} {sens : List X10secsensor} {line : Text}
    (h : line ∈ sensorLines clock sens) : ∃ now sen, line = sensorLine now sen := by
  induction sens generalizing clock with
  | nil => cases h
  | cons sen sens ih =>
      obtain rfl | h := List.mem_cons.mp h
      · exact ⟨_, sen, rfl⟩
      · exact ih h

/-- There is no newline in it. -/
theorem newline_sensorLine (now : Nat) (sen : X10secsensor) : 10 ∉ sensorLine now sen := by
  have hlast : 10 ∉ lastSeen now sen :=
    newline_append (newline_append (newline_dec2 _) (by decide)) (newline_dec2 _)
  refine newline_append (by decide) (newline_append (solid_hexPad _ _).1 ?_)
  refine newline_append (a := 32 :: cstr "Last: ") (by decide) (newline_append hlast ?_)
  exact newline_append (a := [32]) (by decide) (newline_append (newline_sensorMessage sen) (by decide))

/-- Nor in any line of the report. -/
theorem newline_reportLines {w : World} (hs : w.state.Consistent) : ∀ line ∈ reportLines w, 10 ∉ line := by
  intro line h
  simp only [reportLines, List.mem_append, List.mem_cons, List.not_mem_nil, or_false] at h
  obtain (((rfl | h) | rfl | h) | rfl | h) | rfl := h
  · decide
  · exact newline_said (says_selected (mem_unitsLines h))
  · decide
  · exact newline_said (says_status hs (mem_unitsLines h))
  · decide
  · obtain ⟨now, sen, rfl⟩ := mem_sensorLines h
    exact newline_sensorLine now sen
  · decide

section
variable (sensornames : Text → Option Text)

/-- What stands in front of the status of the devices is passed over. -/
theorem getsensors_skip {lines : List Text} (h : ∀ line ∈ lines, Plain line) (rest : List Text) :
    getsensors sensornames 0 (lines ++ rest) = getsensors sensornames 0 rest := by
  induction lines with
  | nil => rfl
  | cons line lines ih =>
      obtain ⟨hline, hlines⟩ := List.forall_mem_cons.mp h
      rw [List.cons_append, getsensors, if_neg hline.endStatus, if_pos rfl, if_neg hline.deviceStatus, ih hlines]

/-- Plain lines are painted as houses. -/
theorem getsensors_houses {lines : List Text} (h : ∀ line ∈ lines, Plain line) (rest : List Text) :
    getsensors sensornames 1 (lines ++ rest) =
      { getsensors sensornames 1 rest with
        houses := lines.map paintHouse ++ (getsensors sensornames 1 rest).houses } := by
  induction lines with
  | nil => rfl
  | cons line lines ih =>
      obtain ⟨hline, hlines⟩ := List.forall_mem_cons.mp h
      rw [List.cons_append, getsensors, if_neg hline.endStatus, if_neg (by decide), if_pos rfl,
        if_neg hline.securitySensor, ih hlines]
      rfl

/-- The lines of the sensors are painted as sensors, up to the end of the status. -/
theorem getsensors_sensors (clock : Nat → Nat) (sens : List X10secsensor) :
    getsensors sensornames 2 (sensorLines clock sens ++ [cstr "End status"]) =
      ⟨[], sensorRows sensornames clock sens⟩ := by
  induction sens generalizing clock with
  | nil =>
      have hend : Matches (cstr "End status") (cstr "End status") := List.infix_refl _
      exact if_pos hend
  | cons sen sens ih =>
      have hline := plain_sensorLine (clock 0 / 1000) sen
      rw [sensorLines, List.cons_append, getsensors, if_neg hline.endStatus, if_neg (by decide),
        if_neg (by decide), ih, paintSensor_sensorLine]
      rfl

end

/-- The lines of the selected units are plain. -/
theorem plain_selected {s : X10state} {line : Text} (h : line ∈ unitsLines (selectedItem s)) : Plain line := by
  obtain ⟨house, -, hline⟩ := List.mem_filterMap.mp h
  obtain ⟨hne, hline⟩ := Option.ite_none_left_eq_some.mp hline
  obtain rfl := Option.some.inj hline
  refine plain_unitsLine house hne fun t ht => ?_
  obtain ⟨unit, -, hunit⟩ := List.mem_filterMap.mp ht
  obtain ⟨-, ht⟩ := Option.ite_none_right_eq_some.mp hunit
  obtain rfl := Option.some.inj ht
  have hall : ∀ unit : Fin 16, Item (dec (unit.val + 1)) := by decide
  exact hall unit

theorem statusItem_eq_nil {s : X10state} {house : Fin 16} :
    (List.finRange 16).filterMap (statusItem s house) = [] ↔ ∀ unit, s.houseUnitState house unit = 0 := by
  rw [List.filterMap_eq_nil_iff]
  constructor
  · intro h unit
    by_contra hne
    have hsome : statusItem s house unit = none := h unit (List.mem_finRange unit)
    rw [statusItem, if_pos hne] at hsome
    cases hsome
  · exact fun h unit _ => if_neg (not_not_intro (h unit))

/-- The lines of the status are plain. -/
theorem plain_status {s : X10state} (hs : s.Consistent) {line : Text} (h : line ∈ unitsLines (statusItem s)) :
    Plain line := by
  obtain ⟨house, -, hline⟩ := List.mem_filterMap.mp h
  obtain ⟨hne, hline⟩ := Option.ite_none_left_eq_some.mp hline
  obtain rfl := Option.some.inj hline
  refine plain_unitsLine house hne fun t ht => ?_
  obtain ⟨unit, -, hunit⟩ := List.mem_filterMap.mp ht
  exact item_statusItem (hs house) hunit

/-- Painting them gives the rows of the houses. -/
theorem map_paintHouse {s : X10state} (hs : s.Consistent) :
    (unitsLines (statusItem s)).map paintHouse = houseRows s := by
  unfold unitsLines houseRows
  rw [List.map_filterMap]
  refine List.filterMap_congr fun house _ => ?_
  by_cases hnil : (List.finRange 16).filterMap (statusItem s house) = []
  · rw [if_pos hnil, if_pos (statusItem_eq_nil.mp hnil)]
    rfl
  · rw [if_neg hnil, if_neg (mt statusItem_eq_nil.mpr hnil)]
    exact congrArg some (paintHouse_unitsLine (hs house) hnil)

/-- The script reads the report as the tracked state. -/
theorem getsensors_report (sensornames : Text → Option Text) {w : World} (hs : w.state.Consistent) :
    getsensors sensornames 0 (reportLines w) =
      ⟨houseRows w.state, sensorRows sensornames w.clock (sortSensors w.state).x10sensors⟩ := by
  have hlines : reportLines w = (cstr "Device selected" :: unitsLines (selectedItem w.state)) ++
      (cstr "Device status" :: (unitsLines (statusItem w.state) ++ (cstr "Security sensor status" ::
        (sensorLines w.clock (sortSensors w.state).x10sensors ++ [cstr "End status"])))) := by
    simp only [reportLines, List.append_assoc, List.cons_append]
  have hfirst : Plain (cstr "Device selected") := ⟨by decide, by decide, by decide⟩
  have hskip : ∀ line ∈ cstr "Device selected" :: unitsLines (selectedItem w.state), Plain line :=
    List.forall_mem_cons.mpr ⟨hfirst, fun _ => plain_selected⟩
  rw [hlines, getsensors_skip sensornames hskip, getsensors, if_neg (by decide), if_pos rfl, if_pos (by decide),
    getsensors_houses sensornames fun _ => plain_status hs, getsensors, if_neg (by decide), if_neg (by decide),
    if_pos rfl, if_pos (by decide), getsensors_sensors, map_paintHouse hs, List.append_nil]

/-- In every state the daemon can reach in which the function of every sensor is
listed, `ST` is answered without a null message, and the page painted from the
answer shows the state of every unit that is known, and every sensor that has a
name. -/
theorem getsensors_paints (sensornames : Text → Option Text) (e : Setup) {is : List Happening}
    (hread : ∀ i ∈ is, i.Readable) {fd : Int} (hfd : fd ≠ -1) {aLine : Text} {args : List Text}
    (hline : words 32 (strupper aLine) = cstr "ST" :: args) (hargs : args.head? ≠ some (cstr "0")) :
    let w := Run.run World.after (startup e) is
    let w' := (processcommandline fd aLine w).2.2
    fd ∉ w.clients.clientxmlsocks → AllNamed w.state.x10sensors →
      ∃ io, w'.io = w.io ++ io ∧ Io.sendMessage none ∉ io ∧
        getsensors sensornames 0 (finished isNewline (sentTo fd io)) =
          ⟨houseRows w.state, sensorRows sensornames w.clock (sortSensors w.state).x10sensors⟩ := by
  intro w w' hplain hnamed
  have hs : w.state.Consistent := by
    refine consistent_run (unended_startup e) ?_ hread
    rw [devices_startup]
    exact consistent_huaSecInit
  have hxml : w.xmlclient fd = false := by simpa [World.xmlclient] using hplain
  obtain ⟨t, ht, heq⟩ := @processcommandlineWith_words cm15aDecodeRf fd aLine _ _ w hline (by decide)
  have hfst := nextWord_fst t
  rw [ht] at hfst
  have hshow : w' = huaShow fd w := by
    change (processcommandlineWith cm15aDecodeRf fd aLine w).2.2 = _
    rw [heq]
    simp only [runCommand, stCommand, hfst, if_neg hargs]
    rfl
  obtain ⟨io, hio, htold⟩ := told_huaShow hfd hxml
  have hshown : Io.sendMessage none ∉ (huaShow fd w).io.drop w.io.length := (showsNames_iff fd w).mpr hnamed
  rw [hio, List.drop_left] at hshown
  refine ⟨io, hshow ▸ hio, hshown, ?_⟩
  rw [htold, finished_lines (newline_reportLines hs), getsensors_report sensornames hs]

/-- Unit A1 has been switched on and a remote control has sent a Panic, and the page
says so. -/
theorem getsensors_paints_a1 :
    let w := Run.run World.after (startup (stillSetup false)) [.packet (Ptr.ofList [0x5a, 0x02, 0x00, 0x66]) 4,
      .packet (Ptr.ofList [0x5a, 0x02, 0x01, 0x62]) 4, .packet panicRemote.buf panicRemote.len]
    let sensornames := fun addr => if addr = cstr "000030" then some (cstr "Remote") else none
    houseRows w.state = [(cstr "A", .on :: List.replicate 15 .unknown)] ∧
      sensorRows sensornames w.clock (sortSensors w.state).x10sensors =
        [⟨cstr "Remote", false, cstr "Panic_SH624", cstr "00:00"⟩] ∧
      ∃ io, (processcommandline 5 (cstr "st") w).2.2.io = w.io ++ io ∧ Io.sendMessage none ∉ io ∧
        getsensors sensornames 0 (finished isNewline (sentTo 5 io)) =
          ⟨houseRows w.state, sensorRows sensornames w.clock (sortSensors w.state).x10sensors⟩ :=
  ⟨by decide +kernel, by decide +kernel,
    @getsensors_paints (fun addr => if addr = cstr "000030" then some (cstr "Remote") else none)
      (stillSetup false) [.packet (Ptr.ofList [0x5a, 0x02, 0x00, 0x66]) 4,
        .packet (Ptr.ofList [0x5a, 0x02, 0x01, 0x62]) 4, .packet panicRemote.buf panicRemote.len]
      (by decide) 5 (by decide) (cstr "st") [] (by decide) (by decide) (by decide)
      (by unfold AllNamed; decide +kernel)⟩

end Mochad
