import Mochad.DimLevel
import Mochad.Hexdump
import Mochad.Monitor

/-!
# Mochad.Silent

The texts that are no announcements: dumps (`says_dump`) and replies
(`says_reply`, `says_statusReply`).  Each is one line and reports no operation,
so that whoever reads the whole output need not tell them from announcements.
-/

namespace Mochad

open CString Lines
open Relation (ReflTransGen)

/-! ## Dumps -/

/-- What an empty dump shows: the string the stack holds. -/
def emptyDump (junk : Ptr) : Text := cString (junk.bytes (3 * 100 + 1))

/-- Memory that would not be taken for an announcement when an empty dump shows it. -/
def QuietJunk (junk : Ptr) : Prop := 10 ∉ emptyDump junk ∧ lineOps (emptyDump junk) = []

instance : DecidablePred QuietJunk := fun _ => inferInstanceAs (Decidable (_ ∧ _))

/-- The characters of a dump are none the reader looks for. -/
theorem hexText_range {bs : List UInt8} {b : UInt8} (hb : b ∈ hexText bs) : b ≠ 10 ∧ b ≠ 80 ∧ b ≠ 82 := by
  obtain ⟨c, -, hb⟩ := List.mem_flatMap.mp hb
  have hlt := c.toNat_lt
  have hdigit : ∀ d, d < 16 → hexDigit d ≠ 10 ∧ hexDigit d ≠ 80 ∧ hexDigit d ≠ 82 := fun d hd =>
    have h := hexDigit_range ⟨d, hd⟩
    ⟨h.1, h.2.2.1, h.2.2.2⟩
  simp only [hexByte, List.mem_cons, List.not_mem_nil, or_false] at hb
  obtain rfl | rfl | rfl := hb
  · exact hdigit _ (by omega)
  · exact hdigit _ (by omega)
  · decide

/-- An empty dump shows the stack. -/
theorem hexdumpText_zero (p : Ptr) (v : View) : v.hexdumpText p 0 = emptyDump v.junk :=
  congrArg cString (hexdumpInto_zero p _ _)

/-- Any other shows the first bytes of the packet. -/
theorem hexdumpText_eq (p : Ptr) {len : Nat} (hlen : len ≠ 0) (v : View) :
    v.hexdumpText p len = hexText (p.bytes (min len 100)) := by
  rw [View.hexdumpText, hexdumpInto_eq p hlen (by decide), cString_append_nul (hexText_ne_zero _)]

section
variable {v : View} {len : Nat}

/-- A dump has no line end in it, unless it is empty and the stack holds one. -/
theorem newline_hexdumpText (hjunk : len = 0 → 10 ∉ emptyDump v.junk) (p : Ptr) : 10 ∉ v.hexdumpText p len := by
  by_cases hlen : len = 0
  · rw [hlen, hexdumpText_zero]
    exact hjunk hlen
  · rw [hexdumpText_eq p hlen]
    exact fun h => (hexText_range h).1 rfl

/-- A dump is read as no operation, unless it is empty and the stack holds one. -/
theorem lineOps_hexdumpText (hjunk : len = 0 → lineOps (emptyDump v.junk) = []) (p : Ptr) :
    lineOps (v.hexdumpText p len) = [] := by
  by_cases hlen : len = 0
  · rw [hlen, hexdumpText_zero]
    exact hjunk hlen
  · rw [hexdumpText_eq p hlen]
    exact lineOps_no_capitals (fun h => (hexText_range h).2.1 rfl) (fun h => (hexText_range h).2.2 rfl)

/-- Nor has a dump a line end with its heading in front. -/
theorem newline_dump {heading : Text} (h : heading ∈ [[], cstr "Raw data received: "])
    (hjunk : len = 0 → 10 ∉ emptyDump v.junk) (p : Ptr) : 10 ∉ heading ++ v.hexdumpText p len := by
  have hheading : 10 ∉ heading := by
    simp only [List.mem_cons, List.not_mem_nil, or_false] at h
    obtain rfl | rfl := h <;> decide
  exact newline_append hheading (newline_hexdumpText hjunk p)

/-- A dump reports nothing. -/
theorem says_dump {heading : Text} (h : heading ∈ [[], cstr "Raw data received: "])
    (hjunk : len = 0 → QuietJunk v.junk) (p : Ptr) : Says (heading ++ v.hexdumpText p len ++ cstr "\n") [] := by
  refine .mk (newline_dump h (fun hlen => (hjunk hlen).1) p) ?_
  simp only [List.mem_cons, List.not_mem_nil, or_false] at h
  obtain rfl | rfl := h
  · exact lineOps_hexdumpText (fun hlen => (hjunk hlen).2) p
  · have hwords : words 32 (cstr "Raw data received: ") = [cstr "Raw", cstr "data", cstr "received:"] := by
      decide
    have hcut : words 32 (cstr "Raw data received: " ++ v.hexdumpText p len) =
        cstr "Raw" :: cstr "data" :: cstr "received:" :: words 32 (v.hexdumpText p len) := by
      rw [words_append_end (by decide), hwords]
      rfl
    exact lineOps_kind hcut (by decide) (by decide)

end

/-! ## Replies -/

/-- Items without a newline have none when they are joined. -/
theorem newline_intercalate {items : List Text} (h : ∀ item ∈ items, 10 ∉ item) :
    10 ∉ (cstr ",").intercalate items := by
  induction items with
  | nil => simp
  | cons item items ih =>
      obtain ⟨hitem, hitems⟩ := List.forall_mem_cons.mp h
      by_cases hne : items = []
      · rw [hne, List.intercalate_singleton]
        exact hitem
      · rw [List.intercalate_cons_of_ne_nil hne]
        exact newline_append (newline_append hitem (by decide)) (ih hitems)

/-- The line of a house in the report tells of no operation. -/
theorem says_houseLine {h : Fin 16} {items : List Text} {text : Text} (hline : houseLine h items = some text)
    (hitems : ∀ item ∈ items, 10 ∉ item) : Says text [] := by
  have hhouse : ∀ h : Fin 16, Solid ([UInt8.ofNat (h.val + 65)] ++ cstr ":") ∧
      [UInt8.ofNat (h.val + 65)] ++ cstr ":" ≠ cstr "PL" ∧
        [UInt8.ofNat (h.val + 65)] ++ cstr ":" ≠ cstr "RF" := by
    decide
  obtain ⟨hsolid, hpl, hrf⟩ := hhouse h
  have hword : words 32 (cstr "House ") = [cstr "House"] := by decide
  obtain ⟨-, htext⟩ := Option.ite_none_left_eq_some.mp hline
  have hcut : text = cstr "House " ++ (([UInt8.ofNat (h.val + 65)] ++ cstr ":") ++
      32 :: (cstr ",").intercalate items) ++ cstr "\n" := by
    rw [← Option.some.inj htext]
    simp only [List.append_assoc]
    rfl
  rw [hcut]
  refine .mk ?_ ?_
  · exact newline_append (by decide) (newline_append hsolid.1
      (newline_append (a := [32]) (by decide) (newline_intercalate hitems)))
  · have hwords : words 32 (cstr "House " ++ (([UInt8.ofNat (h.val + 65)] ++ cstr ":") ++
        32 :: (cstr ",").intercalate items)) = cstr "House" :: ([UInt8.ofNat (h.val + 65)] ++ cstr ":") ::
          words 32 ((cstr ",").intercalate items) := by
      rw [words_append_end (by decide), hword, words_cons_word (by simp) hsolid.2]
      rfl
    exact lineOps_kind hwords hpl hrf

/-- So do the lines of all houses. -/
theorem says_houseLines {item : Fin 16 → Fin 16 → Option Text} {text : Text} (h : text ∈ houseLines item)
    (hitem : ∀ house unit, ∀ t ∈ item house unit, 10 ∉ t) : Says text [] := by
  obtain ⟨house, -, hline⟩ := List.mem_filterMap.mp h
  refine says_houseLine hline fun t ht => ?_
  obtain ⟨unit, -, hunit⟩ := List.mem_filterMap.mp ht
  exact hitem house unit t hunit

/-- The lines of the selected units. -/
theorem says_selected {s : X10state} {text : Text} (h : text ∈ houseLines (selectedItem s)) : Says text [] := by
  refine says_houseLines h fun house unit t ht => ?_
  obtain ⟨-, ht⟩ := Option.ite_none_right_eq_some.mp ht
  obtain rfl := Option.some.inj ht
  exact (solid_dec _).1

/-- The lines of the status. -/
theorem says_status {s : X10state} (hs : s.Consistent) {text : Text} (h : text ∈ houseLines (statusItem s)) :
    Says text [] := by
  refine says_houseLines h fun house unit t ht => ?_
  obtain ⟨-, ht⟩ := Option.ite_none_right_eq_some.mp ht
  obtain rfl := Option.some.inj ht
  refine newline_append (newline_append (solid_dec _).1 (by decide)) ?_
  have hbyte : s.houseUnitState house unit = 0 ∨ s.houseUnitState house unit = charOff ∨
      s.houseUnitState house unit = charOn := (hs house).state unit
  obtain h | h | h := hbyte <;> rw [h] <;> decide

/-- There is no newline in the name of a sensor's function. -/
theorem newline_sensorMessage (sen : X10secsensor) : 10 ∉ strArg (sensorMessage sen) := by
  unfold sensorMessage
  split
  · exact newline_keyName _
  · exact newline_eventName _

/-- Nor in a number of two digits. -/
theorem newline_dec2 (n : Int) : 10 ∉ dec2 n := by
  unfold dec2
  split
  · exact newline_append (a := [48]) (by decide) (solid_dec n).1
  · exact (solid_dec n).1

/-- Replies report nothing. -/
theorem says_reply {s : X10state} (hs : s.Consistent) {text : Text} (h : Reply s text) : Says text [] := by
  cases h with
  | heading h =>
      simp only [List.mem_cons, List.not_mem_nil, or_false] at h
      obtain rfl | rfl | rfl | rfl := h
      · exact ⟨cstr "Device selected", rfl, by decide, by decide⟩
      · exact ⟨cstr "Device status", rfl, by decide, by decide⟩
      · exact ⟨cstr "Security sensor status", rfl, by decide, by decide⟩
      · exact ⟨cstr "End status", rfl, by decide, by decide⟩
  | selected h => exact says_selected h
  | status h => exact says_status hs h
  | rftopl mask => exact says_short (by decide) (by decide) (by decide) (solid_hexPad _ _)
  | rftorf flags => exact says_short (by decide) (by decide) (by decide) (solid_hexPad _ _)
  | @invalid arg1 h =>
      have hwords : words 32 (cstr "Invalid command ") = [cstr "Invalid", cstr "command"] := by decide
      have hcut : words 32 (cstr "Invalid command " ++ arg1) =
          cstr "Invalid" :: cstr "command" :: words 32 arg1 := by
        rw [words_append_end (by decide), hwords]
        rfl
      exact .mk (newline_append (by decide) h) (lineOps_kind hcut (by decide) (by decide))
  | sensor addr mins deltat sen =>
      have hwords : words 32 (cstr "Sensor addr: ") = [cstr "Sensor", cstr "addr:"] := by decide
      have htext : cstr "Sensor addr: " ++ hexPad 6 addr ++ cstr " Last: " ++ dec2 mins ++ cstr ":" ++
          dec2 deltat ++ cstr " " ++ strArg (sensorMessage sen) ++ cstr " \n" =
            cstr "Sensor addr: " ++ (hexPad 6 addr ++ (cstr " Last: " ++ (dec2 mins ++ (cstr ":" ++
              (dec2 deltat ++ (cstr " " ++ (strArg (sensorMessage sen) ++ cstr " "))))))) ++ cstr "\n" := by
        simp only [List.append_assoc]
        rfl
      rw [htext]
      refine .mk ?_ ?_
      · exact newline_append (by decide) (newline_append (solid_hexPad _ _).1 (newline_append (by decide)
          (newline_append (newline_dec2 _) (newline_append (by decide) (newline_append (newline_dec2 _)
            (newline_append (by decide) (newline_append (newline_sensorMessage sen) (by decide))))))))
      · have hcut : ∀ s, words 32 (cstr "Sensor addr: " ++ s) = cstr "Sensor" :: cstr "addr:" :: words 32 s := by
          intro s
          rw [words_append_end (by decide), hwords]
          rfl
        exact lineOps_kind (hcut _) (by decide) (by decide)

/-- The reply to `GETSTATUS` tells of no operation. -/
theorem says_statusReply {text : Text} (h : StatusReply text) : Says text [] := by
  cases h with
  | word h =>
      simp only [List.mem_cons, List.not_mem_nil, or_false] at h
      obtain rfl | rfl | rfl | rfl := h <;> exact .mk (by decide) (by decide)
  | level b =>
      have hone := words_length_le_one (solid_dec b.toNat).2
      exact .mk (solid_dec _).1 (lineOps_few (by omega))

end Mochad
