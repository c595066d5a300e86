import Mochad.Daemon

/-!
# Mochad.Hexdump

The dumps of packets.  `_hexdump` prints into an automatic buffer of its caller,
and only the last byte it prints leaves a terminator there: without any byte the
buffer stays as it was, and the caller prints or sends what it held.
-/

namespace Mochad

open CString
open World (hexdumpLoop hexdumpInto)

/-! ## Dumps -/

/-- The dump of a byte: two digits and a blank. -/
def hexByte (b : UInt8) : Text := [hexDigit (b.toNat / 16), hexDigit (b.toNat % 16), 32]

/-- The dump of some bytes. -/
def hexText (bs : List UInt8) : Text := bs.flatMap hexByte

/-- An output buffer of `3 * k + 1` characters, with other memory behind it,
holds the dump of the first `min len k` bytes and its terminator, and nothing is
written behind the buffer. -/
structure Dumped (p : Ptr) (len k : Nat) (mem : List UInt8) : Prop where
  text : cString ((hexdumpInto p len mem (3 * k + 1)).take (3 * k + 1)) =
    hexText (p.bytes (min len k))
  terminated : 0 ∈ (hexdumpInto p len mem (3 * k + 1)).take (3 * k + 1)
  behind : (hexdumpInto p len mem (3 * k + 1)).drop (3 * k + 1) = mem.drop (3 * k + 1)

/-- `hexdump`, `sockhexdump` and `mh_sockhexdump` show the bytes of the packet,
up to 100 of them. -/
structure DumpShown (p : Ptr) (len : Nat) (w : World) : Prop where
  hexdump : w.hexdumpText p len = hexText (p.bytes (min len 100))
  sockhexdump : ∀ fd, w.sockhexdump fd p len =
    w.sockprintf fd (hexText (p.bytes (min len 100)) ++ cstr "\n")
  mhSockhexdump : ∀ fd, w.mhSockhexdump fd p len =
    w.sockprintf fd (cstr "Raw data received: " ++ hexText (p.bytes (min len 100)) ++ cstr "\n")

/-- Each byte of a dump takes three characters. -/
theorem hexText_length (bs : List UInt8) : (hexText bs).length = 3 * bs.length := by
  induction bs with
  | nil => rfl
  | cons b bs ih =>
      rw [hexText, List.flatMap_cons, List.length_append]
      change 3 + (hexText bs).length = _
      rw [ih, List.length_cons]
      omega

/-- There is no zero byte in it. -/
theorem hexText_ne_zero (bs : List UInt8) : ∀ c ∈ hexText bs, c ≠ 0 := by
  intro c hc
  obtain ⟨b, -, hb⟩ := List.mem_flatMap.mp hc
  have hlt := b.toNat_lt
  simp only [hexByte, List.mem_cons, List.not_mem_nil, or_false] at hb
  obtain rfl | rfl | rfl := hb
  · exact hexDigit_ne_zero (by omega)
  · exact hexDigit_ne_zero (by omega)
  · decide

/-! ## The loop -/

/-- One `sprintf` behind `3 * i` characters. -/
theorem hexdumpLoop_step {p : Ptr} {i : Nat} {a b : List UInt8} (ha : a.length = 3 * i) (l : Nat) :
    hexdumpLoop p i (l + 1) (a ++ b) =
      hexdumpLoop p (i + 1) l ((a ++ hexByte (p i)) ++ 0 :: b.drop 4) := by
  have hpiece : hexPad 2 (p i).toNat ++ cstr " " ++ [0] = hexByte (p i) ++ [0] := by
    rw [hexPad_two (p i).toNat_lt]
    rfl
  have hdrop : (a ++ b).drop (3 * i + 4) = b.drop 4 := by rw [← ha, List.drop_length_add_append]
  have htake : (a ++ b).take (3 * i) = a := List.take_left' ha
  rw [hexdumpLoop, hpiece]
  change hexdumpLoop p (i + 1) l (_ ++ _ ++ (a ++ b).drop (3 * i + 4)) = _
  rw [hdrop, htake]
  simp only [List.append_assoc, List.cons_append, List.nil_append]

/-- The loop prints its bytes one behind the other, and the last of them leaves
the terminator. -/
theorem hexdumpLoop_eq {p : Ptr} {i l : Nat} {a b : List UInt8} (ha : a.length = 3 * i) :
    hexdumpLoop p i (l + 1) (a ++ b) =
      a ++ hexText ((p.add i).bytes (l + 1)) ++ 0 :: b.drop (3 * l + 4) := by
  induction l generalizing i a b with
  | zero =>
      rw [hexdumpLoop_step ha, hexdumpLoop, Ptr.bytes_succ]
      simp [hexText, Ptr.bytes, Ptr.add]
  | succ l ih =>
      have ha' : (a ++ hexByte (p i)).length = 3 * (i + 1) := by
        rw [List.length_append, ha]
        exact (Nat.mul_succ 3 i).symm
      have hfirst : p.add i 0 = p i := rfl
      rw [hexdumpLoop_step ha, ih ha', Ptr.bytes_succ (p.add i), Ptr.add_add, hexText, hexText,
        List.flatMap_cons, hfirst, List.drop_succ_cons, List.drop_drop, ← List.append_assoc a]
      congr 3
      omega

/-- What `_hexdump` leaves in memory when there is a byte to print. -/
theorem hexdumpInto_eq (p : Ptr) {len k : Nat} (hlen : len ≠ 0) (hk : 1 ≤ k) (mem : List UInt8) :
    hexdumpInto p len mem (3 * k + 1) =
      hexText (p.bytes (min len k)) ++ 0 :: mem.drop (3 * min len k + 1) := by
  have hclamp : (if len > (3 * k + 1) / 3 then (3 * k + 1) / 3 else len) = min len k := by
    have hdiv : (3 * k + 1) / 3 = k := by omega
    rw [hdiv]
    split <;> omega
  obtain ⟨l, hl⟩ : ∃ l, min len k = l + 1 := ⟨min len k - 1, by omega⟩
  rw [hexdumpInto, if_neg hlen, hclamp, hl]
  have hloop := @hexdumpLoop_eq p 0 l [] mem rfl
  rw [List.nil_append, List.nil_append, Ptr.add_zero] at hloop
  rw [hloop]
  rfl

/-- An empty dump leaves the buffer as it was. -/
theorem hexdumpInto_zero (p : Ptr) (mem : List UInt8) (outlen : Nat) :
    hexdumpInto p 0 mem outlen = mem := if_pos rfl

/-- A dump is right when there is a byte to print. -/
theorem dumped_of_ne_zero (p : Ptr) {len k : Nat} (hlen : len ≠ 0) (hk : 1 ≤ k) (mem : List UInt8) :
    Dumped p len k mem := by
  have hinto := hexdumpInto_eq p hlen hk mem
  have htext : (hexText (p.bytes (min len k))).length = 3 * min len k := by
    rw [hexText_length]
    simp [Ptr.bytes]
  obtain ⟨m, hm⟩ : ∃ m, 3 * k + 1 = 3 * min len k + (m + 1) := ⟨3 * k - 3 * min len k, by omega⟩
  have htake : (hexdumpInto p len mem (3 * k + 1)).take (3 * k + 1) =
      hexText (p.bytes (min len k)) ++ 0 :: (mem.drop (3 * min len k + 1)).take m := by
    rw [hinto, hm, ← htext, List.take_length_add_append, List.take_succ_cons]
  refine ⟨?_, ?_, ?_⟩
  · rw [htake, cString_append_nul (hexText_ne_zero _)]
  · rw [htake]
    simp
  · rw [hinto, hm, ← htext, List.drop_length_add_append, List.drop_succ_cons, List.drop_drop, htext]
    congr 1
    omega

/-- An empty dump is right when the buffer starts with a terminator. -/
theorem dumped_zero_iff (p : Ptr) {k : Nat} {mem : List UInt8} (hmem : mem ≠ []) :
    Dumped p 0 k mem ↔ mem.head? = some 0 := by
  have hhead : (mem.take (3 * k + 1)).head? = mem.head? := by
    rw [List.head?_take, if_neg (Nat.succ_ne_zero _)]
  have hne : mem.take (3 * k + 1) ≠ [] := by simpa using hmem
  have hempty : hexText (p.bytes (min 0 k)) = [] := by
    rw [Nat.zero_min]
    rfl
  constructor
  · intro h
    have htext := h.text
    rwa [hexdumpInto_zero, hempty, cString_eq_nil_iff hne, hhead] at htext
  · intro h
    rw [← hhead] at h
    refine ⟨?_, ?_, ?_⟩
    · rw [hexdumpInto_zero, hempty]
      exact (cString_eq_nil_iff hne).mpr h
    · rw [hexdumpInto_zero]
      exact List.mem_of_head? h
    · rw [hexdumpInto_zero]

/-- The callers show the text of the dump. -/
theorem dumpShown_iff (p : Ptr) (len : Nat) (w : World) :
    DumpShown p len w ↔ w.hexdumpText p len = hexText (p.bytes (min len 100)) := by
  refine ⟨fun h => h.hexdump, fun h => ⟨h, fun fd => ?_, fun fd => ?_⟩⟩
  · rw [World.sockhexdump, h]
  · rw [World.mhSockhexdump, h]

/-- A dump is right, whatever the packet, exactly when there is a byte to print or
the buffer starts with a terminator. -/
theorem hexdump_iff (p : Ptr) (len : Nat) {k : Nat} (hk : 1 ≤ k) {mem : List UInt8}
    (hmem : 3 * k + 1 ≤ mem.length) (w : World) :
    (Dumped p len k mem ↔ len ≠ 0 ∨ mem.head? = some 0) ∧
      (DumpShown p len w ↔ len ≠ 0 ∨ w.junk 0 = 0) := by
  have hne : mem ≠ [] := List.ne_nil_of_length_pos (by omega)
  by_cases hlen : len = 0
  · subst hlen
    refine ⟨?_, ?_⟩
    · rw [dumped_zero_iff p hne]
      simp
    · have hjunk : w.junk.bytes (3 * 100 + 1) = w.junk 0 :: (w.junk.add 1).bytes (3 * 100) :=
        Ptr.bytes_succ _ _
      have htext : w.hexdumpText p 0 = cString (w.junk.bytes (3 * 100 + 1)) :=
        congrArg cString (hexdumpInto_zero p _ _)
      have hempty : hexText (p.bytes (min 0 100)) = [] := rfl
      rw [dumpShown_iff, htext, hempty, hjunk, cString_eq_nil_iff (List.cons_ne_nil _ _)]
      simp
  · have htext : w.hexdumpText p len = hexText (p.bytes (min len 100)) := by
      have hinto := hexdumpInto_eq p hlen (by decide : 1 ≤ 100) (w.junk.bytes (3 * 100 + 1))
      rw [World.hexdumpText, hinto, cString_append_nul (hexText_ne_zero _)]
    exact ⟨⟨fun _ => .inl hlen, fun _ => dumped_of_ne_zero p hlen hk mem⟩,
      ⟨fun _ => .inl hlen, fun _ => (dumpShown_iff p len w).mpr htext⟩⟩

/-- A buffer that holds `old` from an earlier call. -/
def oldJunk : World := { worldInit (stillSetup false) with junk := Ptr.ofList (cstr "old") }

/-- Two bytes into a buffer for one, with one character of other memory behind. -/
theorem hexdump_clamped :
    let p := Ptr.ofList [0x5a, 0x02]
    Dumped p 2 1 (cstr "old!x") ∧ DumpShown p 2 oldJunk :=
  ⟨(hexdump_iff _ 2 le_rfl (by decide) oldJunk).1.mpr (.inl (by decide)),
    (@hexdump_iff _ 2 1 le_rfl (cstr "old!x") (by decide) oldJunk).2.mpr (.inl (by decide))⟩

/-- A radio packet of `5D` bytes only, with another one behind it, is reduced to
nothing, and every client is sent what the stack held. -/
theorem hexdump_old :
    let p := Ptr.ofList [0x5d, 0x5d, 0x5d, 0x5d, 0x5d]
    ¬ DumpShown p 0 oldJunk ∧ ¬ Dumped p 0 1 (cstr "old!") ∧
      (cm15aDecode (-1) p 4 oldJunk).io =
        [.sendMessage (some (cstr "too short 0\n")), .sendMessage (some (cstr "old\n"))] := by
  intro p
  refine ⟨fun h => absurd h.hexdump (by decide), fun h => absurd h.text (by decide), by decide⟩

end Mochad
