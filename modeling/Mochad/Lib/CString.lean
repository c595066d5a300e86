import Mathlib.Data.FinEnum
import Mathlib.Data.List.TakeWhile
import Mathlib.Data.List.DropRight

/-!
# Mochad.Lib.CString

C strings as byte lists, and the part of the C library that reads and prints
them: the `ctype` classes of the "C" locale, `strtok`, `strtol` / `strtoul`
and the `printf` conversions.

A C string is the list of its bytes without the terminator.  `strtok` works on
the buffer in place, so its state keeps both the bytes it has passed (with the
terminators it has written) and the bytes still to be scanned; `words` is the
specification it is measured against.  Nothing here depends on the program
that uses it.
-/

namespace CString

/-- The bytes of a C string, without the terminator. -/
abbrev Text := List UInt8

/-- The bytes of an ASCII literal. -/
def cstr (s : String) : Text := s.toList.map fun c => c.toNat.toUInt8

/-- The C string that starts at a buffer: the bytes before the first NUL. -/
def cString (bs : List UInt8) : Text := bs.takeWhile (· ≠ 0)

/-- A text without zero bytes ends where one is put. -/
theorem cString_append_nul {s : Text} (h : ∀ b ∈ s, b ≠ 0) (rest : List UInt8) :
    cString (s ++ 0 :: rest) = s := by
  rw [cString, List.takeWhile_append_of_pos (by simpa using h)]
  simp

/-- A string is empty exactly if its first byte is zero. -/
theorem cString_eq_nil_iff {s : List UInt8} (hne : s ≠ []) : cString s = [] ↔ s.head? = some 0 := by
  cases s with
  | nil => exact absurd rfl hne
  | cons c cs => simp [cString, List.takeWhile_cons]

/-! ## ctype -/

/-- `isdigit` in the "C" locale. -/
def isdigit (c : UInt8) : Bool := 48 ≤ c && c ≤ 57

/-- The digits are the bytes 48 to 57. -/
theorem isdigit_range {c : UInt8} (h : isdigit c = true) : 48 ≤ c.toNat ∧ c.toNat ≤ 57 := by
  simpa [isdigit, UInt8.le_iff_toNat_le] using h

/-- `islower` in the "C" locale. -/
def islower (c : UInt8) : Bool := 97 ≤ c && c ≤ 122

/-- `isspace` in the "C" locale. -/
def isspace (c : UInt8) : Bool := c == 32 || (9 ≤ c && c ≤ 13)

/-- `toupper` in the "C" locale. -/
def toupper (c : UInt8) : UInt8 := if islower c then c - 32 else c

/-! ## strtok -/

/-- What `strtok` remembers: the bytes it has passed, as they now stand in the
buffer, and the bytes it has still to scan. -/
structure Strtok where
  seen : Text
  rest : Text
deriving DecidableEq, Repr

namespace Strtok

/-- The state of the first call on a buffer. -/
def start (s : Text) : Strtok := ⟨[], s⟩

/-- The buffer as it now stands. -/
def buffer (t : Strtok) : Text := t.seen ++ t.rest

end Strtok

/-- One call of `strtok` with a single separator: skip separators, cut the
next word out of the buffer by overwriting the separator behind it. -/
def strtok (sep : UInt8) (t : Strtok) : Option Text × Strtok :=
  let lead := t.rest.takeWhile (· == sep)
  let body := t.rest.dropWhile (· == sep)
  let word := body.takeWhile (· != sep)
  if body = [] then (none, ⟨t.seen ++ lead, []⟩)
  else match body.dropWhile (· != sep) with
    | [] => (some word, ⟨t.seen ++ lead ++ word, []⟩)
    | _ :: rest => (some word, ⟨t.seen ++ lead ++ word ++ [0], rest⟩)

/-- The words of a string: its non-empty pieces between separators. -/
def words (sep : UInt8) (s : Text) : List Text := (s.splitOn sep).filter (· ≠ [])

@[simp] theorem words_nil (sep : UInt8) : words sep [] = [] := by simp [words]

/-- A separator contributes no word of its own. -/
theorem words_append_sep (sep : UInt8) (xs ys : Text) :
    words sep (xs ++ sep :: ys) = words sep xs ++ words sep ys := by
  simp [words, List.splitOn_append_cons_self]

@[simp] theorem words_sep_cons (sep : UInt8) (xs : Text) :
    words sep (sep :: xs) = words sep xs := by
  simpa using words_append_sep sep [] xs

/-- A non-empty run of other bytes is one word. -/
theorem words_of_not_mem (sep : UInt8) {w : Text} (hne : w ≠ []) (h : sep ∉ w) :
    words sep w = [w] := by
  simp [words, List.splitOn_eq_singleton h, hne]

/-- A word is part of the string. -/
theorem mem_of_mem_words {sep b : UInt8} {s word : Text} (hword : word ∈ words sep s) (hb : b ∈ word) :
    b ∈ s := by
  have hsplit : word ∈ s.splitOn sep := List.mem_of_mem_filter hword
  clear hword
  induction s generalizing word with
  | nil =>
      obtain rfl : word = [] := by simpa using hsplit
      exact hb
  | cons c cs ih =>
      rw [List.splitOn_cons_eq_if_modifyHead] at hsplit
      split at hsplit
      · obtain rfl | hsplit := List.mem_cons.mp hsplit
        · cases hb
        · exact List.mem_cons_of_mem c (ih hb hsplit)
      · cases hcs : cs.splitOn sep with
        | nil => exact absurd hcs (List.splitOn_ne_nil sep cs)
        | cons first rest =>
            rw [hcs, List.modifyHead_cons] at hsplit
            obtain rfl | hsplit := List.mem_cons.mp hsplit
            · obtain rfl | hb := List.mem_cons.mp hb
              · exact List.mem_cons_self
              · exact List.mem_cons_of_mem c (ih hb (hcs ▸ List.mem_cons_self))
            · exact List.mem_cons_of_mem c (ih hb (hcs ▸ List.mem_cons_of_mem first hsplit))

/-- Every other byte is part of a word. -/
theorem exists_mem_words {sep b : UInt8} {s : Text} (hb : b ∈ s) (hne : b ≠ sep) :
    ∃ word ∈ words sep s, b ∈ word := by
  have hsplit : ∃ word ∈ s.splitOn sep, b ∈ word := by
    induction s with
    | nil => cases hb
    | cons c cs ih =>
        rw [List.splitOn_cons_eq_if_modifyHead]
        by_cases hc : c = sep
        · rw [if_pos (beq_iff_eq.mpr hc)]
          obtain rfl | hb := List.mem_cons.mp hb
          · exact absurd hc hne
          · obtain ⟨word, hword, hmem⟩ := ih hb
            exact ⟨word, List.mem_cons_of_mem _ hword, hmem⟩
        rw [if_neg (mt beq_iff_eq.mp hc)]
        cases hcs : cs.splitOn sep with
        | nil => exact absurd hcs (List.splitOn_ne_nil sep cs)
        | cons first rest =>
            rw [List.modifyHead_cons]
            obtain rfl | hb := List.mem_cons.mp hb
            · exact ⟨_, List.mem_cons_self, List.mem_cons_self⟩
            obtain ⟨word, hword, hmem⟩ := ih hb
            rw [hcs] at hword
            obtain rfl | hword := List.mem_cons.mp hword
            · exact ⟨_, List.mem_cons_self, List.mem_cons_of_mem c hmem⟩
            · exact ⟨word, List.mem_cons_of_mem _ hword, hmem⟩
  obtain ⟨word, hword, hmem⟩ := hsplit
  exact ⟨word, List.mem_filter.mpr ⟨hword, by simpa using List.ne_nil_of_mem hmem⟩, hmem⟩

/-- A word with a separator behind it. -/
theorem words_cons_word {sep : UInt8} {w : Text} (hne : w ≠ []) (h : sep ∉ w) (s : Text) :
    words sep (w ++ sep :: s) = w :: words sep s := by
  rw [words_append_sep, words_of_not_mem sep hne h, List.singleton_append]

/-- A string that ends with a separator. -/
theorem words_append_end {sep : UInt8} {s : Text} (h : s.getLast? = some sep) (t : Text) :
    words sep (s ++ t) = words sep s ++ words sep t := by
  obtain ⟨s, rfl⟩ := List.getLast?_eq_some_iff.mp h
  rw [List.append_assoc, List.singleton_append, words_append_sep, words_append_sep, words_nil,
    List.append_nil]

theorem words_dropWhile_sep (sep : UInt8) (s : Text) :
    words sep (s.dropWhile (· == sep)) = words sep s := by
  induction s with
  | nil => rfl
  | cons c cs ih =>
      by_cases hc : c = sep
      · subst hc
        rw [words_sep_cons, ← ih]
        simp
      · simp [hc]

/-- There is no separator in the text before the first one. -/
theorem not_mem_takeWhile_ne (sep : UInt8) (s : Text) : sep ∉ s.takeWhile (· != sep) := by
  intro h
  have := List.mem_takeWhile_imp h
  simp at this

/-- A string that does not start with a separator starts with its first word. -/
theorem words_of_head_ne {sep : UInt8} {s : Text} (hne : s ≠ [])
    (hhd : s.dropWhile (· == sep) = s) :
    words sep s = s.takeWhile (· != sep) :: words sep ((s.dropWhile (· != sep)).tail) := by
  have hw : s.takeWhile (· != sep) ≠ [] := by
    cases s with
    | nil => exact absurd rfl hne
    | cons c cs =>
        have hc : c ≠ sep := by
          intro hc
          have hlen := congrArg List.length hhd
          have hle := (List.dropWhile_suffix (l := cs) (· == sep)).length_le
          simp [hc] at hlen
          omega
        simp [hc]
  have hsplit : s = s.takeWhile (· != sep) ++ s.dropWhile (· != sep) := by simp
  have hnot := not_mem_takeWhile_ne sep s
  cases hd : s.dropWhile (· != sep) with
  | nil =>
      rw [hd, List.append_nil] at hsplit
      rw [← hsplit] at hnot hw ⊢
      simp [words_of_not_mem sep hw hnot]
  | cons c cs =>
      have hc : c = sep := by
        have h := List.head?_dropWhile_not (· != sep) s
        rw [hd] at h
        simpa using h
      subst hc
      conv_lhs => rw [hsplit, hd]
      rw [words_append_sep, words_of_not_mem _ hw hnot]
      simp

/-- `strtok` returns the first word of what is left. -/
theorem strtok_fst (sep : UInt8) (t : Strtok) :
    (strtok sep t).1 = (words sep t.rest).head? := by
  rw [← words_dropWhile_sep]
  unfold strtok
  by_cases hb : t.rest.dropWhile (· == sep) = []
  · simp [hb]
  · have hdd := List.dropWhile_idempotent (· == sep) t.rest
    simp only [hb, if_false]
    rw [words_of_head_ne hb hdd]
    split <;> simp

/-- `strtok` leaves the other words to the next call. -/
theorem words_strtok_rest (sep : UInt8) (t : Strtok) :
    words sep (strtok sep t).2.rest = (words sep t.rest).tail := by
  rw [← words_dropWhile_sep sep t.rest]
  unfold strtok
  by_cases hb : t.rest.dropWhile (· == sep) = []
  · simp [hb]
  · have hdd := List.dropWhile_idempotent (· == sep) t.rest
    simp only [hb, if_false]
    rw [words_of_head_ne hb hdd]
    split <;> simp [*]

/-! ## strtol and strtoul -/

/-- The value of a digit in `base`, if it is one. -/
def digitVal (base : Nat) (c : UInt8) : Option Nat :=
  let v :=
    if isdigit c then c.toNat - 48
    else if 65 ≤ toupper c && toupper c ≤ 90 then (toupper c).toNat - 55
    else base
  if v < base then some v else none

/-- The number written by the leading digits of a string. -/
def digitsVal (base : Nat) (s : Text) : Nat :=
  ((s.takeWhile fun c => (digitVal base c).isSome).filterMap (digitVal base)).foldl
    (fun v d => v * base + d) 0

/-- The `0x` in front of a base 16 number is skipped; without a digit behind
it the number is the `0`, whose value is the same. -/
def skipHexPrefix (base : Nat) (s : Text) : Text :=
  match s with
  | 48 :: x :: rest => if base = 16 ∧ toupper x = 88 then rest else s
  | _ => s

/-- Sign and magnitude read by `strtol` and `strtoul` (no limit applied yet). -/
def strtoParts (base : Nat) (s : Text) : Bool × Nat :=
  match s.dropWhile isspace with
  | 45 :: rest => (true, digitsVal base (skipHexPrefix base rest))
  | 43 :: rest => (false, digitsVal base (skipHexPrefix base rest))
  | rest => (false, digitsVal base (skipHexPrefix base rest))

/-- `strtoul` for a 64-bit `unsigned long`: the value, and whether `errno` is
set to `ERANGE`. -/
def strtoul (base : Nat) (s : Text) : Nat × Bool :=
  let (neg, v) := strtoParts base s
  if 2 ^ 64 ≤ v then (2 ^ 64 - 1, true)
  else if neg then ((2 ^ 64 - v) % 2 ^ 64, false)
  else (v, false)

/-- `strtol` for a 64-bit `long`. -/
def strtol (base : Nat) (s : Text) : Int :=
  let (neg, v) := strtoParts base s
  if neg then (if 2 ^ 63 < v then -(2 ^ 63) else -(v : Int))
  else if 2 ^ 63 ≤ v then 2 ^ 63 - 1 else v

/-- Conversion of an integer to a 32-bit `int`. -/
def cInt (n : Int) : Int := Int.bmod n (2 ^ 32)

/-! ## Strings of digits -/

/-- A digit is below the base. -/
theorem digitVal_lt {base : Nat} {c : UInt8} {v : Nat} (h : digitVal base c = some v) : v < base := by
  obtain ⟨d, hd⟩ : ∃ d, digitVal base c = if d < base then some d else none := ⟨_, rfl⟩
  rw [hd] at h
  split at h
  · rename_i hlt
    cases h
    exact hlt
  · cases h

/-- Digits are decimal digits and letters. -/
theorem alnum_of_digitVal {base : Nat} {c : UInt8} (h : (digitVal base c).isSome) :
    isdigit c = true ∨ 65 ≤ (toupper c).toNat := by
  by_cases hd : isdigit c = true
  · exact .inl hd
  by_cases hl : (65 ≤ toupper c && toupper c ≤ 90) = true
  · rw [Bool.and_eq_true, decide_eq_true_eq, UInt8.le_iff_toNat_le] at hl
    exact .inr hl.1
  · simp [digitVal, hd, hl] at h

/-- An upper case letter is no larger. -/
theorem toNat_toupper_le (c : UInt8) : (toupper c).toNat ≤ c.toNat := by
  unfold toupper
  split
  · rename_i hl
    have h97 : 97 ≤ c.toNat := by
      simpa [islower, UInt8.le_iff_toNat_le] using (Bool.and_eq_true_iff.mp hl).1
    rw [UInt8.toNat_sub_of_le _ _ (UInt8.le_iff_toNat_le.mpr (le_trans (by decide) h97))]
    exact Nat.sub_le _ _
  · exact le_rfl

/-- Digits come behind the blanks and the signs in ASCII. -/
theorem le_of_digitVal {base : Nat} {c : UInt8} (h : (digitVal base c).isSome) : 48 ≤ c.toNat := by
  obtain hd | hl := alnum_of_digitVal h
  · simpa [isdigit, UInt8.le_iff_toNat_le] using (Bool.and_eq_true_iff.mp hd).1
  · exact le_trans (by decide) (hl.trans (toNat_toupper_le c))

/-- White space comes before the digits. -/
theorem isspace_lt {c : UInt8} (h : isspace c = true) : c.toNat < 48 := by
  simp only [isspace, Bool.or_eq_true, Bool.and_eq_true, beq_iff_eq, decide_eq_true_eq,
    UInt8.le_iff_toNat_le] at h
  obtain rfl | h := h
  · decide
  · exact lt_of_le_of_lt h.2 (by decide)

/-- `x` is no digit in a base up to 16. -/
theorem toupper_ne_of_digitVal {base : Nat} (hbase : base ≤ 16) {c : UInt8}
    (h : (digitVal base c).isSome) : toupper c ≠ 88 := by
  intro hx
  have hd : ¬ isdigit c = true := by
    intro hd
    have hle : c.toNat ≤ 57 := by
      simpa [isdigit, UInt8.le_iff_toNat_le] using (Bool.and_eq_true_iff.mp hd).2
    have hup := toNat_toupper_le c
    rw [hx] at hup
    exact absurd (hup.trans hle) (by decide)
  have hv : ¬ (88 : UInt8).toNat - 55 < base := by
    change ¬ 33 < base
    omega
  simp [digitVal, hd, hx] at h
  omega

section
variable {base : Nat} (hbase : base ≤ 16) {s : Text} (hall : ∀ c ∈ s, (digitVal base c).isSome)
include hall

/-- Digits have no prefix to skip. -/
theorem skipHexPrefix_of_digits (hbase : base ≤ 16) : skipHexPrefix base s = s := by
  unfold skipHexPrefix
  split
  · rename_i x rest
    rw [if_neg]
    rintro ⟨-, hx⟩
    exact toupper_ne_of_digitVal hbase (hall x (by simp)) hx
  · rfl

/-- A string of digits is read as it stands. -/
theorem strtoParts_of_digits (hbase : base ≤ 16) : strtoParts base s = (false, digitsVal base s) := by
  have hskip := skipHexPrefix_of_digits hall hbase
  have hdrop : s.dropWhile isspace = s := by
    refine List.dropWhile_eq_self_iff.mpr fun hpos hspace => ?_
    have := le_of_digitVal (hall _ (List.getElem_mem hpos))
    have := isspace_lt hspace
    omega
  have hsign : ∀ c rest, s = c :: rest → 48 ≤ c.toNat := by
    rintro c rest rfl
    exact le_of_digitVal (hall c List.mem_cons_self)
  unfold strtoParts
  rw [hdrop]
  split
  · exact absurd (hsign _ _ rfl) (by decide)
  · exact absurd (hsign _ _ rfl) (by decide)
  · rw [hskip]

/-- `strtoul` of a string of digits. -/
theorem strtoul_of_digits (hbase : base ≤ 16) (hlt : digitsVal base s < 2 ^ 64) :
    strtoul base s = (digitsVal base s, false) := by
  rw [strtoul, strtoParts_of_digits hall hbase]
  exact if_neg (Nat.not_le.mpr hlt)

/-- The value of digits, from the left. -/
theorem digitsVal_of_digits :
    digitsVal base s = s.foldl (fun v c => v * base + (digitVal base c).getD 0) 0 := by
  have hfold : ∀ v, (s.filterMap (digitVal base)).foldl (fun v d => v * base + d) v =
      s.foldl (fun v c => v * base + (digitVal base c).getD 0) v := by
    induction s with
    | nil => exact fun v => rfl
    | cons c cs ih =>
        intro v
        obtain ⟨d, hd⟩ := Option.isSome_iff_exists.mp (hall c List.mem_cons_self)
        rw [List.filterMap_cons_some hd, List.foldl_cons, List.foldl_cons, hd,
          ih fun c hc => hall c (List.mem_cons_of_mem _ hc)]
        rfl
  rw [digitsVal, List.takeWhile_eq_self_iff.mpr hall, hfold]

end

/-! ## printf conversions -/

/-- `%d` of a non-negative number. -/
def natDec (n : Nat) : Text := (Nat.toDigits 10 n).map fun c => c.toNat.toUInt8

/-- `%d`. -/
def dec (n : Int) : Text := if n < 0 then 45 :: natDec n.natAbs else natDec n.natAbs

/-- `%d` of a number below `10 ^ k` has at most `k` digits. -/
theorem dec_length_le {n k : Nat} (hk : 0 < k) (h : n < 10 ^ k) : (dec n).length ≤ k := by
  rw [dec, if_neg (Int.not_lt.mpr (Int.natCast_nonneg n)), Int.natAbs_natCast, natDec, List.length_map]
  exact (Nat.length_toDigits_le_iff (by decide) hk).mpr h

/-- A sign or decimal digits. -/
theorem mem_dec {n : Int} {b : UInt8} (h : b ∈ dec n) : b = 45 ∨ isdigit b = true := by
  have hnat : ∀ n : Nat, b ∈ natDec n → isdigit b = true := by
    intro n hb
    obtain ⟨c, hc, rfl⟩ := List.mem_map.mp hb
    have hdigit := Nat.isDigit_of_mem_toDigits (by decide) (by decide) hc
    simp only [Char.isDigit, Bool.and_eq_true, decide_eq_true_eq, UInt32.le_iff_toNat_le] at hdigit
    have h48 : 48 ≤ c.toNat := hdigit.1
    have h57 : c.toNat ≤ 57 := hdigit.2
    have hmod : c.toNat.toUInt8.toNat = c.toNat := by
      rw [Nat.toUInt8_eq, UInt8.toNat_ofNat', Nat.mod_eq_of_lt (by omega)]
    simp only [isdigit, Bool.and_eq_true, decide_eq_true_eq, UInt8.le_iff_toNat_le, hmod]
    exact ⟨h48, h57⟩
  unfold dec at h
  split at h
  · obtain rfl | h := List.mem_cons.mp h
    · exact .inl rfl
    · exact .inr (hnat _ h)
  · exact .inr (hnat _ h)

/-- `%02d`. -/
def dec2 (n : Int) : Text := if 0 ≤ n ∧ n < 10 then 48 :: dec n else dec n

/-- `%0wX`. -/
def hexPad (w : Nat) (n : Nat) : Text :=
  let ds := (Nat.toDigits 16 n).map fun c => toupper c.toNat.toUInt8
  List.replicate (w - ds.length) 48 ++ ds

/-- An upper case hex digit. -/
def hexDigit (d : Nat) : UInt8 := if d < 10 then UInt8.ofNat (48 + d) else UInt8.ofNat (55 + d)

/-- One hexadecimal digit is printed as one. -/
theorem toDigits_hex {d : Nat} (h : d < 16) :
    ((Nat.toDigits 16 d).map fun c => toupper c.toNat.toUInt8) = [hexDigit d] := by
  have hall : ∀ d : Fin 16,
      ((Nat.toDigits 16 d.val).map fun c => toupper c.toNat.toUInt8) = [hexDigit d.val] := by decide
  exact hall ⟨d, h⟩

/-- `%02X` of a byte. -/
theorem hexPad_two {n : Nat} (h : n < 256) : hexPad 2 n = [hexDigit (n / 16), hexDigit (n % 16)] := by
  by_cases hn : n < 16
  · simp only [hexPad, toDigits_hex hn, Nat.div_eq_of_lt hn, Nat.mod_eq_of_lt hn]
    rfl
  · have hsplit := @Nat.toDigits_append_toDigits 16 (n / 16) (n % 16) (by decide) (by omega) (by omega)
    rw [Nat.div_add_mod] at hsplit
    simp only [hexPad, ← hsplit, List.map_append, toDigits_hex (show n / 16 < 16 by omega),
      toDigits_hex (show n % 16 < 16 by omega)]
    rfl

/-- Upper case hex digits. -/
theorem mem_hexPad {w n : Nat} {b : UInt8} (h : b ∈ hexPad w n) : ∃ d : Fin 16, b = hexDigit d.val := by
  have hdigits : ∀ n : Nat, b ∈ (Nat.toDigits 16 n).map (fun c => toupper c.toNat.toUInt8) →
      ∃ d : Fin 16, b = hexDigit d.val := by
    intro n
    induction n using Nat.strongRecOn with
    | ind n ih =>
        intro hb
        by_cases hn : n < 16
        · rw [toDigits_hex hn, List.mem_singleton] at hb
          exact ⟨⟨n, hn⟩, hb⟩
        · have hsplit := @Nat.toDigits_append_toDigits 16 (n / 16) (n % 16) (by decide) (by omega) (by omega)
          rw [Nat.div_add_mod] at hsplit
          rw [← hsplit, List.map_append, List.mem_append, toDigits_hex (Nat.mod_lt n (by decide)),
            List.mem_singleton] at hb
          obtain hb | hb := hb
          · exact ih (n / 16) (by omega) hb
          · exact ⟨⟨n % 16, Nat.mod_lt n (by decide)⟩, hb⟩
  obtain h | h := List.mem_append.mp h
  · exact ⟨0, (List.mem_replicate.mp h).2⟩
  · exact hdigits n h

theorem hexDigit_ne_zero {d : Nat} (h : d < 16) : hexDigit d ≠ 0 := by
  have hall : ∀ d : Fin 16, hexDigit d.val ≠ 0 := by decide
  exact hall ⟨d, h⟩

/-- `%s`; the C library prints `(null)` for a null pointer. -/
def strArg (s : Option Text) : Text := s.getD (cstr "(null)")

end CString
