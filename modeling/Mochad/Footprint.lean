import Mochad.Bounds
import Mochad.Daemon
import Mochad.Decode.RfEvent

/-!
# Mochad.Footprint

The bytes a decoder looks at.  It is given a pointer and a length, and behind the
length stand the bytes of an earlier transfer; two packets with the same bytes
should come out the same.  They do for either decoder (`decodePlc_footprint`,
`decodeRf_footprint`), but for a few packets that are shorter than their kind.
-/

namespace Mochad

open CString

/-! ## Outcomes -/

/-- The messages, the state changes and the transmitted packets are the same. -/
structure SameOutcome (w w' : World) : Prop where
  io : w'.io = w.io
  state : w'.state = w.state
  dups : w'.dups = w.dups
  fifo : w'.fifo = w.fifo
  writes : w'.writes = w.writes
  usb : w'.usb = w.usb

/-- The same world is the same outcome. -/
theorem SameOutcome.of_eq {w w' : World} (h : w' = w) : SameOutcome w w' := by
  subst h
  exact ⟨rfl, rfl, rfl, rfl, rfl, rfl⟩

/-- Every buffer with the same first `len` bytes gives the same outcome. -/
def OnlyPacket (decode : Int → Ptr → Nat → World → World) (fd : Int) (buf : Ptr) (len : Nat)
    (w : World) : Prop :=
  ∀ q : Ptr, q.bytes len = buf.bytes len → SameOutcome (decode fd buf len w) (decode fd q len w)

/-- Pointers agree on their bytes exactly when they agree at every index. -/
theorem Ptr.bytes_eq_iff {p q : Ptr} {n : Nat} : p.bytes n = q.bytes n ↔ ∀ i < n, p i = q i := by
  refine ⟨fun h i hi => Ptr.bytes_inj h hi, fun h => ?_⟩
  exact List.map_congr_left fun i hi => h i (List.mem_range.mp hi)

/-- The byte behind a packet may be any. -/
theorem Ptr.bytes_update (p : Ptr) {n i : Nat} (hi : n ≤ i) (b : UInt8) :
    Ptr.bytes (Function.update p i b) n = p.bytes n :=
  Ptr.bytes_eq_iff.mpr fun j hj => Function.update_of_ne (by omega) b p

/-! ## Messages -/

/-- The first thing `sockprintf` sends. -/
def shown (fd : Int) (text : Text) (w : World) : Io :=
  if fd ≠ -1 then .send fd (if w.xmlclient fd then World.newlineToNul text else text)
  else .sendMessage (some text)

/-- The first thing done with a text is to show it. -/
theorem sockprintfIo_eq (fd : Int) (text : Text) (w : World) :
    ∃ io, World.sockprintfIo fd text w = shown fd text w :: io := by
  unfold World.sockprintfIo shown
  split <;> exact ⟨_, rfl⟩

/-- Only the client tables matter for it. -/
theorem shown_congr {w w' : World} (h : w'.clients = w.clients) (fd : Int) (text : Text) :
    shown fd text w' = shown fd text w := by
  have hx : w'.xmlclient fd = w.xmlclient fd := by rw [World.xmlclient, World.xmlclient, h]
  rw [shown, shown, hx]

/-- What is shown tells the text, but for its last character. -/
theorem newlineToNul_of_shown {fd : Int} {text text' : Text} {w : World}
    (h : shown fd text w = shown fd text' w) :
    World.newlineToNul text = World.newlineToNul text' := by
  unfold shown at h
  split at h
  · split at h
    · exact (Io.send.inj h).2
    · rw [(Io.send.inj h).2]
  · rw [Option.some.inj (Io.sendMessage.inj h)]

/-- Texts that end in a newline can be told apart with a zero byte in its place. -/
theorem newlineToNul_inj {a b : Text} (ha : a.getLast? = some 10) (hb : b.getLast? = some 10)
    (h : World.newlineToNul a = World.newlineToNul b) : a = b := by
  rw [World.newlineToNul, World.newlineToNul, if_pos ha, if_pos hb] at h
  obtain ⟨a', rfl⟩ := List.getLast?_eq_some_iff.mp ha
  obtain ⟨b', rfl⟩ := List.getLast?_eq_some_iff.mp hb
  rw [List.dropLast_concat, List.dropLast_concat] at h
  rw [List.append_cancel_right h]

/-! ## The power line decoder -/

/-- A dim or bright packet of four bytes: the fifth holds the house and the
function. -/
def ReadsBehindPlc (buf : Ptr) (len : Nat) : Prop := len = 4 ∧ buf 2 = 0x02 ∧ buf 1 = 3

/-- The power line decoder looks at the packet only, unless it reads behind it. -/
theorem cm15aDecodePlc_congr {buf q : Ptr} {len : Nat} (hbytes : q.bytes len = buf.bytes len)
    (hno : ¬ ReadsBehindPlc buf len) (fd : Int) (w : World) :
    cm15aDecodePlc fd q len w = cm15aDecodePlc fd buf len w := by
  unfold cm15aDecodePlc
  by_cases h4 : len < 4
  · simp only [h4, if_true]
  by_cases h8 : len > 8
  · simp only [h4, h8, if_true, if_false]
  have hread := Ptr.bytes_eq_iff.mp hbytes
  simp only [hread 0 (by omega), hread 1 (by omega), hread 2 (by omega), hread 3 (by omega)]
  by_cases h7 : len = 7
  · simp only [hread 4 (by omega), hread 5 (by omega), hread 6 (by omega)]
  by_cases h5 : 4 < len
  · simp only [hread 4 h5, h7, ne_eq, not_false_eq_true, if_true]
  · -- a packet of four bytes that is not the short dim or bright
    have h4 : len = 4 := by omega
    by_cases k2 : buf 2 = 0x02
    · have hc : buf 1 ≠ 3 := fun hc => hno ⟨h4, k2, hc⟩
      simp only [hc, ne_eq, not_false_eq_true, if_true, h7]
    · simp only [k2, h7, ne_eq, not_false_eq_true, if_true, if_false]

/-- The message of a dim or bright packet. -/
theorem cm15aDecodePlc_dim {buf : Ptr} (k2 : buf 2 = 0x02) (k1 : buf 1 = 3) (fd : Int) (w : World) :
    ∃ tail io, tail.getLast? = some 10 ∧ (cm15aDecodePlc fd buf 4 w).io = w.io ++
      shown fd (rxTx (buf 0) 0x5a ++ (cstr "x PL House: " ++ ((hfcDecode (buf 4)).1 :: tail))) w :: io := by
  obtain ⟨tail, htail⟩ : ∃ tail, tail = cstr " Func: " ++ funcnameAt (hfcDecode (buf 4)).2.toNat ++
      cstr "(" ++ dec ((buf 3 &&& 0xF8) >>> 3).toNat ++ cstr ")\n" := ⟨_, rfl⟩
  let v := (w.accessHfc (buf 4)).access .funcname (hfcDecode (buf 4)).2
  obtain ⟨io, hio⟩ := sockprintfIo_eq fd
    (rxTx (buf 0) 0x5a ++ (cstr "x PL House: " ++ ((hfcDecode (buf 4)).1 :: tail))) v
  refine ⟨tail, io, ?_, ?_⟩
  · rw [htail, List.getLast?_append]
    rfl
  · rw [@shown_congr w v rfl] at hio
    rw [← hio, htail]
    simp [cm15aDecodePlc, k2, k1, World.accessHfc, v]

/-- The power line decoder looks only at its packet: this holds exactly when the
packet is not a dim or bright packet of four bytes. -/
theorem decodePlc_footprint (fd : Int) (buf : Ptr) (len : Nat) (w : World) :
    OnlyPacket cm15aDecodePlc fd buf len w ↔ ¬ ReadsBehindPlc buf len := by
  constructor
  · rintro honly ⟨rfl, k2, k1⟩
    -- the house of the function byte behind the packet is shown
    have hfirst : ∀ b i, i < 4 → Function.update buf 4 b i = buf i := fun b i hi =>
      Function.update_of_ne (by omega) b buf
    have hio : ∀ b, ∃ tail io, tail.getLast? = some 10 ∧ (cm15aDecodePlc fd buf 4 w).io = w.io ++
        shown fd (rxTx (buf 0) 0x5a ++ (cstr "x PL House: " ++ ((hfcDecode b).1 :: tail))) w :: io := by
      intro b
      obtain ⟨tail, io, hlast, hio⟩ := cm15aDecodePlc_dim ((hfirst b 2 (by decide)).trans k2)
        ((hfirst b 1 (by decide)).trans k1) fd w
      rw [(honly _ (buf.bytes_update le_rfl b)).io, hfirst b 0 (by decide), Function.update_self] at hio
      exact ⟨tail, io, hlast, hio⟩
    obtain ⟨tail, io, hlast, hM⟩ := hio 0x00
    obtain ⟨tail', io', hlast', hE⟩ := hio 0x10
    have htext := newlineToNul_inj (by simp [List.getLast?_append, List.getLast?_cons, hlast])
      (by simp [List.getLast?_append, List.getLast?_cons, hlast'])
      (newlineToNul_of_shown (List.cons.inj (List.append_cancel_left (hM.symm.trans hE))).1)
    have hhouse := (List.cons.inj (List.append_cancel_left (List.append_cancel_left htext))).1
    exact absurd hhouse (by decide)
  · intro hno q hbytes
    exact .of_eq (cm15aDecodePlc_congr hbytes hno fd w)

/-- The packet `5A 03 02 16` is shown with the house of the byte that follows. -/
theorem dim_reads_behind :
    let p := Ptr.ofList [0x5a, 0x03, 0x02, 0x16, 0x65]
    let q := Ptr.ofList [0x5a, 0x03, 0x02, 0x16, 0xe5]
    let w := worldInit (stillSetup false)
    ¬ OnlyPacket cm15aDecodePlc 5 p 4 w ∧ q.bytes 4 = p.bytes 4 ∧
      (cm15aDecodePlc 5 p 4 w).io = [.send 5 (cstr "Rx PL House: A Func: Bright(2)\n")] ∧
      (cm15aDecodePlc 5 q 4 w).io = [.send 5 (cstr "Rx PL House: B Func: Bright(2)\n")] := by
  intro p q w
  have hbytes : q.bytes 4 = p.bytes 4 := by decide
  refine ⟨fun h => ?_, hbytes, by decide⟩
  exact absurd (h q hbytes).io (by decide)

/-! ## The RF decoder -/

/-- A buffer of extra `5D` bytes only: the test of the last one looks behind it. -/
def AllExtra (buf : Ptr) (len : Nat) : Prop := 0 < len ∧ ∀ i, 1 ≤ i → i < len → buf i = 0x5D

/-- A packet of five bytes, behind `k` extra ones, of the type that has six: its
last byte holds the check of the function. -/
def ShortStandard (buf : Ptr) (k : Nat) : Prop :=
  (∀ i, 1 ≤ i → i ≤ k → buf i = 0x5D) ∧ buf (k + 1) = 0x20 ∧
    (buf (k + 2) ^^^ buf (k + 3) = 0x0f ∨ buf (k + 2) ^^^ buf (k + 3) = 0xff)

/-- The packets whose decoding looks at the byte behind them. -/
def ReadsBehindRf (buf : Ptr) (len : Nat) : Prop :=
  AllExtra buf len ∨ ∃ k, len = k + 5 ∧ ShortStandard buf k

/-- The loop skips the extra bytes in front of a packet. -/
theorem skipExtra_extra {buf : Ptr} {k n : Nat} (hextra : ∀ i, 1 ≤ i → i ≤ k → buf i = 0x5D)
    (hstop : n ≠ 0 → buf (k + 1) ≠ 0x5D) : skipExtra buf (k + n) = (buf.add k, n) := by
  induction k generalizing buf with
  | zero =>
      rw [Nat.zero_add, Ptr.add_zero]
      cases n with
      | zero => rfl
      | succ n => exact skipExtra_of_ne (hstop n.succ_ne_zero) (n + 1)
  | succ k ih =>
      have hadd : ∀ i, buf.add 1 i = buf (i + 1) := fun i => congrArg buf (Nat.add_comm 1 i)
      rw [Nat.succ_add, skipExtra, if_pos (hextra 1 le_rfl (by omega)), ih, Ptr.add_add, Nat.add_comm 1 k]
      · exact fun i h1 hk => (hadd i).trans (hextra (i + 1) (by omega) (by omega))
      · exact fun hn => (hadd (k + 1)).trans_ne (hstop hn)

/-- Either there is a byte that is not extra, or the loop runs to the end. -/
theorem extra_cases (buf : Ptr) (len : Nat) :
    (∃ k n, len = k + n + 2 ∧ (∀ i, 1 ≤ i → i ≤ k → buf i = 0x5D) ∧ buf (k + 1) ≠ 0x5D) ∨
      ∀ i, 1 ≤ i → i < len → buf i = 0x5D := by
  induction len with
  | zero => exact .inr (by omega)
  | succ len ih =>
      obtain ⟨k, n, rfl, hextra, hstop⟩ | hall := ih
      · exact .inl ⟨k, n + 1, by omega, hextra, hstop⟩
      by_cases hlast : len = 0 ∨ buf len = 0x5D
      · refine .inr fun i h1 hi => ?_
        by_cases h : i = len
        · subst h
          exact hlast.resolve_left (by omega)
        · exact hall i h1 (by omega)
      · obtain ⟨hpos, hne⟩ := not_or.mp hlast
        obtain ⟨k, rfl⟩ := Nat.exists_eq_succ_of_ne_zero hpos
        exact .inl ⟨k, 0, rfl, fun i h1 hk => hall i h1 (by omega), hne⟩

/-- The loop only looks at the packet, unless it is all extra bytes. -/
theorem skipExtra_congr {buf q : Ptr} {len : Nat} (hbytes : q.bytes len = buf.bytes len)
    (hno : ¬ AllExtra buf len) : ∃ k n, len = k + n ∧
      skipExtra buf len = (buf.add k, n) ∧ skipExtra q len = (q.add k, n) ∧
      (q.add k).bytes n = (buf.add k).bytes n ∧ (∀ i, 1 ≤ i → i ≤ k → buf i = 0x5D) := by
  have hread := Ptr.bytes_eq_iff.mp hbytes
  obtain ⟨k, n, rfl, hextra, hstop⟩ | hall := extra_cases buf len
  · refine ⟨k, n + 2, rfl, @skipExtra_extra buf k (n + 2) hextra fun _ => hstop,
      @skipExtra_extra q k (n + 2) (fun i h1 hk => ?_) fun _ => ?_,
      Ptr.bytes_eq_iff.mpr fun i hi => hread (k + i) (by omega), hextra⟩
    · exact (hread i (by omega)).trans (hextra i h1 hk)
    · exact (hread (k + 1) (by omega)).trans_ne hstop
  · have hzero : len = 0 := Nat.eq_zero_of_not_pos fun hpos => hno ⟨hpos, hall⟩
    subst hzero
    exact ⟨0, 0, rfl, by simp [skipExtra], by simp [skipExtra], rfl, by omega⟩

/-- The last of the extra bytes is compared with the byte behind the packet. -/
theorem skipExtra_allExtra {buf : Ptr} {len : Nat} (h : AllExtra buf len) :
    ∃ p, skipExtra buf len = (p, if buf len = 0x5D then 0 else 1) := by
  obtain ⟨hpos, hall⟩ := h
  obtain ⟨k, rfl⟩ := Nat.exists_eq_succ_of_ne_zero (Nat.ne_of_gt hpos)
  by_cases hlast : buf (k + 1) = 0x5D
  · rw [if_pos hlast]
    refine ⟨_, @skipExtra_extra buf (k + 1) 0 (fun i h1 hk => ?_) fun h => absurd rfl h⟩
    by_cases h : i = k + 1
    · exact h ▸ hlast
    · exact hall i h1 (by omega)
  · rw [if_neg hlast]
    exact ⟨_, @skipExtra_extra buf k 1 (fun i h1 hk => hall i h1 (by omega)) fun _ => hlast⟩

/-- A dump depends on the bytes it shows. -/
theorem hexdumpLoop_congr {p q : Ptr} (i l : Nat) (outbuf : List UInt8)
    (h : ∀ j, i ≤ j → j < i + l → q j = p j) :
    World.hexdumpLoop q i l outbuf = World.hexdumpLoop p i l outbuf := by
  induction l generalizing i outbuf with
  | zero => rfl
  | succ l ih =>
      rw [World.hexdumpLoop, World.hexdumpLoop, h i le_rfl (by omega)]
      exact ih _ _ fun j hj hlt => h j (by omega) (by omega)

section
variable {p q : Ptr} {n : Nat} (hbytes : q.bytes n = p.bytes n)
include hbytes

/-- So does the text of the dump. -/
theorem sockhexdump_congr (fd : Int) (w : World) : w.sockhexdump fd q n = w.sockhexdump fd p n := by
  have hread := Ptr.bytes_eq_iff.mp hbytes
  have htext : w.hexdumpText q n = w.hexdumpText p n := by
    simp only [World.hexdumpText, World.hexdumpInto]
    rw [hexdumpLoop_congr]
    intro j _ hj
    refine hread j ?_
    split at hj <;> omega
  rw [World.sockhexdump, World.sockhexdump, htext]

/-- The filter depends on the bytes of the packet. -/
theorem dupFilter_congr (w : World) : dupFilter q n w = dupFilter p n w := by
  simp only [dupFilter, Int.toNat_natCast, hbytes]

theorem repeatRF_congr (fd : Int) (w : World) : repeatRF fd q n w = repeatRF fd p n w := by
  have hread := Ptr.bytes_eq_iff.mp hbytes
  have htail : (q.add 1).bytes (n - 1) = (p.add 1).bytes (n - 1) :=
    Ptr.bytes_eq_iff.mpr fun i hi => hread (1 + i) (by omega)
  rw [repeatRF, repeatRF, htail]

/-- Each family only looks at its packet. -/
theorem cm15aDecodeRfWith_packet {buf buf' : Ptr} {len : Nat} (hskip : skipExtra buf len = (p, n))
    (hskip' : skipExtra buf' len = (q, n))
    (hno : n = 5 → p 1 = 0x20 → p 2 ^^^ p 3 ≠ 0x0f ∧ p 2 ^^^ p 3 ≠ 0xff)
    (parse : Int → Text → World → World) (fd : Int) (w : World) :
    cm15aDecodeRfWith parse fd buf' len w = cm15aDecodeRfWith parse fd buf len w := by
  have hdump := sockhexdump_congr hbytes fd
  have hdup := dupFilter_congr hbytes
  have hrep := repeatRF_congr hbytes fd
  have hread := Ptr.bytes_eq_iff.mp hbytes
  simp only [cm15aDecodeRfWith, hskip, hskip', hdump]
  by_cases h5 : n < 5
  · simp only [h5, if_true]
  by_cases h8 : n > 8
  · simp only [h5, h8, if_true, if_false]
  simp only [h5, h8, if_false]
  have h0 := hread 0 (by omega)
  have h1 := hread 1 (by omega)
  have h2 := hread 2 (by omega)
  have h3 := hread 3 (by omega)
  have h4 := hread 4 (by omega)
  have hcam : findCamRemoteName (q.add 1) (n - 1) w = findCamRemoteName (p.add 1) (n - 1) w := by
    simp only [findCamRemoteName, Ptr.add, Nat.reduceAdd, h1, h2, h3, h4]
    rfl
  have hsec : secafDecode q n = secafDecode p n := by
    by_cases hshort : n < 8
    · simp only [secafDecode, hshort, if_true]
    · simp only [secafDecode, h2, h3, h4, hread 5 (by omega), hread 6 (by omega), hread 7 (by omega)]
  have hcheck : p 1 = 0x20 → p 2 ^^^ p 3 = 0x0f ∨ p 2 ^^^ p 3 = 0xff → q 5 = p 5 := by
    intro k20 hc
    by_cases hn : n = 5
    · exact absurd hc (not_or.mpr (hno hn k20))
    · exact hread 5 (by omega)
  simp only [h1, h2, h3, h4, hcam, hsec]
  have hcamera : ∀ v text, rfCamera fd q n text v = rfCamera fd p n text v := by
    simp only [rfCamera, hdup, hrep, h0, implies_true]
  have hlong : ∀ a0 a1 a2 f, rfSecurityLong fd q n a0 a1 a2 f w = rfSecurityLong fd p n a0 a1 a2 f w := by
    simp only [rfSecurityLong, hdup, hrep, h0, implies_true]
  have hshort : rfSecurity8 fd q n w = rfSecurity8 fd p n w := by
    simp only [rfSecurity8, hdup, hrep, h0, h2, h4]
  have hstd : rfStandard parse fd q n w = rfStandard parse fd p n w := by
    simp only [rfStandard, hdup, hrep, h0, h2, h4]
  simp only [hcamera, hlong, hshort, hstd]
  by_cases k20 : p 1 = 0x20
  · by_cases hc : p 2 ^^^ p 3 = 0x0f ∨ p 2 ^^^ p 3 = 0xff
    · rw [hcheck k20 hc]
    · obtain ⟨c0, cf⟩ := not_or.mp hc
      simp only [c0, cf, if_false]
  · simp only [k20, if_false]

end

/-- The RF decoder looks at the packet only, unless it reads behind it. -/
theorem cm15aDecodeRf_congr {buf q : Ptr} {len : Nat} (hbytes : q.bytes len = buf.bytes len)
    (hno : ¬ ReadsBehindRf buf len) (fd : Int) (w : World) :
    cm15aDecodeRf fd q len w = cm15aDecodeRf fd buf len w := by
  obtain ⟨hextra, hshort⟩ := not_or.mp hno
  obtain ⟨k, n, hlen, hskip, hskip', hpacket, hskipped⟩ := skipExtra_congr hbytes hextra
  refine cm15aDecodeRfWith_packet hpacket hskip hskip' (fun hn k20 => ?_) _ fd w
  exact not_or.mp fun hc => hshort ⟨k, by omega, hskipped, k20, hc⟩

/-! ## What shows the byte behind -/

/-- A packet that is too short. -/
theorem cm15aDecodeRf_tooShort {buf p : Ptr} {len n : Nat} (hskip : skipExtra buf len = (p, n))
    (hn : n < 5) (fd : Int) (w : World) : ∃ io, (cm15aDecodeRf fd buf len w).io =
      w.io ++ shown fd (cstr "too short " ++ dec n ++ cstr "\n") w :: io := by
  obtain ⟨io, hio⟩ := sockprintfIo_eq fd (cstr "too short " ++ dec n ++ cstr "\n") w
  simp only [cm15aDecodeRf, cm15aDecodeRfWith, hskip, hn, if_true, World.sockhexdump,
    World.sockprintf_io, hio]
  exact ⟨_, by rw [List.append_assoc, List.cons_append]⟩

/-- Nothing is shown, or first that a packet was received or is sent. -/
def Reports (fd : Int) (w w' : World) : Prop :=
  w'.io = w.io ∨ ∃ b text io, w'.io = w.io ++ shown fd (rxTx b 0x5d ++ text) w :: io

section
variable {parse : Int → Text → World → World} (hparse : CleanParser parse)
include hparse

/-- The bridge keeps the indices inside, and only adds to what is shown. -/
theorem clean_rfBridge (fd : Int) (k : RfPacket) (p : Ptr) (w : World) :
    Clean w (rfBridge parse fd k p w) := by
  cases k with
  | standard =>
      obtain ⟨-, hfunc, -⟩ := hufcDecode_inside (p 2) (p 4)
      exact clean_bridge fd hparse (Clean.refl w) _ _ hfunc
  | _ => exact Clean.refl w

/-- A packet that is decoded is shown as received or sent. -/
theorem reports_of_decoded {fd : Int} {k : RfPacket} {p : Ptr} {n : Nat} {w r : World}
    (h : RfDecoded parse fd k p n w r) : Reports fd w r := by
  obtain ⟨acc, rfl⟩ := h
  obtain ⟨clock, dups, hdup⟩ := dupFilter_eq p n w
  obtain ⟨v, hv⟩ : ∃ v, v = (rfTrack k p (dupFilter p n w).2).accessAll acc := ⟨_, rfl⟩
  have hio : v.io = w.io ∧ v.clients = w.clients := by
    obtain ⟨clock', state, htrack⟩ := rfTrack_eq k p { w with clock := clock, dups := dups }
    rw [hv, hdup, htrack]
    exact ⟨rfl, rfl⟩
  rw [← hv]
  obtain ⟨text, htext⟩ : ∃ text, rfShown k p = rxTx (p 0) 0x5d ++ text := ⟨_, rfl⟩
  obtain ⟨io, hshown⟩ := sockprintfIo_eq fd (rxTx (p 0) 0x5d ++ text) v
  have hclean : Clean (v.sockprintf fd (rfShown k p)) (rfBridge parse fd k p (repeatRF fd p n
      (v.sockprintf fd (rfShown k p)))) :=
    (clean_repeatRF fd (Clean.refl _) p n).trans (clean_rfBridge hparse fd k p _)
  obtain ⟨io', -, hio', -⟩ := hclean
  refine .inr ⟨p 0, text, io ++ io', ?_⟩
  rw [hio', World.sockprintf_io, htext, hshown, hio.1, shown_congr hio.2, List.append_assoc,
    List.cons_append]

/-- So is an accepted packet, unless it is a duplicate. -/
theorem reports_of_accepted {fd : Int} {k : RfPacket} {p : Ptr} {n : Nat} {w r : World}
    (h : RfAccepted parse fd k p n w r) (hdup : (dupFilter p n w).1 = true → r = (dupFilter p n w).2) :
    Reports fd w r := by
  obtain ⟨hd, -⟩ | ⟨-, hdec⟩ := h
  · obtain ⟨clock, dups, heq⟩ := dupFilter_eq p n w
    exact .inl (by rw [hdup hd, heq])
  · exact reports_of_decoded hparse hdec

end

/-- A packet of five bytes whose sixth completes the check is accepted, one whose
sixth does not is complained about. -/
theorem cm15aDecodeRf_sixth {buf p : Ptr} {len : Nat} (hskip : skipExtra buf len = (p, 5))
    (k20 : p 1 = 0x20) (hc : p 2 ^^^ p 3 = 0x0f ∨ p 2 ^^^ p 3 = 0xff) (fd : Int) (w : World) :
    (p 4 ^^^ p 5 = 0xff → Reports fd w (cm15aDecodeRf fd buf len w)) ∧
      (p 4 ^^^ p 5 = 0 → ∃ io, (cm15aDecodeRf fd buf len w).io =
        w.io ++ shown fd (cstr "Invalid checksum\n") w :: io) := by
  have hparse : CleanParser fun fd aLine w =>
      (processcommandlineWith (fun _ _ _ w => w) fd aLine w).2.2 := fun fd aLine w =>
    clean_processcommandlineWith fd w (fun _ _ _ w => Clean.refl w) aLine
  constructor
  · intro h6
    obtain hc | hc := hc
    · have hr : cm15aDecodeRf fd buf len w = rfSecurity8 fd p 5 w := by
        simp [cm15aDecodeRf, cm15aDecodeRfWith, hskip, k20, hc, h6]
      rw [hr]
      refine reports_of_accepted hparse (rfSecurity8_accepted _ fd p 5 w) fun hd => ?_
      simp only [rfSecurity8, hd, if_true]
    · have hr : cm15aDecodeRf fd buf len w = rfStandard (fun fd aLine w =>
          (processcommandlineWith (fun _ _ _ w => w) fd aLine w).2.2) fd p 5 w := by
        simp [cm15aDecodeRf, cm15aDecodeRfWith, hskip, k20, hc, h6]
      rw [hr]
      refine reports_of_accepted hparse (rfStandard_accepted _ fd p 5 w) fun hd => ?_
      simp only [rfStandard, hd, if_true]
  · intro h6
    obtain ⟨io, hio⟩ := sockprintfIo_eq fd (cstr "Invalid checksum\n") w
    have hr : cm15aDecodeRf fd buf len w =
        (w.sockprintf fd (cstr "Invalid checksum\n")).sockhexdump fd p 5 := by
      obtain hc | hc := hc <;> simp [cm15aDecodeRf, cm15aDecodeRfWith, hskip, k20, hc, h6]
    rw [hr, World.sockhexdump, World.sockprintf_io, World.sockprintf_io, hio]
    exact ⟨_, by rw [List.append_assoc, List.cons_append]⟩

/-- The first character of a message is not that of another. -/
theorem shown_ne {fd : Int} {w : World} {b b' : UInt8} {text text' : Text} (hb : b ≠ 10) (hb' : b' ≠ 10)
    (hne : b ≠ b') : shown fd (b :: text) w ≠ shown fd (b' :: text') w := by
  have hhead : ∀ {c : UInt8} {t : Text}, c ≠ 10 → (World.newlineToNul (c :: t)).head? = some c := by
    intro c t hc
    unfold World.newlineToNul
    split
    · cases t with
      | nil => simp_all
      | cons d t => rfl
    · rfl
  intro h
  have hnul := congrArg List.head? (newlineToNul_of_shown h)
  rw [hhead hb, hhead hb'] at hnul
  exact hne (Option.some.inj hnul)

/-- A packet is not reported as one that fails its check. -/
theorem Reports.io_ne {fd : Int} {w w' : World} (h : Reports fd w w') (io : List Io) :
    w'.io ≠ w.io ++ shown fd (cstr "Invalid checksum\n") w :: io := by
  obtain h | ⟨b, text, io', h⟩ := h
  · rw [h]
    simp
  · rw [h]
    intro heq
    have hfirst := (List.cons.inj (List.append_cancel_left heq)).1
    revert hfirst
    unfold rxTx
    split
    · exact shown_ne (by decide) (by decide) (by decide)
    · exact shown_ne (by decide) (by decide) (by decide)

/-- The RF decoder looks only at its packet: this holds exactly when the buffer
is not all extra `5D` bytes, nor a packet of five bytes of the type that has six. -/
theorem decodeRf_footprint (fd : Int) (buf : Ptr) (len : Nat) (w : World) :
    OnlyPacket cm15aDecodeRf fd buf len w ↔ ¬ ReadsBehindRf buf len := by
  constructor
  · intro honly hreads
    have hsame := fun b => (honly (Function.update buf len b) (buf.bytes_update le_rfl b)).io
    have hfirst : ∀ b i, i < len → Function.update buf len b i = buf i := fun b i hi =>
      Function.update_of_ne (by omega) b buf
    obtain hall | ⟨k, rfl, hextra, k20, hc⟩ := hreads
    · -- the skipped bytes are one more, or not
      have hio : ∀ b : UInt8, ∃ io, (cm15aDecodeRf fd buf len w).io = w.io ++
          shown fd (cstr "too short " ++ dec (if b = 0x5D then 0 else 1 : Nat) ++ cstr "\n") w :: io := by
        intro b
        have hb : AllExtra (Function.update buf len b) len :=
          ⟨hall.1, fun i h1 hi => (hfirst b i hi).trans (hall.2 i h1 hi)⟩
        obtain ⟨p, hskip⟩ := skipExtra_allExtra hb
        rw [Function.update_self] at hskip
        obtain ⟨io, hio⟩ := cm15aDecodeRf_tooShort hskip (by split <;> omega) fd w
        exact ⟨io, (hsame b).symm.trans hio⟩
      obtain ⟨io, h0⟩ := hio 0x5D
      obtain ⟨io', h1⟩ := hio 0
      have htext := newlineToNul_of_shown (List.cons.inj (List.append_cancel_left (h0.symm.trans h1))).1
      exact absurd htext (by decide)
    · -- the sixth byte completes the check, or not
      have hio : ∀ b, ∃ p, skipExtra (Function.update buf (k + 5) b) (k + 5) = (p, 5) ∧
          (∀ i < 5, p i = buf (k + i)) ∧ p 5 = b := by
        intro b
        refine ⟨_, @skipExtra_extra _ k 5 (fun i h1 hk => ?_) fun _ => ?_, fun i hi => ?_, ?_⟩
        · exact (hfirst b i (by omega)).trans (hextra i h1 hk)
        · rw [hfirst b (k + 1) (by omega), k20]
          decide
        · exact hfirst b (k + i) (by omega)
        · exact Function.update_self ..
      obtain ⟨p, hskip, hp, h5⟩ := hio (buf (k + 4) ^^^ 0xff)
      obtain ⟨q, hskip', hq, h5'⟩ := hio (buf (k + 4))
      have hgood := (cm15aDecodeRf_sixth hskip ((hp 1 (by decide)).trans k20)
        (by rwa [hp 2 (by decide), hp 3 (by decide)]) fd w).1
        (by rw [hp 4 (by decide), h5, ← UInt8.xor_assoc, UInt8.xor_self, UInt8.zero_xor])
      obtain ⟨io, hbad⟩ := (cm15aDecodeRf_sixth hskip' ((hq 1 (by decide)).trans k20)
        (by rwa [hq 2 (by decide), hq 3 (by decide)]) fd w).2
        (by rw [hq 4 (by decide), h5', UInt8.xor_self])
      exact hgood.io_ne io ((hsame _).trans ((hsame _).symm.trans hbad))
  · intro hno q hbytes
    exact .of_eq (cm15aDecodeRf_congr hbytes hno fd w)

/-- Five bytes of a security packet: the sixth, left over from an earlier one,
decides whether a sensor is tracked. -/
theorem security_reads_behind :
    let p := Ptr.ofList [0x5d, 0x20, 0x30, 0x3f, 0x84, 0x7b]
    let q := Ptr.ofList [0x5d, 0x20, 0x30, 0x3f, 0x84, 0x00]
    let w := worldInit (stillSetup false)
    ¬ OnlyPacket cm15aDecodeRf 5 p 5 w ∧ q.bytes 5 = p.bytes 5 ∧
      (cm15aDecodeRf 5 p 5 w).io = [.send 5 (cstr "Rx RFSEC Addr: 0x30 Func: Motion_normal_SP554A\n")] ∧
      (cm15aDecodeRf 5 p 5 w).state.x10sensors.length = 1 ∧
      (cm15aDecodeRf 5 q 5 w).io =
        [.send 5 (cstr "Invalid checksum\n"), .send 5 (cstr "5D 20 30 3F 84 \n")] ∧
      (cm15aDecodeRf 5 q 5 w).state.x10sensors = [] := by
  intro p q w
  have hbytes : q.bytes 5 = p.bytes 5 := by decide
  refine ⟨fun h => ?_, hbytes, by decide⟩
  exact absurd (h q hbytes).io (by decide)

/-! ## Extra bytes -/

/-- A packet behind `n` bytes `5D`. -/
def Ptr.extra (n : Nat) (p : Ptr) : Ptr := fun i => if i < n then 0x5D else p (i - n)

/-- Extra bytes can be put back in front. -/
theorem Ptr.add_extra (n : Nat) (p : Ptr) : (p.extra n).add n = p := by
  funext i
  rw [Ptr.add, Ptr.extra, if_neg (by omega), Nat.add_sub_cancel_left]

/-- The loop ends at the packet. -/
theorem skipExtra_prefixed {p : Ptr} (h0 : p 0 = 0x5D) (h1 : p 1 ≠ 0x5D) (n len : Nat) :
    skipExtra (p.extra n) (n + len) = (p, len) := by
  have hat : ∀ i, p.extra n (n + i) = p i := fun i => congrFun (p.add_extra n) i
  have hskip := @skipExtra_extra (p.extra n) n len (fun i _ hi => ?_) fun _ => ?_
  · rw [hskip, Ptr.add_extra]
  · obtain hlt | rfl := Nat.lt_or_eq_of_le hi
    · exact if_pos hlt
    · exact (hat 0).trans h0
  · exact (hat 1).trans_ne h1

/-- Extra leading `5D` bytes are transparent: the packet behind them is decoded
as it is without them. -/
theorem extra_transparent {p : Ptr} (h0 : p 0 = 0x5D) (h1 : p 1 ≠ 0x5D) (n len : Nat) (fd : Int)
    (w : World) :
    cm15aDecodeRf fd (p.extra n) (n + len) w = cm15aDecodeRf fd p len w := by
  unfold cm15aDecodeRf cm15aDecodeRfWith
  rw [skipExtra_prefixed h0 h1, skipExtra_of_ne h1]

/-- A1 On behind two more bytes. -/
theorem extra_transparent_a1 :
    let p := Ptr.ofList [0x5d, 0x20, 0x60, 0x9f, 0x00, 0xff]
    let w := worldInit (stillSetup false)
    (p.extra 2).bytes 8 = [0x5d, 0x5d, 0x5d, 0x20, 0x60, 0x9f, 0x00, 0xff] ∧
      cm15aDecodeRf 5 (p.extra 2) (2 + 6) w = cm15aDecodeRf 5 p 6 w :=
  ⟨by decide, extra_transparent (by decide) (by decide) 2 6 5 _⟩

end Mochad
