import Mochad.Window

/-!
# Mochad.Eviction

Which entry `dup_filter` gives away when the table is full.

The search keeps the smallest expire time so far in an `int` and compares it
with 64-bit times: of a time it remembers the low 32 bits, sign extended
(`seen`).  On present-day clocks it ends with the first entry whose low half
has bit 31 clear, or the last of all; `EvictsRight` says when that is the one
closest to expiring.
-/

namespace Mochad

open CString

/-! ## The remembered time -/

/-- A time after the way through the `int`. -/
def seen (timems : Nat) : Nat :=
  if timems % 2 ^ 32 < 2 ^ 31 then timems % 2 ^ 32 else 2 ^ 64 - 2 ^ 32 + timems % 2 ^ 32

/-- Bit 31 is clear. -/
def SeenLow (timems : Nat) : Prop := timems % 2 ^ 32 < 2 ^ 31

instance (timems : Nat) : Decidable (SeenLow timems) := inferInstanceAs (Decidable (_ < _))

/-- A negative `int` compares as a number from here on. -/
def negBase : Nat := 2 ^ 64 - 2 ^ 31

/-- `seen` is what the comparison makes of the `int`. -/
theorem cInt_emod (timems : Nat) : cInt timems % 2 ^ 64 = (seen timems : Int) := by
  unfold cInt seen
  rw [Int.bmod_def]
  split <;> split <;> omega

section
variable {t c : Nat} {ts pre post : List Nat}

/-- With bit 31 clear a time is seen as its low half. -/
theorem seen_eq_mod (h : SeenLow t) : seen t = t % 2 ^ 32 := if_pos h

/-- With bit 31 set it is seen as a negative number. -/
theorem negBase_le_seen (h : ¬ SeenLow t) : negBase ≤ seen t := by
  unfold SeenLow at h
  rw [seen, if_neg h, negBase]
  omega

/-- With bit 31 clear a 64-bit time is below the negative numbers. -/
theorem lt_negBase (h : SeenLow t) (ht : t < 2 ^ 64) : t < negBase := by
  unfold SeenLow at h
  unfold negBase
  omega

/-- Small times are remembered as they are. -/
theorem seen_of_lt (h : t < 2 ^ 31) : seen t = t := by
  unfold seen
  split <;> omega

/-- So are the largest. -/
theorem seen_of_negBase_le (h : negBase ≤ t) (ht : t < 2 ^ 64) : seen t = t := by
  unfold negBase at h
  unfold seen
  split <;> omega

/-! ## The search -/

/-- The expire time of the entry the search ends with, from an entry with `t`
on. -/
def evicted (t : Nat) : List Nat → Nat
  | [] => t
  | s :: ts => if s < seen t then evicted s ts else evicted t ts

/-- The search ends with one of the times. -/
theorem evicted_mem (t : Nat) (ts : List Nat) : evicted t ts ∈ t :: ts := by
  induction ts generalizing t with
  | nil => exact List.mem_singleton_self t
  | cons s ts ih =>
      rw [evicted]
      split
      · exact List.mem_cons_of_mem t (ih s)
      · obtain h | h := List.mem_cons.mp (ih t)
        · exact List.mem_cons.mpr (.inl h)
        · exact List.mem_cons_of_mem t (List.mem_cons_of_mem s h)

/-- Nothing comes below the remembered time. -/
theorem evicted_eq_self (h : ∀ s ∈ ts, seen t ≤ s) : evicted t ts = t := by
  induction ts with
  | nil => rfl
  | cons s ts ih =>
      obtain ⟨hs, hts⟩ := List.forall_mem_cons.mp h
      rw [evicted, if_neg (not_lt.mpr hs), ih hts]

/-- From a time remembered as it is, with the smaller ones, the search finds
the smallest. -/
theorem evicted_le (ht : seen t = t) (h : ∀ s ∈ ts, s < t → seen s = s) :
    evicted t ts ≤ t ∧ ∀ s ∈ ts, evicted t ts ≤ s := by
  induction ts generalizing t with
  | nil => exact ⟨le_refl t, by simp⟩
  | cons s ts ih =>
      obtain ⟨hs, hts⟩ := List.forall_mem_cons.mp h
      rw [evicted, ht]
      split
      · rename_i hst
        obtain ⟨hle, hmin⟩ := ih (hs hst) fun r hr hrs => hts r hr (hrs.trans hst)
        exact ⟨hle.trans hst.le, List.forall_mem_cons.mpr ⟨hle, hmin⟩⟩
      · rename_i hst
        obtain ⟨hle, hmin⟩ := ih ht hts
        exact ⟨hle, List.forall_mem_cons.mpr ⟨hle.trans (not_lt.mp hst), hmin⟩⟩

/-- When something comes below the remembered time, and is itself remembered as
it is, the search finds the smallest of what comes. -/
theorem evicted_below (hex : ∃ s ∈ ts, s < seen t) (h : ∀ s ∈ ts, s < seen t → seen s = s) :
    evicted t ts ∈ ts ∧ evicted t ts < seen t ∧ ∀ s ∈ ts, evicted t ts ≤ s := by
  induction ts with
  | nil =>
      obtain ⟨s, hs, -⟩ := hex
      cases hs
  | cons s ts ih =>
      obtain ⟨hs, hts⟩ := List.forall_mem_cons.mp h
      rw [evicted]
      split
      · rename_i hst
        obtain ⟨hle, hmin⟩ := evicted_le (hs hst) fun r hr hrs => hts r hr (hrs.trans hst)
        exact ⟨evicted_mem s ts, hle.trans_lt hst, List.forall_mem_cons.mpr ⟨hle, hmin⟩⟩
      · rename_i hst
        have hex' : ∃ r ∈ ts, r < seen t := by
          obtain ⟨r, hr, hrt⟩ := hex
          obtain rfl | hr := List.mem_cons.mp hr
          · exact absurd hrt hst
          · exact ⟨r, hr, hrt⟩
        obtain ⟨hmem, hlt, hmin⟩ := ih hex' hts
        exact ⟨List.mem_cons_of_mem s hmem, hlt,
          List.forall_mem_cons.mpr ⟨(hlt.trans_le (not_lt.mp hst)).le, hmin⟩⟩

/-- While the remembered `int` is negative, the next time below `negBase` takes
over. -/
theorem evicted_append (hpre : ∀ s ∈ t :: pre, negBase ≤ seen s) (hc : c < negBase) :
    evicted t (pre ++ c :: post) = evicted c post := by
  induction pre generalizing t with
  | nil =>
      have ht := hpre t List.mem_cons_self
      rw [List.nil_append, evicted, if_pos (by omega)]
  | cons s pre ih =>
      obtain ⟨ht, hrest⟩ := List.forall_mem_cons.mp hpre
      obtain ⟨hs, hpre⟩ := List.forall_mem_cons.mp hrest
      rw [List.cons_append, evicted]
      split
      · exact ih (List.forall_mem_cons.mpr ⟨hs, hpre⟩)
      · exact ih (List.forall_mem_cons.mpr ⟨ht, hpre⟩)

/-! ## When it finds the smallest -/

/-- The condition on the expire times of a full table.

The first of them whose low half has bit 31 clear is smallest, or a smaller one
is below its low half.  If bit 31 is set in all, the last one below `negBase`
is smallest, and its remembered time is still below the ones after it. -/
def EvictsRight (ts : List Nat) : Prop :=
  match ts.find? fun t => decide (SeenLow t) with
  | some t => (∃ s ∈ ts, s < t % 2 ^ 32) ∨ ∀ s ∈ ts, t ≤ s
  | none => ∀ pre t post, ts = pre ++ t :: post → t < negBase → (∀ s ∈ post, negBase ≤ s) →
      (∀ s ∈ ts, t ≤ s) ∧ ∀ s ∈ post, seen t ≤ s

/-- The expire time of the entry the search ends with. -/
def evictedOf : List Nat → Nat
  | [] => 0
  | t :: ts => evicted t ts

/-- Times that are seen as negative numbers give way to the first one below these. -/
theorem evictedOf_append (hpre : ∀ s ∈ pre, negBase ≤ seen s) (hc : c < negBase) :
    evictedOf (pre ++ c :: post) = evicted c post := by
  cases pre with
  | nil => rfl
  | cons t pre => exact evicted_append hpre hc

/-- After a time with bit 31 clear. -/
theorem evictedOf_low (hpre : ∀ s ∈ pre, ¬ SeenLow s) (hc : SeenLow c) (hlt : c < 2 ^ 64) :
    (∀ s ∈ pre ++ c :: post, evictedOf (pre ++ c :: post) ≤ s) ↔
      (∃ s ∈ pre ++ c :: post, s < c % 2 ^ 32) ∨ ∀ s ∈ pre ++ c :: post, c ≤ s := by
  rw [evictedOf_append (fun s hs => negBase_le_seen (hpre s hs)) (lt_negBase hc hlt)]
  have hseen : seen c = c % 2 ^ 32 := seen_eq_mod hc
  have hlow : c % 2 ^ 32 < 2 ^ 31 := hc
  have hmod : c % 2 ^ 32 ≤ c := Nat.mod_le _ _
  -- what is below the low half comes after the time
  have hafter : ∀ s ∈ pre ++ c :: post, s < c % 2 ^ 32 → s ∈ post := by
    intro s hs hsc
    obtain hs | hs := List.mem_append.mp hs
    · have hbig := hpre s hs
      unfold SeenLow at hbig
      omega
    · obtain rfl | hs := List.mem_cons.mp hs
      · omega
      · exact hs
  by_cases hex : ∃ s ∈ post, s < c % 2 ^ 32
  · rw [← hseen] at hex
    obtain ⟨hmem, hbelow, hmin⟩ := evicted_below hex fun s _ hs => seen_of_lt (by omega)
    have hright : ∃ s ∈ pre ++ c :: post, s < c % 2 ^ 32 :=
      ⟨_, by simp [hmem], hseen ▸ hbelow⟩
    refine ⟨fun _ => .inl hright, fun _ s hs => ?_⟩
    by_cases hsc : s < c % 2 ^ 32
    · exact hmin s (hafter s hs hsc)
    · omega
  · have hself : evicted c post = c := by
      refine evicted_eq_self fun s hs => ?_
      rw [hseen]
      exact not_lt.mp fun hsc => hex ⟨s, hs, hsc⟩
    rw [hself]
    refine ⟨.inr, ?_⟩
    rintro (⟨s, hs, hsc⟩ | hmin)
    · exact absurd ⟨s, hafter s hs hsc, hsc⟩ hex
    · exact hmin

/-- After the last time below `negBase`. -/
theorem evictedOf_last (hpre : ∀ s ∈ pre, negBase ≤ seen s) (hc : c < negBase)
    (hpost : ∀ s ∈ post, negBase ≤ s ∧ s < 2 ^ 64) :
    (∀ s ∈ pre ++ c :: post, evictedOf (pre ++ c :: post) ≤ s) ↔
      (∀ s ∈ pre ++ c :: post, c ≤ s) ∧ ∀ s ∈ post, seen c ≤ s := by
  rw [evictedOf_append hpre hc]
  by_cases hex : ∃ s ∈ post, s < seen c
  · -- a later time takes over, though `c` is smaller
    obtain ⟨hmem, -, -⟩ := evicted_below hex fun s hs _ =>
      seen_of_negBase_le (hpost s hs).1 (hpost s hs).2
    refine ⟨fun h => ?_, fun ⟨_, h⟩ => ?_⟩
    · have hle := h c (by simp)
      have := (hpost _ hmem).1
      omega
    · obtain ⟨s, hs, hsc⟩ := hex
      exact absurd (h s hs) (not_le.mpr hsc)
  · push Not at hex
    rw [evicted_eq_self hex]
    exact ⟨fun h => ⟨h, hex⟩, fun h => h.1⟩

/-- The largest times are compared as they are. -/
theorem evictedOf_negBase (h : ∀ s ∈ ts, negBase ≤ s ∧ s < 2 ^ 64) : ∀ s ∈ ts, evictedOf ts ≤ s := by
  have hexact : ∀ s ∈ ts, seen s = s := fun s hs => seen_of_negBase_le (h s hs).1 (h s hs).2
  cases ts with
  | nil => simp
  | cons t ts =>
      obtain ⟨ht, hts⟩ := List.forall_mem_cons.mp hexact
      exact List.forall_mem_cons.mpr (evicted_le ht fun s hs _ => hts s hs)

/-- The search finds the smallest time on the lists with `EvictsRight`. -/
theorem evictedOf_le_iff (hlt : ∀ s ∈ ts, s < 2 ^ 64) :
    (∀ s ∈ ts, evictedOf ts ≤ s) ↔ EvictsRight ts := by
  unfold EvictsRight
  cases hfind : ts.find? fun t => decide (SeenLow t) with
  | some c =>
      obtain ⟨hc, pre, post, rfl, hpre⟩ := List.find?_eq_some_iff_append.mp hfind
      exact evictedOf_low (by simpa using hpre) (by simpa using hc) (hlt c (by simp))
  | none =>
      have hset : ∀ s ∈ ts, negBase ≤ seen s := fun s hs =>
        negBase_le_seen (by simpa using List.find?_eq_none.mp hfind s hs)
      constructor
      · rintro h pre c post rfl hc hpost
        exact (evictedOf_last (fun s hs => hset s (by simp [hs])) hc
          fun s hs => ⟨hpost s hs, hlt s (by simp [hs])⟩).mp h
      · intro h
        -- the last time below `negBase`, if there is one
        cases hlast : ts.reverse.find? fun t => decide (t < negBase) with
        | none =>
            refine evictedOf_negBase fun s hs => ⟨?_, hlt s hs⟩
            simpa using List.find?_eq_none.mp hlast s (List.mem_reverse.mpr hs)
        | some c =>
            obtain ⟨hc, post, pre, hsplit, hpost⟩ := List.find?_eq_some_iff_append.mp hlast
            have hts : ts = pre.reverse ++ c :: post.reverse := by
              rw [← List.reverse_reverse ts, hsplit]
              simp
            have hc : c < negBase := by simpa using hc
            have hpost : ∀ s ∈ post.reverse, negBase ≤ s := by simpa using hpost
            have hright := h _ _ _ hts hc hpost
            subst hts
            exact (evictedOf_last (fun s hs => hset s (by simp [hs])) hc
              fun s hs => ⟨hpost s hs, hlt s (by simp [hs])⟩).mpr hright

end

/-! ## The table -/

/-- The search in the table, seen as one in the expire times. -/
theorem evictScan_spec {dups : List DupEntry} (ps : List DupEntry) :
    ∀ {pre : List DupEntry} {i addIndex : Nat} {min : Int} {p : DupEntry}, dups = pre ++ ps →
      i = pre.length → dups[addIndex]? = some p → min % 2 ^ 64 = (seen p.timems : Int) →
      ∃ q, dups[evictScan i min addIndex ps]? = some q ∧
        q.timems = evicted p.timems (ps.map DupEntry.timems) := by
  induction ps with
  | nil => exact fun _ _ hp _ => ⟨_, hp, rfl⟩
  | cons q qs ih =>
      intro pre i addIndex min p hdups hi hp hmin
      have hq : dups[i]? = some q := by
        rw [hdups, hi, List.getElem?_append_right (le_refl _), Nat.sub_self]
        rfl
      have hdups' : dups = (pre ++ [q]) ++ qs := by rw [hdups, List.append_assoc, List.singleton_append]
      have hi' : i + 1 = (pre ++ [q]).length := by rw [hi, List.length_append, List.length_singleton]
      rw [evictScan, List.map_cons, evicted, hmin]
      simp only [Int.ofNat_lt]
      split
      · exact ih hdups' hi' hq (cInt_emod q.timems)
      · exact ih hdups' hi' hp hmin

/-- The entry at the index found has the time the search ends with. -/
theorem evictIndex_spec {dups : List DupEntry} (h : dups ≠ []) :
    ∃ p, dups[evictIndex dups]? = some p ∧ p.timems = evictedOf (dups.map DupEntry.timems) := by
  cases dups with
  | nil => exact absurd rfl h
  | cons p ps => exact @evictScan_spec (p :: ps) ps [p] 1 0 _ p rfl rfl rfl (cInt_emod p.timems)

/-- All entries are in use and unexpired, and none is for the packet. -/
structure FullTable (w : World) (key : List UInt8) (len : Int) : Prop where
  length_eq : w.dups.length = dupMax
  used : ∀ p ∈ w.dups, p.rfCmdLen ≠ 0
  live : ∀ p ∈ w.dups, w.clock 0 ≤ p.timems
  range : ∀ p ∈ w.dups, p.timems < 2 ^ 64
  other : ∀ p ∈ w.dups, ¬ p.holds key len

/-- One entry with the smallest expire time is overwritten, and the others are
left as they are. -/
def EvictsEarliest (dups dups' : List DupEntry) : Prop :=
  ∃ i p q, dups[i]? = some p ∧ (∀ r ∈ dups, p.timems ≤ r.timems) ∧ dups' = dups.set i q

section
variable {buf : Ptr} {len : Nat} {w : World}

/-- The call on a full table. -/
theorem FullTable.dups_eq (h : FullTable w (buf.bytes len) len) :
    (dupFilter buf len w).2.dups =
      w.dups.modify (evictIndex w.dups) fun p => p.fill (w.clock 1) (buf.bytes len) len := by
  have hlen : (len : Int) ≠ -1 := by omega
  have hkeep : w.dups.map (DupEntry.expire (w.clock 0)) = w.dups := by
    refine (List.map_congr_left (g := id) fun p hp => ?_).trans (List.map_id w.dups)
    exact if_neg fun ⟨_, ht⟩ => absurd (h.live p hp) (not_le.mpr ht)
  have hscan : dupScan (w.clock 0) (buf.bytes len) len 0 none 0 w.dups =
      .absent none (w.dups.countP fun p => decide (p.rfCmdLen ≠ 0)) w.dups := by
    rw [dupScan_absent fun p hp _ => h.other p hp, hkeep,
      List.findIdx?_eq_none_iff.mpr fun p hp => decide_eq_false (h.used p hp)]
    simp
  simp only [dupFilter, World.getTimems, Int.toNat_natCast, hscan, hlen, if_false]
  rfl

/-- The entry found by the search is the one that is overwritten. -/
theorem FullTable.evictsEarliest (h : FullTable w (buf.bytes len) len) :
    EvictsEarliest w.dups (dupFilter buf len w).2.dups ↔
      ∀ s ∈ w.dups.map DupEntry.timems, evictedOf (w.dups.map DupEntry.timems) ≤ s := by
  have hne : w.dups ≠ [] := by
    intro hnil
    have := h.length_eq
    rw [hnil] at this
    cases this
  obtain ⟨p, hp, htime⟩ := evictIndex_spec hne
  rw [h.dups_eq, ← htime, List.forall_mem_map]
  let fill (p : DupEntry) := p.fill (w.clock 1) (buf.bytes len) len
  have hset : w.dups.modify (evictIndex w.dups) fill = w.dups.set (evictIndex w.dups) (fill p) := by
    refine List.ext_getElem? fun j => ?_
    rw [List.getElem?_modify, List.getElem?_set]
    by_cases hj : evictIndex w.dups = j
    · subst hj
      simp only [if_true, hp]
      rw [if_pos (evictIndex_lt hne)]
      rfl
    · simp [hj]
  constructor
  · rintro ⟨i, r, q, hr, hmin, heq⟩
    -- the new entry holds the packet, which the entry before did not
    obtain rfl : i = evictIndex w.dups := by
      by_contra hi
      have hnew : (w.dups.modify (evictIndex w.dups) fill)[evictIndex w.dups]? = some (fill p) := by
        simp [hp]
      rw [heq, List.getElem?_set_ne hi, hp] at hnew
      have hholds := p.fill_holds (w.clock 1) (buf.bytes len)
      rw [Ptr.length_bytes] at hholds
      refine h.other p (List.mem_of_getElem? hp) ?_
      rw [Option.some.inj hnew]
      exact hholds
    obtain rfl : r = p := Option.some.inj (hr.symm.trans hp)
    exact hmin
  · exact fun hmin => ⟨_, p, fill p, hp, hmin, hset⟩

end

/-- The eviction law of the filter.  A full table gives away the entry closest to
expiring, and no other, when the expire times are ordered as `EvictsRight` says. -/
theorem eviction_law (buf : Ptr) (len : Nat) (w : World) (hfull : FullTable w (buf.bytes len) len) :
    EvictsEarliest w.dups (dupFilter buf len w).2.dups ↔ EvictsRight (w.dups.map DupEntry.timems) := by
  refine hfull.evictsEarliest.trans (evictedOf_le_iff ?_)
  intro s hs
  obtain ⟨p, hp, rfl⟩ := List.mem_map.mp hs
  exact hfull.range p hp

/-- A packet for each byte. -/
def packetNo (i : UInt8) : FilterCall :=
  { filterCall with buf := Ptr.ofList [0x5d, 0x20, i, ~~~i, 0x00, 0xff] }

/-- After 16 packets. -/
def worldFull (clock : Nat → Nat) : World :=
  (Run.trace filterStep { worldInit (stillSetup false) with clock := clock }
    ((List.range 16).map fun i => packetNo i.toUInt8)).1

/-- With a clock in November 2023 the entry that is overwritten is the last of
the table, which expires last. -/
theorem evicts_last :
    let w := worldFull fun n => 1700000000000 + n
    let c := packetNo 16
    FullTable w (c.buf.bytes c.len) c.len ∧ ¬ EvictsEarliest w.dups (dupFilter c.buf c.len w).2.dups := by
  intro w c
  refine ⟨⟨by decide, by decide, by decide, by decide, by decide⟩, ?_⟩
  have hchanged : (dupFilter c.buf c.len w).2.dups[15]? ≠ w.dups[15]? := by decide
  have hlater : w.dups[15]?.any (fun p => decide (∀ r ∈ w.dups, p.timems ≤ r.timems)) = false := by
    decide
  rintro ⟨i, p, q, hp, hmin, heq⟩
  obtain rfl : i = 15 := by
    by_contra hi
    rw [heq, List.getElem?_set_ne hi] at hchanged
    exact hchanged rfl
  rw [hp, Option.any_some, decide_eq_false_iff_not] at hlater
  exact hlater hmin

/-- With a clock that starts at 0 it is the first. -/
theorem eviction_law_early :
    let w := worldFull fun n => n
    let c := packetNo 16
    EvictsEarliest w.dups (dupFilter c.buf c.len w).2.dups := by
  intro w c
  refine (eviction_law c.buf c.len w ⟨by decide, by decide, by decide, by decide, by decide⟩).mpr ?_
  have hfirst : (w.dups.map DupEntry.timems).find? (fun t => decide (SeenLow t)) = some 651 := by
    decide
  rw [EvictsRight, hfirst]
  exact .inr (by decide)

end Mochad
