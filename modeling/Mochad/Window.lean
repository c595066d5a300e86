import Mochad.Bridge
import Mochad.Lib.Run

/-!
# Mochad.Window

What the duplicate filter is for: over every run of calls from the empty table,
`dup_filter` suppresses the packets whose window is open (`WindowOpen`), the
650 ms after an equal packet was let through.

One call is described by `Filtered`: it ages the table, and then either finds
the packet in it or puts it in one entry.  Only an entry that is out of use, or
one of a table full of open windows, is given away.
-/

namespace Mochad

open CString

/-! ## The window -/

/-- A packet that was let through. -/
structure Passed where
  key : List UInt8
  /-- When it was entered in the table, in milliseconds. -/
  timems : Nat

/-- The packet was let through at most 650 ms ago. -/
def WindowOpen (log : List Passed) (timems : Nat) (key : List UInt8) : Prop :=
  ∃ x ∈ log, x.key = key ∧ timems ≤ x.timems + dupTime

/-- The packets whose window is open. -/
def openPackets (log : List Passed) (timems : Nat) : List (List UInt8) :=
  ((log.filter fun x => timems ≤ x.timems + dupTime).map Passed.key).dedup

/-- A packet is listed exactly if its window is open. -/
theorem mem_openPackets {log : List Passed} {timems : Nat} {key : List UInt8} :
    key ∈ openPackets log timems ↔ WindowOpen log timems key := by
  simp [openPackets, WindowOpen, and_comm, and_assoc]

/-! ## Calls -/

/-- A call of `dup_filter`. -/
structure FilterCall where
  buf : Ptr
  len : Nat
  min_len : 5 ≤ len
  len_le : len ≤ 8

/-- The bytes of the packet. -/
def FilterCall.key (c : FilterCall) : List UInt8 := c.buf.bytes c.len

/-- The call returns 1. -/
def FilterCall.suppressed (c : FilterCall) (w : World) : Bool := (dupFilter c.buf c.len w).1

/-- What a call adds to the packets let through. -/
def logged (copy : Bool) (key : List UInt8) (timems : Nat) : List Passed :=
  if copy then [] else [⟨key, timems⟩]

/-- A call, putting out the packet if it is let through. -/
def filterStep (w : World) (c : FilterCall) : World × List Passed :=
  ((dupFilter c.buf c.len w).2, logged (c.suppressed w) c.key (w.clock 1))

@[simp] theorem FilterCall.length_key (c : FilterCall) : c.key.length = c.len := Ptr.length_bytes _ _

/-- At the call at most 16 packets have an open window; its own counts from the
start of the call. -/
def FewOpen (log : List Passed) (timems : Nat) (key : List UInt8) : Prop :=
  (key :: openPackets log timems).dedup.length ≤ dupMax

/-- The packet an entry is in use for. -/
def DupEntry.packet (p : DupEntry) : Option (List UInt8) :=
  if p.rfCmdLen = 0 then none else some (p.rfCommand.take p.rfCmdLen.toNat)

/-- The length of an entry is within its buffer. -/
def DupEntry.Sized (p : DupEntry) : Prop :=
  p.rfCommand.length = 16 ∧ 0 ≤ p.rfCmdLen ∧ p.rfCmdLen ≤ 16

/-- An entry out of use has no packet. -/
theorem DupEntry.packet_eq_none {p : DupEntry} : p.packet = none ↔ p.rfCmdLen = 0 := by
  unfold packet
  split <;> simp_all

/-- `holds` in terms of the packet. -/
theorem DupEntry.packet_eq_some {p : DupEntry} (hp : p.Sized) {key : List UInt8} (hkey : key ≠ []) :
    p.packet = some key ↔ p.rfCmdLen ≠ 0 ∧ p.holds key key.length := by
  obtain ⟨hbuf, hpos, hle⟩ := hp
  have hlen : (p.rfCommand.take p.rfCmdLen.toNat).length = p.rfCmdLen.toNat := by
    rw [List.length_take, hbuf]
    omega
  unfold packet holds
  split
  · rename_i h0
    simp [h0]
  · rename_i hne
    simp only [Option.some.injEq, ne_eq, hne, not_false_eq_true, true_and]
    constructor
    · rintro rfl
      have hcast : p.rfCmdLen = ((p.rfCommand.take p.rfCmdLen.toNat).length : Int) := by omega
      exact ⟨hcast, by rw [← hcast]⟩
    · rintro ⟨hl, htake⟩
      rw [hl]
      exact htake

/-- A filled entry is in use for the packet. -/
theorem DupEntry.fill_sized {p : DupEntry} (hp : p.Sized) (timems : Nat) {key : List UInt8}
    (hkey : key.length ≤ 16) : (p.fill timems key key.length).Sized := by
  obtain ⟨hbuf, -, -⟩ := hp
  refine ⟨?_, by simp [fill], by simp only [fill]; omega⟩
  simp only [fill, List.length_append, List.length_drop, hbuf]
  omega

/-- No two entries in use are for the same packet. -/
def NoTwins (dups : List DupEntry) : Prop := (dups.filterMap DupEntry.packet).Nodup

/-! ## What a call does -/

/-- Some entries that have expired go out of use. -/
def Ages (timems : Nat) : List DupEntry → List DupEntry → Prop :=
  List.Forall₂ fun p q => q = p ∨ p.timems < timems ∧ q = { p with rfCmdLen := 0 }

namespace Ages

variable {timems : Nat} {dups dups' : List DupEntry}

theorem refl (timems : Nat) (dups : List DupEntry) : Ages timems dups dups :=
  List.forall₂_same.mpr fun _ _ => .inl rfl

/-- Expiring the entries ages the table. -/
theorem expire (timems : Nat) (dups : List DupEntry) :
    Ages timems dups (dups.map (DupEntry.expire timems)) := by
  refine List.forall₂_map_right_iff.mpr (List.forall₂_same.mpr fun p _ => ?_)
  unfold DupEntry.expire
  split
  · rename_i h
    exact .inr ⟨h.2, rfl⟩
  · exact .inl rfl

/-- An aged table has packets of the same sizes. -/
theorem sized (h : Ages timems dups dups') (hs : ∀ p ∈ dups, p.Sized) : ∀ p ∈ dups', p.Sized := by
  induction h with
  | nil => exact hs
  | cons hpq _ ih =>
      obtain ⟨hp, hps⟩ := List.forall_mem_cons.mp hs
      refine List.forall_mem_cons.mpr ⟨?_, ih hps⟩
      obtain rfl | ⟨-, rfl⟩ := hpq
      · exact hp
      · exact ⟨hp.1, by simp, by simp⟩

/-- The packets of the table afterwards. -/
theorem sublist (h : Ages timems dups dups') :
    (dups'.filterMap DupEntry.packet).Sublist (dups.filterMap DupEntry.packet) := by
  induction h with
  | nil => exact .refl _
  | @cons p q ps qs hpq _ ih =>
      obtain rfl | ⟨-, rfl⟩ := hpq
      · rw [List.filterMap_cons, List.filterMap_cons]
        split
        · exact ih
        · exact ih.cons_cons _
      · rw [List.filterMap_cons_none (DupEntry.packet_eq_none.mpr rfl), List.filterMap_cons]
        split
        · exact ih
        · exact ih.cons _

/-- An entry in use was there before. -/
theorem mem (h : Ages timems dups dups') {q : DupEntry} (hq : q ∈ dups') (hused : q.packet ≠ none) :
    q ∈ dups := by
  induction h with
  | nil => exact hq
  | cons hpq _ ih =>
      obtain rfl | hq := List.mem_cons.mp hq
      · obtain rfl | ⟨-, rfl⟩ := hpq
        · exact List.mem_cons_self
        · exact absurd (DupEntry.packet_eq_none.mpr rfl) hused
      · exact List.mem_cons_of_mem _ (ih hq)

/-- An entry that has not expired stays. -/
theorem stays (h : Ages timems dups dups') {p : DupEntry} (hp : p ∈ dups) (hlive : timems ≤ p.timems) :
    p ∈ dups' := by
  induction h with
  | nil => exact hp
  | cons hpq _ ih =>
      obtain rfl | hp := List.mem_cons.mp hp
      · obtain rfl | ⟨ht, -⟩ := hpq
        · exact List.mem_cons_self
        · omega
      · exact List.mem_cons_of_mem _ (ih hp)

end Ages

/-- A call with first reading `t₁` of the clock, and second reading `t₂` if
there is one: its result, and the table before and after. -/
inductive Filtered (t₁ t₂ : Nat) (key : List UInt8) (dups : List DupEntry) :
    Bool → List DupEntry → Prop
  /-- An entry is in use for the packet, and has not expired. -/
  | copy {dups' : List DupEntry} {p : DupEntry} (hages : Ages t₁ dups dups') (hp : p ∈ dups')
      (hkey : p.packet = some key) (hlive : t₁ ≤ p.timems) : Filtered t₁ t₂ key dups true dups'
  /-- The packet is put in an entry that is out of use, has expired, or is one
  of a table full of other packets. -/
  | passed {pre post : List DupEntry} {p q : DupEntry} (hages : Ages t₁ dups (pre ++ p :: post))
      (hfree : p.packet = none ∨ p.timems < t₁ ∨
        ∀ r ∈ pre ++ p :: post, r.packet ≠ none ∧ r.packet ≠ some key ∧ t₁ ≤ r.timems)
      (hother : ∀ r ∈ pre ++ post, r.packet ≠ some key) (hsized : q.Sized)
      (hkey : q.packet = some key) (htime : q.timems = t₂ + dupTime) :
      Filtered t₁ t₂ key dups false (pre ++ q :: post)

/-! ## The table over a call -/

/-- What the table says about the packets let through. -/
structure TableKeeps (log : List Passed) (dups : List DupEntry) : Prop where
  length_eq : dups.length = dupMax
  sized : ∀ p ∈ dups, p.Sized
  noTwins : NoTwins dups
  /-- An entry in use expires when the window of its packet closes. -/
  entered : ∀ p ∈ dups, ∀ key, p.packet = some key →
    ∃ x ∈ log, x.key = key ∧ p.timems = x.timems + dupTime

/-- Every packet whose window is open has an entry. -/
def Covers (log : List Passed) (timems : Nat) (dups : List DupEntry) : Prop :=
  ∀ x ∈ log, timems ≤ x.timems + dupTime →
    ∃ p ∈ dups, p.packet = some x.key ∧ x.timems + dupTime ≤ p.timems

section
variable {log : List Passed} {dups dups' : List DupEntry} {t₁ t₂ : Nat} {key : List UInt8} {b : Bool}

/-- A call keeps the table. -/
theorem TableKeeps.filtered (h : TableKeeps log dups) (hf : Filtered t₁ t₂ key dups b dups') :
    TableKeeps (log ++ logged b key t₂) dups' := by
  cases hf with
  | copy hages hp hkey hlive =>
      refine ⟨hages.length_eq ▸ h.length_eq, hages.sized h.sized, h.noTwins.sublist hages.sublist, ?_⟩
      intro p hp key hkey
      rw [logged, if_pos rfl, List.append_nil]
      exact h.entered p (hages.mem hp (by simp [hkey])) key hkey
  | @passed pre post p q hages hfree hother hsized hkey htime =>
      have hs := hages.sized h.sized
      have hlen : (pre ++ p :: post).length = (pre ++ q :: post).length := by simp
      -- the entries that are not written to
      have hrest : ∀ r, r ∈ pre ++ q :: post → r = q ∨ r ∈ pre ++ p :: post := by
        intro r hr
        simp only [List.mem_append, List.mem_cons] at hr ⊢
        tauto
      refine ⟨?_, ?_, ?_, ?_⟩
      · rw [← hlen, ← hages.length_eq, h.length_eq]
      · intro r hr
        obtain rfl | hr := hrest r hr
        · exact hsized
        · exact hs r hr
      · have hnodup : NoTwins (pre ++ post) := by
          refine (h.noTwins.sublist hages.sublist).sublist (List.Sublist.filterMap _ ?_)
          exact (List.sublist_cons_self p post).append_left pre
        have hnew : key ∉ (pre ++ post).filterMap DupEntry.packet := by
          intro hmem
          obtain ⟨r, hr, hrk⟩ := List.mem_filterMap.mp hmem
          exact hother r hr hrk
        rw [NoTwins, List.filterMap_append, List.filterMap_cons_some hkey, List.nodup_middle,
          ← List.filterMap_append]
        exact List.nodup_cons.mpr ⟨hnew, hnodup⟩
      · intro r hr k hk
        rw [logged, if_neg Bool.false_ne_true]
        obtain rfl | hr := hrest r hr
        · refine ⟨⟨key, t₂⟩, List.mem_append_right _ (List.mem_singleton_self _), ?_, htime⟩
          exact Option.some.inj (hkey.symm.trans hk)
        · obtain ⟨x, hx, hxk⟩ := h.entered r (hages.mem hr (by simp [hk])) k hk
          exact ⟨x, List.mem_append_left _ hx, hxk⟩

/-- The table is not full of other packets when few windows are open. -/
theorem TableKeeps.not_full (h : TableKeeps log dups) (hfew : FewOpen log t₁ key)
    {ds : List DupEntry} (hages : Ages t₁ dups ds) :
    ¬ ∀ r ∈ ds, r.packet ≠ none ∧ r.packet ≠ some key ∧ t₁ ≤ r.timems := by
  intro hfull
  have hnodup : (ds.filterMap DupEntry.packet).Nodup := h.noTwins.sublist hages.sublist
  have hlen : (ds.filterMap DupEntry.packet).length = dupMax := by
    rw [← h.length_eq, hages.length_eq]
    exact List.filterMap_length_eq_length.mpr fun r hr => Option.isSome_iff_ne_none.mpr (hfull r hr).1
  have hnew : key ∉ ds.filterMap DupEntry.packet := by
    intro hmem
    obtain ⟨r, hr, hrk⟩ := List.mem_filterMap.mp hmem
    exact (hfull r hr).2.1 hrk
  have hsub : key :: ds.filterMap DupEntry.packet ⊆ (key :: openPackets log t₁).dedup := by
    intro k hk
    rw [List.mem_dedup]
    obtain rfl | hk := List.mem_cons.mp hk
    · exact List.mem_cons_self
    · obtain ⟨r, hr, hrk⟩ := List.mem_filterMap.mp hk
      obtain ⟨x, hx, hxk, ht⟩ := h.entered r (hages.mem hr (hfull r hr).1) k hrk
      refine List.mem_cons_of_mem _ (mem_openPackets.mpr ⟨x, hx, hxk, ?_⟩)
      exact ht ▸ (hfull r hr).2.2
  have hle := (List.subperm_of_subset (List.nodup_cons.mpr ⟨hnew, hnodup⟩) hsub).length_le
  rw [List.length_cons, hlen] at hle
  rw [FewOpen] at hfew
  omega

/-- With few windows open, a call keeps the cover. -/
theorem Covers.filtered (hc : Covers log t₁ dups) (h : TableKeeps log dups)
    (hfew : FewOpen log t₁ key) (hf : Filtered t₁ t₂ key dups b dups') {timems : Nat}
    (ht : t₁ ≤ timems) : Covers (log ++ logged b key t₂) timems dups' := by
  intro x hx hopen
  cases hf with
  | copy hages hp hkey hlive =>
      rw [logged, if_pos rfl, List.append_nil] at hx
      obtain ⟨r, hr, hrk, hrt⟩ := hc x hx (ht.trans hopen)
      exact ⟨r, hages.stays hr (by omega), hrk, hrt⟩
  | @passed pre post p q hages hfree hother hsized hkey htime =>
      rw [logged, if_neg Bool.false_ne_true] at hx
      obtain hx | hx := List.mem_append.mp hx
      · obtain ⟨r, hr, hrk, hrt⟩ := hc x hx (ht.trans hopen)
        have hmem := hages.stays hr (by omega)
        have hne : r ≠ p := by
          rintro rfl
          obtain hnone | hexp | hfull := hfree
          · rw [hrk] at hnone
            cases hnone
          · omega
          · exact h.not_full hfew hages hfull
        refine ⟨r, ?_, hrk, hrt⟩
        simp only [List.mem_append, List.mem_cons, hne, false_or] at hmem ⊢
        exact hmem.imp_right .inr
      · obtain rfl := List.mem_singleton.mp hx
        exact ⟨q, by simp, hkey, htime.ge⟩

end

/-! ## The filter -/

section
variable {log : List Passed} {w : World} {c : FilterCall} {dups : List DupEntry}

theorem FilterCall.key_ne_nil (c : FilterCall) : c.key ≠ [] := by
  have hlen := c.length_key
  have hmin := c.min_len
  rintro h
  rw [h, List.length_nil] at hlen
  omega

/-- The test of the scan. -/
theorem FilterCall.packet_eq_key {p : DupEntry} (hp : p.Sized) (c : FilterCall) :
    p.packet = some c.key ↔ p.rfCmdLen ≠ 0 ∧ p.holds c.key c.len := by
  rw [DupEntry.packet_eq_some hp c.key_ne_nil, c.length_key]

/-- The scan of a call. -/
def FilterCall.scan (c : FilterCall) (w : World) : DupScan :=
  dupScan (w.clock 0) c.key c.len 0 none 0 w.dups

/-- A packet found alive is suppressed, and the table is as the scan leaves it. -/
theorem filterStep_live (h : c.scan w = .live dups) :
    c.suppressed w = true ∧ (filterStep w c).1.dups = dups := by
  rw [FilterCall.scan, FilterCall.key] at h
  simp only [FilterCall.suppressed, filterStep, dupFilter, World.getTimems, Int.toNat_natCast, h,
    and_self]

/-- One found expired is let through, and its entry renewed. -/
theorem filterStep_expired {i : Nat} (h : c.scan w = .expired i dups) :
    c.suppressed w = false ∧ (filterStep w c).1.dups = dups.modify i fun p =>
      { p with timems := (w.clock 1 + dupTime) % 2 ^ 64 } := by
  rw [FilterCall.scan, FilterCall.key] at h
  simp only [FilterCall.suppressed, filterStep, dupFilter, World.getTimems, Int.toNat_natCast, h,
    and_self]

/-- One not found is let through, and takes an unused entry or the evicted one. -/
theorem filterStep_absent {firstunused : Option Nat} {inuse : Nat}
    (h : c.scan w = .absent firstunused inuse dups) :
    c.suppressed w = false ∧ (filterStep w c).1.dups =
      dups.modify (firstunused.getD (evictIndex dups)) fun p => p.fill (w.clock 1) c.key c.len := by
  have hlen : (c.len : Int) ≠ -1 := by omega
  rw [FilterCall.scan, FilterCall.key] at h
  simp only [FilterCall.suppressed, filterStep, dupFilter, World.getTimems, Int.toNat_natCast, h,
    hlen, if_false, true_and]
  rfl

/-- Modifying one entry between others. -/
theorem modify_append (pre : List DupEntry) (p : DupEntry) (post : List DupEntry)
    (f : DupEntry → DupEntry) : (pre ++ p :: post).modify pre.length f = pre ++ f p :: post := by
  induction pre with
  | nil => rfl
  | cons q qs ih => rw [List.cons_append, List.length_cons, List.modify_succ_cons, ih, List.cons_append]

/-- The scan stops at the entry in use for the packet. -/
theorem filtered_found (h : TableKeeps log w.dups) (hclock : w.clock 1 + dupTime < 2 ^ 64)
    (hin : ∃ p ∈ w.dups, p.packet = some c.key) :
    Filtered (w.clock 0) (w.clock 1) c.key w.dups (c.suppressed w) (filterStep w c).1.dups := by
  obtain ⟨p, hp⟩ := Option.isSome_iff_exists.mp
    (List.find?_isSome (p := fun p : DupEntry => decide (p.packet = some c.key)).mpr (by simpa using hin))
  obtain ⟨hkey, pre, post, hsplit, hpre⟩ := List.find?_eq_some_iff_append.mp hp
  simp only [decide_eq_true_eq, Bool.not_eq_true', decide_eq_false_iff_not] at hkey hpre
  have hsized : ∀ q ∈ pre ++ p :: post, q.Sized := hsplit ▸ h.sized
  have hps : p.Sized := hsized p (by simp)
  obtain ⟨hused, hholds⟩ := (c.packet_eq_key hps).mp hkey
  let passed := pre.map (DupEntry.expire (w.clock 0))
  have hages : Ages (w.clock 0) w.dups (passed ++ p :: post) := by
    rw [hsplit]
    exact List.rel_append (Ages.expire _ pre) (Ages.refl _ (p :: post))
  -- no other entry is in use for the packet
  have hother : ∀ r ∈ passed ++ post, r.packet ≠ some c.key := by
    have hnodup : NoTwins (passed ++ p :: post) := h.noTwins.sublist hages.sublist
    rw [NoTwins, List.filterMap_append, List.filterMap_cons_some hkey, List.nodup_middle,
      ← List.filterMap_append] at hnodup
    intro r hr hrk
    exact (List.nodup_cons.mp hnodup).1 (List.mem_filterMap.mpr ⟨r, hr, hrk⟩)
  have hscan : c.scan w = if w.clock 0 > p.timems then .expired (0 + pre.length) (passed ++ p :: post)
      else .live (passed ++ p :: post) := by
    rw [FilterCall.scan, hsplit]
    refine dupScan_found (fun q hq hne hh => hpre q hq ?_) hused hholds
    exact (c.packet_eq_key (hsized q (by simp [hq]))).mpr ⟨hne, hh⟩
  split at hscan
  · rename_i ht
    obtain ⟨hsup, hdups⟩ := filterStep_expired hscan
    have hlen : 0 + pre.length = passed.length := by simp [passed]
    rw [hsup, hdups, hlen, modify_append]
    have hrefresh : ∀ timems, ({ p with timems := timems } : DupEntry).Sized ∧
        ({ p with timems := timems } : DupEntry).packet = some c.key := fun _ => ⟨hps, hkey⟩
    exact .passed hages (.inr (.inl ht)) hother (hrefresh _).1 (hrefresh _).2 (Nat.mod_eq_of_lt hclock)
  · rename_i ht
    obtain ⟨hsup, hdups⟩ := filterStep_live hscan
    rw [hsup, hdups]
    exact .copy hages (by simp) hkey (not_lt.mp ht)

/-- An entry the scan has passed is in use while it has not expired only. -/
theorem live_of_mem_expire {timems : Nat} {r : DupEntry}
    (hr : r ∈ dups.map (DupEntry.expire timems)) (hused : r.packet ≠ none) : timems ≤ r.timems := by
  obtain ⟨p, -, rfl⟩ := List.mem_map.mp hr
  rw [ne_eq, DupEntry.packet_eq_none] at hused
  unfold DupEntry.expire at hused ⊢
  split
  · rename_i h
    rw [if_pos h] at hused
    exact absurd rfl hused
  · rename_i h
    rw [if_neg h] at hused
    exact not_lt.mp fun ht => h ⟨hused, ht⟩

/-- An entry is evicted from a full table only. -/
theorem addIndex_spec {after : List DupEntry} (hne : after ≠ []) :
    let first := after.findIdx? fun p => decide (p.rfCmdLen = 0)
    ∃ p, after[first.getD (evictIndex after)]? = some p ∧
      (p.packet = none ∨ ∀ r ∈ after, r.packet ≠ none) := by
  intro first
  cases hfirst : first with
  | some j =>
      obtain ⟨hj, hunused, -⟩ := List.findIdx?_eq_some_iff_getElem.mp hfirst
      exact ⟨after[j], List.getElem?_eq_getElem hj,
        .inl (DupEntry.packet_eq_none.mpr (by simpa using hunused))⟩
  | none =>
      refine ⟨_, List.getElem?_eq_getElem (evictIndex_lt hne), .inr fun r hr => ?_⟩
      have hused := List.findIdx?_eq_none_iff.mp hfirst r hr
      exact mt DupEntry.packet_eq_none.mp (by simpa using hused)

/-- A packet without an entry is put in one. -/
theorem filtered_absent (h : TableKeeps log w.dups) (hclock : w.clock 1 + dupTime < 2 ^ 64)
    (hnot : ∀ p ∈ w.dups, p.packet ≠ some c.key) :
    Filtered (w.clock 0) (w.clock 1) c.key w.dups (c.suppressed w) (filterStep w c).1.dups := by
  let after := w.dups.map (DupEntry.expire (w.clock 0))
  have hages : Ages (w.clock 0) w.dups after := Ages.expire _ _
  have hother : ∀ r ∈ after, r.packet ≠ some c.key := fun r hr hrk =>
    hnot r (hages.mem hr (by simp [hrk])) hrk
  have hscan : c.scan w = .absent (after.findIdx? fun p => decide (p.rfCmdLen = 0))
      (after.countP fun p => decide (p.rfCmdLen ≠ 0)) after := by
    rw [FilterCall.scan, dupScan_absent fun p hp hne hh =>
      hnot p hp ((c.packet_eq_key (h.sized p hp)).mpr ⟨hne, hh⟩)]
    simp [after]
  have hne : after ≠ [] := by
    refine List.ne_nil_of_length_pos ?_
    rw [← hages.length_eq, h.length_eq, dupMax]
    exact Nat.succ_pos 15
  obtain ⟨p, hp, hfree⟩ := addIndex_spec hne
  obtain ⟨hlt, -⟩ := List.getElem?_eq_some_iff.mp hp
  obtain ⟨hsup, hdups⟩ := filterStep_absent hscan
  obtain ⟨pre, p', post, hsplit, hi, hmod⟩ :=
    List.exists_of_modify (fun p : DupEntry => p.fill (w.clock 1) c.key c.len) hlt
  obtain rfl : p' = p := by
    rw [← hi, hsplit, List.getElem?_append_right (le_refl _), Nat.sub_self] at hp
    exact Option.some.inj hp
  have hq : (p'.fill (w.clock 1) c.key c.len).Sized := by
    have hle : c.key.length ≤ 16 := by
      rw [c.length_key]
      exact c.len_le.trans (by decide)
    have hsized := DupEntry.fill_sized (hages.sized h.sized p' (by simp [hsplit])) (w.clock 1) hle
    rwa [c.length_key] at hsized
  have hkey : (p'.fill (w.clock 1) c.key c.len).packet = some c.key := by
    have hmin := c.min_len
    have hused : (p'.fill (w.clock 1) c.key c.len).rfCmdLen ≠ 0 := by
      simp only [DupEntry.fill]
      omega
    have hholds := p'.fill_holds (w.clock 1) c.key
    rw [c.length_key] at hholds
    exact (c.packet_eq_key hq).mpr ⟨hused, hholds⟩
  have htime : (w.clock 1 + dupTime) % 2 ^ 64 = w.clock 1 + dupTime := Nat.mod_eq_of_lt hclock
  rw [hsup, hdups, hmod]
  refine .passed (hsplit ▸ hages) ?_ ?_ hq hkey htime
  · refine hfree.imp_right fun hall => .inr fun r hr => ?_
    rw [← hsplit] at hr
    exact ⟨hall r hr, hother r hr, live_of_mem_expire hr (hall r hr)⟩
  · intro r hr
    refine hother r ?_
    rw [hsplit]
    exact ((List.sublist_cons_self p' post).append_left pre).mem hr

/-- A call on the table. -/
theorem filterStep_filtered (h : TableKeeps log w.dups) (hclock : w.clock 1 + dupTime < 2 ^ 64)
    (c : FilterCall) :
    Filtered (w.clock 0) (w.clock 1) c.key w.dups (c.suppressed w) (filterStep w c).1.dups := by
  by_cases hin : ∃ p ∈ w.dups, p.packet = some c.key
  · exact filtered_found h hclock hin
  · push Not at hin
    exact filtered_absent h hclock hin

/-! ## Runs of calls -/

/-- A call reads the clock, once or twice. -/
theorem filterStep_clock (w : World) (c : FilterCall) :
    ∃ k, (filterStep w c).1.clock = fun n => w.clock (n + k) := by
  simp only [filterStep, dupFilter, World.getTimems]
  split
  · exact ⟨1, rfl⟩
  · exact ⟨2, rfl⟩
  · split
    · exact ⟨1, rfl⟩
    · exact ⟨2, rfl⟩

/-- The clock does not go back, and shows times that `get_timems` can compute:
the product is taken in signed 64 bits, and `millitm` has 16. -/
structure ClockRuns (w : World) : Prop where
  mono : Monotone w.clock
  range : ∀ n, w.clock n < 2 ^ 63 + 2 ^ 16

/-- The expiry time does not overflow. -/
theorem ClockRuns.expire_lt (h : ClockRuns w) (n : Nat) : w.clock n + dupTime < 2 ^ 64 := by
  have := h.range n
  rw [dupTime]
  omega

/-- After a call the clock still runs, and is not earlier. -/
theorem ClockRuns.filterStep (h : ClockRuns w) (c : FilterCall) :
    ClockRuns (filterStep w c).1 ∧ w.clock 0 ≤ (Mochad.filterStep w c).1.clock 0 := by
  obtain ⟨k, hk⟩ := filterStep_clock w c
  refine ⟨⟨?_, ?_⟩, ?_⟩
  · rw [hk]
    exact fun m n hmn => h.mono (Nat.add_le_add_right hmn k)
  · rw [hk]
    exact fun n => h.range (n + k)
  · rw [hk]
    exact h.mono (Nat.zero_le _)

/-- What a run of calls keeps. -/
structure FilterKeeps (log : List Passed) (w : World) : Prop where
  table : TableKeeps log w.dups
  clock : ClockRuns w

/-- Every call keeps the table and the clock. -/
theorem FilterKeeps.filterStep (h : FilterKeeps log w) (c : FilterCall) :
    FilterKeeps (log ++ (filterStep w c).2) (Mochad.filterStep w c).1 where
  table := h.table.filtered (filterStep_filtered h.table (h.clock.expire_lt 1) c)
  clock := (h.clock.filterStep c).1

end

/-- A standard packet for the filter. -/
def filterCall : FilterCall := ⟨Ptr.ofList [0x5d, 0x20, 0x60, 0x9f, 0x00, 0xff], 6, by decide, by decide⟩

end Mochad
