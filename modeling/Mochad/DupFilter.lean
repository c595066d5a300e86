import Mochad.Lib.CString

/-!
# Mochad.DupFilter

The table behind `dup_filter` of `decode.c`: 16 entries, each the raw bytes of
an RF command and the time at which the entry expires.

Times are 64-bit milliseconds (`timems_t`).  The functions here take the time
they were read at; `Mochad.Decode.Rf` reads the clock and stores the table.
-/

namespace Mochad

open CString

/-- `DUP_TIME`, in milliseconds. -/
def dupTime : Nat := 650

/-- `DUP_MAX`. -/
def dupMax : Nat := 16

/-- `struct dup_entry`. -/
structure DupEntry where
  /-- Expire time in milliseconds. -/
  timems : Nat
  /-- RF command. -/
  rfCommand : List UInt8
  /-- 0 = unused. -/
  rfCmdLen : Int
deriving DecidableEq, Repr

/-- The zero-initialised table. -/
def dupsInit : List DupEntry := List.replicate dupMax ⟨0, List.replicate 16 0, 0⟩

/-- The entry is in use for the first `len` bytes `key` of the buffer. -/
def DupEntry.holds (p : DupEntry) (key : List UInt8) (len : Int) : Prop :=
  p.rfCmdLen = len ∧ p.rfCommand.take len.toNat = key

instance (p : DupEntry) (key : List UInt8) (len : Int) : Decidable (p.holds key len) :=
  inferInstanceAs (Decidable (_ ∧ _))

/-- Where the scan of the table ends, with the table as the scan leaves it. -/
inductive DupScan where
  /-- Found and not expired. -/
  | live (dups : List DupEntry)
  /-- Found at an index, but expired. -/
  | expired (i : Nat) (dups : List DupEntry)
  /-- Not found: the first unused index, and the number of live entries. -/
  | absent (firstunused : Option Nat) (inuse : Nat) (dups : List DupEntry)
deriving DecidableEq, Repr

/-- Put an entry back in front of the part scanned after it. -/
def DupScan.cons (p : DupEntry) : DupScan → DupScan
  | live dups => live (p :: dups)
  | expired i dups => expired i (p :: dups)
  | absent firstunused inuse dups => absent firstunused inuse (p :: dups)

/-- The `for` loop of `dup_filter` from entry `i` on.  Expired entries on the
way are marked unused. -/
def dupScan (timems : Nat) (key : List UInt8) (len : Int) (i : Nat) (firstunused : Option Nat)
    (inuse : Nat) : List DupEntry → DupScan
  | [] => .absent firstunused inuse []
  | p :: ps =>
      if p.rfCmdLen ≠ 0 then
        if p.holds key len then
          if timems > p.timems then .expired i (p :: ps) else .live (p :: ps)
        else if timems > p.timems then
          (dupScan timems key len (i + 1) (firstunused <|> some i) inuse ps).cons
            { p with rfCmdLen := 0 }
        else (dupScan timems key len (i + 1) firstunused (inuse + 1) ps).cons p
      else (dupScan timems key len (i + 1) (firstunused <|> some i) inuse ps).cons p

/-- The search for the entry closest to expiring, from entry `i` on.  `min` is
an `int`, the expire times are unsigned 64-bit. -/
def evictScan (i : Nat) (min : Int) (addIndex : Nat) : List DupEntry → Nat
  | [] => addIndex
  | p :: ps =>
      if (p.timems : Int) < min % 2 ^ 64 then evictScan (i + 1) (cInt p.timems) i ps
      else evictScan (i + 1) min addIndex ps

/-- The entry to overwrite when none is unused. -/
def evictIndex : List DupEntry → Nat
  | [] => 0
  | p :: ps => evictScan 1 (cInt p.timems) 0 ps

/-- The scan ends at an index of the table. -/
theorem evictScan_lt {i addIndex : Nat} (h : addIndex < i) (min : Int) (ps : List DupEntry) :
    evictScan i min addIndex ps < i + ps.length := by
  induction ps generalizing i min addIndex with
  | nil => exact h
  | cons p ps ih =>
      rw [evictScan, List.length_cons, Nat.add_comm ps.length, ← Nat.add_assoc]
      split
      · exact ih (by omega) _
      · exact ih (by omega) _

/-- The entry is one of the table. -/
theorem evictIndex_lt {dups : List DupEntry} (h : dups ≠ []) : evictIndex dups < dups.length := by
  cases dups with
  | nil => exact absurd rfl h
  | cons p ps =>
      rw [evictIndex, List.length_cons, Nat.add_comm]
      exact evictScan_lt Nat.one_pos _ _

/-- Fill an entry: fresh expire time, `memcpy` of the command. -/
def DupEntry.fill (p : DupEntry) (timems : Nat) (key : List UInt8) (len : Int) : DupEntry :=
  { timems := (timems + dupTime) % 2 ^ 64
    rfCommand := key ++ p.rfCommand.drop key.length
    rfCmdLen := len }

/-! ## What the scan does -/

/-- An entry the scan passes at time `timems`. -/
def DupEntry.expire (timems : Nat) (p : DupEntry) : DupEntry :=
  if p.rfCmdLen ≠ 0 ∧ timems > p.timems then { p with rfCmdLen := 0 } else p

section
variable {timems : Nat} {key : List UInt8} {len : Int} {i inuse : Nat} {firstunused : Option Nat}

/-- An entry that is not the one looked for is passed. -/
theorem dupScan_pass {p : DupEntry} (ps : List DupEntry)
    (h : p.rfCmdLen ≠ 0 → ¬ p.holds key len) :
    dupScan timems key len i firstunused inuse (p :: ps) =
      (if (p.expire timems).rfCmdLen = 0 then
        dupScan timems key len (i + 1) (firstunused <|> some i) inuse ps
      else dupScan timems key len (i + 1) firstunused (inuse + 1) ps).cons (p.expire timems) := by
  rw [dupScan]
  by_cases hused : p.rfCmdLen = 0
  · rw [if_neg (not_not_intro hused), DupEntry.expire, if_neg (fun ⟨hne, _⟩ => hne hused), if_pos hused]
  · rw [if_pos hused, if_neg (h hused), DupEntry.expire]
    by_cases ht : timems > p.timems
    · rw [if_pos ht, if_pos ⟨hused, ht⟩, if_pos rfl]
    · rw [if_neg ht, if_neg (fun ⟨_, ht'⟩ => ht ht'), if_neg hused]

/-- A table without the packet is scanned to its end. -/
theorem dupScan_absent {dups : List DupEntry} (h : ∀ p ∈ dups, p.rfCmdLen ≠ 0 → ¬ p.holds key len) :
    dupScan timems key len i firstunused inuse dups =
      .absent (firstunused <|>
          ((dups.map (DupEntry.expire timems)).findIdx? (·.rfCmdLen = 0)).map (i + ·))
        (inuse + (dups.map (DupEntry.expire timems)).countP (·.rfCmdLen ≠ 0))
        (dups.map (DupEntry.expire timems)) := by
  induction dups generalizing i inuse firstunused with
  | nil => cases firstunused <;> rfl
  | cons p ps ih =>
      obtain ⟨hp, hps⟩ := List.forall_mem_cons.mp h
      rw [dupScan_pass ps hp, List.map_cons, List.findIdx?_cons, List.countP_cons]
      by_cases hunused : (p.expire timems).rfCmdLen = 0
      · rw [if_pos hunused, ih hps]
        cases firstunused <;> simp [DupScan.cons, hunused]
      · rw [if_neg hunused, ih hps]
        have hnext : ∀ a k, a + 1 + k = a + (k + 1) := fun a k => by omega
        cases firstunused <;> simp [DupScan.cons, hunused, Function.comp_def, hnext]

/-- The scan stops at the first entry in use for the packet. -/
theorem dupScan_found {pre post : List DupEntry} {p : DupEntry}
    (h : ∀ q ∈ pre, q.rfCmdLen ≠ 0 → ¬ q.holds key len) (hused : p.rfCmdLen ≠ 0)
    (hholds : p.holds key len) :
    dupScan timems key len i firstunused inuse (pre ++ p :: post) =
      if timems > p.timems then
        .expired (i + pre.length) (pre.map (DupEntry.expire timems) ++ p :: post)
      else .live (pre.map (DupEntry.expire timems) ++ p :: post) := by
  induction pre generalizing i inuse firstunused with
  | nil => rw [List.nil_append, dupScan, if_pos hused, if_pos hholds]; rfl
  | cons q qs ih =>
      obtain ⟨hq, hqs⟩ := List.forall_mem_cons.mp h
      rw [List.cons_append, dupScan_pass _ hq, ih hqs, ih hqs, ite_self]
      split
      · rw [DupScan.cons, List.length_cons, Nat.add_assoc, Nat.add_comm 1]
        rfl
      · rfl
end

/-! ## What the scan leaves -/

/-- The entry holds the packet and has not expired. -/
def DupEntry.Live (p : DupEntry) (timems : Nat) (key : List UInt8) (len : Int) : Prop :=
  p.rfCmdLen ≠ 0 ∧ p.holds key len ∧ timems ≤ p.timems

/-- The table as the scan leaves it. -/
def DupScan.dups : DupScan → List DupEntry
  | live dups => dups
  | expired _ dups => dups
  | absent _ _ dups => dups

/-- Some entry is the first in use for the packet, or none is. -/
theorem dups_split (key : List UInt8) (len : Int) (dups : List DupEntry) :
    (∀ p ∈ dups, p.rfCmdLen ≠ 0 → ¬ p.holds key len) ∨
      ∃ pre p post, dups = pre ++ p :: post ∧ (∀ q ∈ pre, q.rfCmdLen ≠ 0 → ¬ q.holds key len) ∧
        p.rfCmdLen ≠ 0 ∧ p.holds key len := by
  cases hfind : dups.find? fun p => decide (p.rfCmdLen ≠ 0 ∧ p.holds key len) with
  | none =>
      left
      intro p hp hused hholds
      exact absurd (decide_eq_true ⟨hused, hholds⟩) (List.find?_eq_none.mp hfind p hp)
  | some p =>
      right
      obtain ⟨hp, pre, post, rfl, hpre⟩ := List.find?_eq_some_iff_append.mp hfind
      obtain ⟨hused, hholds⟩ := of_decide_eq_true hp
      refine ⟨pre, p, post, rfl, fun q hq hq0 hqk => ?_, hused, hholds⟩
      simpa [hq0, hqk] using hpre q hq

/-- An entry expires or stays. -/
theorem DupEntry.expire_eq (timems : Nat) (p : DupEntry) :
    (p.expire timems).rfCmdLen = 0 ∨ p.expire timems = p := by
  rw [DupEntry.expire]
  split
  · exact .inl rfl
  · exact .inr rfl

section
variable {timems : Nat} {key : List UInt8} {len : Int} {i inuse : Nat} {firstunused : Option Nat}
  {dups : List DupEntry}

/-- The scan stops at live entries only. -/
theorem dupScan_live {dups' : List DupEntry}
    (h : dupScan timems key len i firstunused inuse dups = .live dups') :
    ∃ p ∈ dups, p.Live timems key len := by
  obtain habsent | ⟨pre, p, post, rfl, hpre, hused, hholds⟩ := dups_split key len dups
  · rw [dupScan_absent habsent] at h
    cases h
  · rw [dupScan_found hpre hused hholds] at h
    split at h
    · cases h
    · exact ⟨p, by simp, hused, hholds, by omega⟩

/-- The entry found expired holds the packet. -/
theorem dupScan_expired {j : Nat} {dups' : List DupEntry}
    (h : dupScan timems key len i firstunused inuse dups = .expired j dups') :
    ∃ k p, j = i + k ∧ dups'[k]? = some p ∧ p.holds key len := by
  obtain habsent | ⟨pre, p, post, rfl, hpre, hused, hholds⟩ := dups_split key len dups
  · rw [dupScan_absent habsent] at h
    cases h
  · rw [dupScan_found hpre hused hholds] at h
    split at h
    · cases h
      exact ⟨pre.length, p, rfl, by simp, hholds⟩
    · cases h

/-- The scan only takes entries out of use. -/
theorem mem_dupScan_dups {q : DupEntry}
    (h : q ∈ (dupScan timems key len i firstunused inuse dups).dups) : q.rfCmdLen = 0 ∨ q ∈ dups := by
  have hexpire : ∀ {ps : List DupEntry}, q ∈ ps.map (DupEntry.expire timems) → q.rfCmdLen = 0 ∨ q ∈ ps := by
    intro ps hq
    obtain ⟨p, hp, rfl⟩ := List.mem_map.mp hq
    obtain hunused | hsame := p.expire_eq timems
    · exact .inl hunused
    · exact .inr (hsame.symm ▸ hp)
  obtain habsent | ⟨pre, p, post, rfl, hpre, hused, hholds⟩ := dups_split key len dups
  · rw [dupScan_absent habsent] at h
    exact hexpire h
  · rw [dupScan_found hpre hused hholds] at h
    have hq : q ∈ pre.map (DupEntry.expire timems) ++ p :: post := by
      split at h <;> exact h
    obtain hq | hq := List.mem_append.mp hq
    · exact (hexpire hq).imp_right (List.mem_append_left _)
    · exact .inr (List.mem_append_right pre hq)

end

/-- A filled entry holds the packet. -/
theorem DupEntry.fill_holds (p : DupEntry) (timems : Nat) (key : List UInt8) :
    (p.fill timems key key.length).holds key key.length := by
  simp [DupEntry.holds, DupEntry.fill]

end Mochad
