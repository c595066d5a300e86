import Mathlib.Data.List.Basic
import Mathlib.Data.List.Dedup

/-!
# Mochad.Lib.Keyed

Tables of rows that are found by a key, kept as a list of bounded size.
`record` changes the first row with a key in place, and appends a new row when
there is none and room for it.  A table filled that way has one row a key, its
keys are the first ones recorded (`perm_record`), and a lookup returns what was
recorded last, whatever the order of the rows.
-/

namespace Keyed

variable {ρ κ : Type*} [DecidableEq κ] (key : ρ → κ)

/-- The first row with a key. -/
def lookup (k : κ) (rows : List ρ) : Option ρ := rows.find? fun r => key r = k

/-- Change the first row with a key, if there is one. -/
def update (k : κ) (f : ρ → ρ) : List ρ → Option (List ρ)
  | [] => none
  | r :: rows => if k = key r then some (f r :: rows) else (update k f rows).map (r :: ·)

/-- Change the first row with a key, or append a new one while there are fewer
than `size` rows. -/
def record (size : Nat) (k : κ) (f : ρ → ρ) (fresh : ρ) (rows : List ρ) : List ρ :=
  match update key k f rows with
  | some rows => rows
  | none => if size ≤ rows.length then rows else rows ++ [fresh]

/-! ## Lookup -/

variable {key} {k k' : κ} {f : ρ → ρ} {fresh : ρ} {size : Nat} {rows rows' : List ρ}

@[simp] theorem lookup_nil : lookup key k [] = none := rfl

/-- The first row with the key is found. -/
theorem lookup_cons (r : ρ) (rows : List ρ) :
    lookup key k (r :: rows) = if key r = k then some r else lookup key k rows := by
  by_cases h : key r = k <;> simp [lookup, h]

/-- No row is found exactly if the key is missing. -/
theorem lookup_eq_none : lookup key k rows = none ↔ k ∉ rows.map key := by
  simp [lookup]

/-- In a table with one row a key, a lookup finds the row of the key. -/
theorem lookup_eq_some {r : ρ} (h : (rows.map key).Nodup) :
    lookup key k rows = some r ↔ r ∈ rows ∧ key r = k := by
  induction rows with
  | nil => simp
  | cons q rows ih =>
      obtain ⟨hq, hrows⟩ := List.nodup_cons.mp h
      rw [lookup_cons]
      by_cases hk : key q = k
      · have hne : ∀ r ∈ rows, key r ≠ k := fun r hr he =>
          hq (hk.trans he.symm ▸ List.mem_map_of_mem hr)
        grind
      · rw [if_neg hk, ih hrows, List.mem_cons]
        grind

/-- So the order of the rows does not matter. -/
theorem lookup_perm (h : (rows.map key).Nodup) (hperm : rows'.Perm rows) :
    lookup key k rows' = lookup key k rows := by
  have h' : (rows'.map key).Nodup := (hperm.map key).nodup_iff.mpr h
  ext r
  rw [lookup_eq_some h', lookup_eq_some h, hperm.mem_iff]

/-- The row found is in the table, and has the key. -/
theorem mem_of_lookup {r : ρ} (h : lookup key k rows = some r) : r ∈ rows ∧ key r = k :=
  ⟨List.mem_of_find?_eq_some h, by simpa using List.find?_some h⟩

/-! ## Update -/

/-- No row is updated exactly if the key is missing. -/
theorem update_eq_none : update key k f rows = none ↔ k ∉ rows.map key := by
  induction rows with
  | nil => simp [update]
  | cons r rows ih =>
      by_cases h : k = key r
      · simp [update, h]
      · simp only [update, h, if_false, Option.map_eq_none_iff, ih, List.map_cons, List.mem_cons,
          false_or]

/-- An update keeps the keys. -/
theorem map_key_update (hf : ∀ r, key (f r) = key r) (h : update key k f rows = some rows') :
    rows'.map key = rows.map key := by
  induction rows generalizing rows' with
  | nil => cases h
  | cons r rows ih =>
      unfold update at h
      split at h
      · cases h
        simp [hf]
      · obtain ⟨rows₁, h₁, rfl⟩ := Option.map_eq_some_iff.mp h
        simp [ih h₁]

/-- An update changes what is found for its key and nothing else. -/
theorem lookup_update (hf : ∀ r, key (f r) = key r) (h : update key k f rows = some rows') :
    lookup key k' rows' = if k' = k then (lookup key k rows).map f else lookup key k' rows := by
  induction rows generalizing rows' with
  | nil => cases h
  | cons r rows ih =>
      unfold update at h
      split at h
      · rename_i hk
        cases h
        simp only [lookup_cons, hf, hk]
        by_cases h' : key r = k'
        · simp [h']
        · simp [h', Ne.symm h']
      · rename_i hk
        obtain ⟨rows₁, h₁, rfl⟩ := Option.map_eq_some_iff.mp h
        simp only [lookup_cons, Ne.symm hk, if_false, ih h₁]
        by_cases h' : key r = k'
        · subst h'
          simp [Ne.symm hk]
        · simp [h']

/-! ## Record -/

/-- The rows of an updated table: those of other keys, and the changed one. -/
theorem mem_update {r : ρ} (hnodup : (rows.map key).Nodup) (h : update key k f rows = some rows')
    (hr : r ∈ rows') : (r ∈ rows ∧ key r ≠ k) ∨ ∃ q ∈ rows, key q = k ∧ r = f q := by
  induction rows generalizing rows' with
  | nil => cases h
  | cons q rows ih =>
      obtain ⟨hq, hrows⟩ := List.nodup_cons.mp hnodup
      unfold update at h
      split at h
      · rename_i hk
        cases h
        obtain rfl | hr := List.mem_cons.mp hr
        · exact .inr ⟨q, List.mem_cons_self, hk.symm, rfl⟩
        · refine .inl ⟨List.mem_cons_of_mem q hr, fun he => hq ?_⟩
          rw [← hk, ← he]
          exact List.mem_map_of_mem hr
      · rename_i hk
        obtain ⟨rows₁, h₁, rfl⟩ := Option.map_eq_some_iff.mp h
        obtain rfl | hr := List.mem_cons.mp hr
        · exact .inl ⟨List.mem_cons_self, Ne.symm hk⟩
        · obtain ⟨hr, hne⟩ | ⟨q', hq', hkey⟩ := ih hrows h₁ hr
          · exact .inl ⟨List.mem_cons_of_mem q hr, hne⟩
          · exact .inr ⟨q', List.mem_cons_of_mem q hq', hkey⟩

/-- Every row of the new table is an old row of another key, a changed one or
the new one. -/
theorem mem_record {r : ρ} (hnodup : (rows.map key).Nodup)
    (h : r ∈ record key size k f fresh rows) :
    (r ∈ rows ∧ key r ≠ k) ∨ (∃ q ∈ rows, key q = k ∧ r = f q) ∨ r = fresh := by
  unfold record at h
  split at h
  · exact (mem_update hnodup ‹_› h).imp_right .inl
  · rename_i hupd
    have hne : ∀ r ∈ rows, key r ≠ k := fun r hr he =>
      update_eq_none.mp hupd (he ▸ List.mem_map_of_mem hr)
    split at h
    · exact .inl ⟨h, hne r h⟩
    · obtain h | h := List.mem_append.mp h
      · exact .inl ⟨h, hne r h⟩
      · exact .inr (.inr (List.mem_singleton.mp h))

/-- A table whose rows all have a property keeps it exactly when the row that is
changed or appended has it. -/
theorem forall_mem_record {P : ρ → Prop} (hf : ∀ r, key (f r) = key r) (hnodup : (rows.map key).Nodup)
    (hrows : ∀ r ∈ rows, P r) :
    (∀ r ∈ record key size k f fresh rows, P r) ↔
      match lookup key k rows with
      | some r => P (f r)
      | none => rows.length < size → P fresh := by
  unfold record
  cases hupd : update key k f rows with
  | some rows' =>
      have hsome : lookup key k rows ≠ none := fun hl => by
        rw [update_eq_none.mpr (lookup_eq_none.mp hl)] at hupd
        cases hupd
      obtain ⟨q, hq⟩ := Option.ne_none_iff_exists'.mp hsome
      simp only [hq]
      constructor
      · intro h
        have hfound : lookup key k rows' = some (f q) := by
          rw [lookup_update hf hupd, if_pos rfl, hq, Option.map_some]
        exact h _ (mem_of_lookup hfound).1
      · intro h r hr
        obtain ⟨hr, -⟩ | ⟨q', hq', hkey, rfl⟩ := mem_update hnodup hupd hr
        · exact hrows r hr
        · have hfound := (lookup_eq_some hnodup).mpr ⟨hq', hkey⟩
          rwa [Option.some.inj (hfound.symm.trans hq)]
  | none =>
      have hnone : lookup key k rows = none := lookup_eq_none.mpr (update_eq_none.mp hupd)
      simp only [hnone]
      split
      · rename_i hfull
        exact iff_of_true hrows fun hlt => absurd hfull (Nat.not_le.mpr hlt)
      · rename_i hroom
        rw [List.forall_mem_append, List.forall_mem_singleton]
        exact ⟨fun h _ => h.2, fun h => ⟨hrows, h (Nat.not_le.mp hroom)⟩⟩

variable (key) in
/-- A table keeps one row a key. -/
theorem nodup_record (hf : ∀ r, key (f r) = key r) (hfresh : key fresh = k)
    (h : (rows.map key).Nodup) : ((record key size k f fresh rows).map key).Nodup := by
  unfold record
  split
  · rename_i hupd
    rw [map_key_update hf hupd]
    exact h
  · rename_i hupd
    split
    · exact h
    · rw [List.map_append, List.nodup_append]
      refine ⟨h, List.nodup_singleton _, ?_⟩
      rintro a ha b hb rfl
      rw [List.map_singleton, List.mem_singleton, hfresh] at hb
      exact update_eq_none.mp hupd (hb ▸ ha)

variable (key) in
/-- What is found after a row is recorded, when there was room for it. -/
theorem lookup_record (hf : ∀ r, key (f r) = key r) (hfresh : key fresh = k)
    (hroom : k ∈ rows.map key ∨ rows.length < size) :
    lookup key k' (record key size k f fresh rows) =
      if k' = k then some (((lookup key k rows).map f).getD fresh) else lookup key k' rows := by
  unfold record
  split
  · rename_i hupd
    have hmem : k ∈ rows.map key := by
      by_contra hk
      rw [update_eq_none.mpr hk] at hupd
      cases hupd
    have hsome : lookup key k rows ≠ none := mt lookup_eq_none.mp (not_not.mpr hmem)
    obtain ⟨r, hr⟩ := Option.ne_none_iff_exists'.mp hsome
    rw [lookup_update hf hupd]
    simp [hr]
  · rename_i hupd
    have hk := update_eq_none.mp hupd
    have hlt : ¬ size ≤ rows.length := Nat.not_le.mpr (hroom.resolve_left hk)
    have hnone : lookup key k rows = none := lookup_eq_none.mpr hk
    rw [if_neg hlt, lookup, List.find?_append]
    by_cases h' : k' = k
    · subst h'
      rw [lookup] at hnone
      simp [lookup, hnone, hfresh]
    · have hne : ¬ key fresh = k' := fun h => h' (h.symm.trans hfresh)
      simp [h', hne, lookup]

/-! ## The keys recorded first -/

/-- The distinct keys of a list, in the order of their first occurrence. -/
def distinct (ks : List κ) : List κ := ks.reverse.dedup.reverse

@[simp] theorem distinct_nil : distinct ([] : List κ) = [] := rfl

/-- A key counts when it is new. -/
theorem distinct_concat (ks : List κ) (k : κ) :
    distinct (ks ++ [k]) = if k ∈ ks then distinct ks else distinct ks ++ [k] := by
  rw [distinct, List.reverse_append, List.reverse_singleton, List.singleton_append, List.dedup_cons]
  by_cases hk : k ∈ ks <;> simp [distinct, hk]

@[simp] theorem mem_distinct {ks : List κ} : k ∈ distinct ks ↔ k ∈ ks := by simp [distinct]

theorem nodup_distinct (ks : List κ) : (distinct ks).Nodup :=
  List.nodup_reverse.mpr (List.nodup_dedup _)

variable (key) in
/-- A table of bounded size holds the keys recorded first. -/
theorem perm_record (hf : ∀ r, key (f r) = key r) (hfresh : key fresh = k) {ks : List κ}
    (h : (rows.map key).Perm ((distinct ks).take size)) :
    ((record key size k f fresh rows).map key).Perm ((distinct (ks ++ [k])).take size) := by
  have hlen : rows.length = min size (distinct ks).length := by
    simpa using h.length_eq
  rw [distinct_concat]
  by_cases hmem : k ∈ rows.map key
  · -- the key is there: an update
    have hks : k ∈ ks := mem_distinct.mp (List.mem_of_mem_take (h.mem_iff.mp hmem))
    obtain ⟨rows', hrows'⟩ := Option.ne_none_iff_exists'.mp (mt update_eq_none.mp (not_not.mpr hmem))
    rw [if_pos hks, record, hrows', map_key_update hf hrows']
    exact h
  · have hupd : update key k f rows = none := update_eq_none.mpr hmem
    by_cases hfull : size ≤ rows.length
    · -- the table is full: nothing after the first `size` keys counts
      have hle : size ≤ (distinct ks).length := by omega
      simp only [record, hupd, hfull, if_true]
      split
      · exact h
      · rw [List.take_append_of_le_length hle]
        exact h
    · have hall : (distinct ks).take size = distinct ks := List.take_of_length_le (by omega)
      rw [hall] at h
      have hks : k ∉ ks := fun hk => hmem (h.mem_iff.mpr (mem_distinct.mpr hk))
      have hroom : (distinct ks ++ [k]).length ≤ size := by
        rw [List.length_append, List.length_singleton]
        omega
      rw [if_neg hks, List.take_of_length_le hroom]
      simp only [record, hupd, hfull, if_false, List.map_append, List.map_singleton, hfresh]
      exact h.append_right [k]

end Keyed
