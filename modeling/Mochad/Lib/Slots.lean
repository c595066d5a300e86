import Mathlib.Data.List.Basic

/-!
# Mochad.Lib.Slots

Arrays of a fixed number of entries, one value of which marks a free entry.
The lemmas say how the number of entries with a value and the number of entries
in use change when an entry is taken or freed.
-/

namespace Slots

variable {α : Type*} [DecidableEq α] (free : α)

/-- The number of entries in use. -/
def inUse (xs : List α) : Nat := xs.countP (· ≠ free)

/-- Put a value into the first free entry, if there is one. -/
def put (a : α) (xs : List α) : Option (List α) := (xs.idxOf? free).map fun i => xs.set i a

variable {free} {a b x : α} {xs ys : List α} {i : Nat}

/-! ## Reading -/

omit [DecidableEq α] in
/-- Reading all entries in order. -/
theorem map_getD_range (d : α) {n : Nat} (h : xs.length = n) :
    (List.range n).map (fun i => xs.getD i d) = xs := by
  refine List.ext_getElem (by simp [h]) fun i _ hi => ?_
  rw [List.getElem_map, List.getElem_range, List.getD_eq_getElem?_getD, List.getElem?_eq_getElem hi,
    Option.getD_some]

omit [DecidableEq α] in
/-- Several arrays read position by position give as many entries in use as
they have together. -/
theorem length_flatMap_filter (p : α → Bool) {ι : Type*} (is : List ι) (a b c : ι → α) :
    (is.flatMap fun i => [a i, b i, c i].filter p).length =
      (is.map a).countP p + (is.map b).countP p + (is.map c).countP p := by
  induction is with
  | nil => rfl
  | cons i is ih =>
      have hi : ([a i, b i, c i].filter p).length =
          (if p (a i) then 1 else 0) + (if p (b i) then 1 else 0) + (if p (c i) then 1 else 0) := by
        rw [← List.countP_eq_length_filter]
        simp only [List.countP_cons, List.countP_nil]
        omega
      rw [List.flatMap_cons, List.length_append, ih, hi]
      simp only [List.map_cons, List.countP_cons]
      omega

/-! ## Storing -/

omit [DecidableEq α] in
/-- Storing takes one value out and puts one in. -/
theorem countP_set_add (p : α → Bool) (h : xs[i]? = some x) (a : α) :
    (xs.set i a).countP p + (if p x then 1 else 0) = xs.countP p + (if p a then 1 else 0) := by
  induction xs generalizing i with
  | nil => simp at h
  | cons y xs ih =>
      cases i with
      | zero =>
          obtain rfl : y = x := by simpa using h
          simp only [List.set_cons_zero, List.countP_cons]
          omega
      | succ i =>
          have := ih (i := i) (by simpa using h)
          simp only [List.set_cons_succ, List.countP_cons]
          omega

/-- Setting a slot takes away its value and adds the new one. -/
theorem count_set_add (h : xs[i]? = some x) (a b : α) :
    (xs.set i a).count b + (if x = b then 1 else 0) = xs.count b + (if a = b then 1 else 0) := by
  simpa [List.count_eq_countP] using countP_set_add (· == b) h a

/-! ## Taking a free entry -/

/-- There is no room exactly if no slot is free. -/
theorem put_eq_none : put free a xs = none ↔ free ∉ xs := by
  rw [put, Option.map_eq_none_iff, List.idxOf?_eq_none_iff]

/-- A value is put into a free slot. -/
theorem put_eq_some (h : put free a xs = some ys) : ∃ i : Nat, xs[i]? = some free ∧ ys = xs.set i a := by
  obtain ⟨i, hi, rfl⟩ := Option.map_eq_some_iff.mp h
  refine ⟨i, ?_, rfl⟩
  obtain ⟨hlt, hget, -⟩ := List.findIdx?_eq_some_iff_getElem.mp hi
  rw [List.getElem?_eq_getElem hlt]
  simpa using hget

/-- The number of slots stays. -/
theorem length_put (h : put free a xs = some ys) : ys.length = xs.length := by
  obtain ⟨i, -, rfl⟩ := put_eq_some h
  exact List.length_set

/-- Putting the mark of a free entry changes nothing. -/
theorem put_free (h : put free free xs = some ys) : ys = xs := by
  obtain ⟨i, hi, rfl⟩ := put_eq_some h
  refine List.ext_getElem? fun j => ?_
  rw [List.getElem?_set]
  split
  · rename_i hij
    subst hij
    obtain ⟨hlt, hget⟩ := List.getElem?_eq_some_iff.mp hi
    simp [hlt, hget]
  · rfl

/-- One more of the value, and the same of all others. -/
theorem count_put (h : put free a xs = some ys) (hb : b ≠ free) :
    ys.count b = xs.count b + (if a = b then 1 else 0) := by
  obtain ⟨i, hi, rfl⟩ := put_eq_some h
  have := count_set_add hi a b
  rwa [if_neg (Ne.symm hb)] at this

/-- One more slot is in use. -/
theorem inUse_put (h : put free a xs = some ys) (ha : a ≠ free) : inUse free ys = inUse free xs + 1 := by
  obtain ⟨i, hi, rfl⟩ := put_eq_some h
  have := countP_set_add (· ≠ free) hi a
  simpa [inUse, ha] using this

/-- A value in the slots was there, or has been put. -/
theorem mem_put (h : put free a xs = some ys) (hb : b ∈ ys) : b ∈ xs ∨ b = a := by
  obtain ⟨i, -, rfl⟩ := put_eq_some h
  exact List.mem_or_eq_of_mem_set hb

/-! ## Freeing an entry -/

/-- One less of the value in the slot. -/
theorem count_free (h : xs[i]? = some x) (hb : b ≠ free) :
    (xs.set i free).count b + (if x = b then 1 else 0) = xs.count b := by
  have := count_set_add h free b
  rwa [if_neg (Ne.symm hb), Nat.add_zero] at this

/-- One slot less is in use. -/
theorem inUse_free (h : xs[i]? = some x) (hx : x ≠ free) :
    inUse free (xs.set i free) + 1 = inUse free xs := by
  have := countP_set_add (· ≠ free) h free
  simpa [inUse, hx] using this

end Slots
