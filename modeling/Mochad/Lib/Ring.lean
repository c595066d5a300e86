import Mathlib.Logic.Function.Basic
import Mathlib.Data.List.Basic
import Mathlib.Data.Nat.ModEq

/-!
# Mochad.Lib.Ring

Ring buffers: a queue kept in `N` cells between two wrapping indices.

The head index points at the cell *before* the oldest item and the tail index
at the cell of the newest one, so one cell is always unused and a ring of `N`
cells holds at most `N - 1` items.  `Holds N r xs` says that the ring stores
exactly the queue `xs`; the operations are proved against it once, for any
element type and any number of cells.
-/

namespace Ring

variable {α : Type*}

/-- The three parts of a ring buffer. -/
structure Cells (α : Type*) where
  cell : Nat → α
  head : Nat
  tail : Nat

/-- The index after `i`. -/
def next (N i : Nat) : Nat := (i + 1) % N

/-- The cells after the head, in queue order. -/
def items (N : Nat) (r : Cells α) : List α :=
  (List.range ((r.tail + N - r.head) % N)).map fun k => r.cell ((r.head + 1 + k) % N)

/-- The ring stores exactly the queue `xs`. -/
structure Holds (N : Nat) (r : Cells α) (xs : List α) : Prop where
  head_lt : r.head < N
  length_lt : xs.length < N
  tail_eq : r.tail = (r.head + xs.length) % N
  cell_eq : ∀ k x, xs[k]? = some x → r.cell ((r.head + 1 + k) % N) = x

/-- Store `x` in the cell after the tail and move the tail there. -/
def push (N : Nat) (r : Cells α) (x : α) : Cells α :=
  { r with cell := Function.update r.cell (next N r.tail) x, tail := next N r.tail }

/-- Move the head to the next cell. -/
def pop (N : Nat) (r : Cells α) : Cells α := { r with head := next N r.head }

variable {N : Nat} {r : Cells α} {xs : List α}

/-- Offsets below `N` reach different cells. -/
theorem add_mod_inj {i a b : Nat} (ha : a < N) (hb : b < N)
    (h : (i + a) % N = (i + b) % N) : a = b :=
  Nat.ModEq.eq_of_lt_of_lt (Nat.ModEq.add_left_cancel' i h) ha hb

/-- An empty ring stores the empty queue. -/
theorem holds_nil (h : r.head < N) (heq : r.tail = r.head) : Holds N r [] where
  head_lt := h
  length_lt := by simpa using Nat.zero_lt_of_lt h
  tail_eq := by simpa [Nat.mod_eq_of_lt h] using heq
  cell_eq := by simp

/-- The two indices meet exactly when nothing is stored. -/
theorem Holds.head_eq_tail_iff (h : Holds N r xs) : r.head = r.tail ↔ xs = [] := by
  have hlt := h.length_lt
  rw [h.tail_eq]
  constructor
  · intro he
    have : (r.head + 0) % N = (r.head + xs.length) % N := by
      rw [Nat.add_zero, Nat.mod_eq_of_lt h.head_lt]; exact he
    exact List.length_eq_zero_iff.mp (add_mod_inj (by omega) hlt this).symm
  · rintro rfl
    simp [Nat.mod_eq_of_lt h.head_lt]

/-- The cell after the tail is `xs.length + 1` cells after the head. -/
theorem Holds.next_tail (h : Holds N r xs) :
    next N r.tail = (r.head + 1 + xs.length) % N := by
  rw [next, h.tail_eq, Nat.mod_add_mod]
  congr 1
  omega

/-- The next tail meets the head exactly when only one cell is left. -/
theorem Holds.next_tail_eq_head_iff (h : Holds N r xs) :
    next N r.tail = r.head ↔ xs.length + 1 = N := by
  have hlt := h.length_lt
  have hhd := h.head_lt
  rw [h.next_tail, Nat.add_assoc, Nat.add_comm 1]
  constructor
  · intro he
    by_contra hne
    have : (r.head + (xs.length + 1)) % N = (r.head + 0) % N := by
      rw [he, Nat.add_zero, Nat.mod_eq_of_lt hhd]
    have := add_mod_inj (by omega) (by omega) this
    omega
  · intro he
    rw [he, Nat.add_mod_right, Nat.mod_eq_of_lt hhd]

/-- Pushing into a ring with a free cell appends to the queue. -/
theorem Holds.push (h : Holds N r xs) (x : α) (hfree : xs.length + 1 < N) :
    Holds N (push N r x) (xs ++ [x]) where
  head_lt := h.head_lt
  length_lt := by simpa using hfree
  tail_eq := by
    simp only [Ring.push, List.length_append, List.length_singleton]
    rw [h.next_tail]
    congr 1
    omega
  cell_eq := by
    intro k y hk
    simp only [Ring.push]
    rw [h.next_tail]
    have hlt := (List.getElem?_eq_some_iff.mp hk).1
    rw [List.length_append, List.length_singleton] at hlt
    by_cases hkx : k = xs.length
    · subst hkx
      have hy : x = y := by simpa using hk
      simp [hy]
    · have hne : (r.head + 1 + k) % N ≠ (r.head + 1 + xs.length) % N := fun he =>
        hkx (add_mod_inj (by omega) (by omega) he)
      rw [Function.update_of_ne hne]
      rw [List.getElem?_append_left (by omega)] at hk
      exact h.cell_eq k y hk

/-- Popping a non-empty ring yields the oldest item. -/
theorem Holds.pop {x : α} (h : Holds N r (x :: xs)) :
    r.cell (next N r.head) = x ∧ Holds N (pop N r) xs := by
  have hlt := h.length_lt
  rw [List.length_cons] at hlt
  refine ⟨by simpa [next] using h.cell_eq 0 x rfl, ?_, by omega, ?_, ?_⟩
  · exact Nat.mod_lt _ (by omega)
  · simp only [Ring.pop, next]
    rw [h.tail_eq, Nat.mod_add_mod, List.length_cons]
    congr 1
    omega
  · intro k y hk
    have := h.cell_eq (k + 1) y (by simpa using hk)
    simp only [Ring.pop, next]
    rw [show (r.head + 1) % N + 1 + k = (r.head + 1) % N + (1 + k) by omega, Nat.mod_add_mod]
    rw [show r.head + 1 + (1 + k) = r.head + 1 + (k + 1) by omega]
    exact this

/-- The stored queue can be read off the cells. -/
theorem Holds.items_eq (h : Holds N r xs) : items N r = xs := by
  have hlt := h.length_lt
  have hhd := h.head_lt
  have hlen : (r.tail + N - r.head) % N = xs.length := by
    rw [h.tail_eq]
    by_cases hw : r.head + xs.length < N
    · rw [Nat.mod_eq_of_lt hw, show r.head + xs.length + N - r.head = xs.length + N by omega,
        Nat.add_mod_right, Nat.mod_eq_of_lt hlt]
    · have hm : (r.head + xs.length) % N = r.head + xs.length - N := by
        rw [Nat.mod_eq_sub_mod (by omega), Nat.mod_eq_of_lt (by omega)]
      rw [hm, show r.head + xs.length - N + N - r.head = xs.length by omega, Nat.mod_eq_of_lt hlt]
  apply List.ext_getElem?
  intro k
  rw [items, hlen, List.getElem?_map]
  by_cases hk : k < xs.length
  · rw [List.getElem?_range hk, Option.map_some, List.getElem?_eq_getElem hk]
    rw [h.cell_eq k xs[k] (List.getElem?_eq_getElem hk)]
  · rw [List.getElem?_eq_none (by simpa using hk), List.getElem?_eq_none (by simpa using hk)]
    rfl

end Ring
