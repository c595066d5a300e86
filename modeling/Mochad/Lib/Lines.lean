import Mathlib.Data.List.Induction

/-!
# Mochad.Lib.Lines

Lines of a stream that arrives in pieces.  An element with `p` ends a line;
what stands behind the last such element is the unfinished line.  The laws say
that a reader may forget everything but the unfinished line: the lines of a
stream with more appended are its lines, then those of the unfinished line with
the same appended.
-/

namespace Lines

variable {α : Type*} (p : α → Bool)

/-- The finished lines of a stream. -/
def finished (s : List α) : List (List α) := (s.splitOnP p).dropLast

/-- The unfinished line at the end of a stream. -/
def unfinished (s : List α) : List α := (s.splitOnP p).getLast (List.splitOnP_ne_nil p s)

/-- No line, finished or not, is longer than `n`. -/
def Short (n : Nat) (s : List α) : Prop := ∀ l ∈ s.splitOnP p, l.length ≤ n

variable {p} {s t l : List α} {b : α} {n : Nat}

@[simp] theorem finished_nil : finished p [] = [] := rfl

@[simp] theorem unfinished_nil : unfinished p [] = [] := rfl

/-- The finished lines and the rest are the pieces of the stream. -/
theorem finished_concat_unfinished (s : List α) :
    finished p s ++ [unfinished p s] = s.splitOnP p :=
  List.dropLast_concat_getLast _

/-- Without an end there is only the unfinished line. -/
theorem finished_of_forall (h : ∀ x ∈ s, p x = false) : finished p s = [] := by
  simp [finished, List.splitOnP_eq_singleton h]

/-- Without an end all of the stream is unfinished. -/
theorem unfinished_of_forall (h : ∀ x ∈ s, p x = false) : unfinished p s = s := by
  simp [unfinished, List.splitOnP_eq_singleton h]

/-- An end finishes the line in front of it. -/
theorem finished_append_cons (hb : p b = true) (s t : List α) :
    finished p (s ++ b :: t) = finished p s ++ unfinished p s :: finished p t := by
  have h := List.splitOnP_append_cons s t hb
  rw [finished, h, List.dropLast_append_of_ne_nil (List.splitOnP_ne_nil p t),
    ← finished_concat_unfinished s]
  simp [finished]

/-- What comes before an end plays no part in the rest. -/
theorem unfinished_append_cons (hb : p b = true) (s t : List α) :
    unfinished p (s ++ b :: t) = unfinished p t := by
  simp only [unfinished, List.splitOnP_append_cons s t hb]
  exact List.getLast_append_of_ne_nil _ (List.splitOnP_ne_nil p t)

/-- A stream has no end in it, or a last one. -/
theorem exists_last_end (s : List α) : (∀ x ∈ s, p x = false) ∨
    ∃ u b t, s = u ++ b :: t ∧ p b = true ∧ ∀ x ∈ t, p x = false := by
  induction s using List.reverseRecOn with
  | nil => exact .inl (by simp)
  | append_singleton s x ih =>
      cases hx : p x with
      | true => exact .inr ⟨s, x, [], rfl, hx, by simp⟩
      | false =>
          have hlast : ∀ t : List α, (∀ y ∈ t, p y = false) → ∀ y ∈ t ++ [x], p y = false := by
            intro t ht y hy
            obtain hy | hy := List.mem_append.mp hy
            · exact ht y hy
            · exact List.mem_singleton.mp hy ▸ hx
          obtain hs | ⟨u, b, t, rfl, hb, ht⟩ := ih
          · exact .inl (hlast s hs)
          · exact .inr ⟨u, b, t ++ [x], by simp, hb, hlast t ht⟩

/-- No end stands in the unfinished line. -/
theorem forall_mem_unfinished (s : List α) : ∀ x ∈ unfinished p s, p x = false := by
  obtain hs | ⟨u, b, t, rfl, hb, ht⟩ := exists_last_end (p := p) s
  · rwa [unfinished_of_forall hs]
  · rwa [unfinished_append_cons hb, unfinished_of_forall ht]

/-- A reader that has taken the finished lines only needs the unfinished one. -/
theorem finished_append (s t : List α) :
    finished p (s ++ t) = finished p s ++ finished p (unfinished p s ++ t) := by
  obtain hs | ⟨u, b, r, rfl, hb, hr⟩ := exists_last_end (p := p) s
  · rw [finished_of_forall hs, unfinished_of_forall hs, List.nil_append]
  · rw [List.append_assoc, List.cons_append, finished_append_cons hb, finished_append_cons hb,
      unfinished_append_cons hb, finished_of_forall hr, unfinished_of_forall hr, List.append_assoc,
      List.cons_append, List.nil_append]

/-- The rest of a longer stream depends on the rest before. -/
theorem unfinished_append (s t : List α) :
    unfinished p (s ++ t) = unfinished p (unfinished p s ++ t) := by
  obtain hs | ⟨u, b, r, rfl, hb, hr⟩ := exists_last_end (p := p) s
  · rw [unfinished_of_forall hs]
  · rw [List.append_assoc, List.cons_append, unfinished_append_cons hb, unfinished_append_cons hb,
      unfinished_of_forall hr]

/-- An element that ends no line is added to the unfinished one. -/
theorem finished_concat_neg (hb : p b = false) (s : List α) : finished p (s ++ [b]) = finished p s := by
  have h : ∀ x ∈ unfinished p s ++ [b], p x = false := by
    simpa [or_imp, forall_and, hb] using forall_mem_unfinished s
  rw [finished_append, finished_of_forall h, List.append_nil]

/-- A symbol that is no end extends the rest. -/
theorem unfinished_concat_neg (hb : p b = false) (s : List α) :
    unfinished p (s ++ [b]) = unfinished p s ++ [b] := by
  have h : ∀ x ∈ unfinished p s ++ [b], p x = false := by
    simpa [or_imp, forall_and, hb] using forall_mem_unfinished s
  rw [unfinished_append, unfinished_of_forall h]

/-! ## Short lines -/

/-- A stream is short if its lines and its rest are. -/
theorem short_iff : Short p n s ↔ (∀ l ∈ finished p s, l.length ≤ n) ∧ (unfinished p s).length ≤ n := by
  rw [Short, ← finished_concat_unfinished]
  simp [or_imp, forall_and]

/-- The lines of a shorter stream are no longer. -/
theorem Short.of_append (h : Short p n (s ++ t)) : Short p n s := by
  induction t using List.reverseRecOn with
  | nil => simpa using h
  | append_singleton t b ih =>
      apply ih
      rw [← List.append_assoc, short_iff] at h
      rw [short_iff]
      cases hb : p b with
      | true =>
          rw [finished_append_cons hb, finished_nil] at h
          obtain ⟨h, -⟩ := h
          simp only [List.mem_append, List.mem_cons, or_imp, forall_and, forall_eq] at h
          exact ⟨h.1, h.2.1⟩
      | false =>
          rw [finished_concat_neg hb, unfinished_concat_neg hb, List.length_append] at h
          exact ⟨h.1, by omega⟩

/-- Short lines stay short when the finished ones are taken. -/
theorem Short.unfinished_append (h : Short p n (s ++ t)) : Short p n (unfinished p s ++ t) := by
  rw [short_iff, finished_append, Lines.unfinished_append] at h
  exact short_iff.mpr ⟨fun l hl => h.1 l (List.mem_append_right _ hl), h.2⟩

theorem short_append : Short p n (s ++ t) ↔ Short p n s ∧ Short p n (unfinished p s ++ t) := by
  refine ⟨fun h => ⟨h.of_append, h.unfinished_append⟩, fun ⟨hs, ht⟩ => ?_⟩
  rw [short_iff] at hs ht ⊢
  rw [finished_append, Lines.unfinished_append]
  refine ⟨fun l hl => ?_, ht.2⟩
  exact (List.mem_append.mp hl).elim (hs.1 l) (ht.1 l)

/-- A stream in two parts with an end between them. -/
theorem short_append_cons (hb : p b = true) :
    Short p n (s ++ b :: t) ↔ Short p n s ∧ Short p n t := by
  simp only [Short, List.splitOnP_append_cons s t hb, List.mem_append, or_imp, forall_and]

/-- Without an end. -/
theorem short_of_forall (h : ∀ x ∈ s, p x = false) : Short p n s ↔ s.length ≤ n := by
  simp [Short, List.splitOnP_eq_singleton h]

end Lines
