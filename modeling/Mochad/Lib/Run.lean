import Mathlib.Data.List.Induction

/-!
# Mochad.Lib.Run

Runs of a deterministic transition system: a state, a step function, and a
list of inputs fed to it in order.

The rules here turn facts about one step into facts about every run: an
invariant of the state and the inputs so far (`history`), under a condition that
every step of the run has to meet (`Along`), a part of the state that follows
the inputs of one kind alone (`run_project`), a system that is only given some of
the inputs (`run_filter`), a loop that stops when it has
counted its inputs (`countdown_eq`), an invariant of the state and the output so
far (`trace_invariant`), and a simulation between two systems
(`trace_simulation`).
-/

namespace Run

variable {σ τ ι κ : Type*}

/-- The state after a list of inputs. -/
def run (step : σ → ι → σ) (s : σ) (is : List ι) : σ := is.foldl step s

@[simp] theorem run_nil (step : σ → ι → σ) (s : σ) : run step s [] = s := rfl

@[simp] theorem run_cons (step : σ → ι → σ) (s : σ) (i : ι) (is : List ι) :
    run step s (i :: is) = run step (step s i) is := rfl

@[simp] theorem run_append (step : σ → ι → σ) (s : σ) (is js : List ι) :
    run step s (is ++ js) = run step (run step s is) js := List.foldl_append

/-- A part of the state that the inputs with `p` change on their own, and the
others not at all, follows the run of the inputs with `p`. -/
theorem run_project {step : σ → ι → σ} {step' : τ → ι → τ} {π : σ → τ} {p : ι → Bool}
    (h : ∀ s i, π (step s i) = if p i then step' (π s) i else π s) (s : σ) (is : List ι) :
    π (run step s is) = run step' (π s) (is.filter p) := by
  induction is generalizing s with
  | nil => rfl
  | cons i is ih =>
      rw [run_cons, ih, h]
      cases hp : p i <;> simp [hp]

/-- Every step of the run meets `P`, a condition on the state before the step
and its input. -/
def Along (step : σ → ι → σ) (P : σ → ι → Prop) : σ → List ι → Prop
  | _, [] => True
  | s, i :: is => P s i ∧ Along step P (step s i) is

instance Along.decidable {step : σ → ι → σ} {P : σ → ι → Prop} [∀ s i, Decidable (P s i)] :
    ∀ s is, Decidable (Along step P s is)
  | _, [] => .isTrue trivial
  | s, i :: is =>
      have : Decidable (Along step P (step s i) is) := Along.decidable (step s i) is
      inferInstanceAs (Decidable (P s i ∧ Along step P (step s i) is))

@[simp] theorem along_nil (step : σ → ι → σ) (P : σ → ι → Prop) (s : σ) : Along step P s [] :=
  trivial

/-- Along a run in two parts. -/
theorem along_append {step : σ → ι → σ} {P : σ → ι → Prop} {s : σ} {is js : List ι} :
    Along step P s (is ++ js) ↔ Along step P s is ∧ Along step P (run step s is) js := by
  induction is generalizing s with
  | nil => simp
  | cons i is ih => simp only [List.cons_append, Along, ih, run_cons, and_assoc]

/-- Along a run by its last input. -/
theorem along_concat {step : σ → ι → σ} {P : σ → ι → Prop} {s : σ} {is : List ι} {i : ι} :
    Along step P s (is ++ [i]) ↔ Along step P s is ∧ P (run step s is) i := by
  simp [along_append, Along]

/-- A condition on the inputs alone. -/
theorem along_of_forall {step : σ → ι → σ} {P : ι → Prop} {s : σ} {is : List ι}
    (h : ∀ i ∈ is, P i) : Along step (fun _ i => P i) s is := by
  induction is generalizing s with
  | nil => exact along_nil _ _ _
  | cons i is ih =>
      exact ⟨h i List.mem_cons_self, ih fun j hj => h j (List.mem_cons_of_mem i hj)⟩

/-- Two properties along one run. -/
theorem Along.and {step : σ → ι → σ} {P Q : σ → ι → Prop} {s : σ} {is : List ι}
    (hP : Along step P s is) (hQ : Along step Q s is) :
    Along step (fun s i => P s i ∧ Q s i) s is := by
  induction is generalizing s with
  | nil => exact along_nil _ _ _
  | cons i is ih => exact ⟨⟨hP.1, hQ.1⟩, ih hP.2 hQ.2⟩

/-- Two systems stay related when the second one is only given the inputs with `p`,
if it keeps up with the first on these, and the first alone stays related on the
others. -/
theorem run_filter {step : σ → ι → σ} {step' : τ → ι → τ} {P : σ → ι → Prop} {R : σ → τ → Prop} {p : ι → Bool}
    (hkeep : ∀ s t i, R s t → P s i → p i = true → R (step s i) (step' t i))
    (hskip : ∀ s t i, R s t → P s i → p i = false → R (step s i) t)
    {s : σ} {t : τ} (h : R s t) (is : List ι) (hP : Along step P s is) :
    R (run step s is) (run step' t (is.filter p)) := by
  induction is generalizing s t with
  | nil => exact h
  | cons i is ih =>
      cases hp : p i with
      | true =>
          rw [List.filter_cons_of_pos hp]
          exact ih (hkeep s t i h hP.1 hp) hP.2
      | false =>
          rw [List.filter_cons_of_neg (by simp [hp])]
          exact ih (hskip s t i h hP.1 hp) hP.2

/-- What holds of the inputs so far and the state, and is kept by every step
that meets `P`, holds after every run whose steps all meet `P`. -/
theorem history {step : σ → ι → σ} {P : σ → ι → Prop} {s₀ : σ} {Inv : List ι → σ → Prop}
    (hinit : Inv [] s₀)
    (hstep : ∀ is s i, Inv is s → P s i → Inv (is ++ [i]) (step s i))
    (is : List ι) (h : Along step P s₀ is) : Inv is (run step s₀ is) := by
  induction is using List.reverseRecOn with
  | nil => exact hinit
  | append_singleton is i ih =>
      obtain ⟨his, hi⟩ := along_concat.mp h
      rw [run_append]
      exact hstep is _ i (ih his) hi

/-- A run of the inputs with `p` that counts them down from `n`, and stops when
the count is used up. -/
def countdown (step : σ → ι → σ) (p : ι → Bool) : Int → σ → List ι → σ
  | _, s, [] => s
  | n, s, i :: is =>
      if p i then
        if n - 1 ≤ 0 then step s i else countdown step p (n - 1) (step s i) is
      else countdown step p n s is

/-- A count that covers the inputs with `p` stops behind the last of them. -/
theorem countdown_eq {step : σ → ι → σ} {p : ι → Bool} {n : Int} {s : σ} {is : List ι}
    (h : (is.countP p : Int) ≤ n) : countdown step p n s is = run step s (is.filter p) := by
  induction is generalizing n s with
  | nil => rfl
  | cons i is ih =>
      rw [countdown]
      by_cases hp : p i = true
      · rw [List.countP_cons_of_pos hp] at h
        rw [if_pos hp, List.filter_cons_of_pos hp, run_cons]
        by_cases hlast : n - 1 ≤ 0
        · have hnone : is.filter p = [] := by
            rw [← List.length_eq_zero_iff, ← List.countP_eq_length_filter]
            omega
          rw [if_pos hlast, hnone, run_nil]
        · rw [if_neg hlast]
          exact ih (by omega)
      · rw [List.countP_cons_of_neg hp] at h
        rw [if_neg hp, List.filter_cons_of_neg hp]
        exact ih h

/-! ## Output -/

/-- A run whose steps also put something out: the last state, and all output in
order. -/
def trace (step : σ → ι → σ × List κ) : σ → List ι → σ × List κ
  | s, [] => (s, [])
  | s, i :: is =>
      let rest := trace step (step s i).1 is
      (rest.1, (step s i).2 ++ rest.2)

/-- One more input. -/
theorem trace_concat (step : σ → ι → σ × List κ) (s : σ) (is : List ι) (i : ι) :
    trace step s (is ++ [i]) =
      ((step (trace step s is).1 i).1, (trace step s is).2 ++ (step (trace step s is).1 i).2) := by
  induction is generalizing s with
  | nil => simp [trace]
  | cons j is ih => simp [trace, ih]

/-- One run after the other. -/
theorem trace_append (step : σ → ι → σ × List κ) (s : σ) (is js : List ι) :
    trace step s (is ++ js) =
      ((trace step (trace step s is).1 js).1,
        (trace step s is).2 ++ (trace step (trace step s is).1 js).2) := by
  induction is generalizing s with
  | nil => rfl
  | cons i is ih => simp [trace, ih]

/-- The state of a run with output. -/
theorem trace_fst (step : σ → ι → σ × List κ) (s : σ) (is : List ι) :
    (trace step s is).1 = run (fun s i => (step s i).1) s is := by
  induction is generalizing s with
  | nil => rfl
  | cons i is ih => exact ih _

/-- What holds of the output so far and the state, and is kept by every step
that meets `P`, holds after every run whose steps all meet `P`. -/
theorem trace_invariant {step : σ → ι → σ × List κ} {P : σ → ι → Prop} {Inv : List κ → σ → Prop}
    {s : σ} (hinit : Inv [] s)
    (hstep : ∀ out s i, Inv out s → P s i → Inv (out ++ (step s i).2) (step s i).1)
    {is : List ι} (h : Along (fun s i => (step s i).1) P s is) :
    Inv (trace step s is).2 (trace step s is).1 := by
  induction is using List.reverseRecOn with
  | nil => exact hinit
  | append_singleton is i ih =>
      obtain ⟨his, hi⟩ := along_concat.mp h
      rw [← trace_fst] at hi
      rw [trace_concat]
      exact hstep _ _ i (ih his) hi

/-- Translated inputs. -/
theorem trace_map {ι' : Type*} (step : σ → ι → σ × List κ) (f : ι' → ι) (s : σ) (is : List ι') :
    trace step s (is.map f) = trace (fun s i => step s (f i)) s is := by
  induction is generalizing s with
  | nil => rfl
  | cons i is ih => simp only [List.map_cons, trace, ih]

/-- Two systems whose related states answer every input alike put out the same,
and end in related states. -/
theorem trace_simulation {step : σ → ι → σ × List κ} {step' : τ → ι → τ × List κ}
    {R : σ → τ → Prop}
    (hstep : ∀ s t i, R s t → R (step s i).1 (step' t i).1 ∧ (step s i).2 = (step' t i).2)
    {s : σ} {t : τ} (h : R s t) (is : List ι) :
    R (trace step s is).1 (trace step' t is).1 ∧ (trace step s is).2 = (trace step' t is).2 := by
  induction is generalizing s t with
  | nil => exact ⟨h, rfl⟩
  | cons i is ih =>
      obtain ⟨hR, hout⟩ := hstep s t i h
      obtain ⟨hR', hout'⟩ := ih hR
      exact ⟨hR', by rw [trace, trace, hout, hout']⟩

end Run
