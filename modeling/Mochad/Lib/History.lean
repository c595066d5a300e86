import Mathlib.Data.List.Induction

/-!
# Mochad.Lib.History

Questions about the past of a run, asked of the list of its inputs: the most
recent run of inputs of one kind (`lastRun`), and the most recent input that
says something (`latest`).  Both are read from the end of the list; the lemmas
say how one more input changes the answer, which is the form an invariant over
a run needs.
-/

namespace History

variable {ι κ : Type*}

/-! ## The most recent run -/

/-- The most recent maximal run of inputs with `p`, newest first. -/
def lastRun (p : ι → Bool) (is : List ι) : List ι := (is.reverse.dropWhile (!p ·)).takeWhile p

/-- The last input is there and does not have `p`, so the most recent run is
over. -/
def Over (p : ι → Bool) (is : List ι) : Prop := ∃ i, is.getLast? = some i ∧ p i = false

variable {p : ι → Bool} {is : List ι} {i : ι}

@[simp] theorem lastRun_nil (p : ι → Bool) : lastRun p [] = [] := rfl

@[simp] theorem not_over_nil (p : ι → Bool) : ¬ Over p [] := by simp [Over]

@[simp] theorem over_concat : Over p (is ++ [i]) ↔ p i = false := by simp [Over]

/-- An input of another kind does not change the run. -/
theorem lastRun_concat_neg (h : p i = false) : lastRun p (is ++ [i]) = lastRun p is := by
  simp [lastRun, h]

/-- An input of the kind starts a new run when the last one is over. -/
theorem lastRun_concat_over (h : p i = true) (ho : Over p is) : lastRun p (is ++ [i]) = [i] := by
  obtain ⟨j, hj, hpj⟩ := ho
  obtain ⟨js, rfl⟩ := List.getLast?_eq_some_iff.mp hj
  simp [lastRun, h, hpj]

/-- Otherwise it belongs to the same run. -/
theorem lastRun_concat_pos (h : p i = true) (ho : ¬ Over p is) :
    lastRun p (is ++ [i]) = i :: lastRun p is := by
  induction is using List.reverseRecOn with
  | nil => simp [lastRun, h]
  | append_singleton js j _ =>
      have hj : p j = true := by simpa using ho
      simp [lastRun, h, hj]

/-! ## The most recent answer -/

/-- The answer of the most recent input that has one. -/
def latest (f : ι → Option κ) (is : List ι) : Option κ := is.reverse.findSome? f

variable {f : ι → Option κ}

@[simp] theorem latest_nil (f : ι → Option κ) : latest f [] = none := rfl

/-- The last input comes first. -/
theorem latest_concat (f : ι → Option κ) (is : List ι) (i : ι) :
    latest f (is ++ [i]) = (f i).or (latest f is) := by
  simp only [latest, List.reverse_append, List.reverse_singleton, List.singleton_append,
    List.findSome?_cons]
  cases f i <;> rfl

/-- The later inputs come first. -/
theorem latest_append (f : ι → Option κ) (is js : List ι) :
    latest f (is ++ js) = (latest f js).or (latest f is) := by
  simp only [latest, List.reverse_append, List.findSome?_append]

/-- The first input comes last. -/
theorem latest_cons (f : ι → Option κ) (i : ι) (is : List ι) :
    latest f (i :: is) = (latest f is).or (f i) := by
  rw [← List.singleton_append, latest_append]
  cases h : f i <;> simp [latest, h]

/-- Some input gave the answer. -/
theorem exists_of_latest {v : κ} (h : latest f is = some v) : ∃ i ∈ is, f i = some v := by
  obtain ⟨i, hi, hv⟩ := List.exists_of_findSome?_eq_some h
  exact ⟨i, List.mem_reverse.mp hi, hv⟩

/-- Nothing is the latest exactly if no input gives a value. -/
theorem latest_eq_none : latest f is = none ↔ ∀ i ∈ is, f i = none := by
  simp [latest]

/-- Functions that agree on the inputs have the same latest value. -/
theorem latest_congr {f g : ι → Option κ} {is : List ι} (h : ∀ i ∈ is, f i = g i) :
    latest f is = latest g is := by
  induction is with
  | nil => rfl
  | cons i is ih =>
      rw [latest_cons, latest_cons, h i List.mem_cons_self,
        ih fun j hj => h j (List.mem_cons_of_mem i hj)]

/-- The latest value mapped. -/
theorem latest_map {μ : Type*} (f : ι → Option κ) (g : κ → μ) (is : List ι) :
    latest (fun i => (f i).map g) is = (latest f is).map g := by
  induction is with
  | nil => rfl
  | cons i is ih =>
      rw [latest_cons, latest_cons, ih]
      cases latest f is <;> rfl

/-! ## Answers in view of the past -/

/-- The answer of the most recent input that has one, given the inputs before
it; the list is newest first. -/
def latestOf (f : List ι → ι → Option κ) : List ι → Option κ
  | [] => none
  | i :: past => (f past.reverse i).or (latestOf f past)

/-- The answer of the most recent input that has one, given the inputs before
it. -/
def latestGiven (f : List ι → ι → Option κ) (is : List ι) : Option κ := latestOf f is.reverse

@[simp] theorem latestGiven_nil (f : List ι → ι → Option κ) : latestGiven f [] = none := rfl

/-- The last input comes first, with the inputs before it. -/
theorem latestGiven_concat (f : List ι → ι → Option κ) (is : List ι) (i : ι) :
    latestGiven f (is ++ [i]) = (f is i).or (latestGiven f is) := by
  simp only [latestGiven, List.reverse_append, List.reverse_singleton, List.singleton_append,
    latestOf, List.reverse_reverse]

end History
