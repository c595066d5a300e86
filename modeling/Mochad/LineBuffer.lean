import Mochad.Bounds
import Mochad.ClientLines

/-!
# Mochad.LineBuffer

The stores of `cm15a_encode` into its buffer of 80 characters.

The write position moves on with every byte that ends no line, and nothing
stops it at the end of the buffer.  Whether it gets there is a matter of all
bytes received so far: `stores_inside_iff` says that it does not exactly when
no line is longer than 79 bytes.
-/

namespace Mochad

open CString Lines

/-! ## One call -/

/-- A call of `cm15a_encode`. -/
structure EncodeCall where
  fd : Int
  buf : List UInt8

/-- The call as a step. -/
def encodeStep (w : World) (c : EncodeCall) : World := cm15aEncode c.fd c.buf w

/-- All stores between the two states are inside the buffer. -/
def StoresInside (w w' : World) : Prop :=
  ∀ a ∈ w'.accesses.drop w.accesses.length, a.array = .remainder → a.Inside

/-- The call keeps to the buffer, and leaves room for the end of the line. -/
def KeepsToBuffer (w : World) (c : EncodeCall) : Prop :=
  StoresInside w (encodeStep w c) ∧ (encodeStep w c).remlen ≤ 79

/-- The indices used for a complete line, other than for the stores. -/
theorem accesses_runRemainder (fd : Int) (w : World) :
    ∃ acc, (w.runRemainder fd).accesses = w.accesses ++ acc ∧ ∀ a ∈ acc, a.Inside := by
  unfold World.runRemainder
  dsimp only
  split
  · have hclean := clean_processcommandline fd (cString w.remainder)
      { w with lines := w.lines ++ [(fd, cString w.remainder)] }
    obtain ⟨-, acc, -, -, hacc, hinside⟩ := hclean
    rcases hv : processcommandline fd (cString w.remainder)
      { w with lines := w.lines ++ [(fd, cString w.remainder)] } with ⟨rc, t, v⟩
    rw [hv] at hacc
    refine ⟨acc, ?_, hinside⟩
    dsimp only
    split
    · obtain ⟨clients, sockPort, io, hdel⟩ :=
        ({ v with remainder := t.buffer ++ v.remainder.drop t.buffer.length } : World).delClient_eq fd
      rw [hdel]
      exact hacc
    · exact hacc
  · exact ⟨[], by simp, by simp⟩

/-- A store at `n` is a store into `remainder`, inside up to 79. -/
theorem store_remainder_inside (n : Nat) :
    ((⟨.remainder, n⟩ : Access).array = .remainder → (⟨.remainder, n⟩ : Access).Inside) ↔ n ≤ 79 := by
  refine (forall_prop_of_true rfl).trans ?_
  simp only [Access.Inside, CArray.size, remainderSize]
  omega

/-- The loop writes where the unfinished line ends, and leaves its length. -/
theorem encodeLoop_stores (fd : Int) (buf : List UInt8) {line : Text} (w : World)
    (hline : ∀ b ∈ line, isLineEnd b = false) :
    let r := encodeLoop fd buf line.length w
    r.1 = (unfinished isLineEnd (line ++ buf)).length ∧
      ∃ acc, r.2.accesses = w.accesses ++ acc ∧
        ((∀ a ∈ acc, a.array = .remainder → a.Inside) ∧ r.1 ≤ 79 ↔
          Short isLineEnd 79 (line ++ buf)) := by
  induction buf generalizing line w with
  | nil =>
      rw [List.append_nil, unfinished_of_forall hline, short_of_forall hline]
      exact ⟨rfl, [], by simp [encodeLoop], by simp [encodeLoop]⟩
  | cons b buf ih =>
      rw [encodeLoop]
      cases hb : isLineEnd b with
      | true =>
          -- the end is stored twice, and the next line starts over
          let v := (w.storeRemainder line.length b).storeRemainder line.length 0
          obtain ⟨acc, hacc, hinside⟩ := accesses_runRemainder fd v
          obtain ⟨hlen, acc', hacc', hiff⟩ := @ih [] (v.runRemainder fd) (by simp)
          rw [List.nil_append] at hlen hiff
          rw [unfinished_append_cons hb, short_append_cons hb, short_of_forall hline]
          let store : Access := ⟨.remainder, line.length⟩
          refine ⟨hlen, [store, store] ++ acc ++ acc', ?_, ?_⟩
          · simp only [if_true]
            refine hacc'.trans ?_
            rw [hacc]
            simp [v, store]
          rw [List.forall_mem_append, List.forall_mem_append, List.forall_mem_cons,
            List.forall_mem_singleton, and_self, store_remainder_inside,
            and_iff_left fun a ha _ => hinside a ha, and_assoc]
          exact and_congr_right fun _ => hiff
      | false =>
          have hclean : ∀ c ∈ line ++ [b], isLineEnd c = false := by
            simpa [or_imp, forall_and, hb] using hline
          obtain ⟨hlen, acc, hacc, hiff⟩ := ih (w.storeRemainder line.length b) hclean
          have happ : line ++ b :: buf = line ++ [b] ++ buf := by simp
          rw [List.length_append, List.length_singleton] at hlen hacc hiff
          rw [happ]
          let store : Access := ⟨.remainder, line.length⟩
          refine ⟨hlen, store :: acc, ?_, ?_⟩
          · simpa [store] using hacc
          rw [List.forall_mem_cons, store_remainder_inside, and_assoc]
          refine (and_congr_right fun _ => hiff).trans (and_iff_right_iff_imp.mpr fun h => ?_)
          have hn := (short_of_forall hclean).mp h.of_append
          rw [List.length_append, List.length_singleton] at hn
          exact Nat.le_of_succ_le hn

/-! ## Runs of calls -/

/-- The bytes of the calls, in order. -/
def inputOf (calls : List EncodeCall) : List UInt8 := calls.flatMap EncodeCall.buf

/-- A call that starts behind an unfinished line. -/
theorem keepsToBuffer_iff {w : World} {c : EncodeCall} {line : Text}
    (hline : ∀ b ∈ line, isLineEnd b = false) (hrem : w.remlen = line.length) :
    (encodeStep w c).remlen = (unfinished isLineEnd (line ++ c.buf)).length ∧
      (KeepsToBuffer w c ↔ Short isLineEnd 79 (line ++ c.buf)) := by
  obtain ⟨hlen, acc, hacc, hiff⟩ := encodeLoop_stores c.fd c.buf w hline
  rw [← hrem] at hlen hacc hiff
  refine ⟨hlen, ?_⟩
  have hdrop : (encodeStep w c).accesses.drop w.accesses.length = acc := by
    rw [encodeStep, cm15aEncode, hacc, List.drop_left]
  rw [KeepsToBuffer, StoresInside, hdrop]
  exact hiff

/-- The buffer is as full as the unfinished line of the input is long. -/
theorem remlen_run {w₀ : World} (hempty : w₀.remlen = 0) (calls : List EncodeCall) :
    (Run.run encodeStep w₀ calls).remlen = (unfinished isLineEnd (inputOf calls)).length := by
  induction calls using List.reverseRecOn with
  | nil => exact hempty
  | append_singleton calls c ih =>
      have happ : inputOf (calls ++ [c]) = inputOf calls ++ c.buf := by simp [inputOf]
      rw [Run.run_append, happ, unfinished_append]
      exact (keepsToBuffer_iff (forall_mem_unfinished (inputOf calls)) ih).1

/-- The stores into the line buffer.  In every sequence of calls from an empty
buffer, all stores are inside the buffer and at most 79 characters are left in
it after each call, if and only if no line received is longer than 79 bytes,
whatever the chunks and whoever sent them. -/
theorem stores_inside_iff (w₀ : World) (hempty : w₀.remlen = 0) (calls : List EncodeCall) :
    Run.Along encodeStep KeepsToBuffer w₀ calls ↔ Short isLineEnd 79 (inputOf calls) := by
  induction calls using List.reverseRecOn with
  | nil => simp [inputOf, Short]
  | append_singleton calls c ih =>
      have happ : inputOf (calls ++ [c]) = inputOf calls ++ c.buf := by simp [inputOf]
      rw [Run.along_concat, ih, happ, short_append,
        (keepsToBuffer_iff (forall_mem_unfinished (inputOf calls)) (remlen_run hempty calls)).2]

/-- 80 letters in one read and the end of their line in the next. -/
theorem store_behind_buffer :
    let w := worldInit (stillSetup false)
    let calls : List EncodeCall := [⟨5, List.replicate 80 65⟩, ⟨5, [10]⟩]
    ⟨.remainder, 80⟩ ∈ (Run.run encodeStep w calls).accesses ∧
      ¬ Run.Along encodeStep KeepsToBuffer w calls := by
  intro w calls
  refine ⟨by decide, fun ⟨⟨_, hlen⟩, _⟩ => ?_⟩
  exact absurd hlen (by decide)

/-- A command in two reads. -/
theorem stores_inside_command :
    Run.Along encodeStep KeepsToBuffer (worldInit (stillSetup false))
      [⟨5, cstr "pl a1"⟩, ⟨5, cstr " on\n"⟩] := by
  refine (stores_inside_iff (worldInit (stillSetup false)) rfl _).mpr ?_
  rw [Short]
  decide

end Mochad
