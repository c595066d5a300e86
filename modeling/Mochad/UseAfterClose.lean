import Mochad.ClientTables

/-!
# Mochad.UseAfterClose

An OpenRemote 2.0 client is closed after its first command.  `cm15a_encode` does
so inside its loop over the bytes of a chunk, and goes on with the bytes behind:
the lines that follow in the same chunk are executed for a descriptor that is
closed.  `nothing_after_close` counts the lines of the chunk.
-/

namespace Mochad

open CString Lines Slots

/-! ## The lines of a chunk -/

/-- The number of lines executed for a chunk behind `n` bytes of an unfinished
line. -/
def linesRun : Nat → List UInt8 → Nat
  | _, [] => 0
  | n, b :: buf =>
      if isLineEnd b then (if n = 0 then 0 else 1) + linesRun 0 buf else linesRun (n + 1) buf

/-- They are the finished lines that are not empty. -/
theorem linesRun_eq (buf : List UInt8) {line : Text} (hline : ∀ b ∈ line, isLineEnd b = false) {n : Nat}
    (hn : n = 0 ↔ line = []) :
    linesRun n buf = ((finished isLineEnd (line ++ buf)).filter (· ≠ [])).length := by
  induction buf generalizing line n with
  | nil => simp [linesRun, finished_of_forall hline]
  | cons b buf ih =>
      rw [linesRun]
      cases hb : isLineEnd b with
      | true =>
          rw [if_pos rfl, finished_append_cons hb, finished_of_forall hline, unfinished_of_forall hline,
            List.nil_append, @ih [] (by simp) 0 (by simp), List.nil_append, List.filter_cons]
          by_cases hl : line = []
          · simp [hl, hn]
          · simp [hl, hn, Nat.add_comm]
      | false =>
          have happ : line ++ b :: buf = line ++ [b] ++ buf := by simp
          rw [if_neg Bool.false_ne_true, happ]
          exact ih (by simpa [or_imp, forall_and, hb] using hline) (by simp)

/-! ## The loop in pieces -/

/-- The bytes of a chunk in two parts. -/
theorem encodeLoop_append (fd : Int) (pre post : List UInt8) (n : Nat) (w : World) :
    encodeLoop fd (pre ++ post) n w =
      encodeLoop fd post (encodeLoop fd pre n w).1 (encodeLoop fd pre n w).2 := by
  induction pre generalizing n w with
  | nil => rfl
  | cons b pre ih =>
      rw [List.cons_append, encodeLoop, encodeLoop]
      split
      · exact ih _ _
      · exact ih _ _

/-- The lines of a chunk in two parts. -/
theorem linesRun_append (fd : Int) (pre post : List UInt8) (n : Nat) (w : World) :
    linesRun n (pre ++ post) = linesRun n pre + linesRun (encodeLoop fd pre n w).1 post := by
  induction pre generalizing n w with
  | nil => simp [linesRun, encodeLoop]
  | cons b pre ih =>
      rw [List.cons_append, linesRun, linesRun, encodeLoop]
      split
      · rw [ih, Nat.add_assoc]
      · exact ih _ _

/-- The first line that is executed. -/
theorem exists_first_line (fd : Int) {buf : List UInt8} {n : Nat} (w : World) (h : 0 < linesRun n buf) :
    ∃ pre b post, buf = pre ++ b :: post ∧ isLineEnd b = true ∧ linesRun n pre = 0 ∧
      (encodeLoop fd pre n w).1 ≠ 0 := by
  induction buf generalizing n w with
  | nil => exact absurd h (Nat.lt_irrefl 0)
  | cons b buf ih =>
      rw [linesRun] at h
      cases hb : isLineEnd b with
      | false =>
          rw [hb, if_neg Bool.false_ne_true] at h
          obtain ⟨pre, c, post, rfl, hc, hpre, hpos⟩ := ih (w.storeRemainder n b) h
          refine ⟨b :: pre, c, post, rfl, hc, ?_, ?_⟩
          · rw [linesRun, hb, if_neg Bool.false_ne_true, hpre]
          · rw [encodeLoop, hb, if_neg Bool.false_ne_true]
            exact hpos
      | true =>
          by_cases hn : n = 0
          · rw [hb, if_pos rfl, if_pos hn, Nat.zero_add] at h
            obtain ⟨pre, c, post, rfl, hc, hpre, hpos⟩ :=
              ih (((w.storeRemainder n b).storeRemainder n 0).runRemainder fd) h
            refine ⟨b :: pre, c, post, rfl, hc, ?_, ?_⟩
            · rw [linesRun, hb, if_pos rfl, if_pos hn, hpre]
            · rw [encodeLoop, hb, if_pos rfl]
              exact hpos
          · exact ⟨[], b, buf, rfl, hb, rfl, hn⟩

/-! ## One line -/

/-- The bytes of the unfinished line in the buffer. -/
structure Pending (n : Nat) (w : World) : Prop where
  noEnd : ∀ b ∈ w.remainder.take n, isLineEnd b = false
  room : remainderSize ≤ w.remainder.length

section
variable {n : Nat} {w : World} {b : UInt8}

/-- Nothing is pending in an empty buffer. -/
theorem pending_zero (h : remainderSize ≤ w.remainder.length) : Pending 0 w := ⟨by simp, h⟩

/-- A byte that ends no line; behind the end of the buffer it is not part of it. -/
theorem Pending.store (h : Pending n w) (hb : isLineEnd b = false) :
    Pending (n + 1) (w.storeRemainder n b) := by
  refine ⟨fun c hc => ?_, by simpa using h.room⟩
  rw [World.storeRemainder_remainder] at hc
  by_cases hn : n < w.remainder.length
  · rw [List.set_eq_take_append_cons_drop, if_pos hn, ← List.singleton_append, ← List.append_assoc,
      List.take_left' (by simp [hn.le])] at hc
    obtain hc | hc := List.mem_append.mp hc
    · exact h.noEnd c hc
    · rw [List.mem_singleton.mp hc, hb]
  · have hlen := not_lt.mp hn
    rw [List.set_eq_of_length_le hlen, List.take_of_length_le (hlen.trans (Nat.le_succ n))] at hc
    exact h.noEnd c (by rwa [List.take_of_length_le hlen])

/-- A line that is not empty is executed with the sockets as they are. -/
theorem runRemainder_sockets (fd : Int) (hne : cString w.remainder ≠ []) :
    ∃ v : World, v.sockets = w.sockets ∧ v.lines = w.lines ++ [(fd, cString w.remainder)] ∧
      w.remainder.length ≤ v.remainder.length ∧
      w.runRemainder fd = if v.or20client fd then (v.delClient fd).2 else v := by
  obtain ⟨remainder, hlen, hrun⟩ := runRemainder_run fd hne
  let w' : World := { w with lines := w.lines ++ [(fd, cString w.remainder)] }
  let u := (processcommandline fd (cString w.remainder) w').2.2
  exact ⟨{ u with remainder := remainder }, sockets_processcommandline fd _ w',
    (sameBuffer_processcommandline fd _ w').lines, hlen, hrun⟩

/-- With nothing in front of its end the line is skipped. -/
theorem runRemainder_skip (fd : Int) (h : remainderSize ≤ w.remainder.length) :
    ((w.storeRemainder 0 b).storeRemainder 0 0).runRemainder fd =
      (w.storeRemainder 0 b).storeRemainder 0 0 := by
  have hempty : cString ((w.storeRemainder 0 b).storeRemainder 0 0).remainder = [] := by
    obtain ⟨c, rest, hrem⟩ := List.exists_cons_of_length_pos (Nat.lt_of_lt_of_le (by decide) h)
    simp [hrem, cString]
  unfold World.runRemainder
  rw [hempty]
  exact if_neg (not_not_intro rfl)

/-- With something in front of its end the line is not empty. -/
theorem Pending.cString_ne_nil (h : Pending n w) (hn : n ≠ 0) :
    cString ((w.storeRemainder n b).storeRemainder n 0).remainder ≠ [] := by
  obtain ⟨c, rest, hrem⟩ := List.exists_cons_of_length_pos (Nat.lt_of_lt_of_le (by decide) h.room)
  obtain ⟨m, rfl⟩ := Nat.exists_eq_succ_of_ne_zero hn
  have hc : isLineEnd c = false := h.noEnd c (by simp [hrem])
  have hne : c ≠ 0 := by
    rintro rfl
    cases hc
  simp [hrem, cString, hne]

/-- The end of a line behind `n` bytes. -/
theorem Pending.lineEnd (h : Pending n w) (fd : Int) (b : UInt8) :
    let v := ((w.storeRemainder n b).storeRemainder n 0).runRemainder fd
    Pending 0 v ∧ v.lines.length = w.lines.length + (if n = 0 then 0 else 1) ∧
      (n = 0 → v.lines = w.lines ∧ v.io = w.io ∧ v.sockets = w.sockets) := by
  intro v
  by_cases hn : n = 0
  · subst hn
    have hv : v = (w.storeRemainder 0 b).storeRemainder 0 0 := runRemainder_skip fd h.room
    rw [hv]
    exact ⟨pending_zero (by simpa using h.room), rfl, fun _ => ⟨rfl, rfl, rfl⟩⟩
  · obtain ⟨u, -, hlines, hlen, hrun⟩ := runRemainder_sockets fd (h.cString_ne_nil (b := b) hn)
    have hroom : remainderSize ≤ u.remainder.length := h.room.trans (by simpa using hlen)
    have hcount : u.lines.length = w.lines.length + 1 := by simp [hlines]
    rw [if_neg hn]
    change v = _ at hrun
    rw [hrun]
    refine ⟨?_, ?_, fun h0 => absurd h0 hn⟩
    · split
      · exact pending_zero ((sameBuffer_delClient fd u).remainder ▸ hroom)
      · exact pending_zero hroom
    · split
      · rw [(sameBuffer_delClient fd u).lines, hcount]
      · exact hcount

end

/-! ## The loop -/

section
variable {n : Nat} {w : World}

/-- The loop executes the lines of the chunk. -/
theorem Pending.loop (h : Pending n w) (fd : Int) (buf : List UInt8) :
    let r := encodeLoop fd buf n w
    Pending r.1 r.2 ∧ r.2.lines.length = w.lines.length + linesRun n buf ∧
      (linesRun n buf = 0 → r.2.lines = w.lines ∧ r.2.io = w.io ∧ r.2.sockets = w.sockets) := by
  induction buf generalizing n w with
  | nil => exact ⟨h, rfl, fun _ => ⟨rfl, rfl, rfl⟩⟩
  | cons b buf ih =>
      rw [encodeLoop, linesRun]
      cases hb : isLineEnd b with
      | true =>
          obtain ⟨hv, hlines, hskip⟩ := h.lineEnd fd b
          obtain ⟨hr, hrest, hidle⟩ := ih hv
          simp only [if_true]
          refine ⟨hr, ?_, fun h0 => ?_⟩
          · rw [← Nat.add_assoc, ← hlines]
            exact hrest
          · obtain ⟨hn, hbuf⟩ := Nat.add_eq_zero_iff.mp h0
            have hn : n = 0 := by
              by_contra hne
              rw [if_neg hne] at hn
              cases hn
            obtain ⟨hsame, hio, hsockets⟩ := hidle hbuf
            obtain ⟨hsame', hio', hsockets'⟩ := hskip hn
            exact ⟨hsame.trans hsame', hio.trans hio', hsockets.trans hsockets'⟩
      | false => exact ih (h.store hb)

/-- The first command of a connected OpenRemote 2.0 client closes it. -/
theorem Pending.closes (h : Pending n w) (hn : n ≠ 0) {fd : Int} (hplaced : Placed w.sockets)
    (hfd : fd ≠ -1) (hclient : fd ∈ w.clients.clientor20socks) (b : UInt8) :
    (((w.storeRemainder n b).storeRemainder n 0).runRemainder fd).sockPort fd = none := by
  obtain ⟨u, hsockets, -, -, hrun⟩ := runRemainder_sockets fd (h.cString_ne_nil (b := b) hn)
  have hsockets : u.sockets = w.sockets := hsockets
  have hu : Placed u.sockets := hsockets ▸ hplaced
  have hmem : fd ∈ u.clients.table 2 := by
    change fd ∈ u.sockets.clients.table 2
    rw [hsockets]
    exact hclient
  have hor20 : u.or20client fd = true := by
    have hport : u.sockPort fd = _ := hu.port 2 fd hmem hfd
    rw [World.or20client, hport]
    rfl
  rw [hrun, if_pos hor20]
  obtain ⟨-, hclosed, -⟩ := delClient_spec hu.ok hfd
  rw [(hclosed hmem).1, Function.update_self]

end

/-! ## After the close -/

/-- From the point of the chunk where the descriptor is closed, no line is
executed and nothing is sent on it. -/
def NothingAfterClose (fd : Int) (buf : List UInt8) (w : World) : Prop :=
  ∀ pre post, buf = pre ++ post →
    let v := (encodeLoop fd pre w.remlen w).2
    let r := cm15aEncode fd buf w
    v.sockPort fd = none → r.lines = v.lines ∧ ∀ text, .send fd text ∉ r.io.drop v.io.length

/-- For a chunk behind an unfinished line. -/
theorem Pending.nothingAfterClose_iff {w : World} (h : Pending w.remlen w) (hplaced : Placed w.sockets)
    {fd : Int} (hfd : fd ≠ -1) (hclient : fd ∈ w.clients.clientor20socks) (buf : List UInt8) :
    NothingAfterClose fd buf w ↔ linesRun w.remlen buf ≤ 1 := by
  have hopen : w.sockPort fd ≠ none := by
    have hport : w.sockPort fd = some (serverPort + 2) := hplaced.port 2 fd hclient hfd
    rw [hport]
    exact Option.some_ne_none _
  constructor
  · intro hnothing
    by_contra hmany
    have hsome : 0 < linesRun w.remlen buf := by omega
    obtain ⟨pre, b, post, hbuf, hb, hpre, hpos⟩ := exists_first_line fd w hsome
    -- up to the end of the first line
    obtain ⟨hpending, -, hidle⟩ := h.loop fd pre
    obtain ⟨-, -, hsockets⟩ := hidle hpre
    have hend : encodeLoop fd (pre ++ [b]) w.remlen w = (0, (((encodeLoop fd pre w.remlen w).2.storeRemainder
        (encodeLoop fd pre w.remlen w).1 b).storeRemainder (encodeLoop fd pre w.remlen w).1 0).runRemainder fd) := by
      rw [encodeLoop_append, encodeLoop, if_pos hb, encodeLoop]
    have hmem : fd ∈ (encodeLoop fd pre w.remlen w).2.sockets.clients.clientor20socks := hsockets ▸ hclient
    have hclosed := hpending.closes hpos (hsockets ▸ hplaced) hfd hmem b
    have hfirst : linesRun w.remlen (pre ++ [b]) = 1 := by
      rw [linesRun_append fd pre [b] _ w, hpre, linesRun, if_pos hb, if_neg hpos]
      rfl
    obtain ⟨hlines, -⟩ := hnothing (pre ++ [b]) post (by simp [hbuf]) (by rw [hend]; exact hclosed)
    have hall : (cm15aEncode fd buf w).lines.length = w.lines.length + linesRun w.remlen buf :=
      (h.loop fd buf).2.1
    rw [hlines, (h.loop fd (pre ++ [b])).2.1, hfirst] at hall
    omega
  · intro hone pre post hbuf v r hnone
    obtain ⟨hpending, -, hidle⟩ := h.loop fd pre
    have hpre : linesRun w.remlen pre ≠ 0 := by
      intro h0
      obtain ⟨-, -, hsockets⟩ := hidle h0
      have hsame : v.sockPort fd = w.sockPort fd := congrFun (congrArg Sockets.sockPort hsockets) fd
      exact hopen (hsame ▸ hnone)
    have hpost : linesRun (encodeLoop fd pre w.remlen w).1 post = 0 := by
      rw [hbuf, linesRun_append fd pre post _ w] at hone
      omega
    obtain ⟨hlines, hio, -⟩ := (hpending.loop fd post).2.2 hpost
    have hr : r = { (encodeLoop fd post (encodeLoop fd pre w.remlen w).1 v).2 with remlen := r.remlen } := by
      simp only [r, hbuf, cm15aEncode, encodeLoop_append]
      rfl
    rw [hr]
    refine ⟨hlines, fun text hmem => ?_⟩
    dsimp only at hmem
    rw [hio, List.drop_length] at hmem
    cases hmem

/-! ## Runs -/

/-- At start-up the buffer is empty. -/
theorem pending_startup (e : Setup) : Pending (startup e).remlen (startup e) := by
  have hempty : (startup e).remlen = 0 ∧ (startup e).remainder = List.replicate remainderSize 0 := by
    obtain ⟨_ | _, rawData, clock, junk⟩ := e <;> exact ⟨rfl, rfl⟩
  rw [hempty.1]
  exact pending_zero (by rw [hempty.2, List.length_replicate])

/-- Every happening leaves an unfinished line, or none. -/
theorem Pending.after {w : World} (h : Pending w.remlen w) (i : Happening) :
    Pending (w.after i).remlen (w.after i) := by
  have hother : (∀ c buf, i ≠ .chunk c buf) → Pending (w.after i).remlen (w.after i) := by
    intro hne
    obtain ⟨hsame, -, -⟩ := happen_other hne w
    have hrem : (w.after i).remainder = w.remainder := hsame.remainder
    have hlen : (w.after i).remlen = w.remlen := hsame.remlen
    rw [hlen]
    exact ⟨hrem ▸ h.noEnd, hrem ▸ h.room⟩
  cases i with
  | chunk c buf =>
      obtain ⟨hnoEnd, hroom⟩ := (h.loop c.fd buf).1
      exact ⟨hnoEnd, hroom⟩
  | accept k clifd => exact hother (by rintro _ _ ⟨⟩)
  | disconnect c error => exact hother (by rintro _ _ ⟨⟩)
  | packet buf len => exact hother (by rintro _ _ ⟨⟩)
  | timeout => exact hother (by rintro _ _ ⟨⟩)

theorem pending_run (e : Setup) (hs : List Happening) :
    Pending (Run.run World.after (startup e) hs).remlen (Run.run World.after (startup e) hs) := by
  induction hs using List.reverseRecOn with
  | nil => exact pending_startup e
  | append_singleton hs i ih =>
      rw [Run.run_append]
      exact ih.after i

/-- The end of an OpenRemote 2.0 client.  In every run, and for every chunk
received from a connected OpenRemote 2.0 client: after the point of the chunk
where `del_client` has closed the descriptor no line is executed and nothing is
sent on it, if and only if the chunk completes at most one line that is not
empty. -/
theorem nothing_after_close (e : Setup) (hs : List Happening) (c : Client) (buf : List UInt8)
    (hread : ∀ i ∈ hs ++ [.chunk c buf], i.Readable)
    (hfresh : Run.Along World.after FreshDescriptors (startup e) hs)
    (hclient : c.fd ∈ (Run.run World.after (startup e) hs).clients.clientor20socks) :
    let w := Run.run World.after (startup e) hs
    NothingAfterClose c.fd buf w ↔
      ((finished isLineEnd (w.remainder.take w.remlen ++ buf)).filter (· ≠ [])).length ≤ 1 := by
  intro w
  obtain ⟨hreads, hlast⟩ := List.forall_mem_append.mp hread
  have hfd : 0 ≤ c.fd := hlast _ (List.mem_singleton_self _)
  have hclients : (startup e).clients = initClient := congrArg Sockets.clients (sockets_startup e)
  have hplaced : Placed w.sockets := placed_run hclients hreads hfresh
  have hpending : Pending w.remlen w := pending_run e hs
  have hempty : w.remlen = 0 ↔ w.remainder.take w.remlen = [] := by
    have hroom : 0 < w.remainder.length := lt_of_lt_of_le (by decide) hpending.room
    rw [List.take_eq_nil_iff, ← List.length_eq_zero_iff]
    omega
  rw [hpending.nothingAfterClose_iff hplaced (by omega) hclient, linesRun_eq buf hpending.noEnd hempty]

/-- Two commands in one chunk: the second is executed for the closed client. -/
theorem second_line_after_close :
    let w := Run.run World.after (startup (stillSetup false)) [.accept 2 6]
    6 ∈ w.clients.clientor20socks ∧ ¬ NothingAfterClose 6 (cstr "st\nst\n") w := by
  intro w
  refine ⟨by decide, fun h => ?_⟩
  obtain ⟨hlines, -⟩ := h (cstr "st\n") (cstr "st\n") (by decide) (by decide)
  exact absurd hlines (by decide)

/-- One command in one chunk. -/
theorem nothing_after_close_one :
    NothingAfterClose 6 (cstr "st\n") (Run.run World.after (startup (stillSetup false)) [.accept 2 6]) :=
  (nothing_after_close (stillSetup false) [.accept 2 6] ⟨0, 6⟩ (cstr "st\n") (by decide)
    (by decide) (by decide)).mpr (by decide)

end Mochad
