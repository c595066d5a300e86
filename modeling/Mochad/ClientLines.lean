import Mochad.Daemon
import Mochad.Lib.Lines
import Mochad.Lib.Run
import Mochad.Writes

/-!
# Mochad.ClientLines

From the bytes of a client to the lines passed to `processcommandline`.

However the stream of a single client is cut into chunks, its lines are passed on
and its unfinished line is saved (`encodeChunks_lines`).

The buffer `cm15a_encode` keeps an unfinished line in is shared by all clients.
As long as a chunk only arrives while no other client has an unfinished line,
each client's lines are the lines of its own stream (`client_lines`); a client
that hangs up in the middle of a line leaves it to the next one
(`line_left_behind`).
-/

namespace Mochad

open CString Lines

/-! ## The buffer -/

/-- The buffer holds an unfinished line. -/
structure Holds (line : Text) (w : World) : Prop where
  remlen : w.remlen = line.length
  take_remainder : w.remainder.take line.length = line
  room : remainderSize ≤ w.remainder.length

/-- A step that does not touch the buffer and passes no line. -/
structure SameBuffer (w w' : World) : Prop where
  remainder : w'.remainder = w.remainder
  remlen : w'.remlen = w.remlen
  lines : w'.lines = w.lines

/-- The configuration includes the buffer. -/
theorem SameBuffer.of_config {w w' : World} (h : w'.config = w.config) : SameBuffer w w' :=
  ⟨congrArg Config.remainder h, congrArg Config.remlen h, congrArg Config.lines h⟩

theorem SameBuffer.trans {a b c : World} (h : SameBuffer a b) (h' : SameBuffer b c) : SameBuffer a c :=
  ⟨h'.remainder.trans h.remainder, h'.remlen.trans h.remlen, h'.lines.trans h.lines⟩

/-- A line that is held stays held while the buffer stays. -/
theorem Holds.same {line : Text} {w w' : World} (h : Holds line w) (hs : SameBuffer w w') :
    Holds line w' where
  remlen := hs.remlen.trans h.remlen
  take_remainder := hs.remainder ▸ h.take_remainder
  room := hs.remainder ▸ h.room

/-- Removing a client leaves what it began in the buffer. -/
theorem sameBuffer_delClient (fd : Int) (w : World) : SameBuffer w (w.delClient fd).2 := by
  obtain ⟨clients, sockPort, io, h⟩ := w.delClient_eq fd
  rw [h]
  exact ⟨rfl, rfl, rfl⟩

/-- A command leaves the line it was taken from alone. -/
theorem sameBuffer_processcommandline (fd : Int) (aLine : Text) (w : World) :
    SameBuffer w (processcommandline fd aLine w).2.2 := by
  obtain ⟨rfToRf16, h⟩ := processcommandline_config fd aLine w
  exact ⟨congrArg Config.remainder h, congrArg Config.remlen h, congrArg Config.lines h⟩

/-- A line without an end of line ends at the zero byte behind it. -/
theorem cString_append_zero {line : Text} (h : ∀ b ∈ line, isLineEnd b = false) (rest : List UInt8) :
    cString (line ++ 0 :: rest) = line := by
  refine cString_append_nul ?_ rest
  rintro b hb rfl
  cases h 0 hb

/-- A line that is not empty is executed; the parser leaves words in the buffer,
which keeps its size, and an OpenRemote 2.0 client is closed. -/
theorem runRemainder_run (fd : Int) {w : World} (hne : cString w.remainder ≠ []) :
    let u := (processcommandline fd (cString w.remainder)
      { w with lines := w.lines ++ [(fd, cString w.remainder)] }).2.2
    ∃ remainder, w.remainder.length ≤ remainder.length ∧
      w.runRemainder fd =
        if u.or20client fd then (World.delClient fd { u with remainder := remainder }).2
        else { u with remainder := remainder } := by
  have hsame := sameBuffer_processcommandline fd (cString w.remainder)
    { w with lines := w.lines ++ [(fd, cString w.remainder)] }
  unfold World.runRemainder
  simp only [hne, ne_eq, not_false_eq_true, if_true]
  revert hsame
  rcases processcommandline fd (cString w.remainder)
    { w with lines := w.lines ++ [(fd, cString w.remainder)] } with ⟨rc, t, v⟩
  intro hsame
  refine ⟨t.buffer ++ v.remainder.drop t.buffer.length, ?_, rfl⟩
  have hrem : v.remainder = w.remainder := hsame.remainder
  rw [List.length_append, List.length_drop, hrem]
  omega

/-- A complete line is passed on, unless it is empty. -/
theorem runRemainder_lines {line : Text} {rest : List UInt8} (hline : ∀ b ∈ line, isLineEnd b = false)
    (fd : Int) {w : World} (hrem : w.remainder = line ++ 0 :: rest)
    (hroom : remainderSize ≤ w.remainder.length) :
    (w.runRemainder fd).lines = w.lines ++ ([line].filter (· ≠ [])).map (fd, ·) ∧
      remainderSize ≤ (w.runRemainder fd).remainder.length := by
  have hc : cString w.remainder = line := by rw [hrem, cString_append_zero hline]
  by_cases hne : line = []
  · have hskip : w.runRemainder fd = w := if_neg (by simpa [hc] using hne)
    rw [hskip]
    exact ⟨by simp [hne], hroom⟩
  have hfilter : ([line].filter (· ≠ [])).map (fd, ·) = [(fd, line)] := by simp [hne]
  have hsame := sameBuffer_processcommandline fd (cString w.remainder)
    { w with lines := w.lines ++ [(fd, cString w.remainder)] }
  obtain ⟨remainder, hlen, hrun⟩ := @runRemainder_run fd w (hc ▸ hne)
  have hkept := hroom.trans hlen
  rw [hfilter, hrun, ← hc]
  split
  · have hdel := sameBuffer_delClient fd { (processcommandline fd (cString w.remainder)
      { w with lines := w.lines ++ [(fd, cString w.remainder)] }).2.2 with remainder := remainder }
    exact ⟨hdel.lines.trans hsame.lines, hdel.remainder ▸ hkept⟩
  · exact ⟨hsame.lines, hkept⟩

/-- A byte behind an unfinished line. -/
theorem set_remainder {line : Text} {w : World} (htake : w.remainder.take line.length = line)
    (hlen : line.length < w.remainder.length) (c : UInt8) :
    w.remainder.set line.length c = line ++ c :: w.remainder.drop (line.length + 1) := by
  rw [List.set_eq_take_append_cons_drop, if_pos hlen, htake]

/-- A byte stored behind the held line extends it. -/
theorem take_storeRemainder {line : Text} {w : World} (htake : w.remainder.take line.length = line)
    (hlen : line.length < w.remainder.length) (b : UInt8) :
    (w.storeRemainder line.length b).remainder.take (line.length + 1) = line ++ [b] := by
  rw [World.storeRemainder_remainder, set_remainder htake hlen, ← List.singleton_append,
    ← List.append_assoc]
  exact List.take_left' (by simp)

/-- A line end finishes the line in the buffer. -/
theorem lineEnd_lines {line : Text} {w : World} (hline : ∀ b ∈ line, isLineEnd b = false)
    (htake : w.remainder.take line.length = line) (hlen : line.length < w.remainder.length)
    (hroom : remainderSize ≤ w.remainder.length) (fd : Int) (b : UInt8) :
    let v := ((w.storeRemainder line.length b).storeRemainder line.length 0).runRemainder fd
    v.lines = w.lines ++ ([line].filter (· ≠ [])).map (fd, ·) ∧
      remainderSize ≤ v.remainder.length := by
  refine @runRemainder_lines line (w.remainder.drop (line.length + 1)) hline fd _ ?_ ?_
  · rw [World.storeRemainder_remainder, World.storeRemainder_remainder, List.set_set,
      set_remainder htake hlen]
  · simpa using hroom

/-- The loop passes on the finished lines, and ends behind the unfinished one. -/
theorem encodeLoop_lines (fd : Int) (buf : List UInt8) {line : Text} {w : World}
    (hline : ∀ b ∈ line, isLineEnd b = false) (htake : w.remainder.take line.length = line)
    (hroom : remainderSize ≤ w.remainder.length) (hshort : Short isLineEnd 79 (line ++ buf)) :
    let r := encodeLoop fd buf line.length w
    r.2.lines = w.lines ++ ((finished isLineEnd (line ++ buf)).filter (· ≠ [])).map (fd, ·) ∧
      r.1 = (unfinished isLineEnd (line ++ buf)).length ∧
      r.2.remainder.take r.1 = unfinished isLineEnd (line ++ buf) ∧
      remainderSize ≤ r.2.remainder.length := by
  induction buf generalizing line w with
  | nil =>
      simp only [List.append_nil, finished_of_forall hline, unfinished_of_forall hline, encodeLoop]
      exact ⟨by simp, trivial, htake, hroom⟩
  | cons b buf ih =>
      have hlen : line.length < w.remainder.length := by
        have hl := (short_iff.mp hshort.of_append).2
        rw [unfinished_of_forall hline] at hl
        exact lt_of_lt_of_le (Nat.lt_succ_of_le hl) hroom
      simp only [encodeLoop]
      cases hb : isLineEnd b with
      | true =>
          obtain ⟨hlines, hroom'⟩ := lineEnd_lines hline htake hlen hroom fd b
          have hrest : Short isLineEnd 79 ([] ++ buf) := by
            rw [← List.singleton_append, ← List.append_assoc] at hshort
            have := hshort.unfinished_append
            rwa [unfinished_append_cons hb, unfinished_nil] at this
          have hfin : finished isLineEnd (line ++ b :: buf) = line :: finished isLineEnd buf := by
            rw [finished_append_cons hb, finished_of_forall hline, unfinished_of_forall hline,
              List.nil_append]
          obtain ⟨h1, h2, h3, h4⟩ := @ih [] _ (by simp) (by simp) hroom' hrest
          rw [hfin, unfinished_append_cons hb line buf]
          refine ⟨?_, h2, h3, h4⟩
          rw [← List.singleton_append, List.filter_append, List.map_append, ← List.append_assoc]
          exact h1.trans (congrArg (· ++ _) hlines)
      | false =>
          have hclean : ∀ c ∈ line ++ [b], isLineEnd c = false := by
            simpa [or_imp, forall_and, hb] using hline
          have hlen' : (line ++ [b]).length = line.length + 1 := by simp
          have happ : line ++ b :: buf = line ++ [b] ++ buf := by simp
          rw [happ] at hshort ⊢
          have := ih hclean (hlen' ▸ take_storeRemainder htake hlen b) (by simpa using hroom) hshort
          rwa [hlen'] at this

/-- A chunk of the client whose line the buffer holds. -/
theorem cm15aEncode_lines (fd : Int) (buf : List UInt8) {line : Text} {w : World}
    (hline : ∀ b ∈ line, isLineEnd b = false) (hholds : Holds line w)
    (hshort : Short isLineEnd 79 (line ++ buf)) :
    (cm15aEncode fd buf w).lines =
        w.lines ++ ((finished isLineEnd (line ++ buf)).filter (· ≠ [])).map (fd, ·) ∧
      Holds (unfinished isLineEnd (line ++ buf)) (cm15aEncode fd buf w) := by
  obtain ⟨hlines, hlen, htake, hroom⟩ :=
    encodeLoop_lines fd buf hline hholds.take_remainder hholds.room hshort
  rw [← hholds.remlen] at hlines hlen htake hroom
  exact ⟨hlines, hlen, hlen ▸ htake, hroom⟩

/-! ## One client -/

/-- The chunks of a client, in order. -/
def encodeChunks (fd : Int) (w : World) (chunks : List (List UInt8)) : World :=
  Run.run (fun w buf => cm15aEncode fd buf w) w chunks

/-- Chunking does not matter: however a stream with short lines is cut, the lines
passed on are its finished non-empty ones, and what is saved is the unfinished
line. -/
theorem encodeChunks_lines (fd : Int) (w₀ : World) (hempty : w₀.remlen = 0)
    (hroom : remainderSize ≤ w₀.remainder.length) (chunks : List (List UInt8))
    (hshort : Short isLineEnd 79 chunks.flatten) :
    let w := encodeChunks fd w₀ chunks
    w.lines =
        w₀.lines ++ ((finished isLineEnd chunks.flatten).filter (· ≠ [])).map (fd, ·) ∧
      w.remainder.take w.remlen = unfinished isLineEnd chunks.flatten := by
  suffices h : (encodeChunks fd w₀ chunks).lines =
        w₀.lines ++ ((finished isLineEnd chunks.flatten).filter (· ≠ [])).map (fd, ·) ∧
      Holds (unfinished isLineEnd chunks.flatten) (encodeChunks fd w₀ chunks) from
    ⟨h.1, h.2.remlen ▸ h.2.take_remainder⟩
  induction chunks using List.reverseRecOn with
  | nil => exact ⟨by simp [encodeChunks], hempty, by simp, hroom⟩
  | append_singleton chunks buf ih =>
      have hflat : (chunks ++ [buf]).flatten = chunks.flatten ++ buf := by simp
      rw [hflat] at hshort ⊢
      obtain ⟨hlines, hholds⟩ := ih hshort.of_append
      obtain ⟨hnew, hheld⟩ := cm15aEncode_lines fd buf (forall_mem_unfinished chunks.flatten) hholds
        hshort.unfinished_append
      rw [← unfinished_append] at hheld
      rw [encodeChunks, Run.run_append]
      refine ⟨?_, hheld⟩
      rw [finished_append, List.filter_append, List.map_append, ← List.append_assoc, ← hlines]
      exact hnew

/-- A command cut in three, with the start of another. -/
theorem encodeChunks_lines_three :
    (encodeChunks 5 (worldInit (stillSetup false)) [cstr "p", cstr "l a1 o", cstr "n\r\nst"]).lines =
      [(5, cstr "pl a1 on")] :=
  (encodeChunks_lines 5 (worldInit (stillSetup false)) rfl (by decide)
    [cstr "p", cstr "l a1 o", cstr "n\r\nst"] (by unfold Short; decide)).1.trans (by decide)

/-! ## All clients -/

/-- A connection.  Descriptors are used again after a disconnect. -/
structure Client where
  id : Nat
  fd : Int
deriving DecidableEq, Repr

/-- What happens to the daemon. -/
inductive Happening where
  | accept (listener : Fin 3) (clifd : Int)
  /-- `read` returns bytes of a client. -/
  | chunk (c : Client) (buf : List UInt8)
  /-- `read` returns end of file, or an error. -/
  | disconnect (c : Client) (error : Bool)
  | packet (buf : Ptr) (len : Nat)
  | timeout

/-- What the daemon does, with the lines it passes on for a client. -/
def happen (w : World) : Happening → World × List (Client × Int × Text)
  | .accept listener clifd =>
      let add := [addClient, addXmlclient, addOr20client].get listener
      (acceptClient listener add clifd w, [])
  | .chunk c buf =>
      let w' := serveClient c.fd (.data buf) w
      (w', (w'.lines.drop w.lines.length).map fun line => (c, line))
  | .disconnect c error => (serveClient c.fd (if error then .err else .eof) w, [])
  | .packet buf len => (cm15aDecode (-1) buf len w, [])
  | .timeout => (w.sendNextX10out, [])

/-- The bytes a client has sent. -/
def stream (c : Client) (hs : List Happening) : List UInt8 :=
  hs.flatMap fun
    | .chunk c' buf => if c' = c then buf else []
    | _ => []

/-- The lines passed on for a client. -/
def linesFor (c : Client) (out : List (Client × Int × Text)) : List (Int × Text) :=
  out.filterMap fun x => if x.1 = c then some x.2 else none

/-- The lines to pass on for a client: the finished non-empty ones of its stream. -/
def ownLines (c : Client) (hs : List Happening) : List (Int × Text) :=
  ((finished isLineEnd (stream c hs)).filter (· ≠ [])).map (c.fd, ·)

/-- A chunk only arrives while no other client, connected or not, has an
unfinished line. -/
def Undisturbed (hs : List Happening) : Prop :=
  ∀ earlier c buf later, hs = earlier ++ .chunk c buf :: later →
    ∀ c', c' ≠ c → unfinished isLineEnd (stream c' earlier) = []

section
variable {hs : List Happening} {h : Happening}

/-- A run that is not disturbed was not disturbed before its last event. -/
theorem Undisturbed.of_concat (hu : Undisturbed (hs ++ [h])) : Undisturbed hs := by
  intro earlier c buf later heq
  exact hu earlier c buf (later ++ [h]) (by simp [heq])

/-- The stream of a client over one more event. -/
theorem stream_concat (c : Client) (hs : List Happening) (h : Happening) :
    stream c (hs ++ [h]) = stream c hs ++ stream c [h] := by
  simp [stream]

/-- A chunk is the stream of its own client. -/
theorem stream_chunk_self (c : Client) (buf : List UInt8) : stream c [.chunk c buf] = buf := by
  simp [stream]

/-- A chunk adds nothing to the stream of another client. -/
theorem stream_chunk_other {c c' : Client} (hne : c' ≠ c) (buf : List UInt8) :
    stream c' [.chunk c buf] = [] := by
  simp [stream, Ne.symm hne]

/-- Lines run for one client are its lines. -/
theorem linesFor_self (c : Client) (lines : List (Int × Text)) :
    linesFor c (lines.map fun line => (c, line)) = lines := by
  simp [linesFor, List.filterMap_map]

/-- They are no other client's lines. -/
theorem linesFor_other {c c' : Client} (hne : c' ≠ c) (lines : List (Int × Text)) :
    linesFor c' (lines.map fun line => (c, line)) = [] := by
  simp [linesFor, List.filterMap_map, Ne.symm hne]

/-- Whatever is no chunk leaves the buffer alone. -/
theorem happen_other (hne : ∀ c buf, h ≠ .chunk c buf) (w : World) :
    SameBuffer w (happen w h).1 ∧ (happen w h).2 = [] ∧ ∀ c, stream c [h] = [] := by
  cases h with
  | chunk c buf => exact absurd rfl (hne c buf)
  | accept listener clifd =>
      obtain ⟨clients, sockPort, h⟩ :=
        acceptClient_eq listener ([addClient, addXmlclient, addOr20client].get listener) clifd w
      refine ⟨?_, rfl, fun _ => rfl⟩
      rw [happen, h]
      exact ⟨rfl, rfl, rfl⟩
  | disconnect c error =>
      refine ⟨?_, rfl, fun _ => rfl⟩
      have hclose : SameBuffer w (w.close c.fd) := ⟨rfl, rfl, rfl⟩
      have hdel := hclose.trans (sameBuffer_delClient c.fd (w.close c.fd))
      cases error <;> exact hdel
  | packet buf len => exact ⟨.of_config (emits_decode (-1) buf len w).config, rfl, fun _ => rfl⟩
  | timeout => exact ⟨⟨rfl, rfl, rfl⟩, rfl, fun _ => rfl⟩

/-- The buffer holds the unfinished line of the only client that has one, and
every client got its lines. -/
def Separated (hs : List Happening) (w : World) (out : List (Client × Int × Text)) : Prop :=
  (∃ c, Holds (unfinished isLineEnd (stream c hs)) w ∧
    ∀ c', c' ≠ c → unfinished isLineEnd (stream c' hs) = []) ∧
  ∀ c, linesFor c out = ownLines c hs

/-- An event without a chunk keeps the streams separated. -/
theorem Separated.other {w : World} {out : List (Client × Int × Text)} (hsep : Separated hs w out)
    (hne : ∀ c buf, h ≠ .chunk c buf) : Separated (hs ++ [h]) (happen w h).1 (out ++ (happen w h).2) := by
  obtain ⟨hsame, hout, hstream⟩ := happen_other hne w
  have hstream : ∀ c, stream c (hs ++ [h]) = stream c hs := fun c => by
    rw [stream_concat, hstream, List.append_nil]
  obtain ⟨⟨c, hholds, hothers⟩, hlines⟩ := hsep
  rw [hout, List.append_nil]
  refine ⟨⟨c, ?_, fun c' hc' => ?_⟩, fun c' => ?_⟩
  · rw [hstream]
    exact hholds.same hsame
  · rw [hstream]
    exact hothers c' hc'
  · rw [ownLines, hstream]
    exact hlines c'

/-- So does a chunk, when no other client has a line begun and no line is too long. -/
theorem Separated.chunk {w : World} {out : List (Client × Int × Text)} (hsep : Separated hs w out)
    {c : Client} {buf : List UInt8} (hothers : ∀ c', c' ≠ c → unfinished isLineEnd (stream c' hs) = [])
    (hshort : Short isLineEnd 79 (stream c hs ++ buf)) :
    Separated (hs ++ [.chunk c buf]) (happen w (.chunk c buf)).1
      (out ++ (happen w (.chunk c buf)).2) := by
  obtain ⟨⟨c₀, hholds, hothers₀⟩, hlines⟩ := hsep
  have hline : unfinished isLineEnd (stream c₀ hs) = unfinished isLineEnd (stream c hs) := by
    by_cases hc : c₀ = c
    · rw [hc]
    · rw [hothers c₀ hc, hothers₀ c (Ne.symm hc)]
  rw [hline] at hholds
  obtain ⟨hnew, hheld⟩ := cm15aEncode_lines c.fd buf (forall_mem_unfinished (stream c hs)) hholds
    hshort.unfinished_append
  rw [← unfinished_append] at hheld
  have hout : (happen w (.chunk c buf)).2 =
      (((finished isLineEnd (unfinished isLineEnd (stream c hs) ++ buf)).filter (· ≠ [])).map
        (c.fd, ·)).map fun line => (c, line) := by
    simp only [happen, serveClient, hnew, List.drop_left]
  refine ⟨⟨c, ?_, fun c' hc' => ?_⟩, fun c' => ?_⟩
  · rw [stream_concat, stream_chunk_self]
    exact hheld
  · rw [stream_concat, stream_chunk_other hc', List.append_nil]
    exact hothers c' hc'
  · rw [linesFor, List.filterMap_append, ← linesFor, ← linesFor, hlines, hout, ownLines, ownLines,
      stream_concat]
    by_cases hc : c' = c
    · subst hc
      rw [stream_chunk_self, finished_append (stream c' hs) buf, List.filter_append, List.map_append, linesFor_self]
    · rw [stream_chunk_other hc, List.append_nil, linesFor_other hc, List.append_nil]

end

/-- Client isolation, while the clients do not disturb each other: the lines
passed on for a client are the finished non-empty lines of its own stream, in
order, however the streams are cut and interleaved. -/
theorem client_lines (w₀ : World) (hempty : w₀.remlen = 0)
    (hroom : remainderSize ≤ w₀.remainder.length) (hs : List Happening)
    (hshort : ∀ c, Short isLineEnd 79 (stream c hs)) (hu : Undisturbed hs) (c : Client) :
    linesFor c (Run.trace happen w₀ hs).2 = ownLines c hs := by
  suffices hsep : Separated hs (Run.trace happen w₀ hs).1 (Run.trace happen w₀ hs).2 from hsep.2 c
  induction hs using List.reverseRecOn with
  | nil =>
      refine ⟨⟨⟨0, 0⟩, ⟨hempty, by simp [stream], hroom⟩, fun _ _ => rfl⟩, fun _ => rfl⟩
  | append_singleton hs h ih =>
      have hsep := ih (fun c => (stream_concat c hs h ▸ hshort c).of_append) hu.of_concat
      rw [Run.trace_concat]
      cases h with
      | chunk c' buf =>
          refine hsep.chunk (hu hs c' buf [] rfl) ?_
          have := hshort c'
          rwa [stream_concat, stream_chunk_self] at this
      | accept listener clifd => exact hsep.other (by rintro _ _ ⟨⟩)
      | disconnect c' error => exact hsep.other (by rintro _ _ ⟨⟩)
      | packet buf len => exact hsep.other (by rintro _ _ ⟨⟩)
      | timeout => exact hsep.other (by rintro _ _ ⟨⟩)

/-- Two clients that take turns at whole lines. -/
theorem client_lines_turns :
    linesFor ⟨1, 6⟩ (Run.trace happen (worldInit (stillSetup false))
      [.chunk ⟨0, 5⟩ (cstr "pl a1 on\n"), .chunk ⟨1, 6⟩ (cstr "s"), .chunk ⟨1, 6⟩ (cstr "t\n")]).2 =
      [(6, cstr "st")] := by
  refine (client_lines (worldInit (stillSetup false)) rfl (by decide) _ ?_ ?_ ⟨1, 6⟩).trans (by decide)
  · intro c
    by_cases h0 : c = ⟨0, 5⟩
    · subst h0
      unfold Short
      decide
    by_cases h1 : c = ⟨1, 6⟩
    · subst h1
      unfold Short
      decide
    · simp [stream, Short, Ne.symm h0, Ne.symm h1]
  · intro earlier c buf later heq c' hc'
    obtain _ | ⟨x, _ | ⟨y, _ | ⟨z, earlier⟩⟩⟩ := earlier
    · rfl
    · simp only [List.cons_append, List.nil_append, List.cons.injEq, Happening.chunk.injEq] at heq
      obtain ⟨rfl, ⟨rfl, rfl⟩, rfl⟩ := heq
      by_cases h0 : c' = ⟨0, 5⟩
      · subst h0
        decide
      · simp [stream, Ne.symm h0]
    · simp only [List.cons_append, List.nil_append, List.cons.injEq, Happening.chunk.injEq] at heq
      obtain ⟨rfl, rfl, ⟨rfl, rfl⟩, rfl⟩ := heq
      by_cases h0 : c' = ⟨0, 5⟩
      · subst h0
        decide
      · simp [stream, Ne.symm h0, Ne.symm hc']
    · simp at heq

/-- A client that hangs up in the middle of a line leaves it to the next one. -/
theorem line_left_behind :
    let hs := [.chunk ⟨0, 5⟩ (cstr "pl a1 o"), .disconnect ⟨0, 5⟩ false, .chunk ⟨1, 6⟩ (cstr "st\n")]
    linesFor ⟨1, 6⟩ (Run.trace happen (worldInit (stillSetup false)) hs).2 = [(6, cstr "pl a1 ost")] ∧
      ownLines ⟨1, 6⟩ hs = [(6, cstr "st")] := by
  decide

end Mochad
