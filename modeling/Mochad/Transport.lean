import Mochad.Core

/-!
# Mochad.Transport

The sockets only carry lines: whatever clients connect, send and hang up, the
daemon works like one without clients that is handed the same lines.
-/

namespace Mochad

open CString

/-! ## The daemon without clients -/

/-- What the daemon works on. -/
inductive Job where
  | line (aLine : Text)
  | packet (buf : Ptr) (len : Nat)
  | timeout

/-- A line is handed to `processcommandline` with descriptor 0, as `receiver` does
with a command from the message queue. -/
def World.feed (w : World) : Job → World
  | .line aLine => (processcommandline 0 aLine w).2.2
  | .packet buf len => cm15aDecode (-1) buf len w
  | .timeout => w.sendNextX10out

/-- What a happening comes to: packets and timeouts themselves, and the lines that
are executed. -/
def jobs (w : World) : Happening → List Job
  | .packet buf len => [.packet buf len]
  | .timeout => [.timeout]
  | i => ((w.after i).lines.drop w.lines.length).map fun l => .line l.2

/-- The jobs of a run. -/
def runJobs (w : World) (is : List Happening) : List Job := (Run.trace (fun w i => (w.after i, jobs w i)) w is).2

/-! ## Steps -/

/-- A text is published if it is for everybody. -/
theorem published_sockprintfIo (fd : Int) (text : Text) (w : World) :
    published (World.sockprintfIo fd text w) = if fd = -1 then [text] else [] := by
  unfold World.sockprintfIo
  by_cases hfd : fd = -1
  · rw [if_neg (not_not_intro hfd), if_pos hfd, published_append, published_sendAll]
    change text :: published (World.sendAll _ _) ++ [] = _
    rw [published_sendAll]
    rfl
  · rw [if_pos hfd, if_neg hfd]
    rfl

/-- An acknowledgement is not published. -/
theorem published_ackOr20 (fd : Int) (w : World) : published (ackOr20 fd w).io = published w.io := by
  unfold ackOr20
  split
  · exact (published_append ..).trans (List.append_nil _)
  · rfl

/-- Only the messages are looked at, and one client is as good as another. -/
def messagesOnly : Observer where
  same o o' := published o.io = published o'.io
  sender fd fd' := fd = -1 ↔ fd' = -1
  everybody := Iff.rfl
  sockprintf := by
    intro w v fd fd' h hfd text
    change published w.io = published v.io at h
    change published (w.io ++ _) = published (v.io ++ _)
    rw [published_append, published_append, published_sockprintfIo, published_sockprintfIo, h,
      if_congr hfd rfl rfl]
  statusprintf := by
    intro w v fd fd' h _ text
    change published (w.io ++ [.send fd text]) = published (v.io ++ [.send fd' text])
    rw [published_append, published_append]
    exact congrArg (· ++ []) h
  sendMessage := by
    intro w v h text
    change published (w.io ++ [.sendMessage text]) = published (v.io ++ [.sendMessage text])
    rw [published_append, published_append]
    exact congrArg (· ++ _) h
  ackOr20 := by
    intro w v fd fd' h _
    exact (published_ackOr20 fd w).trans (h.trans (published_ackOr20 fd' v).symm)

/-- The same daemon with other clients. -/
abbrev SameWork (w v : World) : Prop := Alike messagesOnly w v

theorem SameWork.refl (w : World) : SameWork w w := ⟨rfl, rfl⟩

theorem SameWork.trans {a b c : World} (h : SameWork a b) (h' : SameWork b c) : SameWork a c :=
  ⟨h.core.trans h'.core, Eq.trans h.outer h'.outer⟩

/-! ### Connections -/

/-- Nothing is sent. -/
structure NothingSent (w w' : World) : Prop where
  messages : published w'.io = published w.io
  sent : ∀ fd, sentTo fd w'.io = sentTo fd w.io

/-- Output without messages and texts sends nothing. -/
theorem NothingSent.of_append {w w' : World} {io : List Io} (hio : w'.io = w.io ++ io) (hmessages : published io = [])
    (hsent : ∀ fd, sentTo fd io = []) : NothingSent w w' where
  messages := by rw [hio, published_append, hmessages, List.append_nil]
  sent := fun fd => by rw [hio, sentTo_append, hsent, List.append_nil]

/-- Closing a descriptor sends nothing. -/
theorem nothingSent_close (fd : Int) (w : World) : NothingSent w (w.close fd) :=
  .of_append (w.close_io fd) rfl fun _ => rfl

/-- Nor does removing a client. -/
theorem nothingSent_delClient (fd : Int) (w : World) : NothingSent w (w.delClient fd).2 := by
  obtain ⟨-, heq⟩ | ⟨k, i, -, heq⟩ := delClient_cases fd w
  · rw [heq]
    exact ⟨rfl, fun _ => rfl⟩
  · rw [heq]
    by_cases hk : k = 2
    · rw [if_pos hk]
      have hio : ((w.emit (.shutdown fd)).close fd).io = w.io ++ [.shutdown fd, .close fd] := by simp
      exact .of_append hio rfl fun _ => rfl
    · rw [if_neg hk]
      exact ⟨rfl, fun _ => rfl⟩

theorem nothingSent_acceptClient (k : Nat) (add : Int → Clients → Int × Clients) (clifd : Int) (w : World) :
    NothingSent w (acceptClient k add clifd w) := by
  obtain ⟨clients, sockPort, heq⟩ := acceptClient_eq k add clifd w
  rw [heq]
  exact ⟨rfl, fun _ => rfl⟩

/-- Removing a client leaves the work alone. -/
theorem core_delClient (fd : Int) (w : World) : (w.delClient fd).2.core = w.core := by
  obtain ⟨clients, sockPort, io, heq⟩ := w.delClient_eq fd
  rw [heq]
  rfl

theorem core_acceptClient (k : Nat) (add : Int → Clients → Int × Clients) (clifd : Int) (w : World) :
    (acceptClient k add clifd w).core = w.core := by
  obtain ⟨clients, sockPort, heq⟩ := acceptClient_eq k add clifd w
  rw [heq]
  rfl

/-- Closing a descriptor is no work. -/
theorem sameWork_close (fd : Int) (w : World) : SameWork w (w.close fd) :=
  ⟨rfl, (nothingSent_close fd w).messages.symm⟩

/-- Nor is removing a client. -/
theorem sameWork_delClient (fd : Int) (w : World) : SameWork w (w.delClient fd).2 :=
  ⟨(core_delClient fd w).symm, (nothingSent_delClient fd w).messages.symm⟩

theorem sameWork_acceptClient (k : Nat) (add : Int → Clients → Int × Clients) (clifd : Int) (w : World) :
    SameWork w (acceptClient k add clifd w) :=
  ⟨(core_acceptClient k add clifd w).symm, (nothingSent_acceptClient k add clifd w).messages.symm⟩

/-! ### Lines -/

/-- The lines that are executed make up for the input of a client. -/
def Carried (fd : Int) (v w w' : World) : Prop :=
  ∃ lines : List Text, w'.lines = w.lines ++ lines.map (fd, ·) ∧
    SameWork (Run.run World.feed v (lines.map .line)) w'

/-- Without a line there is nothing to make up for. -/
theorem Carried.of_sameWork {fd : Int} {v w w' : World} (h : SameWork v w') (hlines : w'.lines = w.lines) :
    Carried fd v w w' := ⟨[], by rw [hlines, List.map_nil, List.append_nil], h⟩

/-- A line in the buffer is executed. -/
theorem carried_runRemainder {fd : Int} (hfd : fd ≠ -1) {v w : World} (h : SameWork v w) :
    Carried fd v w (w.runRemainder fd) := by
  by_cases hne : cString w.remainder = []
  · have hskip : w.runRemainder fd = w := if_neg (not_not_intro hne)
    exact .of_sameWork (hskip.symm ▸ h) (by rw [hskip])
  let aLine := cString w.remainder
  let w₁ : World := { w with lines := w.lines ++ [(fd, aLine)] }
  have h₁ : SameWork v w₁ := SameWork.trans h (@Alike.intro messagesOnly w _ _ _ _ _ _ _ rfl)
  have hsender : messagesOnly.sender 0 fd := iff_of_false (by decide) hfd
  have hrun : SameWork (v.feed (.line aLine)) (processcommandline fd aLine w₁).2.2 :=
    (sameCommand_processcommandline h₁ hsender aLine).world
  have hlines : (processcommandline fd aLine w₁).2.2.lines = w.lines ++ [(fd, aLine)] :=
    (sameBuffer_processcommandline fd aLine w₁).lines
  obtain ⟨remainder, -, heq⟩ := @runRemainder_run fd w hne
  have hafter : SameWork (v.feed (.line aLine))
      { (processcommandline fd aLine w₁).2.2 with remainder := remainder } :=
    SameWork.trans hrun (@Alike.intro messagesOnly _ _ _ _ _ _ _ _ rfl)
  refine ⟨[aLine], ?_, ?_⟩ <;> rw [heq] <;> split
  · exact (sameBuffer_delClient fd _).lines.trans hlines
  · exact hlines
  · exact SameWork.trans hafter (sameWork_delClient fd _)
  · exact hafter

/-- The lines of a chunk make up for its bytes. -/
theorem carried_encodeLoop {fd : Int} (hfd : fd ≠ -1) (buf : List UInt8) (remptr : Nat) {v w : World}
    (h : SameWork v w) : Carried fd v w (encodeLoop fd buf remptr w).2 := by
  induction buf generalizing remptr v w with
  | nil => exact .of_sameWork h rfl
  | cons b buf ih =>
      have hstore : ∀ b : UInt8, ∀ u : World, SameWork u (u.storeRemainder remptr b) := fun _ u =>
        @Alike.intro messagesOnly u _ _ _ _ _ _ _ rfl
      have hbyte := SameWork.trans h (hstore b w)
      rw [encodeLoop]
      split
      · obtain ⟨lines, hlines, hrun⟩ := carried_runRemainder hfd (SameWork.trans hbyte (hstore 0 _))
        obtain ⟨lines', hlines', hrun'⟩ := ih 0 hrun
        refine ⟨lines ++ lines', ?_, ?_⟩
        · rw [hlines', hlines, List.map_append, ← List.append_assoc]
          rfl
        · rw [List.map_append, Run.run_append]
          exact hrun'
      · exact ih (remptr + 1) hbyte

/-- A happening does what its jobs do to the daemon without clients. -/
theorem sameWork_after {v w : World} (h : SameWork v w) {i : Happening} (hreadable : i.Readable) :
    SameWork (Run.run World.feed v (jobs w i)) (w.after i) := by
  cases i with
  | packet buf len => exact alike_decode h buf len
  | timeout => exact h.sendNextX10out
  | accept k clifd =>
      have hnone : jobs w (.accept k clifd) = [] := by
        simp only [jobs]
        have hlines : (w.after (.accept k clifd)).lines = w.lines :=
          (happen_other (by rintro _ _ ⟨⟩) w).1.lines
        rw [hlines, List.drop_length, List.map_nil]
      rw [hnone]
      exact SameWork.trans h (sameWork_acceptClient k _ clifd w)
  | disconnect c error =>
      have hafter : w.after (.disconnect c error) = ((w.close c.fd).delClient c.fd).2 := by
        cases error <;> rfl
      have hnone : jobs w (.disconnect c error) = [] := by
        simp only [jobs, hafter]
        rw [(sameBuffer_delClient c.fd (w.close c.fd)).lines]
        exact congrArg _ List.drop_length
      rw [hnone, hafter]
      exact SameWork.trans (SameWork.trans h (sameWork_close c.fd w)) (sameWork_delClient c.fd _)
  | chunk c buf =>
      have hfd : c.fd ≠ -1 := by
        have hpos : 0 ≤ c.fd := hreadable
        omega
      obtain ⟨lines, hlines, hrun⟩ := carried_encodeLoop hfd buf w.remlen h
      have hjobs : jobs w (.chunk c buf) = lines.map .line := by
        have hlines : (w.after (.chunk c buf)).lines = w.lines ++ lines.map (c.fd, ·) := hlines
        simp only [jobs, hlines]
        rw [List.drop_left, List.map_map]
        rfl
      rw [hjobs]
      exact SameWork.trans hrun (@Alike.intro messagesOnly _ _ _ _ _ _ _ _ rfl)

/-- In every run, whatever clients connect, send and hang up, the daemon does what
one without clients does with the lines that are executed, between the same
packets and timeouts: it ends with the same tracked state, sensors, filter,
queue and switches, and has handed the same packets to the controller and the same
messages to `sendMessage`. -/
theorem clients_carry_lines (e : Setup) (is : List Happening) (hreadable : ∀ i ∈ is, i.Readable) :
    let w := Run.run World.after (startup e) is
    let v := Run.run World.feed (startup e) (runJobs (startup e) is)
    v.core = w.core ∧ published v.io = published w.io := by
  intro w v
  let I : List Job → World → Prop := fun js u => SameWork (Run.run World.feed (startup e) js) u
  have hstep : ∀ js u i, I js u → i.Readable → I (js ++ jobs u i) (u.after i) := by
    intro js u i h hi
    simp only [I, Run.run_append]
    exact sameWork_after h hi
  have hrun : I (runJobs (startup e) is) (Run.trace (fun w i => (w.after i, jobs w i)) (startup e) is).1 :=
    @Run.trace_invariant World Happening Job (fun w i => (w.after i, jobs w i)) _ I _
      (SameWork.refl (startup e)) hstep is (Run.along_of_forall hreadable)
  rw [Run.trace_fst] at hrun
  exact ⟨hrun.core, hrun.outer⟩

/-- A client connects, switches A1 on, and the controller acknowledges. -/
theorem clients_carry_lines_a1 :
    let is : List Happening := [.accept 0 5, .chunk ⟨0, 5⟩ (cstr "PL A1 ON\n"), .timeout]
    let w := Run.run World.after (startup (stillSetup false)) is
    let v := Run.run World.feed (startup (stillSetup false)) (runJobs (startup (stillSetup false)) is)
    (runJobs (startup (stillSetup false)) is).length = 2 ∧ v.core = w.core ∧
      published v.io = published w.io :=
  ⟨by decide +kernel, clients_carry_lines _ _ (by decide)⟩

end Mochad
