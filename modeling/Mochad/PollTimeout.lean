import Mochad.Daemon
import Mochad.Writes

/-!
# Mochad.PollTimeout

`PollTimeOut` against `Outbusy`.  A packet on its way to the controller is
given up after two seconds: `x10_write` sets the timeout of `poll` with
`Outbusy`, and `send_next_x10out` takes it back with it.  `mydaemon` sets
`PollTimeOut` to -1 once more after the controller has been initialised, when
the first packet for a CM19A is already on its way; `poll_timeout_iff` says
that this is what tells the two controllers apart.
-/

namespace Mochad

/-- `poll` waits with the 2 second timeout while a packet is on its way, and
without a timeout otherwise. -/
def TimeoutArmed (s : Fifo) : Prop :=
  (s.outbusy = true → s.pollTimeOut = 2 * 1000) ∧ (s.outbusy = false → s.pollTimeOut = -1)

/-! ## The FIFO -/

/-- Storing a buffer leaves the timeout. -/
theorem TimeoutArmed.addX10out {s : Fifo} (h : TimeoutArmed s) (buf : List UInt8) (buflen : Nat) :
    TimeoutArmed (addX10out buf buflen s).2 := by
  unfold Mochad.addX10out
  dsimp only
  split <;> exact h

/-- `x10_write` sets it when it sends. -/
theorem TimeoutArmed.x10Write {s : Fifo} (h : TimeoutArmed s) (buf : List UInt8) (buflen : Nat) :
    TimeoutArmed (Mochad.x10Write buf buflen s).2.1 := by
  unfold Mochad.x10Write
  split
  · exact h.addX10out buf buflen
  · exact ⟨fun _ => rfl, fun hb => by simp at hb⟩

/-- `send_next_x10out` clears it when nothing waits. -/
theorem TimeoutArmed.sendNextX10out {s : Fifo} (h : TimeoutArmed s) :
    TimeoutArmed (Mochad.sendNextX10out s).1 := by
  unfold Mochad.sendNextX10out
  split
  · split
    · exact ⟨fun hb => by simp at hb, fun _ => rfl⟩
    · exact h
  · exact h

theorem TimeoutArmed.feed {s : Fifo} (h : TimeoutArmed s) (bufs : List OutBuf) :
    TimeoutArmed (feed bufs s) := by
  induction bufs generalizing s with
  | nil => exact h
  | cons b bufs ih => exact ih (h.x10Write b.data b.len)

/-- A step that only feeds the FIFO keeps the timeout in step with it. -/
theorem Fed.timeoutArmed {P : OutBuf → Prop} {w w' : World} (he : Fed P w w')
    (h : TimeoutArmed w.fifo) : TimeoutArmed w'.fifo := by
  obtain ⟨bufs, -, -, hf⟩ := he
  rw [hf]
  exact h.feed bufs

/-! ## The parts of an iteration -/

/-- Any call of `x10_write` at all. -/
abbrev AnyBuf (_ : OutBuf) : Prop := True

theorem fed_any_processcommandline (fd : Int) (aLine : CString.Text) (w : World) :
    Fed AnyBuf w (processcommandline fd aLine w).2.2 :=
  fed_processcommandline_of (fun _ _ => trivial) fd fun t _ => (emits_ptCommand fd t w).fed

/-- Removing a client feeds it nothing. -/
theorem fed_delClient {P : OutBuf → Prop} (fd : Int) (w : World) :
    Fed P w (w.delClient fd).2 := by
  obtain ⟨clients, sockPort, io, h⟩ := w.delClient_eq fd
  rw [h]
  exact Fed.of_eq rfl rfl

/-- A remembered line feeds it. -/
theorem fed_runRemainder (fd : Int) (w : World) : Fed AnyBuf w (w.runRemainder fd) := by
  unfold World.runRemainder
  extract_lets aLine
  split
  · have hpass : Fed AnyBuf w { w with lines := w.lines ++ [(fd, aLine)] } := Fed.of_eq rfl rfl
    have hline := hpass.trans (fed_any_processcommandline fd aLine _)
    revert hline
    rcases processcommandline fd aLine { w with lines := w.lines ++ [(fd, aLine)] } with ⟨rc, t, v⟩
    intro hline
    have hbuf : Fed AnyBuf v
        { v with remainder := t.buffer ++ v.remainder.drop t.buffer.length } := Fed.of_eq rfl rfl
    dsimp only
    split
    · exact hline.trans (hbuf.trans (fed_delClient fd _))
    · exact hline.trans hbuf
  · exact Fed.of_eq rfl rfl

/-- So do the bytes of a chunk. -/
theorem fed_encodeLoop (fd : Int) (buf : List UInt8) (remptr : Nat) (w : World) :
    Fed AnyBuf w (encodeLoop fd buf remptr w).2 := by
  induction buf generalizing remptr w with
  | nil => exact Fed.of_eq rfl rfl
  | cons b buf ih =>
      have hstore : ∀ i c (v : World), Fed AnyBuf v (v.storeRemainder i c) := fun i c v =>
        Fed.of_eq rfl rfl
      simp only [encodeLoop]
      split
      · exact (hstore _ _ w).trans <| (hstore _ _ _).trans <| (fed_runRemainder fd _).trans (ih _ _)
      · exact (hstore _ _ w).trans (ih _ _)

/-- So does the whole chunk. -/
theorem fed_encode (fd : Int) (buf : List UInt8) (w : World) :
    Fed AnyBuf w (cm15aEncode fd buf w) := by
  have hloop := fed_encodeLoop fd buf w.remlen w
  exact hloop.trans (Fed.of_eq rfl rfl)

/-- So does whatever a client does. -/
theorem fed_serveClient (clifd : Int) (r : ReadResult) (w : World) :
    Fed AnyBuf w (serveClient clifd r w) := by
  have hclose : Fed AnyBuf w (w.close clifd) := Fed.of_eq rfl rfl
  cases r with
  | err => exact hclose.trans (fed_delClient clifd _)
  | eof => exact hclose.trans (fed_delClient clifd _)
  | data buf => exact fed_encode clifd buf w

theorem fed_scanClients (env : PollEnv) (i : Nat) (nready : Int) (w : World)
    (records : List Int) : Fed AnyBuf w (scanClients env i nready w records) := by
  induction records generalizing i nready w with
  | nil => exact Fed.of_eq rfl rfl
  | cons clifd records ih =>
      simp only [scanClients]
      split
      · split
        · exact fed_serveClient clifd (env.read i) w
        · exact (fed_serveClient clifd (env.read i) w).trans (ih _ _ _)
      · exact ih _ _ _

/-- A new client feeds it nothing. -/
theorem fed_acceptClient (k : Nat) (add : Int → Clients → Int × Clients) (clifd : Int)
    (w : World) : Fed AnyBuf w (acceptClient k add clifd w) := by
  obtain ⟨clients, sockPort, h⟩ := acceptClient_eq k add clifd w
  rw [h]
  exact Fed.of_eq rfl rfl

/-- A round feeds it by the clients. -/
theorem fed_serveSockets (env : PollEnv) (first : Nat) (records : List Int) (k : Nat)
    (adds : List (Int → Clients → Int × Clients)) (nready : Int) (w : World) :
    Fed AnyBuf w (serveSockets env first records k adds nready w) := by
  induction adds generalizing k nready w with
  | nil => exact fed_scanClients env first nready w records
  | cons add adds ih =>
      simp only [serveSockets]
      split
      · split
        · exact fed_acceptClient k add (env.accepted k) w
        · exact (fed_acceptClient k add (env.accepted k) w).trans (ih _ _ _)
      · exact ih _ _ _

/-! ## The main loop -/

/-- Whatever the controller sends keeps the timeout in step. -/
theorem TimeoutArmed.intrInCb {d : Daemon} (h : TimeoutArmed d.world.fifo) (transfer : Transfer) :
    TimeoutArmed (intrInCb transfer d).world.fifo := by
  cases transfer with
  | failed => exact h
  | completed buffer =>
      have hnext : TimeoutArmed
          (if buffer.length = 1 then d.world.sendNextX10out else d.world).fifo := by
        split
        · exact h.sendNextX10out
        · exact h
      exact (emits_decode _ _ _ _).fed.timeoutArmed hnext

/-- So do several transfers. -/
theorem TimeoutArmed.foldl_intrInCb {d : Daemon} (h : TimeoutArmed d.world.fifo)
    (transfers : List Transfer) :
    TimeoutArmed (transfers.foldl (fun d t => Mochad.intrInCb t d) d).world.fifo := by
  induction transfers generalizing d with
  | nil => exact h
  | cons t ts ih => exact ih (h.intrInCb t)

/-- So does one iteration of the main loop. -/
theorem TimeoutArmed.iterate {d : Daemon} (h : TimeoutArmed d.world.fifo) (env : PollEnv) :
    TimeoutArmed (iterate d env).world.fifo := by
  simp only [Mochad.iterate]
  split
  · exact h.sendNextX10out
  · refine (fed_serveSockets env _ _ _ _ _ _).timeoutArmed ?_
    exact TimeoutArmed.foldl_intrInCb (d := { d with records := (copyClients d.records d.world.clients).1 }) h env.transfers

theorem TimeoutArmed.mydaemon {d : Daemon} (h : TimeoutArmed d.world.fifo) (envs : List PollEnv) :
    TimeoutArmed (mydaemon d envs).world.fifo := by
  induction envs generalizing d with
  | nil => exact h
  | cons env envs ih =>
      simp only [Mochad.mydaemon]
      split
      · exact h
      · exact ih (h.iterate env)

/-- With a CM15A the timeout is in step after start-up. -/
theorem startup_armed {e : Setup} (hc : e.cm19a = false) : TimeoutArmed (startup e).fifo := by
  obtain ⟨cm19a, rawData, clock, junk⟩ := e
  subst hc
  exact ⟨fun hb => (nomatch hb), fun _ => rfl⟩

/-- After `x10_write` the FIFO is busy. -/
theorem x10Write_outbusy (buf : List UInt8) (buflen : Nat) (s : Fifo) :
    (x10Write buf buflen s).2.1.outbusy = true := by
  unfold x10Write
  split
  · rename_i hb
    unfold addX10out
    dsimp only
    split <;> exact hb
  · rfl

/-- So it is after the controller has been initialised. -/
theorem initcm1Xa_outbusy {p : List (List UInt8)} (hp : p ≠ []) (w : World) :
    (initcm1Xa p w).fifo.outbusy = true := by
  induction p using List.reverseRecOn with
  | nil => exact absurd rfl hp
  | append_singleton p bindata _ =>
      rw [initcm1Xa, List.foldl_append]
      exact x10Write_outbusy _ _ _

/-- The output after start-up is what `initcm1Xa` left. -/
theorem startup_fifo (e : Setup) :
    (startup e).fifo =
      { (initcm1Xa (if e.cm19a then initcm19abinary else initcm15abinary) (worldInit e)).fifo with
        pollTimeOut := -1 } := rfl

/-- A CM19A comes to its first `poll` with a packet on its way and no timeout. -/
theorem startup_cm19a {e : Setup} (hc : e.cm19a = true) :
    (startup e).fifo.outbusy = true ∧ (startup e).fifo.pollTimeOut = -1 := by
  have hbusy : (initcm1Xa initcm19abinary (worldInit e)).fifo.outbusy = true :=
    initcm1Xa_outbusy (List.cons_ne_nil _ _) (worldInit e)
  rw [startup_fifo, hc, if_pos rfl]
  dsimp only
  exact ⟨hbusy, rfl⟩

/-- In every run, at every call of `poll`, the timeout goes with `Outbusy`: this
holds exactly when the controller is not a CM19A. -/
theorem poll_timeout_iff (e : Setup) (nusbfds : Nat) :
    (∀ envs, (mydaemon (daemonInit e nusbfds) envs).doExit = false →
      TimeoutArmed (mydaemon (daemonInit e nusbfds) envs).world.fifo) ↔ e.cm19a = false := by
  constructor
  · intro hall
    by_contra hc
    obtain ⟨hbusy, htime⟩ := startup_cm19a (by simpa using hc)
    have harm := (hall [] rfl).1 hbusy
    change (startup e).fifo.pollTimeOut = _ at harm
    rw [htime] at harm
    cases harm
  · intro hc envs _
    exact (startup_armed hc).mydaemon envs

/-- The first `poll` with a CM19A waits for ever, with a packet on its way. -/
theorem first_poll_cm19a :
    let d := mydaemon (daemonInit (stillSetup true) 2) []
    d.doExit = false ∧ d.world.fifo.outbusy = true ∧ d.world.fifo.pollTimeOut = -1 ∧
      ¬ TimeoutArmed d.world.fifo := by
  obtain ⟨hbusy, htime⟩ := startup_cm19a (e := stillSetup true) rfl
  refine ⟨rfl, hbusy, htime, fun harm => ?_⟩
  have htwo := harm.1 hbusy
  change (startup (stillSetup true)).fifo.pollTimeOut = _ at htwo
  rw [htime] at htwo
  cases htwo

end Mochad
