import Mochad.ClientLines

/-!
# Mochad.MainLoop

The main loop as a sequence of happenings.  One iteration handles the packets
that have come in, then the listening sockets in order, then the clients that
`poll` was asked about; `mydaemon_world` says that the daemon does nothing but
what `happen` does for each of them.
-/

namespace Mochad

/-- The state after a happening. -/
def World.after (w : World) (h : Happening) : World := (happen w h).1

/-- Only descriptors are read from. -/
def Happening.Readable : Happening → Prop
  | .chunk c _ => 0 ≤ c.fd
  | .disconnect c _ => 0 ≤ c.fd
  | _ => True

instance : DecidablePred Happening.Readable
  | .chunk c _ => inferInstanceAs (Decidable (0 ≤ c.fd))
  | .disconnect c _ => inferInstanceAs (Decidable (0 ≤ c.fd))
  | .accept _ _ | .packet _ _ | .timeout => inferInstanceAs (Decidable True)

/-! ## Happenings of an iteration -/

/-- A client record that is ready.  The loop knows a client by its descriptor. -/
def served (clifd : Int) : ReadResult → Happening
  | .err => .disconnect ⟨0, clifd⟩ true
  | .eof => .disconnect ⟨0, clifd⟩ false
  | .data buf => .chunk ⟨0, clifd⟩ buf

/-- The client records from record `i` on. -/
def scanned (env : PollEnv) : Nat → Int → List Int → List Happening
  | _, _, [] => []
  | i, nready, clifd :: records =>
      if 0 ≤ clifd ∧ env.revents i &&& (pollin ||| pollerr) ≠ 0 then
        served clifd (env.read i) ::
          if nready - 1 ≤ 0 then [] else scanned env (i + 1) (nready - 1) records
      else scanned env (i + 1) nready records

/-- The listening sockets, then the client records. -/
def polled (env : PollEnv) (first : Nat) (records : List Int) : List (Fin 3) → Int → List Happening
  | [], nready => scanned env first nready records
  | k :: ks, nready =>
      if env.revents k &&& pollin ≠ 0 then
        .accept k (env.accepted k) ::
          if nready - 1 ≤ 0 then [] else polled env first records ks (nready - 1)
      else polled env first records ks nready

/-- The USB transfers.  An acknowledge does what a timeout does. -/
def received (intrInBuf : List UInt8) : List Transfer → List Happening
  | [] => []
  | .failed :: transfers => received intrInBuf transfers
  | .completed buffer :: transfers =>
      let intrInBuf := memcpy intrInBuf buffer buffer.length
      (if buffer.length = 1 then [.timeout] else []) ++
        .packet (Ptr.ofList intrInBuf) buffer.length :: received intrInBuf transfers

/-- One iteration. -/
def iterated (d : Daemon) (env : PollEnv) : List Happening :=
  if env.nready = 0 then [.timeout]
  else
    let (records, nsockclients) := copyClients d.records d.world.clients
    received d.intrInBuf env.transfers ++
      polled env (3 + d.nusbfds) (records.take nsockclients) [0, 1, 2] env.nready

/-- A whole run. -/
def happenings (d : Daemon) : List PollEnv → List Happening
  | [] => []
  | env :: envs => if d.doExit then [] else iterated d env ++ happenings (iterate d env) envs

/-! ## The loop runs its happenings -/

/-- Serving a client is one happening. -/
theorem serveClient_eq (clifd : Int) (r : ReadResult) (w : World) :
    serveClient clifd r w = w.after (served clifd r) := by
  cases r <;> rfl

/-- Serving those that are ready is a run of happenings. -/
theorem scanClients_eq (env : PollEnv) (i : Nat) (nready : Int) (w : World) (records : List Int) :
    scanClients env i nready w records = Run.run World.after w (scanned env i nready records) := by
  induction records generalizing i nready w with
  | nil => rfl
  | cons clifd records ih =>
      rw [scanClients, scanned]
      split
      · rw [Run.run_cons, ← serveClient_eq]
        dsimp only
        split
        · rfl
        · exact ih _ _ _
      · exact ih _ _ _

/-- So is serving the listeners and the clients. -/
theorem serveSockets_eq (env : PollEnv) (first : Nat) (records : List Int) (ks : List (Fin 3))
    {k : Nat} (hks : ks.map Fin.val = List.range' k ks.length) (nready : Int) (w : World) :
    serveSockets env first records k (ks.map [addClient, addXmlclient, addOr20client].get) nready w =
      Run.run World.after w (polled env first records ks nready) := by
  induction ks generalizing k nready w with
  | nil => exact scanClients_eq env first nready w records
  | cons j ks ih =>
      obtain ⟨rfl, htail⟩ : j.val = k ∧ ks.map Fin.val = List.range' (k + 1) ks.length := by
        simpa [List.range'_succ] using hks
      rw [List.map_cons, serveSockets, polled]
      split
      · rw [Run.run_cons]
        dsimp only
        split
        · rfl
        · exact ih htail _ _
      · exact ih htail _ _

/-- So are the transfers from the controller. -/
theorem foldl_intrInCb_eq (transfers : List Transfer) (d : Daemon) :
    (transfers.foldl (fun d transfer => intrInCb transfer d) d).world =
      Run.run World.after d.world (received d.intrInBuf transfers) := by
  induction transfers generalizing d with
  | nil => rfl
  | cons transfer transfers ih =>
      rw [List.foldl_cons, ih]
      cases transfer with
      | failed => rfl
      | completed buffer =>
          rw [received, Run.run_append, Run.run_cons]
          by_cases hack : buffer.length = 1
          · rw [if_pos hack]
            simp only [intrInCb, if_pos hack]
            rfl
          · rw [if_neg hack]
            simp only [intrInCb, if_neg hack]
            rfl

/-- They leave the number of descriptors. -/
theorem foldl_intrInCb_nusbfds (transfers : List Transfer) (d : Daemon) :
    (transfers.foldl (fun d transfer => intrInCb transfer d) d).nusbfds = d.nusbfds := by
  induction transfers generalizing d with
  | nil => rfl
  | cons transfer transfers ih =>
      rw [List.foldl_cons, ih]
      cases transfer <;> rfl

/-- One iteration is a run of happenings. -/
theorem iterate_world (d : Daemon) (env : PollEnv) :
    (iterate d env).world = Run.run World.after d.world (iterated d env) := by
  unfold iterate iterated
  dsimp only
  split
  · rfl
  · rw [Run.run_append, foldl_intrInCb_nusbfds, foldl_intrInCb_eq]
    exact serveSockets_eq env _ _ [0, 1, 2] rfl env.nready _

/-- The loop does what happens, in order. -/
theorem mydaemon_world (d : Daemon) (envs : List PollEnv) :
    (mydaemon d envs).world = Run.run World.after d.world (happenings d envs) := by
  induction envs generalizing d with
  | nil => rfl
  | cons env envs ih =>
      rw [mydaemon, happenings]
      split
      · rfl
      · rw [ih, iterate_world, Run.run_append]

/-! ## Only descriptors are read from -/

/-- The happenings of the clients can occur. -/
theorem readable_scanned (env : PollEnv) (i : Nat) (nready : Int) (records : List Int) :
    ∀ h ∈ scanned env i nready records, h.Readable := by
  induction records generalizing i nready with
  | nil => simp [scanned]
  | cons clifd records ih =>
      rw [scanned]
      split
      · rename_i hready
        have hserved : (served clifd (env.read i)).Readable := by
          cases env.read i <;> exact hready.1
        refine List.forall_mem_cons.mpr ⟨hserved, ?_⟩
        split
        · simp
        · exact ih _ _
      · exact ih _ _

/-- So can those of a round. -/
theorem readable_polled (env : PollEnv) (first : Nat) (records : List Int) (ks : List (Fin 3))
    (nready : Int) : ∀ h ∈ polled env first records ks nready, h.Readable := by
  induction ks generalizing nready with
  | nil => exact readable_scanned env first nready records
  | cons k ks ih =>
      rw [polled]
      split
      · refine List.forall_mem_cons.mpr ⟨trivial, ?_⟩
        split
        · simp
        · exact ih _
      · exact ih _

/-- So can those of the controller. -/
theorem readable_received (intrInBuf : List UInt8) (transfers : List Transfer) :
    ∀ h ∈ received intrInBuf transfers, h.Readable := by
  induction transfers generalizing intrInBuf with
  | nil => simp [received]
  | cons transfer transfers ih =>
      cases transfer with
      | failed => exact ih intrInBuf
      | completed buffer =>
          refine List.forall_mem_append.mpr ⟨?_, List.forall_mem_cons.mpr ⟨trivial, ih _⟩⟩
          split
          · exact List.forall_mem_singleton.mpr trivial
          · simp

/-- So can those of the main loop. -/
theorem readable_happenings (d : Daemon) (envs : List PollEnv) :
    ∀ h ∈ happenings d envs, h.Readable := by
  induction envs generalizing d with
  | nil => simp [happenings]
  | cons env envs ih =>
      rw [happenings]
      split
      · simp
      · refine List.forall_mem_append.mpr ⟨?_, ih _⟩
        rw [iterated]
        split
        · exact List.forall_mem_singleton.mpr trivial
        · exact List.forall_mem_append.mpr ⟨readable_received _ _, readable_polled _ _ _ _ _⟩

end Mochad
