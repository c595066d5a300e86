import Mochad.MainLoop

/-!
# Mochad.EarlyExit

The records an iteration serves.  The loop counts `nready` down with every record
it serves, and leaves the scan when the count is used up; records of the USB
descriptors, and events it does not look at, are counted by `poll` but never
counted down.  No record that is ready is left behind (`iterate_serves_all`).
-/

namespace Mochad

/-! ## Records -/

/-- A record of `Clients` that the loop looks at. -/
inductive PollRecord where
  | listen (k : Nat) (add : Int → Clients → Int × Clients)
  | client (i : Nat) (clifd : Int)

namespace PollRecord

/-- The index in `Clients`. -/
def number : PollRecord → Nat
  | listen k _ => k
  | client i _ => i

/-- The events the loop looks at have happened. -/
def flagged (env : PollEnv) : PollRecord → Bool
  | listen k _ => env.revents k &&& pollin ≠ 0
  | client i _ => env.revents i &&& (pollin ||| pollerr) ≠ 0

/-- The record is served: of the clients only those with a descriptor are. -/
def ready (env : PollEnv) : PollRecord → Bool
  | listen k _ => env.revents k &&& pollin ≠ 0
  | client i clifd => 0 ≤ clifd ∧ env.revents i &&& (pollin ||| pollerr) ≠ 0

/-- Accept a new client, or read from one. -/
def serve (env : PollEnv) (w : World) : PollRecord → World
  | listen k add => acceptClient k add (env.accepted k) w
  | client i clifd => serveClient clifd (env.read i) w

end PollRecord

/-- The records of listening sockets from number `k` on. -/
def listenRecords : Nat → List (Int → Clients → Int × Clients) → List PollRecord
  | _, [] => []
  | k, add :: adds => .listen k add :: listenRecords (k + 1) adds

/-- The client records from record `i` on. -/
def clientRecords : Nat → List Int → List PollRecord
  | _, [] => []
  | i, clifd :: records => .client i clifd :: clientRecords (i + 1) records

/-- The records of an iteration: the listening sockets, and behind the USB
descriptors the clients that `copy_clients` has written. -/
def pollRecords (d : Daemon) : List PollRecord :=
  listenRecords 0 [addClient, addXmlclient, addOr20client] ++
    clientRecords (3 + d.nusbfds)
      ((copyClients d.records d.world.clients).1.take (copyClients d.records d.world.clients).2)

/-- `npollfds`. -/
def npollfds (d : Daemon) : Nat := 3 + d.nusbfds + (copyClients d.records d.world.clients).2

/-- What `poll` returns: the number of records with events, of all kinds. -/
def recordsWithEvents (d : Daemon) (env : PollEnv) : Nat :=
  (List.range (npollfds d)).countP fun i => env.revents i ≠ 0

/-- An iteration without the counter: the USB transfers, then every record that
is ready. -/
def iterateAll (d : Daemon) (env : PollEnv) : Daemon :=
  let served := (pollRecords d).filter (PollRecord.ready env)
  let d := { d with records := (copyClients d.records d.world.clients).1 }
  let d := env.transfers.foldl (fun d transfer => intrInCb transfer d) d
  { d with world := Run.run (PollRecord.serve env) d.world served }

/-! ## The scan counts down -/

/-- The scan of the clients is a loop with a countdown. -/
theorem scanClients_countdown (env : PollEnv) (i : Nat) (nready : Int) (w : World) (records : List Int) :
    scanClients env i nready w records =
      Run.countdown (PollRecord.serve env) (PollRecord.ready env) nready w (clientRecords i records) := by
  induction records generalizing i nready w with
  | nil => rfl
  | cons clifd records ih =>
      simp only [scanClients, clientRecords, Run.countdown, PollRecord.ready, decide_eq_true_eq, ih]
      rfl

/-- So is the whole of one round, over the listeners and the clients. -/
theorem serveSockets_countdown (env : PollEnv) (first : Nat) (records : List Int) (k : Nat)
    (adds : List (Int → Clients → Int × Clients)) (nready : Int) (w : World) :
    serveSockets env first records k adds nready w =
      Run.countdown (PollRecord.serve env) (PollRecord.ready env) nready w
        (listenRecords k adds ++ clientRecords first records) := by
  induction adds generalizing k nready w with
  | nil => exact scanClients_countdown env first nready w records
  | cons add adds ih =>
      simp only [serveSockets, listenRecords, List.cons_append, Run.countdown, PollRecord.ready,
        decide_eq_true_eq, ih]
      rfl

/-! ## The count covers what is ready -/

/-- The listeners are numbered one after the other. -/
theorem map_number_listenRecords (k : Nat) (adds : List (Int → Clients → Int × Clients)) :
    (listenRecords k adds).map PollRecord.number = List.range' k adds.length := by
  induction adds generalizing k with
  | nil => rfl
  | cons add adds ih => exact congrArg (k :: ·) (ih (k + 1))

theorem map_number_clientRecords (i : Nat) (records : List Int) :
    (clientRecords i records).map PollRecord.number = List.range' i records.length := by
  induction records generalizing i with
  | nil => rfl
  | cons clifd records ih => exact congrArg (i :: ·) (ih (i + 1))

/-- The records are numbered in order, with a gap for the USB descriptors. -/
theorem sublist_pollRecords (d : Daemon) :
    ((pollRecords d).map PollRecord.number).Sublist (List.range (npollfds d)) := by
  rw [pollRecords, List.map_append, map_number_listenRecords, map_number_clientRecords, npollfds,
    List.range_eq_range', ← List.range'_append_1, ← List.range'_append_1, List.append_assoc]
  refine List.Sublist.append (List.Sublist.refl _) (.trans ?_ (List.sublist_append_right _ _))
  rw [Nat.zero_add]
  exact List.range'_sublist_right.mpr (List.length_take_le _ _)

/-- A record that is ready has events. -/
theorem revents_of_ready {env : PollEnv} {r : PollRecord} (h : r.ready env = true) :
    env.revents r.number ≠ 0 := by
  intro h0
  cases r with
  | listen k add =>
      change env.revents k = 0 at h0
      simp [PollRecord.ready, h0] at h
  | client i clifd =>
      change env.revents i = 0 at h0
      simp [PollRecord.ready, h0] at h

/-- `poll` counts every record that is ready. -/
theorem countP_ready_le (d : Daemon) (env : PollEnv) :
    (pollRecords d).countP (PollRecord.ready env) ≤ recordsWithEvents d env := by
  calc
    (pollRecords d).countP (PollRecord.ready env)
        ≤ (pollRecords d).countP ((fun i => decide (env.revents i ≠ 0)) ∘ PollRecord.number) :=
      List.countP_mono_left fun r _ hr => decide_eq_true (revents_of_ready hr)
    _ = ((pollRecords d).map PollRecord.number).countP fun i => env.revents i ≠ 0 :=
      List.countP_map.symm
    _ ≤ recordsWithEvents d env := (sublist_pollRecords d).countP_le

/-- The early exits skip nobody: with what `poll` returns in `nready`, an iteration
serves every record that is ready, once each, as a scan without the counter does.
Clients without a descriptor, which the loop passes over, have no events. -/
theorem iterate_serves_all {d : Daemon} {env : PollEnv} (hready : env.nready = recordsWithEvents d env)
    (hpos : 0 < env.nready) :
    iterate d env = iterateAll d env ∧ ((pollRecords d).map PollRecord.number).Nodup ∧
      ((∀ i clifd, PollRecord.client i clifd ∈ pollRecords d → clifd < 0 → env.revents i = 0) →
        (pollRecords d).filter (PollRecord.ready env) =
          (pollRecords d).filter (PollRecord.flagged env)) := by
  refine ⟨?_, (sublist_pollRecords d).nodup List.nodup_range, fun hnone => ?_⟩
  · have hcount : ((pollRecords d).countP (PollRecord.ready env) : Int) ≤ env.nready := by
      rw [hready]
      exact Int.ofNat_le.mpr (countP_ready_le d env)
    rw [iterate, iterateAll]
    dsimp only
    rw [if_neg (by omega), foldl_intrInCb_nusbfds, serveSockets_countdown]
    exact congrArg (Daemon.mk · _ _ _ _) (Run.countdown_eq hcount)
  · refine List.filter_congr fun r hr => ?_
    cases r with
    | listen k add => rfl
    | client i clifd =>
        by_cases hfd : 0 ≤ clifd
        · simp [PollRecord.ready, PollRecord.flagged, hfd]
        · simp [PollRecord.ready, PollRecord.flagged, hnone i clifd hr (by omega)]

/-- Two clients that are ready; the USB descriptor, and a third client with an event
the loop does not look at, are counted with them. -/
theorem iterate_serves_all_mixed :
    let clients := { initClient with
      clientsocks := [5, 6, 7] ++ List.replicate 29 (-1)
      nClients := 3 }
    let d := { daemonInit (stillSetup false) 1 with
      world := { worldInit (stillSetup false) with clients := clients } }
    let revents := fun i => if i = 3 ∨ i = 4 ∨ i = 6 then 1 else if i = 5 then 32 else 0
    let env : PollEnv := ⟨4, revents, [], fun _ => -1, fun _ => .eof⟩
    ((pollRecords d).filter (PollRecord.ready env)).map PollRecord.number = [4, 6] ∧
      recordsWithEvents d env = 4 ∧ iterate d env = iterateAll d env := by
  intro clients d revents env
  have hready : env.nready = recordsWithEvents d env := by decide
  exact ⟨by decide, by decide, (iterate_serves_all hready (by decide)).1⟩

end Mochad
