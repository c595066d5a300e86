import Mochad.ClientTables

/-!
# Mochad.Descriptors

Who closes the descriptor of a client.  The main loop closes the one it reads an
end of file or an error from and then calls `del_client`, which closes it once
more if the client is an OpenRemote 2.0 client; and nobody closes the one that
`add_client` has no entry for.  As long as neither happens (`Orderly`), a client
descriptor is open at every `poll` exactly while one table holds it, and is
closed once when the connection ends (`descriptors_owned`).
-/

namespace Mochad

open CString Slots

/-- The descriptors that `accept` has returned, in order. -/
def accepted (hs : List Happening) : List Int :=
  hs.filterMap fun
    | .accept _ clifd => if 0 ≤ clifd then some clifd else none
    | _ => none

/-- Only a connection adds a descriptor. -/
theorem append_accepted {i : Happening} (h : ∀ k clifd, i ≠ .accept k clifd) (acc : List Int) :
    acc ++ accepted [i] = acc := by
  cases i with
  | accept k clifd => exact absurd rfl (h k clifd)
  | _ => exact List.append_nil acc

/-- A new connection finds a free entry, and end of file or an error is only
read from a plain or XML client in its table. -/
def Orderly (w : World) : Happening → Prop
  | .accept k clifd => 0 ≤ clifd → -1 ∈ w.clients.table k
  | .disconnect c _ => c.fd ∈ w.clients.clientsocks ∨ c.fd ∈ w.clients.clientxmlsocks
  | _ => True

instance (w : World) : DecidablePred (Orderly w)
  | .accept k clifd => inferInstanceAs (Decidable (0 ≤ clifd → -1 ∈ w.clients.table k))
  | .disconnect c _ =>
      inferInstanceAs (Decidable (c.fd ∈ w.clients.clientsocks ∨ c.fd ∈ w.clients.clientxmlsocks))
  | .chunk _ _ | .packet _ _ | .timeout => inferInstanceAs (Decidable True)

/-- Every open descriptor is in the table of its listening socket, no other
descriptor is in a table, and every connection that is not open any more has
been closed once. -/
structure Owned (accepted : List Int) (s : Sockets) : Prop where
  ok : s.clients.Ok
  port : ∀ k, ∀ fd ∈ s.clients.table k, fd ≠ -1 → s.sockPort fd = some (serverPort + k)
  held : ∀ fd, fd ≠ -1 → s.sockPort fd ≠ none → s.clients.holders fd = 1
  balance : ∀ fd, fd ≠ -1 → s.closed.count fd + s.clients.holders fd = accepted.count fd

/-! ## Steps -/

section
variable {acc : List Int} {s s' : Sockets} (h : Owned acc s)
include h

/-- Owned descriptors are in their places. -/
theorem Owned.placed : Placed s := ⟨h.ok, h.port⟩

/-- The open descriptors are those in a table. -/
theorem Owned.open_iff {fd : Int} (hfd : fd ≠ -1) :
    s.sockPort fd ≠ none ↔ ∃! k, fd ∈ s.clients.table k := by
  constructor
  · intro hopen
    have hheld := h.held fd hfd hopen
    obtain ⟨k, hmem⟩ := Clients.holders_pos.mp (hheld ▸ Nat.one_pos)
    exact ⟨k, hmem, fun j hj => h.ok.unique hfd hmem hj⟩
  · rintro ⟨k, hmem, -⟩
    exact ne_of_eq_of_ne (h.port k fd hmem hfd) (Option.some_ne_none _)

/-- A connection is open, or has been closed once. -/
theorem Owned.count_closed {fd : Int} (hfd : fd ≠ -1) :
    s.closed.count fd + (if s.sockPort fd = none then 0 else 1) = acc.count fd := by
  rw [← h.balance fd hfd]
  split
  · rename_i hnone
    rw [h.placed.notHeld hfd hnone]
  · rename_i hopen
    rw [h.held fd hfd hopen]

/-- Tables with the same entries are as good. -/
theorem Owned.congr (htable : ∀ k, s'.clients.table k = s.clients.table k)
    (hport : s'.sockPort = s.sockPort) (hclosed : s'.closed = s.closed) : Owned acc s' := by
  have hholders := Clients.holders_congr htable
  obtain ⟨hok, hports⟩ := h.placed.congr htable fun fd _ _ => congrFun hport fd
  refine ⟨hok, hports, fun fd hfd ho => ?_, fun fd hfd => ?_⟩
  · rw [hport] at ho
    rw [hholders]
    exact h.held fd hfd ho
  · rw [hclosed, hholders]
    exact h.balance fd hfd

/-- A connection comes. -/
theorem Owned.added {k : Fin 3} {fd : Int} (hfd : fd ≠ -1) (hnone : s.sockPort fd = none)
    (hadd : Added k fd s.clients s'.clients)
    (hport : s'.sockPort = Function.update s.sockPort fd (some (serverPort + k)))
    (hclosed : s'.closed = s.closed) : Owned (acc ++ [fd]) s' := by
  have hzero := h.placed.notHeld hfd hnone
  obtain ⟨hok, hports⟩ := h.placed.added hfd hnone hadd hport
  refine ⟨hok, hports, fun fd' hfd' ho => ?_, fun fd' hfd' => ?_⟩
  · rw [hadd.holders fd' hfd']
    by_cases heq : fd = fd'
    · rw [if_pos heq, ← heq, hzero]
    · rw [hport, Function.update_of_ne (Ne.symm heq)] at ho
      rw [if_neg heq]
      exact h.held fd' hfd' ho
  · have hbalance := h.balance fd' hfd'
    rw [hclosed, hadd.holders fd' hfd', List.count_append, List.count_singleton]
    simp only [beq_iff_eq]
    omega

/-- A connection ends. -/
theorem Owned.removed {fd : Int} (hheld : s.clients.holders fd = 1)
    (hrem : Removed fd s.clients s'.clients) (hport : s'.sockPort = Function.update s.sockPort fd none)
    (hclosed : s'.closed = s.closed ++ [fd]) : Owned acc s' := by
  obtain ⟨hok, hports⟩ := h.placed.removed hrem fun fd' hne => by
    rw [hport, Function.update_of_ne hne]
  refine ⟨hok, hports, fun fd' hfd' ho => ?_, fun fd' hfd' => ?_⟩
  · by_cases heq : fd' = fd
    · rw [hport, heq, Function.update_self] at ho
      exact absurd rfl ho
    · rw [hport, Function.update_of_ne heq] at ho
      rw [hrem.holders fd' hfd', if_neg heq]
      exact h.held fd' hfd' ho
  · have hbalance := h.balance fd' hfd'
    rw [hclosed, hrem.holders fd' hfd', List.count_append, List.count_singleton]
    by_cases heq : fd' = fd
    · subst heq
      simp only [beq_self_eq_true, if_true]
      omega
    · rw [if_neg heq, if_neg (by simpa using Ne.symm heq)]
      exact hbalance

end

section
variable {acc : List Int} {w : World} (h : Owned acc w.sockets)
include h

/-- A client that is accepted into a table with room is owned. -/
theorem Owned.accept {k : Fin 3} {clifd : Int}
    (hfresh : clifd = -1 ∨ 0 ≤ clifd ∧ w.sockPort clifd = none)
    (hroom : 0 ≤ clifd → -1 ∈ w.clients.table k) :
    Owned (acc ++ if 0 ≤ clifd then [clifd] else []) (acceptClient k (addTo k) clifd w).sockets := by
  obtain rfl | ⟨hpos, hnone⟩ := hfresh
  · rw [if_neg (by decide), List.append_nil]
    exact h.congr (acceptClient_failed k w).1 rfl rfl
  · have hfd : clifd ≠ -1 := by omega
    have hadd := acceptClient_room h.ok hpos (h.placed.notHeld hfd hnone) (hroom hpos)
    rw [if_pos hpos]
    refine h.added hfd hnone hadd ?_ ?_
    · rw [World.sockets, acceptClient, if_pos hpos]
      rfl
    · rw [World.sockets, acceptClient, if_pos hpos]
      rfl

/-- An OpenRemote 2.0 client is closed after its command. -/
theorem Owned.delClient {fd : Int} (hfd : fd ≠ -1) (hor20 : w.or20client fd = true) :
    Owned acc (w.delClient fd).2.sockets := by
  have hport : w.sockPort fd = some (serverPort + 2) := by simpa [World.or20client] using hor20
  have hheld : w.clients.holders fd = 1 := by
    refine h.held fd hfd fun hnone => ?_
    change w.sockPort fd = none at hnone
    rw [hport] at hnone
    cases hnone
  obtain ⟨k, hmem⟩ := Clients.holders_pos.mp (hheld ▸ Nat.one_pos)
  have hk : k = 2 := by
    have hboth := (h.port k fd hmem hfd).symm.trans hport
    have hval : k.val = 2 := by simpa using hboth
    exact Fin.ext hval
  obtain ⟨hrem, hclosed, -⟩ := delClient_spec h.ok hfd
  obtain ⟨hsock, hclosed⟩ := hclosed (hk ▸ hmem)
  exact h.removed hheld hrem hsock hclosed

/-- A plain or XML client that hangs up. -/
theorem Owned.disconnect {fd : Int} (hfd : fd ≠ -1)
    (hmem : fd ∈ w.clients.table 0 ∨ fd ∈ w.clients.table 1) :
    Owned acc ((w.close fd).delClient fd).2.sockets := by
  obtain ⟨hrem, hsock, hclosed⟩ := close_delClient h.ok hfd hmem
  have hopen : w.sockPort fd ≠ none := by
    obtain hmem | hmem := hmem
    · exact ne_of_eq_of_ne (h.port 0 fd hmem hfd) (Option.some_ne_none _)
    · exact ne_of_eq_of_ne (h.port 1 fd hmem hfd) (Option.some_ne_none _)
  exact h.removed (h.held fd hfd hopen) hrem hsock hclosed

/-- Every orderly event keeps the descriptors owned. -/
theorem Owned.after {i : Happening} (hread : i.Readable) (hfresh : FreshDescriptors w i)
    (horderly : Orderly w i) : Owned (acc ++ accepted [i]) (w.after i).sockets := by
  cases i with
  | accept k clifd =>
      have hacc : accepted [.accept k clifd] = if 0 ≤ clifd then [clifd] else [] := by
        by_cases hpos : 0 ≤ clifd <;> simp [accepted, hpos]
      rw [hacc]
      exact h.accept hfresh horderly
  | chunk c buf =>
      have hread : 0 ≤ c.fd := hread
      rw [append_accepted (by rintro _ _ ⟨⟩)]
      exact cm15aEncode_sockets c.fd (fun w h hor20 => h.delClient (w := w) (by omega) hor20) buf h
  | disconnect c error =>
      have hread : 0 ≤ c.fd := hread
      rw [append_accepted (by rintro _ _ ⟨⟩)]
      cases error <;> exact h.disconnect (by omega) horderly
  | packet buf len =>
      have hsame : (w.after (.packet buf len)).sockets = w.sockets := sockets_decode (-1) buf len w
      rw [hsame, append_accepted (by rintro _ _ ⟨⟩)]
      exact h
  | timeout =>
      rw [append_accepted (by rintro _ _ ⟨⟩)]
      exact h

/-- Any other client that hangs up is closed twice, or was not open. -/
theorem Owned.mem_of_disconnect {fd : Int} (hfd : fd ≠ -1)
    (hafter : Owned acc ((w.close fd).delClient fd).2.sockets) :
    fd ∈ w.clients.table 0 ∨ fd ∈ w.clients.table 1 := by
  obtain ⟨hrem, htwice, honce⟩ := delClient_spec (w := w.close fd) h.ok hfd
  have hgone : ((w.close fd).delClient fd).2.sockets.clients.holders fd = 0 :=
    (hrem.holders fd hfd).trans (if_pos rfl)
  have hbefore := h.balance fd hfd
  have hbalance := hafter.balance fd hfd
  rw [hgone] at hbalance
  by_contra hother
  obtain ⟨h0, h1⟩ := not_or.mp hother
  by_cases h2 : fd ∈ w.clients.table 2
  · -- closed by the main loop and by `del_client`
    have hone := h.ok.once fd hfd
    rw [(htwice h2).2, closed_close, List.count_append, List.count_append] at hbalance
    simp only [List.count_singleton_self] at hbalance
    omega
  · -- not open any more
    have hzero : w.sockets.clients.holders fd = 0 := by
      refine Nat.eq_zero_of_not_pos fun hpos => ?_
      obtain ⟨k, hmem⟩ := Clients.holders_pos.mp hpos
      fin_cases k
      · exact h0 hmem
      · exact h1 hmem
      · exact h2 hmem
    rw [(honce h2).2, closed_close, List.count_append] at hbalance
    simp only [List.count_singleton_self] at hbalance
    omega

/-- The condition is exact: after any other step a descriptor is open and in no
table, or closed once too often. -/
theorem Owned.orderly {i : Happening} (hread : i.Readable) (hfresh : FreshDescriptors w i)
    (hafter : Owned (acc ++ accepted [i]) (w.after i).sockets) : Orderly w i := by
  cases i with
  | accept k clifd =>
      intro hpos
      by_contra hfull
      have hfd : clifd ≠ -1 := by omega
      have hnone : w.sockPort clifd = none := (hfresh.resolve_left hfd).2
      have hw : w.after (.accept k clifd) = _ := acceptClient_full hpos hfull
      rw [hw] at hafter
      have hheld := hafter.held clifd hfd (by simp [World.sockets])
      have hzero := h.placed.notHeld hfd hnone
      exact absurd (hheld.symm.trans hzero) (by decide)
  | disconnect c error =>
      have hread : 0 ≤ c.fd := hread
      rw [append_accepted (by rintro _ _ ⟨⟩)] at hafter
      refine h.mem_of_disconnect (by omega) ?_
      cases error <;> exact hafter
  | _ => trivial

end

/-! ## Runs -/

/-- In every orderly run each descriptor that was accepted is open, or has been
closed once. -/
theorem owned_run (e : Setup) {hs : List Happening} (hread : ∀ i ∈ hs, i.Readable)
    (hfresh : Run.Along World.after FreshDescriptors (startup e) hs)
    (horderly : Run.Along World.after Orderly (startup e) hs) :
    Owned (accepted hs) (Run.run World.after (startup e) hs).sockets := by
  let I : List Happening → World → Prop := fun hs w => Owned (accepted hs) w.sockets
  have hstart : I [] (startup e) := by
    change Owned (accepted []) (startup e).sockets
    rw [sockets_startup]
    have hnone : ∀ k, ∀ fd ∈ initClient.table k, fd = -1 := by
      intro k fd hmem
      fin_cases k <;> exact List.eq_of_mem_replicate hmem
    exact ⟨initClient_ok, fun k fd hmem hfd => absurd (hnone k fd hmem) hfd, fun _ _ ho => absurd rfl ho,
      fun fd hfd => by simp [holders_initClient hfd, accepted]⟩
  refine @Run.history World Happening _ _ _ I hstart (fun hs w i h hi => ?_) hs
    ((Run.along_of_forall hread).and (hfresh.and horderly))
  change Owned (accepted (hs ++ [i])) _
  rw [accepted, List.filterMap_append]
  exact h.after hi.1 hi.2.1 hi.2.2

/-- In every run of the main loop in which each connection finds a free entry,
and end of file and errors are only read from plain and XML clients in their
tables: at every `poll` a descriptor is open if and only if exactly one table
holds it, every connection that is not open any more has been closed once, and a
connection that ends is closed when it does. -/
theorem descriptors_owned (e : Setup) (nusbfds : Nat) (envs : List PollEnv)
    (hfresh : Run.Along World.after FreshDescriptors (startup e) (happenings (daemonInit e nusbfds) envs))
    (horderly : Run.Along World.after Orderly (startup e) (happenings (daemonInit e nusbfds) envs)) :
    let hs := happenings (daemonInit e nusbfds) envs
    let w := (mydaemon (daemonInit e nusbfds) envs).world
    (∀ fd, 0 ≤ fd →
      (w.sockPort fd ≠ none ↔ ∃! k, fd ∈ w.clients.table k) ∧
      w.sockets.closed.count fd + (if w.sockPort fd = none then 0 else 1) = (accepted hs).count fd) ∧
    ∀ earlier c error later, hs = earlier ++ .disconnect c error :: later →
      let v := Run.run World.after (startup e) earlier
      (v.after (.disconnect c error)).sockPort c.fd = none ∧
        (v.after (.disconnect c error)).sockets.closed = v.sockets.closed ++ [c.fd] := by
  intro hs w
  have hread : ∀ i ∈ hs, i.Readable := readable_happenings _ _
  have hown : Owned (accepted hs) w.sockets := by
    change Owned (accepted hs) (mydaemon (daemonInit e nusbfds) envs).world.sockets
    rw [mydaemon_world]
    exact owned_run e hread hfresh horderly
  refine ⟨fun fd hpos => ?_, fun earlier c error later hsplit => ?_⟩
  · have hfd : fd ≠ -1 := by omega
    exact ⟨hown.open_iff hfd, hown.count_closed hfd⟩
  · -- the client that hangs up is in its table
    obtain ⟨hpre, hlast⟩ := List.forall_mem_append.mp (hsplit ▸ hread)
    have hfd : 0 ≤ c.fd := hlast _ List.mem_cons_self
    change happenings (daemonInit e nusbfds) envs = _ at hsplit
    rw [hsplit] at hfresh horderly
    obtain ⟨hbefore, hc, -⟩ := Run.along_append.mp horderly
    have hv := owned_run e hpre (Run.along_append.mp hfresh).1 hbefore
    have hne : c.fd ≠ -1 := by omega
    obtain ⟨-, hsock, hclosed⟩ := close_delClient hv.ok hne hc
    intro v
    have hafter : v.after (.disconnect c error) = ((v.close c.fd).delClient c.fd).2 := by
      cases error <;> rfl
    rw [hafter]
    exact ⟨(congrFun hsock c.fd).trans (Function.update_self ..), hclosed⟩

/-- Connections on a listening socket, with the descriptors from 10 on. -/
def connections (k n : Nat) : List PollEnv :=
  (List.range n).map fun i =>
    { nready := 1, revents := fun j => if j = k then pollin else 0, transfers := []
      accepted := fun _ => 10 + i, read := fun _ => .err }

/-- The first client is read from. -/
def reading (r : ReadResult) : PollEnv where
  nready := 1
  revents := fun i => if i = 3 then pollin else 0
  transfers := []
  accepted := fun _ => -1
  read := fun _ => r

/-- A plain client sends a command and hangs up. -/
def plainClient : List PollEnv := connections 0 1 ++ [reading (.data (cstr "st\n")), reading .eof]

theorem descriptors_owned_plain :
    let w := (mydaemon (daemonInit (stillSetup false) 0) plainClient).world
    w.sockPort 10 = none ∧ w.sockets.closed = [10] ∧
      (w.sockPort 10 ≠ none ↔ ∃! k, (10 : Int) ∈ w.clients.table k) := by
  have h := descriptors_owned (stillSetup false) 0 plainClient (by decide) (by decide)
  exact ⟨by decide, by decide, (h.1 10 (by decide)).1⟩

/-- The 33rd client stays open in no table, and an OpenRemote 2.0 client that
hangs up before it has sent a command is closed twice. -/
theorem descriptors_astray :
    let d := daemonInit (stillSetup false) 0
    let full := (mydaemon d (connections 0 33)).world
    let left := (mydaemon d (connections 2 1 ++ [reading .eof])).world
    full.sockPort 42 ≠ none ∧ (∀ k, (42 : Int) ∉ full.clients.table k) ∧
      accepted (happenings d (connections 2 1 ++ [reading .eof])) = [10] ∧
      left.sockets.closed = [10, 10] := by
  decide +kernel

end Mochad
