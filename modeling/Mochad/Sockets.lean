import Mochad.Bounds
import Mochad.ClientLines
import Mochad.Lib.Slots
import Mathlib.Tactic.FinCases

/-!
# Mochad.Sockets

The client tables and the descriptors of clients.  The three tables differ in
their names only, so they are numbered here as the listening sockets are; one
lemma for each function says what it does to the tables (`addTo_eq`,
`delClient_cases`), and everything the decoder and the commands do leaves them
alone (`sockets_processcommandline`).
-/

namespace Mochad

open CString Slots

/-! ## Tables -/

namespace Clients

/-- The table of a listening socket. -/
def table (c : Clients) : Fin 3 → List Int
  | 0 => c.clientsocks
  | 1 => c.clientxmlsocks
  | 2 => c.clientor20socks

/-- The counter beside it. -/
def count (c : Clients) : Fin 3 → Nat
  | 0 => c.nClients
  | 1 => c.nxmlClients
  | 2 => c.nor20Clients

/-- Store a table and its counter. -/
def setTable (k : Fin 3) (socks : List Int) (n : Nat) (c : Clients) : Clients :=
  match k with
  | 0 => { c with clientsocks := socks, nClients := n }
  | 1 => { c with clientxmlsocks := socks, nxmlClients := n }
  | 2 => { c with clientor20socks := socks, nor20Clients := n }

/-- The table that is set, and the other two. -/
theorem table_setTable (k j : Fin 3) (socks : List Int) (n : Nat) (c : Clients) :
    (c.setTable k socks n).table j = if j = k then socks else c.table j := by
  fin_cases k <;> fin_cases j <;> rfl

/-- Its counter, and the other two. -/
theorem count_setTable (k j : Fin 3) (socks : List Int) (n : Nat) (c : Clients) :
    (c.setTable k socks n).count j = if j = k then n else c.count j := by
  fin_cases k <;> fin_cases j <;> rfl

/-- The number of entries that hold a descriptor. -/
def holders (c : Clients) (fd : Int) : Nat :=
  c.clientsocks.count fd + c.clientxmlsocks.count fd + c.clientor20socks.count fd

/-- Equal tables hold the same. -/
theorem holders_congr {c c' : Clients} (h : ∀ k, c'.table k = c.table k) (fd : Int) :
    c'.holders fd = c.holders fd := by
  change (c'.table 0).count fd + (c'.table 1).count fd + (c'.table 2).count fd = _
  rw [h, h, h]
  rfl

/-- What a new table holds in place of the old one. -/
theorem holders_setTable (k : Fin 3) (socks : List Int) (n : Nat) (c : Clients) (fd : Int) :
    (c.setTable k socks n).holders fd + (c.table k).count fd = c.holders fd + socks.count fd := by
  fin_cases k <;> simp only [holders, table, setTable] <;> omega

/-- One table holds no more than all. -/
theorem count_table_le (k : Fin 3) (c : Clients) (fd : Int) : (c.table k).count fd ≤ c.holders fd := by
  fin_cases k <;> simp only [holders, table] <;> omega

theorem count_table_add_le {j k : Fin 3} (hne : j ≠ k) (c : Clients) (fd : Int) :
    (c.table j).count fd + (c.table k).count fd ≤ c.holders fd := by
  fin_cases j <;> fin_cases k <;> first
    | exact absurd rfl hne
    | simp only [holders, table]; omega

/-- A client that is held is in a table. -/
theorem holders_pos {c : Clients} {fd : Int} : 0 < c.holders fd ↔ ∃ k, fd ∈ c.table k := by
  constructor
  · intro h
    by_contra hn
    rw [not_exists] at hn
    have h0 : c.clientsocks.count fd = 0 := List.count_eq_zero_of_not_mem (hn 0)
    have h1 : c.clientxmlsocks.count fd = 0 := List.count_eq_zero_of_not_mem (hn 1)
    have h2 : c.clientor20socks.count fd = 0 := List.count_eq_zero_of_not_mem (hn 2)
    rw [holders, h0, h1, h2] at h
    exact absurd h (by decide)
  · rintro ⟨k, hk⟩
    exact lt_of_lt_of_le (List.count_pos_iff.mpr hk) (count_table_le k c fd)

end Clients

/-- `add_client`, `add_xmlclient` and `add_or20client`. -/
def addTo : Fin 3 → Int → Clients → Int × Clients := [addClient, addXmlclient, addOr20client].get

/-- A client is added where a slot is free. -/
theorem addTo_eq (k : Fin 3) (fd : Int) (c : Clients) :
    addTo k fd c = match put (-1) fd (c.table k) with
      | some socks => (0, c.setTable k socks (c.count k + 1))
      | none => (-1, c) := by
  fin_cases k <;> rfl

/-! ## Descriptors -/

/-- What the daemon knows of its clients, and what has become of their
descriptors. -/
structure Sockets where
  clients : Clients
  sockPort : Int → Option Nat
  /-- The descriptors closed, in order. -/
  closed : List Int

/-- The client side of the daemon. -/
def World.sockets (w : World) : Sockets := ⟨w.clients, w.sockPort, w.io.filterMap Io.closed⟩

/-- A clean step that keeps the tables and ports closes nothing. -/
theorem sockets_of_clean {w w' : World} (h : Clean w w') (hc : w'.clients = w.clients)
    (hp : w'.sockPort = w.sockPort) : w'.sockets = w.sockets := by
  obtain ⟨io, acc, hio, hclosed, -⟩ := h
  have hnone : io.filterMap Io.closed = [] := by simpa [List.filterMap_eq_nil_iff] using hclosed
  rw [World.sockets, World.sockets, hc, hp, hio, List.filterMap_append, hnone, List.append_nil]

/-- A line leaves the sockets. -/
theorem sockets_processcommandline (fd : Int) (aLine : Text) (w : World) :
    (processcommandline fd aLine w).2.2.sockets = w.sockets := by
  obtain ⟨rfToRf16, h⟩ := processcommandline_config fd aLine w
  exact sockets_of_clean (clean_processcommandline fd aLine w) (congrArg Config.clients h)
    (congrArg Config.sockPort h)

theorem sockets_decode (fd : Int) (buf : Ptr) (len : Nat) (w : World) :
    (cm15aDecode fd buf len w).sockets = w.sockets := by
  have h := (emits_decode fd buf len w).config
  exact sockets_of_clean (clean_decode fd buf len w) (congrArg Config.clients h)
    (congrArg Config.sockPort h)

/-- `close` closes its descriptor. -/
theorem closed_close (fd : Int) (w : World) :
    (w.close fd).sockets.closed = w.sockets.closed ++ [fd] := by
  rw [World.sockets, World.close_io, List.filterMap_append]
  rfl

/-- `del_client` frees an entry that holds the descriptor, and closes it if it is
an OpenRemote 2.0 client; without such an entry it does nothing. -/
theorem delClient_cases (fd : Int) (w : World) :
    ((∀ k, ∀ i < maxclisockets, (w.clients.table k)[i]? ≠ some fd) ∧ (w.delClient fd).2 = w) ∨
    ∃ k i, (w.clients.table k)[i]? = some fd ∧ (w.delClient fd).2 =
      { (if k = 2 then (w.emit (.shutdown fd)).close fd else w) with
        clients := w.clients.setTable k ((w.clients.table k).set i (-1)) (w.clients.count k - 1) } := by
  unfold World.delClient
  dsimp only
  split
  · rename_i hnone
    refine .inl ⟨fun k i hi hfd => ?_, rfl⟩
    have hi := List.find?_eq_none.mp hnone i (List.mem_range.mpr hi)
    fin_cases k <;> simp_all [Clients.table]
  · rename_i i hsome
    have hi := List.find?_some hsome
    right
    split
    · exact ⟨0, i, ‹_›, rfl⟩
    split
    · exact ⟨1, i, ‹_›, rfl⟩
    · rename_i h0 h1
      have h2 : (w.clients.table 2)[i]? = some fd := by
        simpa [h0, h1, Clients.table] using hi
      exact ⟨2, i, h2, rfl⟩

/-! ## Consistent tables -/

/-- The tables have 32 entries, and no descriptor is in two entries. -/
structure Clients.Ok (c : Clients) : Prop where
  length : ∀ k, (c.table k).length = maxclisockets
  once : ∀ fd, fd ≠ -1 → c.holders fd ≤ 1

/-- The counters are the numbers of entries in use. -/
def Clients.Counted (c : Clients) : Prop := ∀ k, c.count k = inUse (-1) (c.table k)

/-- At the start nobody is held. -/
theorem holders_initClient {fd : Int} (hfd : fd ≠ -1) : initClient.holders fd = 0 := by
  have hnone : ∀ k, fd ∉ initClient.table k := by
    intro k hmem
    fin_cases k <;> exact hfd (List.eq_of_mem_replicate hmem)
  have hpos := mt Clients.holders_pos.mp (not_exists.mpr hnone)
  omega

/-- The empty tables are well formed. -/
theorem initClient_ok : initClient.Ok where
  length := by decide
  once := by
    intro fd hfd
    rw [holders_initClient hfd]
    exact Nat.zero_le 1

/-- Their counters are right. -/
theorem initClient_counted : initClient.Counted := by
  unfold Clients.Counted
  decide

/-- Tables with a client more. -/
structure Added (k : Fin 3) (fd : Int) (c c' : Clients) : Prop where
  ok : c'.Ok
  counted : c.Counted → c'.Counted
  holders : ∀ fd', fd' ≠ -1 → c'.holders fd' = c.holders fd' + if fd = fd' then 1 else 0
  mem : ∀ j, ∀ fd' ∈ c'.table j, fd' ∈ c.table j ∨ j = k ∧ fd' = fd

/-- Tables without a client. -/
structure Removed (fd : Int) (c c' : Clients) : Prop where
  ok : c'.Ok
  counted : c.Counted → c'.Counted
  holders : ∀ fd', fd' ≠ -1 → c'.holders fd' = if fd' = fd then 0 else c.holders fd'
  mem : ∀ j, ∀ fd' ∈ c'.table j, fd' ≠ -1 → fd' ∈ c.table j

section
variable {c : Clients} (h : c.Ok) {k : Fin 3} {fd : Int}
include h

/-- Putting a new client into a free slot adds it. -/
theorem Clients.Ok.put {socks : List Int} (hput : Slots.put (-1) fd (c.table k) = some socks)
    (hfd : fd ≠ -1) (hnew : c.holders fd = 0) :
    Added k fd c (c.setTable k socks (c.count k + 1)) := by
  have hholders : ∀ fd', fd' ≠ -1 → (c.setTable k socks (c.count k + 1)).holders fd' =
      c.holders fd' + if fd = fd' then 1 else 0 := fun fd' hfd' => by
    have hcount := Slots.count_put hput hfd'
    have hset := Clients.holders_setTable k socks (c.count k + 1) c fd'
    omega
  refine ⟨⟨fun j => ?_, fun fd' hfd' => ?_⟩, fun hc j => ?_, hholders, fun j fd' hmem => ?_⟩
  · rw [Clients.table_setTable]
    split
    · rw [Slots.length_put hput, h.length]
    · exact h.length j
  · rw [hholders fd' hfd']
    split
    · rename_i heq
      rw [← heq, hnew]
    · exact h.once fd' hfd'
  · rw [Clients.table_setTable, Clients.count_setTable]
    split
    · rw [Slots.inUse_put hput hfd, hc]
    · exact hc j
  · rw [Clients.table_setTable] at hmem
    split at hmem
    · rename_i hj
      rw [hj]
      exact (Slots.mem_put hput hmem).imp id fun heq => ⟨rfl, heq⟩
    · exact .inl hmem

/-- Freeing the slot of a client removes it. -/
theorem Clients.Ok.free {i : Nat} (hi : (c.table k)[i]? = some fd) (hfd : fd ≠ -1) :
    Removed fd c (c.setTable k ((c.table k).set i (-1)) (c.count k - 1)) := by
  have hholders : ∀ fd', fd' ≠ -1 →
      (c.setTable k ((c.table k).set i (-1)) (c.count k - 1)).holders fd' =
        if fd' = fd then 0 else c.holders fd' := fun fd' hfd' => by
    have hcount := Slots.count_free hi hfd'
    have hset := Clients.holders_setTable k ((c.table k).set i (-1)) (c.count k - 1) c fd'
    have honce := h.once fd' hfd'
    by_cases heq : fd' = fd
    · rw [if_pos heq]
      rw [if_pos heq.symm] at hcount
      omega
    · rw [if_neg heq]
      rw [if_neg (Ne.symm heq)] at hcount
      omega
  refine ⟨⟨fun j => ?_, fun fd' hfd' => ?_⟩, fun hc j => ?_, hholders, fun j fd' hmem hfd' => ?_⟩
  · rw [Clients.table_setTable]
    split
    · rw [List.length_set, h.length]
    · exact h.length j
  · rw [hholders fd' hfd']
    split
    · exact Nat.zero_le 1
    · exact h.once fd' hfd'
  · rw [Clients.table_setTable, Clients.count_setTable]
    split
    · have huse := Slots.inUse_free hi hfd
      rw [hc]
      omega
    · exact hc j
  · rw [Clients.table_setTable] at hmem
    split at hmem
    · rename_i hj
      rw [hj]
      exact (List.mem_or_eq_of_mem_set hmem).resolve_right hfd'
    · exact hmem

/-- A descriptor that no entry holds is removed already. -/
theorem Clients.Ok.removed (hfd : c.holders fd = 0) : Removed fd c c := by
  refine ⟨h, id, fun fd' _ => ?_, fun _ _ hmem _ => hmem⟩
  split
  · rename_i heq
    rw [heq, hfd]
  · rfl

/-- A descriptor is in one table only. -/
theorem Clients.Ok.unique (hfd : fd ≠ -1) {j : Fin 3} (hk : fd ∈ c.table k) (hj : fd ∈ c.table j) :
    j = k := by
  by_contra hne
  have hkpos := List.count_pos_iff.mpr hk
  have hjpos := List.count_pos_iff.mpr hj
  have htwo := Clients.count_table_add_le hne c fd
  have honce := h.once fd hfd
  omega

/-- A table holds a descriptor once, or not at all. -/
theorem Clients.Ok.count_table (hfd : fd ≠ -1) (k : Fin 3) :
    (c.table k).count fd = if fd ∈ c.table k then 1 else 0 := by
  have honce := h.once fd hfd
  have hle := Clients.count_table_le k c fd
  split
  · rename_i hmem
    have hpos := List.count_pos_iff.mpr hmem
    omega
  · exact List.count_eq_zero_of_not_mem ‹_›

/-- The tables hold what they held, and the new client. -/
theorem Added.mem_iff {c' : Clients} (hadd : Added k fd c c') (hfd : fd ≠ -1) (hnew : c.holders fd = 0)
    {j : Fin 3} {fd' : Int} (hfd' : fd' ≠ -1) :
    fd' ∈ c'.table j ↔ fd' ∈ c.table j ∨ j = k ∧ fd' = fd := by
  have hnot : ∀ j, fd ∉ c.table j := not_exists.mp (mt Clients.holders_pos.mpr (by omega))
  refine ⟨hadd.mem j fd', ?_⟩
  rintro (hmem | ⟨rfl, rfl⟩)
  · have hpos := Clients.holders_pos.mpr ⟨j, hmem⟩
    have hholders := hadd.holders fd' hfd'
    obtain ⟨i, hi⟩ := Clients.holders_pos.mp (Nat.lt_of_lt_of_eq (Nat.add_pos_left hpos _) hholders.symm)
    obtain hold | ⟨-, rfl⟩ := hadd.mem i fd' hi
    · rwa [← h.unique hfd' hmem hold]
    · exact absurd hmem (hnot j)
  · have hholders := hadd.holders fd' hfd
    rw [if_pos rfl, hnew] at hholders
    obtain ⟨i, hi⟩ := Clients.holders_pos.mp (Nat.lt_of_lt_of_eq Nat.one_pos hholders.symm)
    obtain hold | ⟨rfl, -⟩ := hadd.mem i fd' hi
    · exact absurd hold (hnot i)
    · exact hi

/-- The tables hold what they held, but for the client that is gone. -/
theorem Removed.mem_iff {c' : Clients} (hrem : Removed fd c c') {j : Fin 3} {fd' : Int} (hfd' : fd' ≠ -1) :
    fd' ∈ c'.table j ↔ fd' ∈ c.table j ∧ fd' ≠ fd := by
  have hholders := hrem.holders fd' hfd'
  constructor
  · intro hmem
    refine ⟨hrem.mem j fd' hmem hfd', fun heq => ?_⟩
    have hpos := Clients.holders_pos.mpr ⟨j, hmem⟩
    rw [if_pos heq] at hholders
    omega
  · rintro ⟨hmem, hne⟩
    rw [if_neg hne] at hholders
    have hpos := Clients.holders_pos.mpr ⟨j, hmem⟩
    obtain ⟨i, hi⟩ := Clients.holders_pos.mp (Nat.lt_of_lt_of_eq hpos hholders.symm)
    rwa [← h.unique hfd' hmem (hrem.mem i fd' hi hfd')]

end

/-! ## Client calls -/

section
variable {w : World} (h : w.clients.Ok) {fd : Int}
include h

/-- `del_client` removes the descriptor, and closes it if it was in the table of
the OpenRemote 2.0 clients. -/
theorem delClient_spec (hfd : fd ≠ -1) :
    Removed fd w.clients (w.delClient fd).2.clients ∧
      (fd ∈ w.clients.table 2 → (w.delClient fd).2.sockPort = Function.update w.sockPort fd none ∧
        (w.delClient fd).2.sockets.closed = w.sockets.closed ++ [fd]) ∧
      (fd ∉ w.clients.table 2 → (w.delClient fd).2.sockPort = w.sockPort ∧
        (w.delClient fd).2.sockets.closed = w.sockets.closed) := by
  obtain ⟨hnone, hw⟩ | ⟨k, i, hi, hw⟩ := delClient_cases fd w
  · have hnot : ∀ k, fd ∉ w.clients.table k := by
      intro k hmem
      obtain ⟨i, hi⟩ := List.mem_iff_getElem?.mp hmem
      have hlt := (List.getElem?_eq_some_iff.mp hi).1
      rw [h.length k] at hlt
      exact hnone k i hlt hi
    have hzero : w.clients.holders fd = 0 :=
      Nat.eq_zero_of_not_pos (mt Clients.holders_pos.mp (not_exists.mpr hnot))
    rw [hw]
    exact ⟨h.removed hzero, fun hmem => absurd hmem (hnot 2), fun _ => ⟨rfl, rfl⟩⟩
  · have hmem : fd ∈ w.clients.table k := List.mem_of_getElem? hi
    rw [hw]
    refine ⟨h.free hi hfd, fun h2 => ?_, fun h2 => ?_⟩
    · rw [if_pos (h.unique hfd h2 hmem)]
      refine ⟨rfl, ?_⟩
      have hnew : [Io.shutdown fd, .close fd].filterMap Io.closed = [fd] := rfl
      simpa [World.sockets] using hnew
    · have hk : k ≠ 2 := by
        rintro rfl
        exact h2 hmem
      rw [if_neg hk]
      exact ⟨rfl, rfl⟩

/-- A plain or XML client that hangs up is closed once, by the main loop. -/
theorem close_delClient (hfd : fd ≠ -1)
    (hmem : fd ∈ w.clients.table 0 ∨ fd ∈ w.clients.table 1) :
    Removed fd w.clients ((w.close fd).delClient fd).2.clients ∧
      ((w.close fd).delClient fd).2.sockPort = Function.update w.sockPort fd none ∧
      ((w.close fd).delClient fd).2.sockets.closed = w.sockets.closed ++ [fd] := by
  have h2 : fd ∉ w.clients.table 2 := by
    obtain hmem | hmem := hmem
    · exact fun h2 => absurd (h.unique hfd h2 hmem) (by decide)
    · exact fun h2 => absurd (h.unique hfd h2 hmem) (by decide)
  obtain ⟨hrem, -, hkept⟩ := delClient_spec (w := w.close fd) h hfd
  obtain ⟨hsock, hclosed⟩ := hkept h2
  exact ⟨hrem, hsock, hclosed.trans (closed_close fd w)⟩

/-- The other descriptors stay open. -/
theorem sockPort_delClient (hfd : fd ≠ -1) {fd' : Int} (hne : fd' ≠ fd) :
    (w.delClient fd).2.sockPort fd' = w.sockPort fd' := by
  obtain ⟨-, hclosed, hkept⟩ := delClient_spec h hfd
  by_cases h2 : fd ∈ w.clients.table 2
  · rw [(hclosed h2).1, Function.update_of_ne hne]
  · rw [(hkept h2).1]

/-- A connection that finds a free entry. -/
theorem acceptClient_room {k : Fin 3} (hfd : 0 ≤ fd) (hnew : w.clients.holders fd = 0)
    (hroom : -1 ∈ w.clients.table k) :
    Added k fd w.clients (acceptClient k (addTo k) fd w).clients := by
  rw [acceptClient, addTo_eq, if_pos hfd]
  cases hput : put (-1) fd (w.clients.table k) with
  | none => exact absurd hroom (put_eq_none.mp hput)
  | some socks => exact h.put hput (by omega) hnew

end

/-- A failed `accept` leaves the tables as they are, and is counted. -/
theorem acceptClient_failed (k : Fin 3) (w : World) :
    (∀ j, (acceptClient k (addTo k) (-1) w).clients.table j = w.clients.table j) ∧
      (-1 ∈ w.clients.table k →
        (acceptClient k (addTo k) (-1) w).clients.count k = w.clients.count k + 1) := by
  rw [acceptClient, addTo_eq, if_neg (by decide)]
  cases hput : put (-1) (-1) (w.clients.table k) with
  | none => exact ⟨fun _ => rfl, fun hroom => absurd hroom (put_eq_none.mp hput)⟩
  | some socks =>
      refine ⟨fun j => ?_, fun _ => ?_⟩
      · dsimp only
        rw [Clients.table_setTable, put_free hput]
        split
        · rename_i hj
          rw [hj]
        · rfl
      · dsimp only
        rw [Clients.count_setTable, if_pos rfl]

/-- A connection that finds no free entry is open, and in no table. -/
theorem acceptClient_full {k : Fin 3} {clifd : Int} {w : World} (hfd : 0 ≤ clifd)
    (hfull : -1 ∉ w.clients.table k) : acceptClient k (addTo k) clifd w =
      { w with sockPort := Function.update w.sockPort clifd (some (serverPort + k)) } := by
  rw [acceptClient, addTo_eq, if_pos hfd, put_eq_none.mpr hfull]

/-- What `cm15a_encode` keeps: `del_client` of an OpenRemote 2.0 client is the
only call in it that changes the client side. -/
theorem cm15aEncode_sockets {I : Sockets → Prop} (fd : Int)
    (hdel : ∀ w : World, I w.sockets → w.or20client fd = true → I (w.delClient fd).2.sockets)
    (buf : List UInt8) {w : World} (h : I w.sockets) : I (cm15aEncode fd buf w).sockets := by
  suffices hloop : ∀ remptr, I (encodeLoop fd buf remptr w).2.sockets from hloop w.remlen
  have hrun : ∀ w : World, I w.sockets → I (w.runRemainder fd).sockets := by
    intro w h
    unfold World.runRemainder
    extract_lets aLine
    split
    · have hline := sockets_processcommandline fd aLine { w with lines := w.lines ++ [(fd, aLine)] }
      revert hline
      rcases processcommandline fd aLine { w with lines := w.lines ++ [(fd, aLine)] } with ⟨rc, t, v⟩
      intro hline
      have hv : I (World.sockets { v with remainder := t.buffer ++ v.remainder.drop t.buffer.length }) := by
        change I v.sockets
        rw [hline]
        exact h
      dsimp only
      split
      · exact hdel _ hv ‹_›
      · exact hv
    · exact h
  intro remptr
  induction buf generalizing remptr w with
  | nil => exact h
  | cons b buf ih =>
      simp only [encodeLoop]
      split
      · refine ih ?_ 0
        exact hrun ((w.storeRemainder remptr b).storeRemainder remptr 0) h
      · refine ih ?_ (remptr + 1)
        exact h

end Mochad
