import Mochad.MainLoop
import Mochad.Sockets

/-!
# Mochad.ClientTables

The client tables in every run: connections, chunks, disconnects, packets and
timeouts in any order.

`add_client` and its siblings take the result of `accept` as it is.  A failed
one, -1, is the mark of a free entry: the counter grows and the table stays as
it was.  `client_tables` says that this is the only way for the tables, their
counters and the array for `poll` to come apart.
-/

namespace Mochad

open CString Slots

/-- `accept` returns -1 or a descriptor that is not open. -/
def FreshDescriptors (w : World) : Happening → Prop
  | .accept _ clifd => clifd = -1 ∨ 0 ≤ clifd ∧ w.sockPort clifd = none
  | _ => True

instance (w : World) : DecidablePred (FreshDescriptors w)
  | .accept _ clifd => inferInstanceAs (Decidable (clifd = -1 ∨ 0 ≤ clifd ∧ w.sockPort clifd = none))
  | .chunk _ _ | .disconnect _ _ | .packet _ _ | .timeout => inferInstanceAs (Decidable True)

/-- An `accept` that fails finds its table full. -/
def NoLostAccept (w : World) : Happening → Prop
  | .accept k clifd => clifd = -1 → -1 ∉ w.clients.table k
  | _ => True

instance (w : World) : DecidablePred (NoLostAccept w)
  | .accept k clifd => inferInstanceAs (Decidable (clifd = -1 → -1 ∉ w.clients.table k))
  | .chunk _ _ | .disconnect _ _ | .packet _ _ | .timeout => inferInstanceAs (Decidable True)

/-- The counters are right, no descriptor is in two entries, and `copy_clients`
writes as many records as it returns. -/
structure TablesOk (c : Clients) : Prop where
  counted : c.Counted
  once : ∀ fd, fd ≠ -1 → c.holders fd ≤ 1
  copied : ∀ records, (copiedClients c).length = (copyClients records c).2 ∧
    (copyClients records c).2 ≤ 3 * maxclisockets

/-! ## The array for poll -/

/-- The list that `copyClients` makes has every client in use once. -/
theorem length_copiedClients {c : Clients} (h : c.Ok) :
    (copiedClients c).length =
      inUse (-1) (c.table 0) + inUse (-1) (c.table 1) + inUse (-1) (c.table 2) := by
  have hread := fun k => map_getD_range (-1) (h.length k)
  rw [copiedClients, length_flatMap_filter]
  exact congrArg₂ (· + ·) (congrArg₂ (· + ·) (congrArg _ (hread 0)) (congrArg _ (hread 1)))
    (congrArg _ (hread 2))

theorem Clients.Ok.tablesOk {c : Clients} (h : c.Ok) (hc : c.Counted) : TablesOk c := by
  have hcount : ∀ records, (copyClients records c).2 =
      inUse (-1) (c.table 0) + inUse (-1) (c.table 1) + inUse (-1) (c.table 2) := fun _ => by
    rw [← hc 0, ← hc 1, ← hc 2]
    rfl
  have hle : ∀ k, inUse (-1) (c.table k) ≤ maxclisockets := fun k =>
    h.length k ▸ List.countP_le_length
  refine ⟨hc, h.once, fun records => ⟨by rw [length_copiedClients h, hcount], ?_⟩⟩
  have h0 := hle 0
  have h1 := hle 1
  have h2 := hle 2
  rw [hcount]
  omega

/-! ## Open clients -/

/-- Every client in a table has its socket open, on the port of that table. -/
structure Placed (s : Sockets) : Prop where
  ok : s.clients.Ok
  port : ∀ k, ∀ fd ∈ s.clients.table k, fd ≠ -1 → s.sockPort fd = some (serverPort + k)

section
variable {s s' : Sockets} (h : Placed s)
include h

/-- A descriptor that is not open is in no table. -/
theorem Placed.notHeld {fd : Int} (hfd : fd ≠ -1) (hnone : s.sockPort fd = none) :
    s.clients.holders fd = 0 := by
  by_contra hpos
  obtain ⟨k, hmem⟩ := Clients.holders_pos.mp (Nat.pos_of_ne_zero hpos)
  rw [h.port k fd hmem hfd] at hnone
  cases hnone

/-- Tables with the same entries are as good. -/
theorem Placed.congr (htable : ∀ k, s'.clients.table k = s.clients.table k)
    (hport : ∀ fd, fd ≠ -1 → s.clients.holders fd ≠ 0 → s'.sockPort fd = s.sockPort fd) : Placed s' := by
  refine ⟨⟨fun k => ?_, fun fd hfd => ?_⟩, fun k fd hmem hfd => ?_⟩
  · rw [htable]
    exact h.ok.length k
  · rw [Clients.holders_congr htable]
    exact h.ok.once fd hfd
  · rw [htable] at hmem
    have hheld := Clients.holders_pos.mpr ⟨k, hmem⟩
    rw [hport fd hfd (by omega)]
    exact h.port k fd hmem hfd

/-- A connection comes. -/
theorem Placed.added {k : Fin 3} {fd : Int} (hfd : fd ≠ -1) (hnone : s.sockPort fd = none)
    (hadd : Added k fd s.clients s'.clients)
    (hport : s'.sockPort = Function.update s.sockPort fd (some (serverPort + k))) : Placed s' := by
  refine ⟨hadd.ok, fun j fd' hmem hfd' => ?_⟩
  rw [hport]
  obtain hmem | ⟨rfl, rfl⟩ := hadd.mem j fd' hmem
  · have hother : fd' ≠ fd := by
      rintro rfl
      have hzero := h.notHeld hfd hnone
      have hpos := Clients.holders_pos.mpr ⟨j, hmem⟩
      omega
    rw [Function.update_of_ne hother]
    exact h.port j fd' hmem hfd'
  · exact Function.update_self ..

/-- A connection ends. -/
theorem Placed.removed {fd : Int} (hrem : Removed fd s.clients s'.clients)
    (hport : ∀ fd', fd' ≠ fd → s'.sockPort fd' = s.sockPort fd') : Placed s' := by
  refine ⟨hrem.ok, fun j fd' hmem hfd' => ?_⟩
  have hother : fd' ≠ fd := by
    rintro rfl
    have hpos := Clients.holders_pos.mpr ⟨j, hmem⟩
    rw [hrem.holders fd' hfd', if_pos rfl] at hpos
    exact absurd hpos (Nat.lt_irrefl 0)
  rw [hport fd' hother]
  exact h.port j fd' (hrem.mem j fd' hmem hfd') hfd'

end

section
variable {w : World} (h : Placed w.sockets)
include h

/-- A new descriptor takes its place in one table. -/
theorem Placed.accept {k : Fin 3} {clifd : Int} (hfresh : clifd = -1 ∨ 0 ≤ clifd ∧ w.sockPort clifd = none) :
    Placed (acceptClient k (addTo k) clifd w).sockets := by
  obtain rfl | ⟨hpos, hnone⟩ := hfresh
  · exact h.congr (acceptClient_failed k w).1 fun _ _ _ => rfl
  have hfd : clifd ≠ -1 := by omega
  have hzero : w.clients.holders clifd = 0 := h.notHeld hfd hnone
  by_cases hroom : -1 ∈ w.clients.table k
  · refine h.added hfd hnone (acceptClient_room h.ok hpos hzero hroom) ?_
    rw [World.sockets, acceptClient, if_pos hpos]
    rfl
  · rw [acceptClient_full hpos hroom]
    refine h.congr (fun _ => rfl) fun fd _ hheld => Function.update_of_ne ?_ _ _
    rintro rfl
    exact hheld hzero

/-- Removing a client leaves the others in their places. -/
theorem Placed.delClient {fd : Int} (hfd : fd ≠ -1) : Placed (w.delClient fd).2.sockets :=
  h.removed (delClient_spec h.ok hfd).1 fun _ hne => sockPort_delClient h.ok hfd hne

/-- So does closing it first. -/
theorem Placed.disconnect {fd : Int} (hfd : fd ≠ -1) : Placed ((w.close fd).delClient fd).2.sockets := by
  refine h.removed (delClient_spec (w := w.close fd) h.ok hfd).1 fun fd' hne => ?_
  refine (sockPort_delClient (w := w.close fd) h.ok hfd hne).trans ?_
  rw [World.close_sockPort, Function.update_of_ne hne]
  rfl

/-- Every event keeps the clients placed, if its descriptor is fresh. -/
theorem Placed.after {i : Happening} (hread : i.Readable) (hfresh : FreshDescriptors w i) :
    Placed (w.after i).sockets := by
  cases i with
  | accept k clifd => exact h.accept hfresh
  | chunk c buf =>
      have hread : 0 ≤ c.fd := hread
      exact cm15aEncode_sockets c.fd (fun w h _ => h.delClient (w := w) (by omega)) buf h
  | disconnect c error =>
      have hread : 0 ≤ c.fd := hread
      cases error <;> exact h.disconnect (by omega)
  | packet buf len =>
      have hsame : (w.after (.packet buf len)).sockets = w.sockets := sockets_decode (-1) buf len w
      rw [hsame]
      exact h
  | timeout => exact h

end

/-- At start-up there are no clients. -/
theorem sockets_startup (e : Setup) : (startup e).sockets = ⟨initClient, fun _ => none, []⟩ := by
  obtain ⟨_ | _, rawData, clock, junk⟩ := e <;> rfl

/-- In every run the clients are placed. -/
theorem placed_run {w₀ : World} (hinit : w₀.clients = initClient) {hs : List Happening}
    (hread : ∀ i ∈ hs, i.Readable) (hfresh : Run.Along World.after FreshDescriptors w₀ hs) :
    Placed (Run.run World.after w₀ hs).sockets := by
  let I : List Happening → World → Prop := fun _ w => Placed w.sockets
  have hstart : I [] w₀ := by
    refine ⟨?_, fun k fd hmem hfd => ?_⟩
    · rw [World.sockets, hinit]
      exact initClient_ok
    · have hpos := Clients.holders_pos.mpr ⟨k, hmem⟩
      rw [World.sockets, hinit, holders_initClient hfd] at hpos
      exact absurd hpos (Nat.lt_irrefl 0)
  exact @Run.history World Happening _ _ _ I hstart (fun _ _ _ h hi => h.after hi.1 hi.2) hs
    ((Run.along_of_forall hread).and hfresh)

/-! ## Steps -/

/-- The tables are consistent with their counters, and hold open descriptors. -/
structure Listed (s : Sockets) : Prop where
  ok : s.clients.Ok
  counted : s.clients.Counted
  isOpen : ∀ fd, fd ≠ -1 → s.sockPort fd = none → s.clients.holders fd = 0

/-- A descriptor that leaves the tables may be closed. -/
theorem Listed.delClient {w : World} {fd : Int} (hok : w.clients.Ok) (hc : w.clients.Counted)
    (hfd : fd ≠ -1)
    (ho : ∀ fd', fd' ≠ -1 → fd' ≠ fd → w.sockPort fd' = none → w.clients.holders fd' = 0) :
    Listed (w.delClient fd).2.sockets := by
  obtain ⟨hrem, -⟩ := delClient_spec hok hfd
  refine ⟨hrem.ok, hrem.counted hc, fun fd' hfd' hnone => ?_⟩
  change (w.delClient fd).2.clients.holders fd' = 0
  rw [hrem.holders fd' hfd']
  split
  · rfl
  · rename_i hne
    have hport : (w.delClient fd).2.sockPort fd' = none := hnone
    rw [sockPort_delClient hok hfd hne] at hport
    exact ho fd' hfd' hne hport

section
variable {w : World} (h : Listed w.sockets)
include h

/-- An accepted descriptor is open when it enters a table. -/
theorem Listed.accept {k : Fin 3} {clifd : Int} (hfresh : clifd = -1 ∨ 0 ≤ clifd ∧ w.sockPort clifd = none)
    (hlost : clifd = -1 → -1 ∉ w.clients.table k) :
    Listed (acceptClient k (addTo k) clifd w).sockets := by
  obtain rfl | ⟨hpos, hnone⟩ := hfresh
  · rw [acceptClient, addTo_eq, if_neg (by decide), put_eq_none.mpr (hlost rfl)]
    exact h
  have hne : clifd ≠ -1 := by omega
  have hzero : w.clients.holders clifd = 0 := h.isOpen clifd hne hnone
  by_cases hroom : -1 ∈ w.clients.table k
  · have hadd : Added k clifd w.clients (acceptClient k (addTo k) clifd w).clients :=
      acceptClient_room h.ok hpos hzero hroom
    refine ⟨hadd.ok, hadd.counted h.counted, fun fd hfd hport => ?_⟩
    have hport' : Function.update w.sockPort clifd (some (serverPort + k)) fd = none := by
      rwa [World.sockets, acceptClient, if_pos hpos] at hport
    have hother : clifd ≠ fd := by
      rintro rfl
      rw [Function.update_self] at hport'
      cases hport'
    rw [Function.update_of_ne (Ne.symm hother)] at hport'
    have hheld := hadd.holders fd hfd
    rw [if_neg hother, Nat.add_zero] at hheld
    exact hheld.trans (h.isOpen fd hfd hport')
  · rw [acceptClient_full hpos hroom]
    refine ⟨h.ok, h.counted, fun fd hfd hport => ?_⟩
    have hport' : Function.update w.sockPort clifd (some (serverPort + k)) fd = none := hport
    by_cases heq : fd = clifd
    · rw [heq]
      exact hzero
    · rw [Function.update_of_ne heq] at hport'
      exact h.isOpen fd hfd hport'

/-- A client that is closed leaves the tables. -/
theorem Listed.close_delClient {fd : Int} (hfd : 0 ≤ fd) :
    Listed ((w.close fd).delClient fd).2.sockets := by
  refine Listed.delClient h.ok h.counted (by omega) fun fd' hfd' hne hport => ?_
  rw [World.close_sockPort, Function.update_of_ne hne] at hport
  exact h.isOpen fd' hfd' hport

/-- What the clients send opens no descriptor, and closes only what it removes. -/
theorem Listed.encode {fd : Int} (hfd : 0 ≤ fd) (buf : List UInt8) :
    Listed (cm15aEncode fd buf w).sockets :=
  cm15aEncode_sockets fd (fun _ h _ => Listed.delClient h.ok h.counted (by omega)
    fun fd' hfd' _ hport => h.isOpen fd' hfd' hport) buf h

/-- Every event leaves only open descriptors in the tables, if no `accept` fails. -/
theorem Listed.after {i : Happening} (hread : i.Readable) (hfresh : FreshDescriptors w i)
    (hlost : NoLostAccept w i) :
    Listed (w.after i).sockets := by
  cases i with
  | accept k clifd => exact h.accept hfresh hlost
  | chunk c buf => exact h.encode hread buf
  | disconnect c error => cases error <;> exact h.close_delClient hread
  | packet buf len =>
      have hsame : (w.after (.packet buf len)).sockets = w.sockets := sockets_decode (-1) buf len w
      rw [hsame]
      exact h
  | timeout => exact h

end

/-! ## Runs -/

section
variable {w₀ : World} (hinit : w₀.clients = initClient)
include hinit

/-- In every run without a failed `accept` the tables hold open descriptors, and count
them. -/
theorem listed_run {hs : List Happening} (hread : ∀ i ∈ hs, i.Readable)
    (hfresh : Run.Along World.after FreshDescriptors w₀ hs)
    (hlost : Run.Along World.after NoLostAccept w₀ hs) :
    Listed (Run.run World.after w₀ hs).sockets := by
  let I : List Happening → World → Prop := fun _ w => Listed w.sockets
  have hstart : I [] w₀ := by
    refine ⟨?_, ?_, fun fd hfd _ => ?_⟩ <;> rw [World.sockets, hinit]
    · exact initClient_ok
    · exact initClient_counted
    · exact holders_initClient hfd
  exact @Run.history World Happening _ _ _ I hstart
    (fun _ _ _ h hi => h.after hi.1 hi.2.1 hi.2.2) hs
    ((Run.along_of_forall hread).and (hfresh.and hlost))

/-- In every run, the tables agree with their counters and with the array for
`poll` after every step: this holds exactly when no `accept` fails while there is
a free entry. -/
theorem client_tables {hs : List Happening} (hread : ∀ i ∈ hs, i.Readable)
    (hfresh : Run.Along World.after FreshDescriptors w₀ hs) :
    (∀ earlier, earlier <+: hs → TablesOk (Run.run World.after w₀ earlier).clients) ↔
      Run.Along World.after NoLostAccept w₀ hs := by
  constructor
  · intro hok
    induction hs using List.reverseRecOn with
    | nil => exact Run.along_nil _ _ _
    | append_singleton hs i ih =>
        have hpre := (Run.along_concat.mp hfresh).1
        have hreads : ∀ j ∈ hs, j.Readable := fun j hj => hread j (List.mem_append_left _ hj)
        have hlost := ih hreads hpre fun earlier he => hok earlier (he.trans (List.prefix_append hs [i]))
        suffices hi : NoLostAccept (Run.run World.after w₀ hs) i from
          Run.along_concat.mpr ⟨hlost, hi⟩
        cases i with
        | accept k clifd =>
            rintro rfl hroom
            -- the counter was right before, and only it has changed
            have hbefore : (Run.run World.after w₀ hs).clients.count k =
                inUse (-1) ((Run.run World.after w₀ hs).clients.table k) :=
              (listed_run hinit hreads hpre hlost).counted k
            obtain ⟨htable, hcount⟩ := acceptClient_failed k (Run.run World.after w₀ hs)
            have hafter := (hok _ List.prefix_rfl).counted k
            rw [Run.run_append] at hafter
            have hnone := (hcount hroom).symm.trans (hafter.trans (congrArg _ (htable k)))
            omega
        | _ => trivial
  · rintro hlost earlier ⟨later, rfl⟩
    have hreads : ∀ i ∈ earlier, i.Readable := fun i hi => hread i (List.mem_append_left _ hi)
    have h := listed_run hinit hreads (Run.along_append.mp hfresh).1 (Run.along_append.mp hlost).1
    exact h.ok.tablesOk h.counted

end

/-- An OpenRemote 2.0 client that is served, and a plain one that hangs up. -/
theorem client_tables_two :
    TablesOk (Run.run World.after (worldInit (stillSetup false)) [.accept 0 5, .accept 2 6,
      .chunk ⟨1, 6⟩ (cstr "st\n"), .disconnect ⟨0, 5⟩ false, .accept 1 6]).clients :=
  (@client_tables (worldInit (stillSetup false)) rfl [.accept 0 5, .accept 2 6,
      .chunk ⟨1, 6⟩ (cstr "st\n"), .disconnect ⟨0, 5⟩ false, .accept 1 6] (by decide)
    (by decide)).mpr (by decide) _ List.prefix_rfl

/-- A failed `accept` counts a client that no entry holds: `copy_clients` returns
one record, and writes none. -/
theorem client_tables_failed :
    let c := (Run.run World.after (worldInit (stillSetup false)) [.accept 0 (-1)]).clients
    c.nClients = 1 ∧ inUse (-1) c.clientsocks = 0 ∧ copiedClients c = [] ∧
      (copyClients (List.replicate 99 0) c).2 = 1 ∧ ¬ TablesOk c := by
  refine ⟨by decide, by decide, by decide, by decide, fun h => ?_⟩
  exact absurd (h.counted 0) (by decide)

end Mochad
