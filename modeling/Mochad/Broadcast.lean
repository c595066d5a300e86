import Mochad.Acts
import Mochad.Silent

/-!
# Mochad.Broadcast

What the clients of the three tables are sent.

A text for everybody reaches each client of the first two tables once, in the
form of its table (`sentTo_broadcast`).  So all clients that are connected
during a stretch of a run, and do nothing in it, receive the same texts in the
same order (`broadcasts_agree`).
-/

namespace Mochad

open CString
open Relation (ReflTransGen)

/-! ## Output of a run -/

/-- The bytes sent to a descriptor. -/
def sentTo (fd : Int) (io : List Io) : List UInt8 :=
  io.flatMap fun
    | .send fd' text => if fd' = fd then text else []
    | _ => []

/-- The messages that are not null. -/
def published (io : List Io) : List Text :=
  io.filterMap fun
    | .sendMessage m => m
    | _ => none

/-- What a descriptor is sent by two lists of calls, one after the other. -/
theorem sentTo_append (fd : Int) (xs ys : List Io) : sentTo fd (xs ++ ys) = sentTo fd xs ++ sentTo fd ys :=
  List.flatMap_append

/-- What two lists of calls publish, one after the other. -/
theorem published_append (xs ys : List Io) : published (xs ++ ys) = published xs ++ published ys :=
  List.filterMap_append

/-- One `send` reaches its own descriptor only. -/
theorem sentTo_send {fd fd' : Int} (text : Text) :
    sentTo fd [.send fd' text] = if fd' = fd then text else [] := List.append_nil _

/-- How a text for everybody is sent to the clients of a table. -/
def form : Fin 3 → Text → Text
  | 0, text => text
  | 1, text => World.newlineToNul text
  | 2, _ => []

/-- A text sent to a table reaches a descriptor as often as the table lists it. -/
theorem sentTo_sendAll {fd : Int} (hfd : 0 < fd) (text : Text) (fds : List Int) :
    sentTo fd (World.sendAll text fds) = (List.replicate (fds.count fd) text).flatten := by
  induction fds with
  | nil => rfl
  | cons fd' fds ih =>
      by_cases heq : fd' = fd
      · subst heq
        have hall : World.sendAll text (fd' :: fds) = [.send fd' text] ++ World.sendAll text fds := by
          simp [World.sendAll, hfd]
        rw [hall, sentTo_append, sentTo_send, if_pos rfl, ih, List.count_cons_self, List.replicate_succ,
          List.flatten_cons]
      · have hall : ∃ xs, World.sendAll text (fd' :: fds) = xs ++ World.sendAll text fds ∧
            sentTo fd xs = [] := by
          by_cases hpos : 0 < fd'
          · exact ⟨[.send fd' text], by simp [World.sendAll, hpos], by rw [sentTo_send, if_neg heq]⟩
          · exact ⟨[], by simp [World.sendAll, hpos], rfl⟩
        obtain ⟨xs, hxs, hnone⟩ := hall
        rw [hxs, sentTo_append, hnone, ih, List.count_cons_of_ne heq]
        rfl

/-- Text for the sockets is not published. -/
theorem published_sendAll (text : Text) (fds : List Int) : published (World.sendAll text fds) = [] := by
  induction fds with
  | nil => rfl
  | cons fd fds ih =>
      by_cases hpos : 0 < fd <;> simp [World.sendAll, published, hpos]

/-! ## Listening clients -/

/-- The client is in one table, once, and its socket is open. -/
structure Listening (fd : Int) (k : Fin 3) (v : View) : Prop where
  count : ∀ j, (v.clients.table j).count fd = if j = k then 1 else 0
  port : v.sockPort fd = some (serverPort + k)

/-- Tables and ports with the same entries for the client are as good. -/
theorem Listening.congr {fd : Int} {k : Fin 3} {v v' : View} (h : Listening fd k v)
    (hcount : ∀ j, (v'.clients.table j).count fd = (v.clients.table j).count fd)
    (hport : v'.sockPort fd = v.sockPort fd) : Listening fd k v' :=
  ⟨fun j => (hcount j).trans (h.count j), hport.trans h.port⟩

/-- A client that listens goes on listening while the tables and ports stay. -/
theorem Listening.same {fd : Int} {k : Fin 3} {v v' : View} (h : Listening fd k v)
    (hclients : v'.clients = v.clients) (hport : v'.sockPort = v.sockPort) : Listening fd k v' :=
  h.congr (fun j => congrArg (fun c : Clients => (c.table j).count fd) hclients) (congrFun hport fd)

/-- A descriptor in a table belongs to a client that listens. -/
theorem Placed.listening {w : World} (h : Placed w.sockets) {fd : Int} (hfd : fd ≠ -1) {k : Fin 3}
    (hmem : fd ∈ w.clients.table k) : Listening fd k w.view := by
  refine ⟨fun j => ?_, h.port k fd hmem hfd⟩
  have honce : w.clients.holders fd ≤ 1 := h.ok.once fd hfd
  by_cases hj : j = k
  · subst hj
    have hpos := List.count_pos_iff.mpr hmem
    have hle := w.clients.count_table_le j fd
    rw [if_pos rfl]
    change (w.clients.table j).count fd = 1
    omega
  · have hnot : fd ∉ w.clients.table j := fun hin => hj (h.ok.unique hfd hmem hin)
    rw [if_neg hj]
    exact List.count_eq_zero_of_not_mem hnot

/-- A text for everybody. -/
theorem sentTo_broadcast {fd : Int} (hfd : 0 < fd) {k : Fin 3} {v : View} (h : Listening fd k v) (text : Text) :
    sentTo fd (v.clients.printed (-1) text) = form k text := by
  have h0 : v.clients.clientsocks.count fd = if 0 = k then 1 else 0 := h.count 0
  have h1 : v.clients.clientxmlsocks.count fd = if 1 = k then 1 else 0 := h.count 1
  have hnone : sentTo fd [.sendMessage (some text)] = [] := rfl
  have hprinted : v.clients.printed (-1) text = [.sendMessage (some text)] ++
      World.sendAll text v.clients.clientsocks ++
        World.sendAll (World.newlineToNul text) v.clients.clientxmlsocks := rfl
  rw [hprinted, sentTo_append, sentTo_append, sentTo_sendAll hfd, sentTo_sendAll hfd, h0, h1, hnone]
  fin_cases k <;> simp [form]

/-- A text for every client is published once. -/
theorem published_broadcast (c : Clients) (text : Text) : published (c.printed (-1) text) = [text] := by
  have hprinted : c.printed (-1) text = [.sendMessage (some text)] ++ World.sendAll text c.clientsocks ++
      World.sendAll (World.newlineToNul text) c.clientxmlsocks := rfl
  rw [hprinted, published_append, published_append, published_sendAll, published_sendAll]
  rfl

/-- A text for one client. -/
theorem printed_one {fd : Int} (hfd : fd ≠ -1) (c : Clients) (text : Text) :
    ∃ text', c.printed fd text = [.send fd text'] := ⟨_, if_pos hfd⟩

/-! ## Acts -/

/-- An act takes no other client out of its table. -/
theorem Listening.act {fd fd' : Int} {n : Nat} {e : Prop} {k : Fin 3} {v v' : View} (h : Listening fd k v)
    (hfd : fd ≠ -1) (hact : Act fd' n e v v') (hstay : k = 2 → fd' ≠ fd) : Listening fd k v' := by
  cases hact with
  | finish j i hport hi =>
      have hne : fd' ≠ fd := by
        rintro rfl
        have hk := h.port.symm.trans hport
        have hk2 : k = 2 := by
          rw [Option.some.injEq] at hk
          exact Fin.ext (Nat.add_left_cancel hk)
        exact hstay hk2 rfl
      refine h.congr (fun j' => ?_) ?_
      · have hfree := Slots.count_free hi hfd
        rw [if_neg hne, Nat.add_zero] at hfree
        rw [Clients.table_setTable]
        split
        · rename_i hj
          rw [hj]
          exact hfree
        · rfl
      · change (if j = 2 then Function.update v.sockPort fd' none else v.sockPort) fd = v.sockPort fd
        split
        · exact Function.update_of_ne (Ne.symm hne) ..
        · rfl
  | _ => exact h.same rfl rfl

/-- The text is one line. -/
def OneLine (text : Text) : Prop := ∃ line, text = line ++ cstr "\n" ∧ 10 ∉ line

/-- A text that reports operations is one line. -/
theorem Says.oneLine {text : Text} {ops : List HuaOp} (h : Says text ops) : OneLine text := by
  obtain ⟨line, htext, hline, -⟩ := h
  exact ⟨line, htext, hline⟩

/-- What everybody is told on the way from `v` to `v'`: texts that the clients
with `P`, which do nothing themselves, hear in the form of their table.  They are
lines; an empty dump is only made if `e`, and is one unless the stack holds a line
end. -/
structure Spoken (P : Int → Prop) (e : Prop) (v v' : View) (texts : List Text) (io : List Io) : Prop where
  junk : v'.junk = v.junk
  output : v'.io = v.io ++ io
  sublist : texts.Sublist (published io)
  oneLine : (e → 10 ∉ emptyDump v.junk) → ∀ text ∈ texts, OneLine text
  heard : ∀ fd k, 0 < fd → P fd → Listening fd k v →
    Listening fd k v' ∧ sentTo fd io = texts.flatMap (form k)

section
variable {P : Int → Prop} {e : Prop} {u v v' : View} {xs ys : List Text} {a b : List Io}

/-- Nothing is said to everybody. -/
theorem Spoken.silent (hjunk : v'.junk = v.junk) (hio : v'.io = v.io ++ a)
    (hheard : ∀ fd k, 0 < fd → P fd → Listening fd k v → Listening fd k v' ∧ sentTo fd a = []) :
    Spoken P e v v' [] a :=
  ⟨hjunk, hio, List.nil_sublist _, fun _ _ h => absurd h List.not_mem_nil, hheard⟩

/-- The tables stay as they are. -/
theorem Spoken.other (hclients : v'.clients = v.clients) (hport : v'.sockPort = v.sockPort)
    (hjunk : v'.junk = v.junk) (hio : v'.io = v.io ++ a) (hnone : ∀ fd, 0 < fd → P fd → sentTo fd a = []) :
    Spoken P e v v' [] a :=
  .silent hjunk hio fun fd _ hfd hP hl => ⟨hl.same hclients hport, hnone fd hfd hP⟩

theorem Spoken.refl (P : Int → Prop) (e : Prop) (v : View) : Spoken P e v v [] [] :=
  .other rfl rfl rfl (List.append_nil _).symm fun _ _ _ => rfl

theorem Spoken.trans (h : Spoken P e u v xs a) (h' : Spoken P e v v' ys b) :
    Spoken P e u v' (xs ++ ys) (a ++ b) where
  junk := h'.junk.trans h.junk
  output := by rw [h'.output, h.output, List.append_assoc]
  sublist := by
    rw [published_append]
    exact h.sublist.append h'.sublist
  oneLine := fun hjunk => List.forall_mem_append.mpr
    ⟨h.oneLine hjunk, h'.oneLine (h.junk.symm ▸ hjunk)⟩
  heard := by
    intro fd k hfd hP hl
    obtain ⟨hl, hxs⟩ := h.heard fd k hfd hP hl
    obtain ⟨hl, hys⟩ := h'.heard fd k hfd hP hl
    exact ⟨hl, by rw [sentTo_append, List.flatMap_append, hxs, hys]⟩

/-- Fewer clients hear the same. -/
theorem Spoken.mono {Q : Int → Prop} {e' : Prop} (h : Spoken P e v v' xs a) (hPQ : ∀ fd, Q fd → P fd)
    (he : e → e') : Spoken Q e' v v' xs a :=
  ⟨h.junk, h.output, h.sublist, fun hjunk => h.oneLine fun hvanish => hjunk (he hvanish),
    fun fd k hfd hQ => h.heard fd k hfd (hPQ fd hQ)⟩

end

/-- One text for everybody. -/
theorem spoken_broadcast {P : Int → Prop} {e : Prop} {u v : View} (hclients : v.clients = u.clients)
    (hport : v.sockPort = u.sockPort) (hjunk : v.junk = u.junk) (hio : v.io = u.io) {text : Text}
    (hline : (e → 10 ∉ emptyDump u.junk) → OneLine text) :
    Spoken P e u (v.print (-1) text) [text] (u.clients.printed (-1) text) := by
  refine ⟨hjunk, ?_, ?_, fun h => List.forall_mem_singleton.mpr (hline h), fun fd k hfd _ hl => ⟨?_, ?_⟩⟩
  · rw [View.print, hio, hclients]
  · rw [published_broadcast]
  · exact hl.same hclients hport
  · rw [sentTo_broadcast hfd hl]
    exact (List.append_nil _).symm

/-- What the daemon does for client `fd'` the others hear alike. -/
theorem Act.spoken {fd' : Int} {n : Nat} {e : Prop} {v v' : View} (h : Act fd' n e v v') :
    ∃ texts io, Spoken (fd' ≠ ·) e v v' texts io := by
  -- a text for another client
  have hother : ∀ {fd'' : Int} (text : Text), fd'' = fd' ∨ fd'' = -1 →
      Spoken (fd' ≠ ·) e v (v.emit (.send fd'' text)) [] [.send fd'' text] := by
    intro fd'' text hfd
    refine .other rfl rfl rfl rfl fun fd hpos hne => ?_
    rw [sentTo_send, if_neg]
    rintro rfl
    obtain rfl | rfl := hfd
    · exact hne rfl
    · exact absurd hpos (by decide)
  cases h with
  | announce a =>
      exact ⟨_, _, @spoken_broadcast _ e v (v.track a.ops) rfl rfl rfl rfl _
        fun _ => (says_announcement a).oneLine⟩
  | dump hheading p hlen =>
      exact ⟨_, _, @spoken_broadcast _ e v v rfl rfl rfl rfl _ fun hjunk =>
        ⟨_, rfl, newline_dump hheading (fun hzero => hjunk (hlen hzero)) p⟩⟩
  | @reply hfd text _ =>
      obtain ⟨text', hprinted⟩ := printed_one hfd v.clients text
      have hview : v.print fd' text = v.emit (.send fd' text') := by rw [View.print, hprinted, View.emit]
      rw [hview]
      exact ⟨_, _, hother text' (.inl rfl)⟩
  | status hfd _ => exact ⟨_, _, hother _ hfd⟩
  | message _ => exact ⟨_, _, .other rfl rfl rfl rfl fun _ _ _ => rfl⟩
  | policy _ _ => exact ⟨_, _, hother domainpolicy (.inl rfl)⟩
  | reset _ _ => exact ⟨_, [], .other rfl rfl rfl (List.append_nil _).symm fun _ _ _ => rfl⟩
  | line _ => exact ⟨_, [], .other rfl rfl rfl (List.append_nil _).symm fun _ _ _ => rfl⟩
  | finish j i hport hi =>
      refine ⟨[], _, .silent rfl rfl fun fd k hpos hne hl => ⟨?_, ?_⟩⟩
      · exact hl.act (by omega) (.finish (n := n) (e := e) j i hport hi) fun _ => hne
      · split <;> rfl

/-- The acts of a client or of the decoder say their texts to every other client. -/
theorem spoken_acts {fd' : Int} {n : Nat} {e : Prop} {v v' : View} (h : Acts fd' n e v v') :
    ∃ texts io, Spoken (fd' ≠ ·) e v v' texts io := by
  induction h with
  | refl => exact ⟨[], [], .refl _ _ v⟩
  | tail _ hact ih =>
      obtain ⟨xs, a, hfirst⟩ := ih
      obtain ⟨ys, b, hlast⟩ := hact.spoken
      exact ⟨_, _, hfirst.trans hlast⟩

/-! ## Happenings -/

/-- The descriptor a happening is about. -/
def Happening.actor : Happening → Int
  | .accept _ clifd => clifd
  | .chunk c _ => c.fd
  | .disconnect c _ => c.fd
  | .packet _ _ | .timeout => -1

/-- A client comes or goes. -/
structure Moved (fd' : Int) (v v' : View) : Prop where
  devices : v'.devices = v.devices
  junk : v'.junk = v.junk
  lines : v'.lines = v.lines
  output : ∃ io, v'.io = v.io ++ io ∧ ∀ e ∈ io, e = .shutdown fd' ∨ e = .close fd'
  listening : ∀ fd k, fd ≠ -1 → fd' ≠ fd → Listening fd k v → Listening fd k v'

/-- A connection changes the tables at its own descriptor. -/
theorem moved_accept (k : Fin 3) (clifd : Int) (w : World) :
    Moved clifd w.view (w.after (.accept k clifd)).view := by
  have htables : ∀ fd, fd ≠ -1 → clifd ≠ fd → ∀ j,
      ((addTo k clifd w.clients).2.table j).count fd = (w.clients.table j).count fd := by
    intro fd hfd hne j
    rw [addTo_eq]
    cases hput : Slots.put (-1) clifd (w.clients.table k) with
    | none => rfl
    | some socks =>
        have hcount := Slots.count_put hput hfd
        rw [if_neg hne, Nat.add_zero] at hcount
        dsimp only
        rw [Clients.table_setTable]
        split
        · rename_i hj
          rw [hj, hcount]
        · rfl
  have hafter : (w.after (.accept k clifd)).view = { w.view with
      clients := (addTo k clifd w.clients).2
      sockPort := if 0 ≤ clifd then Function.update w.sockPort clifd (some (serverPort + k))
        else w.sockPort } := by
    change (acceptClient k (addTo k) clifd w).view = _
    unfold acceptClient
    split <;> rfl
  rw [hafter]
  refine ⟨rfl, rfl, rfl, ⟨[], (List.append_nil _).symm, by simp⟩, fun fd j hfd hne hl => ?_⟩
  refine hl.congr (htables fd hfd hne) ?_
  change (if 0 ≤ clifd then Function.update w.sockPort clifd (some (serverPort + k)) else w.sockPort) fd = _
  split
  · exact Function.update_of_ne (Ne.symm hne) ..
  · rfl

/-- So does the end of a client. -/
theorem moved_disconnect (c : Client) (error : Bool) (w : World) :
    Moved c.fd w.view (w.after (.disconnect c error)).view := by
  have hafter : w.after (.disconnect c error) = ((w.close c.fd).delClient c.fd).2 := by
    cases error <;> rfl
  have hclosed : ∀ fd, c.fd ≠ fd → Function.update w.sockPort c.fd none fd = w.sockPort fd := fun fd hne =>
    Function.update_of_ne (Ne.symm hne) ..
  rw [hafter]
  obtain ⟨-, heq⟩ | ⟨k, i, hi, heq⟩ := delClient_cases c.fd (w.close c.fd)
  · rw [heq]
    exact ⟨rfl, rfl, rfl, ⟨[.close c.fd], rfl, by simp⟩,
      fun fd j _ hne hl => hl.congr (fun _ => rfl) (hclosed fd hne)⟩
  rw [heq]
  refine ⟨?_, ?_, ?_, ?_, fun fd j hfd hne hl => hl.congr (fun j' => ?_) ?_⟩
  · split <;> rfl
  · split <;> rfl
  · split <;> rfl
  · split
    · exact ⟨[.close c.fd, .shutdown c.fd, .close c.fd], by simp [World.view, World.emit], by simp⟩
    · exact ⟨[.close c.fd], rfl, by simp⟩
  · have hfree := Slots.count_free hi hfd
    rw [if_neg hne, Nat.add_zero] at hfree
    simp only [World.view]
    rw [Clients.table_setTable]
    split
    · rename_i hj
      rw [hj]
      exact hfree
    · rfl
  · split
    · exact (Function.update_of_ne (Ne.symm hne) ..).trans (hclosed fd hne)
    · exact hclosed fd hne

/-- What happens is acts, or a client comes or goes. -/
theorem after_cases {w : World} (h : Unended w.remlen w) {i : Happening} (hread : i.Readable) :
    Acts i.actor w.lines.length i.Vanishes w.view (w.after i).view ∨ Moved i.actor w.view (w.after i).view := by
  cases i with
  | accept k clifd => exact .inr (moved_accept k clifd w)
  | chunk c buf => exact .inl (acts_chunk hread buf h)
  | disconnect c error => exact .inr (moved_disconnect c error w)
  | packet buf len => exact .inl (acts_packet buf len w)
  | timeout => exact .inl .refl

/-- Tables that change at one descriptor say nothing to the others. -/
theorem Moved.spoken {fd' : Int} {v v' : View} (h : Moved fd' v v') (e : Prop) :
    ∃ io, Spoken (fd' ≠ ·) e v v' [] io := by
  obtain ⟨io, hio, hall⟩ := h.output
  refine ⟨io, .silent h.junk hio fun fd k hpos hne hl => ⟨h.listening fd k (by omega) hne hl, ?_⟩⟩
  refine List.flatMap_eq_nil_iff.mpr fun e he => ?_
  obtain rfl | rfl := hall e he <;> rfl

/-- One event says its texts to every client but the one that caused it. -/
theorem spoken_after {w : World} (h : Unended w.remlen w) {i : Happening} (hread : i.Readable) :
    ∃ texts io, Spoken (i.actor ≠ ·) i.Vanishes w.view (w.after i).view texts io := by
  obtain hacts | hmoved := after_cases h hread
  · exact spoken_acts hacts
  · exact ⟨[], hmoved.spoken _⟩

/-- A run says its texts to every client that caused none of its events. -/
theorem spoken_run {w : World} (h : Unended w.remlen w) {is : List Happening} (hread : ∀ i ∈ is, i.Readable) :
    ∃ texts io, Spoken (fun fd => ∀ i ∈ is, i.actor ≠ fd) (∃ i ∈ is, i.Vanishes) w.view
      (Run.run World.after w is).view texts io := by
  induction is generalizing w with
  | nil => exact ⟨[], [], .refl _ _ _⟩
  | cons i is ih =>
      obtain ⟨hi, his⟩ := List.forall_mem_cons.mp hread
      obtain ⟨xs, a, hfirst⟩ := spoken_after h hi
      obtain ⟨ys, b, hrest⟩ := ih (h.after hi) his
      exact ⟨_, _, (hfirst.mono (fun fd hfd => hfd i List.mem_cons_self) fun hv => ⟨i, List.mem_cons_self, hv⟩).trans
        (hrest.mono (fun fd hfd j hj => hfd j (List.mem_cons_of_mem i hj)) fun ⟨j, hj, hv⟩ =>
          ⟨j, List.mem_cons_of_mem i hj, hv⟩)⟩

/-! ## Runs from start-up -/

/-- No event leaves an end of line in the buffer of the clients. -/
theorem unended_run {w : World} (h : Unended w.remlen w) {is : List Happening} (hread : ∀ i ∈ is, i.Readable) :
    Unended (Run.run World.after w is).remlen (Run.run World.after w is) := by
  induction is generalizing w with
  | nil => exact h
  | cons i is ih =>
      obtain ⟨hi, his⟩ := List.forall_mem_cons.mp hread
      exact ih (h.after hi) his

/-- The buffer of the clients is empty at start-up. -/
theorem unended_startup (e : Setup) : Unended (startup e).remlen (startup e) := by
  have hlen : (startup e).remlen = 0 := by
    obtain ⟨_ | _, rawData, clock, junk⟩ := e <;> rfl
  rw [hlen]
  exact fun b hb => by simp at hb

/-- The stack that an empty dump shows is the same in every state of a run. -/
theorem junk_run (e : Setup) {is : List Happening} (hread : ∀ i ∈ is, i.Readable) :
    (Run.run World.after (startup e) is).junk = e.junk := by
  obtain ⟨texts, io, hspoken⟩ := spoken_run (unended_startup e) hread
  have hjunk : (startup e).junk = e.junk := by
    obtain ⟨_ | _, rawData, clock, junk⟩ := e <;> rfl
  exact hspoken.junk.trans hjunk

/-- All clients that do nothing while `later` happens are told the same lines, each
in the form of its table, and these are given to `sendMessage` too.  Only the empty
dump of a packet that is nothing but `5D` need not be a line, if the stack holds a
line end. -/
theorem broadcasts_agree (e : Setup) {earlier later : List Happening} (hread : ∀ i ∈ earlier ++ later, i.Readable)
    (hfresh : Run.Along World.after FreshDescriptors (startup e) earlier) :
    let w := Run.run World.after (startup e) earlier
    let w' := Run.run World.after w later
    ∃ (texts : List Text) (io : List Io), w'.io = w.io ++ io ∧ texts.Sublist (published io) ∧
      (((∃ i ∈ later, i.Vanishes) → 10 ∉ emptyDump e.junk) → ∀ text ∈ texts, OneLine text) ∧
      ∀ fd k, 0 < fd → fd ∈ w.clients.table k → (∀ i ∈ later, i.actor ≠ fd) →
        sentTo fd io = texts.flatMap (form k) := by
  intro w w'
  obtain ⟨hearlier, hlater⟩ := List.forall_mem_append.mp hread
  have hinit : (startup e).clients = initClient := congrArg Sockets.clients (sockets_startup e)
  have hplaced : Placed w.sockets := placed_run hinit hearlier hfresh
  obtain ⟨texts, io, hspoken⟩ := spoken_run (unended_run (unended_startup e) hearlier) hlater
  refine ⟨texts, io, hspoken.output, hspoken.sublist, fun hquiet => hspoken.oneLine ?_, ?_⟩
  · rw [World.view, junk_run e hearlier]
    exact hquiet
  · intro fd k hpos hmem hidle
    exact (hspoken.heard fd k hpos hidle (hplaced.listening (by omega) hmem)).2

/-- A plain client and an XML client hear what a third client sends. -/
theorem broadcasts_agree_two :
    let w := Run.run World.after (startup (stillSetup false)) [.accept 0 5, .accept 1 6, .accept 0 7]
    ∃ (texts : List Text) (io : List Io),
      (w.after (.chunk ⟨2, 7⟩ (cstr "pl a1 on\n"))).io = w.io ++ io ∧ (∀ text ∈ texts, OneLine text) ∧
      sentTo 5 io = texts.flatMap id ∧ sentTo 6 io = texts.flatMap World.newlineToNul := by
  obtain ⟨texts, io, hio, -, hlines, hheard⟩ := @broadcasts_agree (stillSetup false)
    [.accept 0 5, .accept 1 6, .accept 0 7] [.chunk ⟨2, 7⟩ (cstr "pl a1 on\n")] (by decide) (by decide)
  exact ⟨texts, io, hio, hlines (by decide), hheard 5 0 (by decide) (by decide) (by decide),
    hheard 6 1 (by decide) (by decide) (by decide)⟩

end Mochad
