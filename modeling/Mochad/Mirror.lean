import Mochad.Broadcast

/-!
# Mochad.Mirror

Replicas of the tracked devices.

All that a plain client is sent is lines, and it can read off them how the
devices change: what is told to everybody says what was tracked, and what it is
told alone reports nothing.  So a client that reads the bytes of its connection
keeps an exact copy of the devices (`client_mirror`), and so does a subscriber of
the messages (`messages_mirror`).  Only `ST 0` changes the devices without a
word.
-/

namespace Mochad

open CString Lines
open Relation (ReflTransGen)

/-! ## Operations -/

/-- An announced level is a byte. -/
theorem byteLevel_announcement (a : Announcement) : ∀ op ∈ a.ops, op.ByteLevel := by
  intro op hop
  cases a with
  | houseunit b0 hu =>
      obtain rfl := List.mem_singleton.mp hop
      trivial
  | housefunc b0 hf => exact byteLevel_plcFuncOp hf op (Option.mem_toList.mp hop)
  | extended b0 hf u data command =>
      obtain rfl := List.mem_singleton.mp hop
      exact ⟨data, rfl⟩
  | standard b0 hu uf =>
      simp only [Announcement.ops, rfOps] at hop
      split at hop
      · cases hop
      · simp only [List.mem_cons, List.not_mem_nil, or_false] at hop
        obtain rfl | rfl := hop
        · trivial
        · split <;> trivial
  | _ => cases hop

/-- Operations with such levels keep the devices consistent. -/
theorem consistent_applyOps {s : X10state} (hs : s.Consistent) {ops : List HuaOp} (h : ∀ op ∈ ops, op.ByteLevel) :
    (applyOps ops s).Consistent :=
  hs.calls (tracking_applyOps h s)

theorem consistent_act {fd : Int} {n : Nat} {e : Prop} {v v' : View} (h : Act fd n e v v') (hs : v.devices.Consistent) :
    v'.devices.Consistent := by
  cases h with
  | announce a => exact consistent_applyOps hs (byteLevel_announcement a)
  | reset _ _ => exact consistent_huaSecInit
  | _ => exact hs

theorem consistent_acts {fd : Int} {n : Nat} {e : Prop} {v v' : View} (h : Acts fd n e v v') (hs : v.devices.Consistent) :
    v'.devices.Consistent := by
  induction h with
  | refl => exact hs
  | tail _ hact ih => exact consistent_act hact ih

/-! ## Streams -/

/-- A line with its newline is finished. -/
theorem unfinished_newline {line : Text} (h : 10 ∉ line) :
    finished isNewline (line ++ cstr "\n") = [line] ∧ unfinished isNewline (line ++ cstr "\n") = [] := by
  have hline : ∀ b ∈ line, isNewline b = false := fun b hb =>
    beq_eq_false_iff_ne.mpr fun heq => h (heq ▸ hb)
  have hend : line ++ cstr "\n" = line ++ 10 :: [] := rfl
  rw [hend, finished_append_cons rfl, unfinished_append_cons rfl, finished_of_forall hline,
    unfinished_of_forall hline]
  exact ⟨rfl, rfl⟩

/-- A text that says the operations. -/
theorem Says.replay {text : Text} {ops : List HuaOp} (h : Says text ops) (s : X10state) :
    unfinished isNewline text = [] ∧ replay text s = applyOps ops s := by
  obtain ⟨line, rfl, hline, hops⟩ := h
  obtain ⟨hfin, hunf⟩ := unfinished_newline hline
  refine ⟨hunf, ?_⟩
  rw [Mochad.replay, hfin, ← hops]
  exact congrArg (applyOps · s) (List.append_nil _)

/-- Replaying goes on where whole lines ended. -/
theorem replay_append {a b : List UInt8} (h : unfinished isNewline a = []) (s : X10state) :
    replay (a ++ b) s = replay b (replay a s) := by
  rw [replay, finished_append, h, List.nil_append, List.flatMap_append]
  exact List.foldl_append

/-! ## What a client mirrors -/

/-- The last line is one of the new ones. -/
theorem LastLine.mem {n : Nat} {l : Int × Text} {lines : List (Int × Text)} (h : LastLine n l lines) :
    l ∈ lines.drop n := by
  obtain ⟨hn, hlast⟩ := h
  refine List.mem_of_getLast? ?_
  rw [List.getLast?_drop, if_neg (by omega)]
  exact hlast

/-- The line neither clears the tracked state nor fetches the policy file for
the client. -/
def Harmless (fd : Int) (l : Int × Text) : Prop := ¬ ResetLine l.2 ∧ (l.1 = fd → ¬ PolicyLine l.2)

instance (fd : Int) : DecidablePred (Harmless fd) := fun _ => inferInstanceAs (Decidable (_ ∧ _))

/-- What the client was sent on the way from `v` to `v'` is whole lines, which
say how the devices have changed. -/
structure Mirrored (fd : Int) (v v' : View) (io : List Io) : Prop where
  output : v'.io = v.io ++ io
  ended : unfinished isNewline (sentTo fd io) = []
  devices : v'.devices = replay (sentTo fd io) v.devices

section
variable {fd : Int} {u v v' : View} {a b : List Io}

/-- A text that reports the operations mirrors them. -/
theorem Mirrored.of_text {text : Text} {ops : List HuaOp} (h : Says text ops) (hio : v'.io = v.io ++ a)
    (hsent : sentTo fd a = text) (hdevices : v'.devices = applyOps ops v.devices) : Mirrored fd v v' a := by
  obtain ⟨hended, hreplay⟩ := h.replay v.devices
  exact ⟨hio, hsent ▸ hended, by rw [hsent, hreplay, hdevices]⟩

/-- Nothing changes, and the client is told nothing. -/
theorem Mirrored.unchanged (hio : v'.io = v.io ++ a) (hsent : sentTo fd a = [])
    (hdevices : v'.devices = v.devices) : Mirrored fd v v' a :=
  ⟨hio, by rw [hsent, unfinished_nil], by rw [hsent, hdevices]; rfl⟩

/-- A text for one client. -/
theorem Mirrored.told {fd' : Int} {text : Text} (htext : fd' = fd → Says text []) :
    Mirrored fd v (v.emit (.send fd' text)) [.send fd' text] := by
  by_cases heq : fd' = fd
  · exact .of_text (htext heq) rfl ((sentTo_send text).trans (if_pos heq)) rfl
  · exact .unchanged rfl ((sentTo_send text).trans (if_neg heq)) rfl

theorem Mirrored.trans (h : Mirrored fd u v a) (h' : Mirrored fd v v' b) : Mirrored fd u v' (a ++ b) where
  output := by rw [h'.output, h.output, List.append_assoc]
  ended := by rw [sentTo_append, unfinished_append, h.ended, List.nil_append, h'.ended]
  devices := by rw [sentTo_append, replay_append h.ended, ← h.devices, h'.devices]

end

/-- A plain client that can follow the devices. -/
structure Follower (fd : Int) (v : View) : Prop where
  positive : 0 < fd
  listening : Listening fd 0 v
  consistent : v.devices.Consistent

section
variable {fd fd' : Int} {n : Nat} {e : Prop} {v v' : View} (h : Follower fd v)
include h

/-- A follower can follow after an act. -/
theorem Follower.act (hact : Act fd' n e v v') : Follower fd v' := by
  have hfd := h.positive
  exact ⟨hfd, h.listening.act (by omega) hact fun hk => absurd hk (by decide), consistent_act hact h.consistent⟩

/-- A text for everybody. -/
theorem Follower.broadcast {text : Text} {ops : List HuaOp} (htext : Says text ops) :
    Mirrored fd v ((v.track ops).print (-1) text) (v.clients.printed (-1) text) :=
  .of_text htext rfl (sentTo_broadcast h.positive h.listening text) rfl

/-- A reply goes out as it is to a plain client. -/
theorem Follower.reply {text : Text} (hfd' : fd' ≠ -1) (hreply : Reply v.devices text) :
    ∃ io, Mirrored fd v (v.print fd' text) io := by
  by_cases heq : fd' = fd
  · subst heq
    have hxml : v.clients.clientxmlsocks.contains fd' = false := by
      have hcount : v.clients.clientxmlsocks.count fd' = 0 := h.listening.count 1
      simpa using List.count_eq_zero.mp hcount
    have hprinted : v.clients.printed fd' text = [.send fd' text] := by
      rw [Clients.printed, if_pos hfd', hxml]
      rfl
    refine ⟨[.send fd' text], ?_⟩
    rw [View.print, hprinted]
    exact .told fun _ => says_reply h.consistent hreply
  · obtain ⟨text', hprinted⟩ := printed_one hfd' v.clients text
    refine ⟨[.send fd' text'], ?_⟩
    rw [View.print, hprinted]
    exact .told fun hself => absurd hself heq

/-- The client follows an act that is harmless and dumps nothing that could be
taken for an announcement. -/
theorem Follower.mirrored (hact : Act fd' n e v v') (hjunk : e → QuietJunk v.junk)
    (hlines : ∀ l ∈ v'.lines.drop n, Harmless fd l) : ∃ io, Mirrored fd v v' io := by
  cases hact with
  | announce a => exact ⟨_, h.broadcast (says_announcement a)⟩
  | dump hheading p hlen => exact ⟨_, h.broadcast (says_dump hheading (fun hzero => hjunk (hlen hzero)) p)⟩
  | reply hfd' hreply => exact h.reply hfd' hreply
  | status _ hstatus => exact ⟨_, .told fun _ => says_statusReply hstatus⟩
  | message _ => exact ⟨_, .unchanged rfl rfl rfl⟩
  | policy hline hpolicy => exact ⟨_, .told fun heq => absurd hpolicy ((hlines _ hline.mem).2 heq)⟩
  | reset hline hreset => exact absurd hreset (hlines _ hline.mem).1
  | line _ => exact ⟨[], .unchanged (List.append_nil _).symm rfl rfl⟩
  | finish j i _ _ =>
      refine ⟨_, .unchanged rfl ?_ rfl⟩
      split <;> rfl

/-- Acts for others, whose lines are harmless, are mirrored to a follower. -/
theorem Follower.acts (hacts : Acts fd' n e v v') (hjunk : e → QuietJunk v.junk)
    (hlines : ∀ l ∈ v'.lines.drop n, Harmless fd l) : Follower fd v' ∧ ∃ io, Mirrored fd v v' io := by
  induction hacts with
  | refl => exact ⟨h, [], .unchanged (List.append_nil _).symm rfl rfl⟩
  | tail hacts hact ih =>
      have hpre := (lines_acts (.single hact)).drop n
      obtain ⟨_, _, hspoken⟩ := spoken_acts hacts
      obtain ⟨hfollow, io, hmirror⟩ := ih fun l hl => hlines l (hpre.mem hl)
      obtain ⟨io', hmirror'⟩ := hfollow.mirrored hact (hspoken.junk.symm ▸ hjunk) hlines
      exact ⟨hfollow.act hact, _, hmirror.trans hmirror'⟩

end

/-! ## Runs -/

/-- The client hangs up. -/
def Happening.Ends (fd : Int) : Happening → Prop
  | .disconnect c _ => c.fd = fd
  | _ => False

instance (fd : Int) : DecidablePred (Happening.Ends fd)
  | .disconnect c _ => inferInstanceAs (Decidable (c.fd = fd))
  | .accept _ _ | .chunk _ _ | .packet _ _ | .timeout => inferInstanceAs (Decidable False)

/-- A client that comes or goes is mirrored by nothing. -/
theorem Moved.mirrored {fd fd' : Int} {v v' : View} (h : Moved fd' v v') (hne : fd' ≠ fd)
    (hfollow : Follower fd v) : Follower fd v' ∧ ∃ io, Mirrored fd v v' io := by
  have hfd := hfollow.positive
  obtain ⟨io, hio, hall⟩ := h.output
  refine ⟨⟨hfd, h.listening fd 0 (by omega) hne hfollow.listening, h.devices.symm ▸ hfollow.consistent⟩,
    io, .unchanged hio ?_ h.devices⟩
  refine List.flatMap_eq_nil_iff.mpr fun e he => ?_
  obtain rfl | rfl := hall e he <;> rfl

/-- A happening that does not end the follower is mirrored. -/
theorem mirrored_after {fd : Int} {w : World} (h : Unended w.remlen w) (hfollow : Follower fd w.view) {i : Happening}
    (hread : i.Readable) (hfresh : FreshDescriptors w i) (hstay : ¬ i.Ends fd)
    (hjunk : i.Vanishes → QuietJunk w.junk) (hlines : ∀ l ∈ (w.after i).lines.drop w.lines.length, Harmless fd l) :
    Follower fd (w.after i).view ∧ ∃ io, Mirrored fd w.view (w.after i).view io := by
  cases i with
  | accept k clifd =>
      refine (moved_accept k clifd w).mirrored ?_ hfollow
      rintro rfl
      have hpos := hfollow.positive
      have hport : w.sockPort clifd = some (serverPort + 0) := hfollow.listening.port
      obtain rfl | ⟨-, hnone⟩ : clifd = -1 ∨ 0 ≤ clifd ∧ w.sockPort clifd = none := hfresh
      · exact absurd hpos (by decide)
      · exact absurd (hport.symm.trans hnone) (by simp)
  | disconnect c error => exact (moved_disconnect c error w).mirrored hstay hfollow
  | chunk c buf => exact hfollow.acts (acts_chunk hread buf h) hjunk hlines
  | packet buf len => exact hfollow.acts (@acts_packet (-1) _ buf len w) hjunk hlines
  | timeout => exact ⟨hfollow, [], .unchanged (List.append_nil _).symm rfl rfl⟩

/-- A happening adds lines at the end. -/
theorem lines_after {w : World} (h : Unended w.remlen w) {i : Happening} (hread : i.Readable) :
    w.lines <+: (w.after i).lines := by
  obtain hacts | hmoved := after_cases h hread
  · exact lines_acts hacts
  · have hsame : (w.after i).lines = w.lines := hmoved.lines
    rw [hsame]

theorem lines_run {w : World} (h : Unended w.remlen w) {is : List Happening} (hread : ∀ i ∈ is, i.Readable) :
    w.lines <+: (Run.run World.after w is).lines := by
  induction is generalizing w with
  | nil => exact List.prefix_rfl
  | cons i is ih =>
      obtain ⟨hi, his⟩ := List.forall_mem_cons.mp hread
      exact (lines_after h hi).trans (ih (h.after hi) his)

/-- A run that does not end the follower is mirrored. -/
theorem mirrored_run {fd : Int} {w : World} (h : Unended w.remlen w) (hfollow : Follower fd w.view)
    {is : List Happening} (hread : ∀ i ∈ is, i.Readable) (hfresh : Run.Along World.after FreshDescriptors w is)
    (hstay : ∀ i ∈ is, ¬ i.Ends fd) (hjunk : (∃ i ∈ is, i.Vanishes) → QuietJunk w.junk)
    (hlines : ∀ l ∈ (Run.run World.after w is).lines.drop w.lines.length, Harmless fd l) :
    ∃ io, Mirrored fd w.view (Run.run World.after w is).view io := by
  induction is generalizing w with
  | nil => exact ⟨[], .unchanged (List.append_nil _).symm rfl rfl⟩
  | cons i is ih =>
      obtain ⟨hi, his⟩ := List.forall_mem_cons.mp hread
      obtain ⟨hstayi, hstays⟩ := List.forall_mem_cons.mp hstay
      have hrest := lines_run (h.after hi) his
      obtain ⟨_, _, hspoken⟩ := spoken_after h hi
      have hsame : (w.after i).junk = w.junk := hspoken.junk
      obtain ⟨hfollow', io, hmirror⟩ := mirrored_after h hfollow hi hfresh.1 hstayi
        (fun hv => hjunk ⟨i, List.mem_cons_self, hv⟩) fun l hl => hlines l ((hrest.drop _).mem hl)
      obtain ⟨io', hmirror'⟩ := ih (h.after hi) hfollow' his hfresh.2 hstays
        (fun ⟨j, hj, hv⟩ => hsame.symm ▸ hjunk ⟨j, List.mem_cons_of_mem i hj, hv⟩) fun l hl =>
          hlines l ((List.drop_sublist_drop_left _ (lines_after h hi).length_le).mem hl)
      exact ⟨_, hmirror.trans hmirror'⟩

/-! ## From start-up -/

/-- At start-up no device is tracked. -/
theorem devices_startup (e : Setup) : (startup e).view.devices = huaSecInit := by
  obtain ⟨_ | _, rawData, clock, junk⟩ := e <;> rfl

/-- In every run the devices are consistent. -/
theorem consistent_run {w : World} (h : Unended w.remlen w) (hs : w.view.devices.Consistent)
    {is : List Happening} (hread : ∀ i ∈ is, i.Readable) :
    (Run.run World.after w is).view.devices.Consistent := by
  induction is generalizing w with
  | nil => exact hs
  | cons i is ih =>
      obtain ⟨hi, his⟩ := List.forall_mem_cons.mp hread
      refine ih (h.after hi) ?_ his
      obtain hacts | hmoved := after_cases h hi
      · exact consistent_acts hacts hs
      · rw [hmoved.devices]
        exact hs

/-- A plain client that keeps a copy of the devices and reads all it is sent has an
exact copy after every happening: whatever is sent and received meanwhile by
itself, by the others and by the controller, as long as nobody clears the
tracked state and no empty dump, which a packet that is nothing but `5D` makes,
shows a line end or an announcement. -/
theorem client_mirror (e : Setup) {earlier later : List Happening}
    (hquiet : (∃ i ∈ later, i.Vanishes) → QuietJunk e.junk) (hread : ∀ i ∈ earlier ++ later, i.Readable)
    (hfresh : Run.Along World.after FreshDescriptors (startup e) (earlier ++ later)) {fd : Int} (hfd : 0 < fd) :
    let w := Run.run World.after (startup e) earlier
    let w' := Run.run World.after w later
    fd ∈ w.clients.clientsocks → (∀ i ∈ later, ¬ i.Ends fd) →
      (∀ l ∈ w'.lines.drop w.lines.length, Harmless fd l) →
        ∃ io, w'.io = w.io ++ io ∧ unfinished isNewline (sentTo fd io) = [] ∧
          w'.state.devices = replay (sentTo fd io) w.state.devices := by
  intro w w' hmem hstay hlines
  obtain ⟨hearlier, hlater⟩ := List.forall_mem_append.mp hread
  obtain ⟨hfresh, hfresh'⟩ := Run.along_append.mp hfresh
  have hinit : (startup e).clients = initClient := congrArg Sockets.clients (sockets_startup e)
  have hplaced : Placed w.sockets := placed_run hinit hearlier hfresh
  have hfollow : Follower fd w.view := by
    refine ⟨hfd, hplaced.listening (k := 0) (by omega) hmem, ?_⟩
    refine consistent_run (unended_startup e) ?_ hearlier
    rw [devices_startup]
    exact consistent_huaSecInit
  have hjunk : w.junk = e.junk := junk_run e hearlier
  obtain ⟨io, hmirror⟩ := mirrored_run (unended_run (unended_startup e) hearlier) hfollow hlater hfresh'
    hstay (hjunk.symm ▸ hquiet) hlines
  exact ⟨io, hmirror.output, hmirror.ended, hmirror.devices⟩

/-- A client follows what another one sends, its own request for the status and a
packet from the power line. -/
theorem client_mirror_three :
    let w := Run.run World.after (startup (stillSetup false)) [.accept 0 5, .accept 0 7]
    let w' := Run.run World.after w [.chunk ⟨1, 7⟩ (cstr "pl a1 xdim 5\n"), .chunk ⟨0, 5⟩ (cstr "st\n"),
      .packet (Ptr.ofList [0x5a, 0x02, 0x00, 0x66]) 4]
    w'.state.devices.houseUnitState 0 0 = charOn ∧ ∃ io, w'.io = w.io ++ io ∧
      unfinished isNewline (sentTo 5 io) = [] ∧
        w'.state.devices = replay (sentTo 5 io) w.state.devices :=
  ⟨by decide, @client_mirror (stillSetup false) [.accept 0 5, .accept 0 7]
    [.chunk ⟨1, 7⟩ (cstr "pl a1 xdim 5\n"), .chunk ⟨0, 5⟩ (cstr "st\n"),
      .packet (Ptr.ofList [0x5a, 0x02, 0x00, 0x66]) 4] (by decide) (by decide) (by decide) 5 (by decide)
    (by decide) (by decide) (by decide)⟩

/-! ## Messages -/

/-- The operations a message reports. -/
def messageOps (m : Text) : List HuaOp := (finished isNewline m).flatMap lineOps

/-- A message that is one line reports the operations of the line. -/
theorem Says.messageOps {text : Text} {ops : List HuaOp} (h : Says text ops) : messageOps text = ops := by
  obtain ⟨line, rfl, hline, hops⟩ := h
  rw [Mochad.messageOps, (unfinished_newline hline).1, ← hops]
  exact List.append_nil _

/-- A name without a line end is no report. -/
theorem messageOps_name {name : Text} (h : 10 ∉ name) : messageOps name = [] := by
  have hname : ∀ b ∈ name, isNewline b = false := fun b hb =>
    beq_eq_false_iff_ne.mpr fun heq => h (heq ▸ hb)
  rw [messageOps, finished_of_forall hname]
  rfl

/-- What a client is told by `statusprintf` is one word. -/
theorem StatusReply.word_line {text : Text} (h : StatusReply text) :
    ∃ word, text = word ++ cstr "\n" ∧ Solid word := by
  cases h with
  | @word text h =>
      simp only [List.mem_cons, List.not_mem_nil, or_false] at h
      obtain rfl | rfl | rfl | rfl := h <;> exact ⟨_, rfl, by decide⟩
  | level b => exact ⟨_, rfl, solid_dec _⟩

/-- The message of a `GETSTATUS` reports none. -/
theorem messageOps_getstatus (house unit : Fin 16) {text : Text} (h : StatusReply text) :
    messageOps ([UInt8.ofInt (65 + house.val)] ++ dec (1 + unit.val) ++ cstr " " ++ text) = [] := by
  obtain ⟨word, rfl, hword⟩ := h.word_line
  have haddr : ∀ house unit : Fin 16,
      let head := [UInt8.ofInt (65 + house.val)] ++ dec (1 + unit.val) ++ cstr " "
      10 ∉ head ∧ head.getLast? = some 32 ∧ (words 32 head).length ≤ 2 := by
    decide
  obtain ⟨hline, hend, hlen⟩ := haddr house unit
  rw [← List.append_assoc]
  exact (says_short hend hlen hline hword).messageOps

/-- Only announcements report something. -/
theorem messageOps_message {s : X10state} (hs : s.Consistent) {m : Option Text} (h : Message s m) :
    m.toList.flatMap messageOps = [] := by
  have hone : ∀ text, messageOps text = [] → (some text).toList.flatMap messageOps = [] := fun text hnone =>
    (List.append_nil _).trans hnone
  cases h with
  | selected h => exact hone _ (says_selected h).messageOps
  | status h => exact hone _ (says_status hs h).messageOps
  | sensor sen =>
      have hname := newline_sensorMessage sen
      cases hm : sensorMessage sen with
      | none => rfl
      | some name =>
          rw [hm] at hname
          exact hone _ (messageOps_name hname)
  | getstatus house unit h => exact hone _ (messageOps_getstatus house unit h)

/-- The messages on the way from `v` to `v'` say how the devices have changed. -/
structure Reported (v v' : View) (io : List Io) : Prop where
  output : v'.io = v.io ++ io
  devices : v'.devices = applyOps ((published io).flatMap messageOps) v.devices

section
variable {u v v' : View} {a b : List Io}

/-- A message that reports nothing, when nothing changes. -/
theorem Reported.unchanged (hio : v'.io = v.io ++ a) (hnone : (published a).flatMap messageOps = [])
    (hdevices : v'.devices = v.devices) : Reported v v' a :=
  ⟨hio, by rw [hnone, hdevices]; rfl⟩

theorem Reported.trans (h : Reported u v a) (h' : Reported v v' b) : Reported u v' (a ++ b) where
  output := by rw [h'.output, h.output, List.append_assoc]
  devices := by
    rw [published_append, List.flatMap_append, h'.devices, h.devices]
    exact List.foldl_append.symm

/-- What is broadcast is reported. -/
theorem Reported.broadcast {text : Text} {ops : List HuaOp} (h : Says text ops) :
    Reported v ((v.track ops).print (-1) text) (v.clients.printed (-1) text) := by
  refine ⟨rfl, ?_⟩
  rw [published_broadcast, List.flatMap_singleton, h.messageOps]
  rfl

/-- Every act is reported, but for a reset. -/
theorem Act.reported {fd : Int} {n : Nat} {e : Prop} (h : Act fd n e v v') (hs : v.devices.Consistent)
    (hjunk : e → QuietJunk v.junk) (hlines : ∀ l ∈ v'.lines.drop n, ¬ ResetLine l.2) : ∃ io, Reported v v' io := by
  cases h with
  | announce a => exact ⟨_, .broadcast (says_announcement a)⟩
  | dump hheading p hlen => exact ⟨_, .broadcast (says_dump hheading (fun hzero => hjunk (hlen hzero)) p)⟩
  | @reply hfd text _ =>
      obtain ⟨text', hprinted⟩ := printed_one hfd v.clients text
      refine ⟨[.send fd text'], .unchanged ?_ rfl rfl⟩
      rw [View.print, hprinted]
  | status _ _ => exact ⟨_, .unchanged rfl rfl rfl⟩
  | @message m hm =>
      have hpublished : published [.sendMessage m] = m.toList := by cases m <;> rfl
      exact ⟨_, .unchanged rfl (hpublished.symm ▸ messageOps_message hs hm) rfl⟩
  | policy _ _ => exact ⟨_, .unchanged rfl rfl rfl⟩
  | reset hline hreset => exact absurd hreset (hlines _ hline.mem)
  | line _ => exact ⟨[], .unchanged (List.append_nil _).symm rfl rfl⟩
  | finish j i _ _ =>
      refine ⟨_, .unchanged rfl ?_ rfl⟩
      split <;> rfl

theorem reported_acts {fd : Int} {n : Nat} {e : Prop} (h : Acts fd n e v v') (hs : v.devices.Consistent)
    (hjunk : e → QuietJunk v.junk) (hlines : ∀ l ∈ v'.lines.drop n, ¬ ResetLine l.2) :
    ∃ io, Reported v v' io := by
  induction h with
  | refl => exact ⟨[], .unchanged (List.append_nil _).symm rfl rfl⟩
  | tail hacts hact ih =>
      have hpre := (lines_acts (.single hact)).drop n
      obtain ⟨_, _, hspoken⟩ := spoken_acts hacts
      obtain ⟨io, hfirst⟩ := ih fun l hl => hlines l (hpre.mem hl)
      obtain ⟨io', hlast⟩ := hact.reported (consistent_acts hacts hs) (hspoken.junk.symm ▸ hjunk) hlines
      exact ⟨_, hfirst.trans hlast⟩

end

/-- A client that comes or goes changes no device. -/
theorem Moved.reported {fd' : Int} {v v' : View} (h : Moved fd' v v') : ∃ io, Reported v v' io := by
  obtain ⟨io, hio, hall⟩ := h.output
  refine ⟨io, .unchanged hio ?_ h.devices⟩
  have hnone : published io = [] := by
    refine List.filterMap_eq_nil_iff.mpr fun e he => ?_
    obtain rfl | rfl := hall e he <;> rfl
  rw [hnone]
  rfl

/-- A run without a reset is reported. -/
theorem reported_run {w : World} (h : Unended w.remlen w) (hs : w.view.devices.Consistent)
    {is : List Happening} (hread : ∀ i ∈ is, i.Readable) (hjunk : (∃ i ∈ is, i.Vanishes) → QuietJunk w.junk)
    (hlines : ∀ l ∈ (Run.run World.after w is).lines.drop w.lines.length, ¬ ResetLine l.2) :
    ∃ io, Reported w.view (Run.run World.after w is).view io := by
  induction is generalizing w with
  | nil => exact ⟨[], .unchanged (List.append_nil _).symm rfl rfl⟩
  | cons i is ih =>
      obtain ⟨hi, his⟩ := List.forall_mem_cons.mp hread
      have hafter : (w.after i).view.devices.Consistent :=
        consistent_run h hs (List.forall_mem_singleton.mpr hi)
      have hrest := lines_run (h.after hi) his
      have hfirst : ∃ io, Reported w.view (w.after i).view io := by
        obtain hacts | hmoved := after_cases h hi
        · exact reported_acts hacts hs (fun hv => hjunk ⟨i, List.mem_cons_self, hv⟩) fun l hl =>
            hlines l ((hrest.drop _).mem hl)
        · exact hmoved.reported
      obtain ⟨_, _, hspoken⟩ := spoken_after h hi
      have hsame : (w.after i).junk = w.junk := hspoken.junk
      obtain ⟨io, hfirst⟩ := hfirst
      obtain ⟨io', hrest⟩ := ih (h.after hi) hafter his
        (fun ⟨j, hj, hv⟩ => hsame.symm ▸ hjunk ⟨j, List.mem_cons_of_mem i hj, hv⟩) fun l hl =>
          hlines l ((List.drop_sublist_drop_left _ (lines_after h hi).length_le).mem hl)
      exact ⟨_, hfirst.trans hrest⟩

/-- The messages alone say how the devices have changed, whoever is connected: as
long as nobody clears the tracked state and no empty dump shows a line end or an
announcement, a subscriber that knew the devices knows them after every
happening. -/
theorem messages_mirror (e : Setup) {earlier later : List Happening}
    (hquiet : (∃ i ∈ later, i.Vanishes) → QuietJunk e.junk) (hread : ∀ i ∈ earlier ++ later, i.Readable) :
    let w := Run.run World.after (startup e) earlier
    let w' := Run.run World.after w later
    (∀ l ∈ w'.lines.drop w.lines.length, ¬ ResetLine l.2) →
      ∃ io, w'.io = w.io ++ io ∧
        w'.state.devices = applyOps ((published io).flatMap messageOps) w.state.devices := by
  intro w w' hlines
  obtain ⟨hearlier, hlater⟩ := List.forall_mem_append.mp hread
  have hs : w.view.devices.Consistent := by
    refine consistent_run (unended_startup e) ?_ hearlier
    rw [devices_startup]
    exact consistent_huaSecInit
  have hjunk : w.junk = e.junk := junk_run e hearlier
  obtain ⟨io, hreported⟩ := reported_run (unended_run (unended_startup e) hearlier) hs hlater
    (hjunk.symm ▸ hquiet) hlines
  exact ⟨io, hreported.output, hreported.devices⟩

/-- The only client has gone, and unit A1 is switched on by radio. -/
theorem messages_mirror_radio :
    let w := Run.run World.after (startup (stillSetup false)) [.accept 0 5, .disconnect ⟨0, 5⟩ false]
    let w' := Run.run World.after w [.packet (Ptr.ofList [0x5d, 0x20, 0x60, 0x9f, 0x00, 0xff]) 6]
    w'.state.devices.houseUnitState 0 0 = charOn ∧ ∃ io, w'.io = w.io ++ io ∧
      w'.state.devices = applyOps ((published io).flatMap messageOps) w.state.devices :=
  ⟨by decide +kernel, @messages_mirror (stillSetup false)
    [.accept 0 5, .disconnect ⟨0, 5⟩ false] [.packet (Ptr.ofList [0x5d, 0x20, 0x60, 0x9f, 0x00, 0xff]) 6]
    (by decide) (by decide) (by decide +kernel)⟩

end Mochad
