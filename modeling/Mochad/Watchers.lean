import Mochad.ClientTables
import Mochad.Transport

/-!
# Mochad.Watchers

Clients that only listen.  They connect and hang up as they like, and as long as
they leave room in the tables the daemon and all other clients see nothing of
it: the run without them ends with the same tracked state, lines, messages and
text for everybody else (`watchers_unnoticed`).

`P` says which descriptors are theirs.
-/

namespace Mochad

open CString

/-! ## What the others see -/

/-- The same clients' side, but for the clients with `P`, which the second one
does not have. -/
structure SameBut (P : Int → Prop) (o o' : Outer) : Prop where
  ok : o.clients.Ok
  ok' : o'.clients.Ok
  messages : published o.io = published o'.io
  sent : ∀ fd, ¬ P fd → 0 < fd → sentTo fd o.io = sentTo fd o'.io
  port : ∀ fd, ¬ P fd → o.sockPort fd = o'.sockPort fd
  mem : ∀ k fd, ¬ P fd → fd ≠ -1 → (fd ∈ o.clients.table k ↔ fd ∈ o'.clients.table k)
  without : ∀ k fd, P fd → fd ∉ o'.clients.table k

namespace SameBut

section
variable {P : Int → Prop} {o o' : Outer} (h : SameBut P o o')
include h

/-- More is sent. -/
theorem output {a a' : List Io} (hmessages : published a = published a')
    (hsent : ∀ fd, ¬ P fd → 0 < fd → sentTo fd a = sentTo fd a') :
    SameBut P { o with io := o.io ++ a } { o' with io := o'.io ++ a' } where
  ok := h.ok
  ok' := h.ok'
  messages := by rw [published_append, published_append, h.messages, hmessages]
  sent := fun fd hfd hpos => by rw [sentTo_append, sentTo_append, h.sent fd hfd hpos, hsent fd hfd hpos]
  port := h.port
  mem := h.mem
  without := h.without

/-- A table holds another's descriptor as often. -/
theorem count_table {fd : Int} (hfd : ¬ P fd) (hpos : 0 < fd) (k : Fin 3) :
    (o.clients.table k).count fd = (o'.clients.table k).count fd := by
  have hne : fd ≠ -1 := by omega
  rw [h.ok.count_table hne k, h.ok'.count_table hne k]
  exact if_congr (h.mem k fd hfd hne) rfl rfl

end

section
variable {P : Int → Prop} {w v : World} (h : SameBut P w.outer v.outer)
include h

/-- A text for everybody reaches the others alike. -/
theorem sentTo_everybody (text : Text) {fd : Int} (hfd : ¬ P fd) (hpos : 0 < fd) :
    sentTo fd (World.sockprintfIo (-1) text w) = sentTo fd (World.sockprintfIo (-1) text v) := by
  have hplain : w.clients.clientsocks.count fd = v.clients.clientsocks.count fd := h.count_table hfd hpos 0
  have hxml : w.clients.clientxmlsocks.count fd = v.clients.clientxmlsocks.count fd := h.count_table hfd hpos 1
  have hall : ∀ u : World, World.sockprintfIo (-1) text u = [.sendMessage (some text)] ++
      World.sendAll text u.clients.clientsocks ++
        World.sendAll (World.newlineToNul text) u.clients.clientxmlsocks := fun _ => rfl
  rw [hall, hall, sentTo_append, sentTo_append, sentTo_append, sentTo_append, sentTo_sendAll hpos,
    sentTo_sendAll hpos, sentTo_sendAll hpos, sentTo_sendAll hpos, hplain, hxml]

/-- The others are XML clients on both sides or on none. -/
theorem xmlclient {fd : Int} (hfd : ¬ P fd) (hne : fd ≠ -1) : w.xmlclient fd = v.xmlclient fd := by
  have hmem : fd ∈ w.clients.clientxmlsocks ↔ fd ∈ v.clients.clientxmlsocks := h.mem 1 fd hfd hne
  rw [Bool.eq_iff_iff, World.xmlclient, World.xmlclient, List.contains_iff_mem, List.contains_iff_mem, hmem]

/-- And OpenRemote 2.0 clients. -/
theorem or20client {fd : Int} (hfd : ¬ P fd) : w.or20client fd = v.or20client fd := by
  have hport : w.sockPort fd = v.sockPort fd := h.port fd hfd
  rw [World.or20client, World.or20client, hport]

/-- A reply to one of the others, or to everybody, keeps the sides the same. -/
theorem sockprintf {fd : Int} (hfd : ¬ P fd) (text : Text) :
    SameBut P (w.sockprintf fd text).outer (v.sockprintf fd text).outer := by
  by_cases hne : fd = -1
  · subst hne
    exact h.output (by rw [published_sockprintfIo, published_sockprintfIo]) fun _ => h.sentTo_everybody text
  · have hio : World.sockprintfIo fd text w = World.sockprintfIo fd text v := by
      rw [World.sockprintfIo, World.sockprintfIo, if_pos hne, if_pos hne, h.xmlclient hfd hne]
    exact h.output (congrArg published hio) fun fd' _ _ => congrArg (sentTo fd') hio

/-- So does an acknowledgement. -/
theorem ackOr20 {fd : Int} (hfd : ¬ P fd) : SameBut P (ackOr20 fd w).outer (Mochad.ackOr20 fd v).outer := by
  unfold Mochad.ackOr20
  rw [h.or20client hfd]
  split
  · exact h.output rfl fun _ _ _ => rfl
  · exact h

end

end SameBut

/-- Everybody but the clients with `P` is looked at, and -1 is everybody. -/
def everybodyBut {P : Int → Prop} (hP : ¬ P (-1)) : Observer where
  same := SameBut P
  sender fd fd' := fd' = fd ∧ ¬ P fd
  everybody := ⟨rfl, hP⟩
  sockprintf := by
    rintro w v fd _ h ⟨rfl, hfd⟩ text
    exact h.sockprintf hfd text
  statusprintf := fun h hfd text => hfd.1 ▸ h.output rfl fun _ _ _ => rfl
  sendMessage := fun h text => h.output rfl fun _ _ _ => rfl
  ackOr20 := by
    rintro w v fd _ h ⟨rfl, hfd⟩
    exact h.ackOr20 hfd

/-! ## Connections -/

/-- An accepted client is on the port of its table. -/
theorem sockPort_acceptClient (k : Fin 3) (clifd : Int) (w : World) :
    (acceptClient k (addTo k) clifd w).sockPort =
      if 0 ≤ clifd then Function.update w.sockPort clifd (some (serverPort + k)) else w.sockPort := by
  unfold acceptClient
  split <;> rfl

/-- A new client is in its table if that had room. -/
theorem mem_acceptClient {w : World} (h : Placed w.sockets) {k : Fin 3} {clifd : Int}
    (hfresh : FreshDescriptors w (.accept k clifd)) {j : Fin 3} {fd : Int} (hfd : fd ≠ -1) :
    fd ∈ (acceptClient k (addTo k) clifd w).clients.table j ↔
      fd ∈ w.clients.table j ∨ j = k ∧ fd = clifd ∧ -1 ∈ w.clients.table k := by
  obtain rfl | ⟨hpos, hnone⟩ := hfresh
  · rw [(acceptClient_failed k w).1]
    exact (or_iff_left fun hnew => hfd hnew.2.1).symm
  have hne : clifd ≠ -1 := by omega
  have hzero : w.clients.holders clifd = 0 := h.notHeld hne hnone
  by_cases hroom : -1 ∈ w.clients.table k
  · rw [(acceptClient_room h.ok hpos hzero hroom).mem_iff h.ok hne hzero hfd]
    simp only [hroom, and_true]
    exact Iff.rfl
  · rw [acceptClient_full hpos hroom]
    exact (or_iff_left fun hnew => hroom hnew.2.2).symm

/-- Removing a client closes it only if it is an OpenRemote 2.0 client. -/
theorem sockPort_delClient_eq {w : World} (h : w.clients.Ok) {fd : Int} (hfd : fd ≠ -1) :
    (w.delClient fd).2.sockPort =
      if fd ∈ w.clients.table 2 then Function.update w.sockPort fd none else w.sockPort := by
  obtain ⟨-, hclosed, hkept⟩ := delClient_spec h hfd
  split
  · exact (hclosed ‹_›).1
  · exact (hkept ‹_›).1

namespace SameBut

variable {P : Int → Prop} {w v : World} (h : SameBut P w.outer v.outer)
include h

/-- Only the clients with `P` have come or gone. -/
theorem alone {w' : World} (hquiet : NothingSent w w') (hok : w'.clients.Ok)
    (hport : ∀ fd, ¬ P fd → w'.sockPort fd = w.sockPort fd)
    (hmem : ∀ k fd, ¬ P fd → fd ≠ -1 → (fd ∈ w'.clients.table k ↔ fd ∈ w.clients.table k)) :
    SameBut P w'.outer v.outer where
  ok := hok
  ok' := h.ok'
  messages := hquiet.messages.trans h.messages
  sent := fun fd hfd hpos => (hquiet.sent fd).trans (h.sent fd hfd hpos)
  port := fun fd hfd => (hport fd hfd).trans (h.port fd hfd)
  mem := fun k fd hfd hne => (hmem k fd hfd hne).trans (h.mem k fd hfd hne)
  without := h.without

/-- The others have, on both sides. -/
theorem together {w' v' : World} (hquiet : NothingSent w w') (hquiet' : NothingSent v v') (hok : w'.clients.Ok)
    (hok' : v'.clients.Ok) (hport : ∀ fd, ¬ P fd → w'.sockPort fd = v'.sockPort fd)
    (hmem : ∀ k fd, ¬ P fd → fd ≠ -1 → (fd ∈ w'.clients.table k ↔ fd ∈ v'.clients.table k))
    (hwithout : ∀ k fd, P fd → fd ∉ v'.clients.table k) : SameBut P w'.outer v'.outer where
  ok := hok
  ok' := hok'
  messages := hquiet.messages.trans (h.messages.trans hquiet'.messages.symm)
  sent := fun fd hfd hpos => (hquiet.sent fd).trans ((h.sent fd hfd hpos).trans (hquiet'.sent fd).symm)
  port := hport
  mem := hmem
  without := hwithout

/-! ### Accept -/

/-- One of the clients with `P` connects, and the others see nothing. -/
theorem accept_alone {k : Fin 3} {clifd : Int} (hclifd : P clifd) (hplaced : Placed w.sockets)
    (hfresh : FreshDescriptors w (.accept k clifd)) : SameBut P (acceptClient k (addTo k) clifd w).outer v.outer := by
  have hother : ∀ fd, ¬ P fd → fd ≠ clifd := by
    rintro fd hfd rfl
    exact hfd hclifd
  refine h.alone (nothingSent_acceptClient k (addTo k) clifd w) (hplaced.accept hfresh).ok (fun fd hfd => ?_)
    fun j fd hfd hne => ?_
  · rw [sockPort_acceptClient]
    split
    · rw [Function.update_of_ne (hother fd hfd)]
    · rfl
  · rw [mem_acceptClient hplaced hfresh hne]
    exact or_iff_left fun hnew => hother fd hfd hnew.2.1

/-- Another client connects on both sides. -/
theorem accept_together {k : Fin 3} {clifd : Int} (hclifd : ¬ P clifd) (hplaced : Placed w.sockets)
    (hplaced' : Placed v.sockets) (hfresh : FreshDescriptors w (.accept k clifd))
    (hfresh' : FreshDescriptors v (.accept k clifd)) (hroom : 0 ≤ clifd → -1 ∈ w.clients.table k)
    (hroom' : 0 ≤ clifd → -1 ∈ v.clients.table k) (hall : ¬ P (-1)) :
    SameBut P (acceptClient k (addTo k) clifd w).outer (acceptClient k (addTo k) clifd v).outer := by
  refine h.together (nothingSent_acceptClient k (addTo k) clifd w) (nothingSent_acceptClient k (addTo k) clifd v)
    (hplaced.accept hfresh).ok (hplaced'.accept hfresh').ok (fun fd hfd => ?_) (fun j fd hfd hne => ?_)
    fun j fd hfd hmem => ?_
  · have hport : w.sockPort fd = v.sockPort fd := h.port fd hfd
    rw [sockPort_acceptClient, sockPort_acceptClient]
    split
    · rw [Function.update_apply, Function.update_apply, hport]
    · exact hport
  · have hheld : fd ∈ w.clients.table j ↔ fd ∈ v.clients.table j := h.mem j fd hfd hne
    rw [mem_acceptClient hplaced hfresh hne, mem_acceptClient hplaced' hfresh' hne, hheld]
    refine or_congr_right (and_congr_right fun _ => and_congr_right fun heq => ?_)
    have hpos : 0 ≤ clifd := by
      obtain rfl | ⟨hpos, -⟩ := hfresh
      · exact absurd heq hne
      · exact hpos
    exact iff_of_true (hroom hpos) (hroom' hpos)
  · have hne : fd ≠ -1 := fun heq => hall (heq ▸ hfd)
    obtain hold | ⟨-, rfl, -⟩ := (mem_acceptClient hplaced' hfresh' hne).mp hmem
    · exact h.without j fd hfd hold
    · exact hclifd hfd

/-! ### Hanging up -/

section
variable {fd : Int}

/-- One of the clients with `P` is closed. -/
theorem close_alone (hfd : P fd) : SameBut P (w.close fd).outer v.outer := by
  refine h.alone (nothingSent_close fd w) h.ok (fun fd' hfd' => ?_) fun _ _ _ _ => Iff.rfl
  have hother : fd' ≠ fd := by
    rintro rfl
    exact hfd' hfd
  exact Function.update_of_ne hother _ _

/-- A descriptor is closed on both sides. -/
theorem close_together (fd : Int) : SameBut P (w.close fd).outer (v.close fd).outer := by
  refine h.together (nothingSent_close fd w) (nothingSent_close fd v) h.ok h.ok' (fun fd' hfd' => ?_) h.mem
    h.without
  have hport : w.sockPort fd' = v.sockPort fd' := h.port fd' hfd'
  rw [World.close_sockPort, World.close_sockPort, Function.update_apply, Function.update_apply, hport]

variable (hne : fd ≠ -1)
include hne

/-- One of the clients with `P` is removed. -/
theorem delClient_alone (hfd : P fd) : SameBut P (w.delClient fd).2.outer v.outer := by
  have hother : ∀ fd', ¬ P fd' → fd' ≠ fd := by
    rintro fd' hfd' rfl
    exact hfd' hfd
  have hrem := (delClient_spec h.ok hne).1
  refine h.alone (nothingSent_delClient fd w) hrem.ok
    (fun fd' hfd' => sockPort_delClient h.ok hne (hother fd' hfd')) fun j fd' hfd' hne' => ?_
  exact (hrem.mem_iff h.ok hne').trans (and_iff_left (hother fd' hfd'))

/-- Another client is removed on both sides. -/
theorem delClient_together (hfd : ¬ P fd) (hall : ¬ P (-1)) :
    SameBut P (w.delClient fd).2.outer (v.delClient fd).2.outer := by
  have hrem := (delClient_spec h.ok hne).1
  have hrem' := (delClient_spec h.ok' hne).1
  refine h.together (nothingSent_delClient fd w) (nothingSent_delClient fd v) hrem.ok hrem'.ok
    (fun fd' hfd' => ?_) (fun j fd' hfd' hne' => ?_) fun j fd' hfd' hmem => ?_
  · have hport : w.sockPort fd' = v.sockPort fd' := h.port fd' hfd'
    have hheld : fd ∈ w.clients.table 2 ↔ fd ∈ v.clients.table 2 := h.mem 2 fd hfd hne
    rw [sockPort_delClient_eq h.ok hne, sockPort_delClient_eq h.ok' hne, if_congr hheld rfl rfl]
    split
    · rw [Function.update_apply, Function.update_apply, hport]
    · exact hport
  · exact ((hrem.mem_iff h.ok hne').trans (and_congr_left' (h.mem j fd' hfd' hne'))).trans
      (hrem'.mem_iff h.ok' hne').symm
  · have hne' : fd' ≠ -1 := fun heq => hall (heq ▸ hfd')
    exact h.without j fd' hfd' ((hrem'.mem_iff h.ok' hne').mp hmem).1

end

/-- Where the run with the watchers has room, the one without has. -/
theorem room {k : Fin 3} (hroom : -1 ∈ w.clients.table k) : -1 ∈ v.clients.table k := by
  by_contra hfull
  have hused : ∀ fd ∈ v.clients.table k, fd ≠ -1 := fun fd hmem heq => hfull (heq ▸ hmem)
  have honce : (v.clients.table k).Nodup := by
    refine List.nodup_iff_count_le_one.mpr fun fd => ?_
    by_cases hmem : fd ∈ v.clients.table k
    · exact ((h.ok'.count_table (hused fd hmem) k).trans (if_pos hmem)).le
    · exact (List.count_eq_zero_of_not_mem hmem).le.trans (Nat.zero_le 1)
  have hsub : -1 :: v.clients.table k ⊆ w.clients.table k := by
    refine List.cons_subset.mpr ⟨hroom, fun fd hmem => ?_⟩
    have hother : ¬ P fd := fun hfd => h.without k fd hfd hmem
    exact (h.mem k fd hother (hused fd hmem)).mpr hmem
  have hlen := (List.subperm_of_subset (List.nodup_cons.mpr ⟨hfull, honce⟩) hsub).length_le
  have hw : (w.clients.table k).length = maxclisockets := h.ok.length k
  have hv : (v.clients.table k).length = maxclisockets := h.ok'.length k
  rw [List.length_cons, hw, hv] at hlen
  omega

end SameBut

/-! ## Runs -/

/-- The client a happening is about, if any. -/
def Happening.client : Happening → Int
  | .accept _ clifd => clifd
  | .chunk c _ | .disconnect c _ => c.fd
  | .packet _ _ | .timeout => -1

/-- The clients with `P` send nothing. -/
def OnlyListen (P : Int → Prop) : Happening → Prop
  | .chunk c _ => ¬ P c.fd
  | _ => True

instance (P : Int → Prop) [DecidablePred P] : DecidablePred (OnlyListen P)
  | .chunk c _ => inferInstanceAs (Decidable (¬ P c.fd))
  | .accept _ _ | .disconnect _ _ | .packet _ _ | .timeout => inferInstanceAs (Decidable True)

/-- No client but one with `P` is refused. -/
def NoneRefused (P : Int → Prop) (w : World) : Happening → Prop
  | .accept k clifd => ¬ P clifd → 0 ≤ clifd → -1 ∈ w.clients.table k
  | _ => True

instance (P : Int → Prop) [DecidablePred P] (w : World) : DecidablePred (NoneRefused P w)
  | .accept k clifd => inferInstanceAs (Decidable (¬ P clifd → 0 ≤ clifd → -1 ∈ w.clients.table k))
  | .chunk _ _ | .disconnect _ _ | .packet _ _ | .timeout => inferInstanceAs (Decidable True)

/-- Buffers that stay the same on both sides are still the same. -/
theorem SameBuffer.square {w v w' v' : World} (h : SameBuffer v w) (hv : SameBuffer v v') (hw : SameBuffer w w') :
    SameBuffer v' w' where
  remainder := hw.remainder.trans (h.remainder.trans hv.remainder.symm)
  remlen := hw.remlen.trans (h.remlen.trans hv.remlen.symm)
  lines := hw.lines.trans (h.lines.trans hv.lines.symm)

section
variable {P : Int → Prop} {hP : ¬ P (-1)}

/-- The run with the clients with `P`, and the one without. -/
structure Unnoticed (hP : ¬ P (-1)) (w v : World) : Prop where
  alike : Alike (everybodyBut hP) w v
  buffer : SameBuffer v w

variable {w v : World} (h : Unnoticed hP w v)
include h

/-- A byte is stored on both sides. -/
theorem Unnoticed.storeRemainder (i : Nat) (b : UInt8) :
    Unnoticed hP (w.storeRemainder i b) (v.storeRemainder i b) where
  alike := ⟨h.alike.core, h.alike.outer⟩
  buffer := ⟨congrArg (·.set i b) h.buffer.remainder, h.buffer.remlen, h.buffer.lines⟩

section
variable {fd : Int} (hfd : ¬ P fd) (hne : fd ≠ -1)
include hfd hne

/-- Another client is removed. -/
theorem Unnoticed.delClient : Unnoticed hP (w.delClient fd).2 (v.delClient fd).2 where
  alike :=
    { core := (core_delClient fd w).trans (h.alike.core.trans (core_delClient fd v).symm)
      outer := SameBut.delClient_together h.alike.outer hne hfd hP }
  buffer := h.buffer.square (sameBuffer_delClient fd v) (sameBuffer_delClient fd w)

/-- A command of another client is executed on both sides. -/
theorem Unnoticed.runRemainder : Unnoticed hP (w.runRemainder fd) (v.runRemainder fd) := by
  have hline : cString w.remainder = cString v.remainder := congrArg cString h.buffer.remainder
  unfold World.runRemainder
  rw [hline]
  dsimp only
  split
  · generalize cString v.remainder = aLine
    have hbefore : Unnoticed hP { w with lines := w.lines ++ [(fd, aLine)] }
        { v with lines := v.lines ++ [(fd, aLine)] } :=
      ⟨⟨h.alike.core, h.alike.outer⟩,
        h.buffer.remainder, h.buffer.remlen, congrArg (· ++ [(fd, aLine)]) h.buffer.lines⟩
    have hsender : (everybodyBut hP).sender fd fd := ⟨rfl, hfd⟩
    have hcommand := sameCommand_processcommandline hbefore.alike hsender aLine
    have hw := sameBuffer_processcommandline fd aLine { w with lines := w.lines ++ [(fd, aLine)] }
    have hv := sameBuffer_processcommandline fd aLine { v with lines := v.lines ++ [(fd, aLine)] }
    generalize processcommandline fd aLine { w with lines := w.lines ++ [(fd, aLine)] } = r at hcommand hw ⊢
    generalize processcommandline fd aLine { v with lines := v.lines ++ [(fd, aLine)] } = r' at hcommand hv ⊢
    obtain ⟨rc, t, w₂⟩ := r
    obtain ⟨rc', t', v₂⟩ := r'
    obtain ⟨-, ht, hworld⟩ := hcommand
    obtain rfl : t = t' := ht
    have hbuffer : SameBuffer v₂ w₂ := hbefore.buffer.square hv hw
    have hafter : Unnoticed hP { w₂ with remainder := t.buffer ++ w₂.remainder.drop t.buffer.length }
        { v₂ with remainder := t.buffer ++ v₂.remainder.drop t.buffer.length } :=
      ⟨⟨hworld.core, hworld.outer⟩,
        congrArg (t.buffer ++ ·.drop t.buffer.length) hbuffer.remainder, hbuffer.remlen, hbuffer.lines⟩
    dsimp only
    rw [SameBut.or20client hafter.alike.outer hfd]
    split
    · exact hafter.delClient hfd hne
    · exact hafter
  · exact h

/-- The bytes another client sends are stored and run alike. -/
theorem Unnoticed.encodeLoop (buf : List UInt8) (remptr : Nat) :
    (encodeLoop fd buf remptr w).1 = (Mochad.encodeLoop fd buf remptr v).1 ∧
      Unnoticed hP (Mochad.encodeLoop fd buf remptr w).2 (Mochad.encodeLoop fd buf remptr v).2 := by
  induction buf generalizing remptr w v with
  | nil => exact ⟨rfl, h⟩
  | cons b buf ih =>
      have hbyte := h.storeRemainder remptr b
      rw [Mochad.encodeLoop, Mochad.encodeLoop]
      split
      · exact ih ((hbyte.storeRemainder remptr 0).runRemainder hfd hne) 0
      · exact ih hbyte (remptr + 1)

/-- So is a whole chunk. -/
theorem Unnoticed.encode (buf : List UInt8) : Unnoticed hP (cm15aEncode fd buf w) (cm15aEncode fd buf v) := by
  have hremlen : w.remlen = v.remlen := h.buffer.remlen
  obtain ⟨hremptr, hloop⟩ := h.encodeLoop hfd hne buf v.remlen
  unfold cm15aEncode
  rw [hremlen]
  exact ⟨⟨hloop.alike.core, hloop.alike.outer⟩, hloop.buffer.remainder, hremptr, hloop.buffer.lines⟩

end

/-- The clients with `P` are not noticed. -/
theorem Unnoticed.after_alone (hplaced : Placed w.sockets) {i : Happening} (hreadable : i.Readable)
    (hfresh : FreshDescriptors w i) (hlisten : OnlyListen P i) (hi : P i.client) : Unnoticed hP (w.after i) v := by
  have hother : ∀ c buf, i ≠ .chunk c buf := by
    rintro c buf rfl
    exact hlisten hi
  have hbuffer : SameBuffer v (w.after i) := h.buffer.trans (happen_other hother w).1
  refine ⟨?_, hbuffer⟩
  cases i with
  | accept k clifd =>
      exact ⟨(core_acceptClient k (addTo k) clifd w).trans h.alike.core,
        SameBut.accept_alone h.alike.outer hi hplaced hfresh⟩
  | chunk c buf => exact absurd rfl (hother c buf)
  | disconnect c error =>
      have hfd : 0 ≤ c.fd := hreadable
      have hafter : w.after (.disconnect c error) = ((w.close c.fd).delClient c.fd).2 := by
        cases error <;> rfl
      have hclosed : SameBut P (w.close c.fd).outer v.outer := SameBut.close_alone h.alike.outer hi
      rw [hafter]
      exact ⟨(core_delClient c.fd (w.close c.fd)).trans h.alike.core,
        hclosed.delClient_alone (by omega) hi⟩
  | packet buf len => exact absurd hi hP
  | timeout => exact absurd hi hP

/-- Everything else does the same on both sides. -/
theorem Unnoticed.after (hplaced : Placed w.sockets) (hplaced' : Placed v.sockets) {i : Happening}
    (hreadable : i.Readable) (hfresh : FreshDescriptors w i) (hfresh' : FreshDescriptors v i)
    (hroom : NoneRefused P w i) (hi : ¬ P i.client) : Unnoticed hP (w.after i) (v.after i) := by
  have hbuffer : (∀ c buf, i ≠ .chunk c buf) → SameBuffer (v.after i) (w.after i) := fun hother =>
    h.buffer.square (happen_other hother v).1 (happen_other hother w).1
  cases i with
  | accept k clifd =>
      have hfree : 0 ≤ clifd → -1 ∈ w.clients.table k := hroom hi
      have hcore : ∀ u : World, (u.after (.accept k clifd)).core = u.core := core_acceptClient k _ clifd
      refine ⟨⟨?_, ?_⟩, hbuffer (by simp)⟩
      · exact (hcore w).trans (h.alike.core.trans (hcore v).symm)
      · exact SameBut.accept_together h.alike.outer hi hplaced hplaced' hfresh hfresh' hfree
          (fun hpos => SameBut.room h.alike.outer (hfree hpos)) hP
  | chunk c buf =>
      have hfd : 0 ≤ c.fd := hreadable
      have hother : ¬ P c.fd := hi
      exact h.encode hother (by omega) buf
  | disconnect c error =>
      have hfd : 0 ≤ c.fd := hreadable
      have hafter : ∀ u : World, u.after (.disconnect c error) = ((u.close c.fd).delClient c.fd).2 := by
        intro u
        cases error <;> rfl
      have hother : ¬ P c.fd := hi
      have hclosed : Unnoticed hP (w.close c.fd) (v.close c.fd) :=
        ⟨⟨h.alike.core, SameBut.close_together h.alike.outer c.fd⟩,
          h.buffer.remainder, h.buffer.remlen, h.buffer.lines⟩
      rw [hafter, hafter]
      exact hclosed.delClient hother (by omega)
  | packet buf len => exact ⟨alike_decode h.alike buf len, hbuffer (by simp)⟩
  | timeout => exact ⟨h.alike.sendNextX10out, hbuffer (by simp)⟩

/-- The descriptors that are free with the watchers are free without them. -/
theorem Unnoticed.fresh {i : Happening} (hi : ¬ P i.client) (hfresh : FreshDescriptors w i) :
    FreshDescriptors v i := by
  cases i with
  | accept k clifd =>
      have hport : w.sockPort clifd = v.sockPort clifd := h.alike.outer.port clifd hi
      exact hfresh.imp_right (And.imp_right hport.symm.trans)
  | _ => trivial

end

/-- In every run, clients that only listen are not noticed: as long as no other
client is refused for them, the run without them ends with the same tracked
state, sensors, filter, queue and switches, has handed the same packets to the
controller, executed the same lines, and sent the same messages to `sendMessage`
and the same text to every other client. -/
theorem watchers_unnoticed (e : Setup) (P : Int → Prop) [DecidablePred P] (hP : ¬ P (-1)) (is : List Happening)
    (hreadable : ∀ i ∈ is, i.Readable) (hlisten : ∀ i ∈ is, OnlyListen P i)
    (hfresh : Run.Along World.after FreshDescriptors (startup e) is)
    (hroom : Run.Along World.after (NoneRefused P) (startup e) is) :
    let w := Run.run World.after (startup e) is
    let v := Run.run World.after (startup e) (is.filter fun i => ¬ P i.client)
    w.core = v.core ∧ w.lines = v.lines ∧ published w.io = published v.io ∧
      ∀ fd, ¬ P fd → 0 < fd → sentTo fd w.io = sentTo fd v.io := by
  intro w v
  let R : World → World → Prop := fun w v => Unnoticed hP w v ∧ Placed w.sockets ∧ Placed v.sockets
  let Q : World → Happening → Prop := fun w i =>
    (i.Readable ∧ OnlyListen P i) ∧ FreshDescriptors w i ∧ NoneRefused P w i
  have hclients : (startup e).clients = initClient := congrArg Sockets.clients (sockets_startup e)
  have hnone : ∀ k fd, P fd → fd ∉ (startup e).clients.table k := by
    intro k fd hfd hmem
    rw [hclients] at hmem
    have hpos := Clients.holders_pos.mpr ⟨k, hmem⟩
    rw [holders_initClient fun heq => hP (heq ▸ hfd)] at hpos
    exact absurd hpos (Nat.lt_irrefl 0)
  have hok : (startup e).clients.Ok := hclients ▸ initClient_ok
  have hplaced : Placed (startup e).sockets :=
    @placed_run _ hclients [] (by simp) (Run.along_nil _ _ _)
  have hinit : R (startup e) (startup e) :=
    ⟨⟨⟨rfl, hok, hok, rfl, fun _ _ _ => rfl, fun _ _ => rfl, fun _ _ _ _ => Iff.rfl, hnone⟩, rfl, rfl, rfl⟩,
      hplaced, hplaced⟩
  have hkeep : ∀ w v i, R w v → Q w i → decide (¬ P i.client) = true → R (w.after i) (v.after i) := by
    rintro w v i ⟨h, hw, hv⟩ ⟨⟨hread, -⟩, hfresh, hroom⟩ hi
    have hi : ¬ P i.client := of_decide_eq_true hi
    have hfresh' := h.fresh hi hfresh
    exact ⟨h.after hw hv hread hfresh hfresh' hroom hi, hw.after hread hfresh, hv.after hread hfresh'⟩
  have hskip : ∀ w v i, R w v → Q w i → decide (¬ P i.client) = false → R (w.after i) v := by
    rintro w v i ⟨h, hw, hv⟩ ⟨⟨hread, hlisten⟩, hfresh, -⟩ hi
    have hi : P i.client := not_not.mp (of_decide_eq_false hi)
    exact ⟨h.after_alone hw hread hfresh hlisten hi, hw.after hread hfresh, hv⟩
  obtain ⟨h, -, -⟩ : R w v := Run.run_filter hkeep hskip hinit is
    ((Run.along_of_forall fun i hi => ⟨hreadable i hi, hlisten i hi⟩).and (hfresh.and hroom))
  have houter : SameBut P w.outer v.outer := h.alike.outer
  exact ⟨h.alike.core, h.buffer.lines, houter.messages, houter.sent⟩

/-- A client watches while another one switches A1 on. -/
theorem watchers_unnoticed_one :
    let is : List Happening := [.accept 0 5, .accept 1 6, .chunk ⟨1, 6⟩ (cstr "PL A1 ON\n"),
      .disconnect ⟨0, 5⟩ false, .timeout]
    let w := Run.run World.after (startup (stillSetup false)) is
    let v := Run.run World.after (startup (stillSetup false)) (is.filter fun i => ¬ i.client = 5)
    w.core = v.core ∧ w.lines = v.lines ∧ published w.io = published v.io ∧
      ∀ fd, ¬ fd = 5 → 0 < fd → sentTo fd w.io = sentTo fd v.io :=
  watchers_unnoticed (stillSetup false) (· = 5) (by decide) _ (by decide) (by decide) (by decide) (by decide)

end Mochad
