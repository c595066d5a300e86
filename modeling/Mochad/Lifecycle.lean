import Mochad.Attach

/-!
# Mochad.Lifecycle

The life of the daemon, from `libusb_init` to its exit status.
-/

namespace Mochad

namespace Usb

/-! ## The end of the loop -/

/-- The input transfer is cancelled if there is one. -/
def cancelIn (a : StopAnswers) (s : Usb) : Usb :=
  if s.intrInTransfer then s.call (.cancelTransfer .intrIn a.cancelIn) else s

/-- In the three ways out of the loop: the output transfer is not cancelled, the
input transfer is not cancelled, or the daemon waits for both. -/
theorem cancelTransfers_cases (a : StopAnswers) {s : Usb} (hout : s.intrOutTransfer = true) :
    let s₁ := s.call (.cancelTransfer .intrOut a.cancelOut)
    let s₂ := cancelIn a s₁
    (a.cancelOut < 0 ∧ cancelTransfers a s = (a.cancelOut, s₁)) ∨
      (0 ≤ a.cancelOut ∧ (s.intrInTransfer = true ∧ a.cancelIn < 0) ∧ cancelTransfers a s = (a.cancelIn, s₂)) ∨
      (0 ≤ a.cancelOut ∧ (s.intrInTransfer = true → 0 ≤ a.cancelIn) ∧ cancelTransfers a s =
        (if (waitTransfers a.wait 100 s₂).doExit = 1 then 0 else 1, waitTransfers a.wait 100 s₂)) := by
  intro s₁ s₂
  by_cases h₁ : a.cancelOut < 0
  · exact .inl ⟨h₁, by simp [cancelTransfers, hout, h₁, s₁]⟩
  cases hin : s.intrInTransfer with
  | false =>
      refine .inr (.inr ⟨by omega, fun h => absurd h (by decide), ?_⟩)
      simp [cancelTransfers, cancelIn, hout, h₁, hin, s₁, s₂]
  | true =>
      by_cases h₂ : a.cancelIn < 0
      · exact .inr (.inl ⟨by omega, ⟨rfl, h₂⟩, by simp [cancelTransfers, cancelIn, hout, h₁, h₂, hin, s₁, s₂]⟩)
      · refine .inr (.inr ⟨by omega, fun _ => by omega, ?_⟩)
        simp [cancelTransfers, cancelIn, hout, h₁, h₂, hin, s₁, s₂]

/-- Cancelling the input transfer. -/
theorem attends_cancelIn (a : StopAnswers) (s : Usb) : Attends s (cancelIn a s) := by
  unfold cancelIn
  split
  · rename_i hin
    exact attends_cancel .intrIn a.cancelIn fun h => h.intrIn.mp hin
  · exact Attends.refl s

/-- Cancelling both transfers, and waiting for them. -/
theorem attends_cancelTransfers (a : StopAnswers) (s : Usb) : Attends s (cancelTransfers a s).2 := by
  let s₁ := if s.intrOutTransfer then s.call (.cancelTransfer .intrOut a.cancelOut) else s
  have hcancel : Attends s s₁ := by
    refine iteInduction (fun _ => ?_) fun _ => ?_
    · exact attends_cancel .intrOut a.cancelOut Looping.out_ne
    · exact Attends.refl s
  have hboth := hcancel.trans (attends_cancelIn a s₁)
  have hwait := hboth.trans (attends_waitTransfers a.wait 100 (cancelIn a s₁))
  let s₂ := cancelIn a s₁
  change Attends s (if s₁.intrOutTransfer && a.cancelOut < 0 then (a.cancelOut, s₁)
    else if s₂.intrInTransfer && a.cancelIn < 0 then (a.cancelIn, s₂)
    else (if (waitTransfers a.wait 100 s₂).doExit = 1 then 0 else 1, waitTransfers a.wait 100 s₂)).2
  split
  · exact hcancel
  split
  · exact hboth
  · exact hwait

/-- The loop has ended in good order: no packet is on its way and nothing is being
received; or both transfers can be cancelled, and their callbacks are made while
the daemon waits. -/
def Orderly (a : StopAnswers) (s : Usb) : Prop :=
  (s.libusb.transfer .intrOut = .idle ∧ ¬ (s.libusb.transfer .intrIn).Busy) ∨
    (s.libusb.transfer .intrOut = .inFlight ∧
      (s.libusb.transfer .intrIn = .inFlight ∨ s.libusb.transfer .intrIn = .unallocated) ∧
      Unused (cancelTransfers a s).2)

/-- The output transfer is not cancelled, and what is freed is what was there. -/
theorem orderly_outKept {a : StopAnswers} {s : Usb} (h : Looping s) (hno : a.cancelOut < 0)
    (heq : cancelTransfers a s = (a.cancelOut, s.call (.cancelTransfer .intrOut a.cancelOut))) :
    Unused (cancelTransfers a s).2 ↔ Orderly a s := by
  have hlib : (s.call (.cancelTransfer .intrOut a.cancelOut)).libusb = s.libusb :=
    (libusb_call _ _).trans (if_neg (by omega))
  constructor
  · intro hunused
    rw [heq, Unused, hlib] at hunused
    refine .inl ⟨?_, hunused .intrIn⟩
    have hidle := hunused .intrOut
    have hsome := h.out_ne
    revert hidle hsome
    cases s.libusb.transfer .intrOut <;> decide
  · rintro (⟨hidle, hin⟩ | ⟨-, -, hunused⟩)
    · intro t
      rw [heq, hlib]
      cases t with
      | intrIn => exact hin
      | intrOut => rw [hidle]; decide
    · exact hunused

/-- The output transfer is cancelled, and nobody waits for its callback. -/
theorem orderly_inKept {a : StopAnswers} {s : Usb} (hanswered : (cancelTransfers a s).2.Keeps Libusb.Answered)
    (hok : 0 ≤ a.cancelOut) (hin : s.intrInTransfer = true) (hno : a.cancelIn < 0)
    (heq : cancelTransfers a s = (a.cancelIn, cancelIn a (s.call (.cancelTransfer .intrOut a.cancelOut)))) :
    Unused (cancelTransfers a s).2 ↔ Orderly a s := by
  let s₁ := s.call (.cancelTransfer .intrOut a.cancelOut)
  have hcancel : cancelIn a s₁ = s₁.call (.cancelTransfer .intrIn a.cancelIn) := if_pos hin
  have hlib₁ : s₁.libusb = s.libusb.setTransfer .intrOut .cancelled := (libusb_call _ _).trans (if_pos hok)
  have hlib₂ : (s₁.call (.cancelTransfer .intrIn a.cancelIn)).libusb = s₁.libusb :=
    (libusb_call _ _).trans (if_neg (by omega))
  have hbusy : ¬ Unused (cancelTransfers a s).2 := by
    intro hunused
    refine absurd (hunused .intrOut) (not_not_intro (.inr ?_))
    rw [heq]
    change (cancelIn a s₁).libusb.transfer .intrOut = _
    rw [hcancel, hlib₂, hlib₁]
    exact Libusb.setTransfer_self ..
  refine iff_of_false hbusy ?_
  rintro (⟨hidle, -⟩ | ⟨-, -, hunused⟩)
  · rw [heq] at hanswered
    change (cancelIn a s₁).Keeps Libusb.Answered at hanswered
    rw [hcancel] at hanswered
    have hflight := (keeps_call.mp (keeps_call.mp hanswered).1).2 hok
    rw [hidle] at hflight
    cases hflight
  · exact hbusy hunused

section
variable {a : StopAnswers} {s : Usb} (h : Looping s) (hanswered : (cancelTransfers a s).2.Keeps Libusb.Answered)
include h hanswered

/-- The daemon waits for both callbacks. -/
theorem orderly_waited (hok : 0 ≤ a.cancelOut) (hin : s.intrInTransfer = true → 0 ≤ a.cancelIn)
    (hwaited : (cancelTransfers a s).2 =
      waitTransfers a.wait 100 (cancelIn a (s.call (.cancelTransfer .intrOut a.cancelOut)))) :
    Unused (cancelTransfers a s).2 ↔ Orderly a s := by
  let s₁ := s.call (.cancelTransfer .intrOut a.cancelOut)
  have hrest := (attends_waitTransfers a.wait 100 (cancelIn a s₁) (by rw [hwaited] at hanswered; exact hanswered)).1
  have hanswered₁ := (attends_cancelIn a s₁ hrest).1
  have hout : s.libusb.transfer .intrOut = .inFlight := (keeps_call.mp hanswered₁).2 hok
  have hlib₁ : s₁.libusb = s.libusb.setTransfer .intrOut .cancelled := (libusb_call _ _).trans (if_pos hok)
  have hinput : s.libusb.transfer .intrIn = .inFlight ∨ s.libusb.transfer .intrIn = .unallocated := by
    cases hpointer : s.intrInTransfer with
    | false => exact .inr (by simpa [hpointer] using h.intrIn)
    | true =>
        have hcancel : cancelIn a s₁ = s₁.call (.cancelTransfer .intrIn a.cancelIn) := if_pos hpointer
        rw [hcancel] at hrest
        have hflight := (keeps_call.mp hrest).2 (hin hpointer)
        rw [hlib₁, Libusb.setTransfer_other (by decide)] at hflight
        exact .inl hflight
  refine ⟨fun hunused => .inr ⟨hout, hinput, hunused⟩, ?_⟩
  rintro (⟨hidle, -⟩ | ⟨-, -, hunused⟩)
  · rw [hout] at hidle
    cases hidle
  · exact hunused

/-- Nothing libusb works on is freed behind the loop exactly when the loop has ended
in good order. -/
theorem orderly_iff : Unused (cancelTransfers a s).2 ↔ Orderly a s := by
  obtain ⟨hno, heq⟩ | ⟨hok, ⟨hin, hno⟩, heq⟩ | ⟨hok, hin, heq⟩ := cancelTransfers_cases a h.out
  · exact orderly_outKept h hno heq
  · exact orderly_inKept hanswered hok hin hno heq
  · exact orderly_waited h hanswered hok hin (congrArg Prod.snd heq)

end

/-! ## Whole lives -/

/-- A life that ends before the main loop, one that is in it, and one that ends
behind it. -/
theorem mydaemon_cases (l : Life) :
    (∃ status s, attach l = .error (status, s) ∧ mydaemon l = (some status, s)) ∨
      ∃ s, attach l = .ok s ∧
        ((mainLoop l.iterations s).doExit = 0 ∧ mydaemon l = (none, mainLoop l.iterations s) ∨
          (mainLoop l.iterations s).doExit ≠ 0 ∧ mydaemon l =
            (some (exitStatus (cancelTransfers l.stop (mainLoop l.iterations s)).1),
              outDeinit (cancelTransfers l.stop (mainLoop l.iterations s)).2)) := by
  unfold mydaemon
  cases hattach : attach l with
  | error e => exact .inl ⟨e.1, e.2, rfl, rfl⟩
  | ok s =>
      refine .inr ⟨s, rfl, ?_⟩
      by_cases hexit : (mainLoop l.iterations s).doExit = 0
      · exact .inl ⟨hexit, if_pos hexit⟩
      · exact .inr ⟨hexit, if_neg hexit⟩

/-- The loop of a life that libusb answers as it says. -/
theorem looping_mainLoop {l : Life} {s : Usb} (hattach : attach l = .ok s)
    (hanswered : (mainLoop l.iterations s).Keeps Libusb.Answered) : Looping (mainLoop l.iterations s) := by
  obtain ⟨hstart, hloop⟩ := attends_mainLoop l.iterations s hanswered
  have hstarted := attach_started l
  rw [hattach] at hstarted
  exact hloop (hstarted hstart).1

/-- What a life that has come to its end has done. -/
theorem ended_spec (l : Life) (hanswered : (mydaemon l).2.Keeps Libusb.Answered) {status : Int}
    (hended : (mydaemon l).1 = some status) :
    (mydaemon l).2.libusb = Libusb.off ∧ ((mydaemon l).2.Keeps Libusb.Allowed ↔
      (mydaemon l).2.reattach = false ∧
        ∀ s, attach l = .ok s → Orderly l.stop (mainLoop l.iterations s)) := by
  obtain ⟨status', s, hattach, heq⟩ | ⟨s, hattach, ⟨-, heq⟩ | ⟨-, heq⟩⟩ := mydaemon_cases l
  · have hstarted := attach_started l
    rw [heq] at hanswered ⊢
    rw [hattach] at hstarted
    have hfailed : Failed status' s := hstarted hanswered
    refine ⟨hfailed.off, hfailed.allowed.trans (and_iff_left fun v hv => ?_).symm⟩
    rw [hattach] at hv
    cases hv
  · rw [heq] at hended
    cases hended
  · rw [heq] at hanswered ⊢
    have hstop : (cancelTransfers l.stop (mainLoop l.iterations s)).2.Keeps Libusb.Answered :=
      hanswered.of_prefix (calls_outDeinit _)
    obtain ⟨hloop, hstopped⟩ := attends_cancelTransfers l.stop _ hstop
    have hlooping := looping_mainLoop hattach hloop
    obtain ⟨hoff, hallowed⟩ := outDeinit_spec (hstopped hlooping).toAttached
    refine ⟨hoff, hallowed.trans ?_⟩
    rw [outDeinit_reattach]
    refine and_congr_right fun _ => ?_
    have horderly := orderly_iff hlooping hstop
    constructor
    · intro hunused v hv
      rw [hattach] at hv
      obtain rfl := Except.ok.inj hv
      refine horderly.mp fun t => ?_
      cases t with
      | intrIn => exact hunused.1
      | intrOut => exact hunused.2
    · intro hall
      have hunused := horderly.mpr (hall s hattach)
      exact ⟨hunused .intrIn, hunused .intrOut⟩

/-- A CM15A that is free, one packet sent, a signal, and the callbacks of both
transfers in the first round of waiting. -/
def signalled : Life where
  setup :=
    { init := 0, cm15a := true, cm19a := false, claim := 0, kernelDriver := 0, detach := 0, claimAgain := 0,
      device := true, deviceDescriptor := 0, configDescriptor := 0, config := [[[0x81, 0x02]]],
      allocIn := true, allocOut := true, submit := 0 }
  first := ⟨0, 0, fun _ => 0⟩
  iterations := [[.write ⟨0, 0, fun _ => 0⟩], [.callback .signal]]
  stop := ⟨0, 0, fun i => if i = 99 then ([.intrIn .failed, .intrOut], 0) else ([], -1)⟩

/-- However the daemon ends, on any failure of the start-up or behind its loop,
everything is given back: libusb is left as it was found. -/
theorem usb_given_back (l : Life) (hanswered : (mydaemon l).2.Keeps Libusb.Answered) {status : Int}
    (hended : (mydaemon l).1 = some status) : (mydaemon l).2.libusb = Libusb.off :=
  (ended_spec l hanswered hended).1

theorem usb_given_back_signalled : (mydaemon signalled).2.libusb = Libusb.off :=
  usb_given_back signalled (by decide) (show (mydaemon signalled).1 = some 1 by decide)

/-- The input transfer is left as it is. -/
def LeavesIn (s s' : Usb) : Prop := s'.libusb.transfer .intrIn = s.libusb.transfer .intrIn

/-- A call that changes at most the output transfer. -/
theorem leavesIn_call {c : UsbCall} (h : ∀ u : Libusb, u.step c = u ∨ ∃ x, u.step c = u.setTransfer .intrOut x)
    (s : Usb) : LeavesIn s (s.call c) := by
  rw [LeavesIn, libusb_call]
  obtain h | ⟨x, h⟩ := h s.libusb
  · rw [h]
  · rw [h, Libusb.setTransfer_other (by decide)]

theorem leavesIn_handleEvents (r : Int) (s : Usb) : LeavesIn s (s.call (.handleEvents r)) :=
  leavesIn_call (fun _ => .inl rfl) s

/-- libusb still has the input transfer, or the daemon knows that it has failed. -/
def Waiting (s : Usb) : Prop := (s.libusb.transfer .intrIn).Busy ∨ s.doExit = 2

/-- While there is no signal, `Do_exit` is 2 as soon as libusb gives the input
transfer back for good. -/
theorem waiting_calledBack {s : Usb} (h : Waiting s) {c : Callback} (hc : c ≠ .signal) :
    Waiting (s.calledBack c) := by
  cases c with
  | signal => exact absurd rfl hc
  | intrOut =>
      have hsame : LeavesIn s (s.call (.callback .intrOut)) := leavesIn_call (fun _ => .inr ⟨_, rfl⟩) s
      exact h.imp_left fun hbusy => hsame.symm ▸ hbusy
  | intrIn e =>
      cases e with
      | failed => exact .inr rfl
      | completed writes resubmit =>
          let s₁ := writeAll writes (s.call (.callback .intrIn))
          change Waiting (if resubmit < 0 then { s₁.call (.submitTransfer .intrIn resubmit) with doExit := 2 }
            else s₁.call (.submitTransfer .intrIn resubmit))
          split
          · exact .inr rfl
          · rename_i hr
            have hlib : (s₁.call (.submitTransfer .intrIn resubmit)).libusb = s₁.libusb.setTransfer .intrIn .inFlight :=
              (libusb_call _ _).trans (if_pos (by omega))
            refine .inl (.inl ?_)
            rw [hlib, Libusb.setTransfer_self]

/-- Several callbacks without a signal. -/
theorem waiting_foldl {cs : List Callback} (hcs : .signal ∉ cs) {s : Usb} (h : Waiting s) :
    Waiting (cs.foldl calledBack s) := by
  induction cs generalizing s with
  | nil => exact h
  | cons c cs ih =>
      rw [List.mem_cons, not_or] at hcs
      exact ih hcs.2 (waiting_calledBack h (Ne.symm hcs.1))

/-- So while the daemon waits for the transfers. -/
theorem waiting_waitTransfers {wait : Nat → List Callback × Int} (hwait : ∀ i, .signal ∉ (wait i).1) (i : Nat)
    {s : Usb} (h : Waiting s) : Waiting (waitTransfers wait i s) := by
  induction i generalizing s with
  | zero => exact h
  | succ i ih =>
      have hcalled := waiting_foldl (hwait i) h
      have hround : Waiting (((wait i).1.foldl calledBack s).call (.handleEvents (wait i).2)) :=
        hcalled.imp_left fun hbusy => (leavesIn_handleEvents _ _).symm ▸ hbusy
      rw [waitTransfers]
      split
      · dsimp only
        split
        · exact hround
        · exact ih hround
      · exact h

/-- The input transfer is only given up when it fails. -/
theorem intrInTransfer_react {s : Usb} {e : UsbEvent} (he : e ≠ .callback (.intrIn .failed)) :
    (s.react e).intrInTransfer = s.intrInTransfer := by
  cases e with
  | write a =>
      obtain ⟨calls, hwrite⟩ := callsOnly_writeUsb a s
      exact (congrArg intrInTransfer hwrite).trans rfl
  | callback c =>
      cases c with
      | signal => rfl
      | intrOut => rfl
      | intrIn e =>
          cases e with
          | failed => exact absurd rfl he
          | completed writes resubmit =>
              obtain ⟨calls, hwrites⟩ := callsOnly_writeAll writes (s.call (.callback .intrIn))
              let s₁ := writeAll writes (s.call (.callback .intrIn))
              change (if resubmit < 0 then { s₁.call (.submitTransfer .intrIn resubmit) with doExit := 2 }
                else s₁.call (.submitTransfer .intrIn resubmit)).intrInTransfer = _
              have hsame : s₁.intrInTransfer = s.intrInTransfer := (congrArg intrInTransfer hwrites).trans rfl
              split <;> exact hsame

/-- Without a failed input transfer its pointer stays. -/
theorem intrInTransfer_foldl {events : List UsbEvent} (h : .callback (.intrIn .failed) ∉ events) (s : Usb) :
    (events.foldl react s).intrInTransfer = s.intrInTransfer := by
  induction events generalizing s with
  | nil => rfl
  | cons e events ih =>
      rw [List.mem_cons, not_or] at h
      exact (ih h.2 (s.react e)).trans (intrInTransfer_react (Ne.symm h.1))

/-- So it does over the whole loop. -/
theorem intrInTransfer_mainLoop {iterations : List (List UsbEvent)}
    (h : ∀ events ∈ iterations, .callback (.intrIn .failed) ∉ events) (s : Usb) :
    (mainLoop iterations s).intrInTransfer = s.intrInTransfer := by
  induction iterations generalizing s with
  | nil => rfl
  | cons events iterations ih =>
      rw [List.forall_mem_cons] at h
      rw [mainLoop]
      split
      · rfl
      · exact (ih h.2 _).trans (intrInTransfer_foldl h.1 s)

/-- What has to be true for the daemon to report success. -/
theorem cancelTransfers_success {a : StopAnswers} {s : Usb} (h : Looping s)
    (hreceiving : s.intrInTransfer = true) (hwait : ∀ i, .signal ∉ (a.wait i).1)
    (hsuccess : exitStatus (cancelTransfers a s).1 = 0) :
    ((cancelTransfers a s).2.libusb.transfer .intrIn).Busy := by
  let s₁ := s.call (.cancelTransfer .intrOut a.cancelOut)
  obtain ⟨hno, heq⟩ | ⟨-, ⟨-, hno⟩, heq⟩ | ⟨-, hok, heq⟩ := cancelTransfers_cases a h.out
  · rw [heq] at hsuccess
    exact absurd hsuccess (exitStatus_ne hno)
  · rw [heq] at hsuccess
    exact absurd hsuccess (exitStatus_ne hno)
  · -- the input transfer is cancelled, and its callback sets `Do_exit`
    have hcancel : cancelIn a s₁ = s₁.call (.cancelTransfer .intrIn a.cancelIn) := if_pos hreceiving
    have hcancelled : (cancelIn a s₁).libusb = s₁.libusb.setTransfer .intrIn .cancelled := by
      rw [hcancel]
      exact (libusb_call _ _).trans (if_pos (hok hreceiving))
    have hwaiting : Waiting (cancelIn a s₁) :=
      .inl (.inr (by rw [hcancelled, Libusb.setTransfer_self]))
    rw [heq] at hsuccess ⊢
    obtain hbusy | hexit := waiting_waitTransfers hwait 100 hwaiting
    · exact hbusy
    · rw [if_neg (by rw [hexit]; decide)] at hsuccess
      exact absurd hsuccess (show exitStatus 1 ≠ 0 by decide)

/-- A daemon that has done only what libusb allows does not report success, not
even when a signal has stopped it: the callback of the cancelled input transfer
sets `Do_exit` to 2 while the daemon waits for it.  A daemon that has lost its
input transfer before and one that is signalled again while it waits are left
aside. -/
theorem allowed_no_success (l : Life) (hanswered : (mydaemon l).2.Keeps Libusb.Answered)
    (hallowed : (mydaemon l).2.Keeps Libusb.Allowed)
    (hreceiving : ∀ events ∈ l.iterations, .callback (.intrIn .failed) ∉ events)
    (hwait : ∀ i, .signal ∉ (l.stop.wait i).1) : (mydaemon l).1 ≠ some 0 := by
  intro hended
  obtain ⟨status, s, hattach, heq⟩ | ⟨s, hattach, ⟨-, heq⟩ | ⟨-, heq⟩⟩ := mydaemon_cases l
  · have hstarted := attach_started l
    rw [heq] at hanswered hended
    rw [hattach] at hstarted
    exact absurd (Option.some.inj hended) (hstarted hanswered).status
  · rw [heq] at hended
    cases hended
  · rw [heq] at hanswered hallowed hended
    have hstop : (cancelTransfers l.stop (mainLoop l.iterations s)).2.Keeps Libusb.Answered :=
      hanswered.of_prefix (calls_outDeinit _)
    obtain ⟨hloop, hstopped⟩ := attends_cancelTransfers l.stop _ hstop
    have hlooping := looping_mainLoop hattach hloop
    have hstarted := attach_started l
    rw [hattach] at hstarted
    have hin : s.intrInTransfer = true := (hstarted (attends_mainLoop l.iterations s hloop).1).2
    have hbusy := cancelTransfers_success hlooping
      ((intrInTransfer_mainLoop hreceiving s).trans hin) hwait (Option.some.inj hended)
    exact ((outDeinit_spec (hstopped hlooping).toAttached).2.mp hallowed).2.1 hbusy

/-- With a CM15A that is there, and a signal after one packet. -/
theorem allowed_no_success_signalled : (mydaemon signalled).1 ≠ some 0 :=
  allowed_no_success signalled (by decide) (by decide) (by simp [signalled])
    (fun i => by by_cases h : i = 99 <;> simp [signalled, h])

end Usb

end Mochad
