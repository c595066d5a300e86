import Mochad.Usb

/-!
# Mochad.Libusb

The calls of the daemon as libusb sees them.  `Libusb` is what libusb keeps for the
program, `Allowed` what its documentation demands of a caller, and `Answered`
what it says about the answers.
-/

namespace Mochad

/-! ## libusb -/

/-- What has become of a transfer. -/
inductive TransferState where
  | unallocated
  | idle
  | inFlight
  /-- Cancelled, and its callback still to come. -/
  | cancelled
deriving DecidableEq, Repr

/-- What libusb keeps: is it initialised, is the device open and its interface
claimed, and the transfers. -/
@[ext] structure Libusb where
  running : Bool
  opened : Bool
  claimed : Bool
  transfer : TransferName → TransferState

namespace Libusb

/-- Before `libusb_init`, and after `libusb_exit`. -/
def off : Libusb := ⟨false, false, false, fun _ => .unallocated⟩

/-- A transfer changes. -/
def setTransfer (t : TransferName) (x : TransferState) (u : Libusb) : Libusb :=
  { u with transfer := Function.update u.transfer t x }

/-- What a call does. -/
def step (u : Libusb) : UsbCall → Libusb
  | .init r => if 0 ≤ r then { u with running := true } else u
  | .openDeviceWithVidPid _ found => if found then { u with opened := true } else u
  | .claimInterface r => if r = 0 then { u with claimed := true } else u
  | .allocTransfer t allocated => if allocated then u.setTransfer t .idle else u
  | .submitTransfer t r => if 0 ≤ r then u.setTransfer t .inFlight else u
  | .cancelTransfer t r => if 0 ≤ r then u.setTransfer t .cancelled else u
  | .freeTransfer t => u.setTransfer t .unallocated
  | .callback t => u.setTransfer t .idle
  | .releaseInterface => { u with claimed := false }
  | .close => { u with opened := false }
  | .exit => { u with running := false }
  | .kernelDriverActive _ | .detachKernelDriver _ | .getDevice _ | .getDeviceDescriptor _
  | .getActiveConfigDescriptor _ | .freeConfigDescriptor | .fillInterruptTransfer _ _ | .handleEvents _
  | .attachKernelDriver => u

/-- What libusb demands of a call: nothing before `libusb_init` or after
`libusb_exit`, a device that is open, a transfer that is allocated; and a transfer
is not freed before its callback has been made. -/
def Allowed (u : Libusb) : UsbCall → Prop
  | .init _ => u.running = false
  | .openDeviceWithVidPid _ _ => u.running = true ∧ u.opened = false
  | .claimInterface _ | .kernelDriverActive _ | .detachKernelDriver _ | .getDevice _ | .getDeviceDescriptor _
  | .getActiveConfigDescriptor _ | .freeConfigDescriptor | .attachKernelDriver => u.opened = true
  | .allocTransfer t _ => u.running = true ∧ u.transfer t = .unallocated
  | .fillInterruptTransfer t _ => u.transfer t ≠ .unallocated
  | .submitTransfer t _ => u.opened = true ∧ u.transfer t ≠ .unallocated
  | .cancelTransfer t _ => u.transfer t ≠ .unallocated
  | .freeTransfer t => u.transfer t = .idle
  | .handleEvents _ => u.running = true
  | .releaseInterface => u.opened = true ∧ u.claimed = true
  | .close => u.opened = true ∧ u.claimed = false ∧ u.transfer .intrIn = .unallocated ∧
      u.transfer .intrOut = .unallocated
  | .exit => u.running = true ∧ u.opened = false
  | .callback _ => True

/-- What libusb answers: a transfer in flight is not submitted again, only a
transfer in flight is cancelled, and only once (a cancellation may fail at any
time), and a callback is only made for a transfer that is in flight or cancelled. -/
def Answered (u : Libusb) : UsbCall → Prop
  | .claimInterface r => r ≤ 0
  | .submitTransfer t r => 0 ≤ r → u.transfer t = .idle
  | .cancelTransfer t r => 0 ≤ r → u.transfer t = .inFlight
  | .callback t => u.transfer t = .inFlight ∨ u.transfer t = .cancelled
  | _ => True

instance decidableAllowed (u : Libusb) : DecidablePred u.Allowed
  | .init _ => inferInstanceAs (Decidable (_ = _))
  | .openDeviceWithVidPid _ _ => inferInstanceAs (Decidable (_ ∧ _))
  | .claimInterface _ | .kernelDriverActive _ | .detachKernelDriver _ | .getDevice _ | .getDeviceDescriptor _
  | .getActiveConfigDescriptor _ | .freeConfigDescriptor | .attachKernelDriver =>
      inferInstanceAs (Decidable (_ = _))
  | .allocTransfer _ _ => inferInstanceAs (Decidable (_ ∧ _))
  | .fillInterruptTransfer _ _ => inferInstanceAs (Decidable (_ ≠ _))
  | .submitTransfer _ _ => inferInstanceAs (Decidable (_ ∧ _))
  | .cancelTransfer _ _ => inferInstanceAs (Decidable (_ ≠ _))
  | .freeTransfer _ => inferInstanceAs (Decidable (_ = _))
  | .handleEvents _ => inferInstanceAs (Decidable (_ = _))
  | .releaseInterface => inferInstanceAs (Decidable (_ ∧ _))
  | .close => inferInstanceAs (Decidable (_ ∧ _))
  | .exit => inferInstanceAs (Decidable (_ ∧ _))
  | .callback _ => inferInstanceAs (Decidable True)

instance decidableAnswered (u : Libusb) : DecidablePred u.Answered
  | .claimInterface _ => inferInstanceAs (Decidable (_ ≤ _))
  | .submitTransfer _ _ | .cancelTransfer _ _ => inferInstanceAs (Decidable (_ → _))
  | .callback _ => inferInstanceAs (Decidable (_ ∨ _))
  | .init _ | .openDeviceWithVidPid _ _ | .kernelDriverActive _ | .detachKernelDriver _ | .getDevice _
  | .getDeviceDescriptor _ | .getActiveConfigDescriptor _ | .freeConfigDescriptor | .allocTransfer _ _
  | .fillInterruptTransfer _ _ | .freeTransfer _ | .handleEvents _ | .releaseInterface | .close
  | .attachKernelDriver | .exit => inferInstanceAs (Decidable True)

end Libusb

/-- libusb has not called back yet, and may still use the transfer. -/
def TransferState.Busy (x : TransferState) : Prop := x = .inFlight ∨ x = .cancelled

instance : DecidablePred TransferState.Busy := fun _ => inferInstanceAs (Decidable (_ ∨ _))

@[simp] theorem Libusb.setTransfer_self (t : TransferName) (x : TransferState) (u : Libusb) :
    (u.setTransfer t x).transfer t = x := Function.update_self ..

/-- The other transfer stays. -/
theorem Libusb.setTransfer_other {t t' : TransferName} (h : t' ≠ t) (x : TransferState) (u : Libusb) :
    (u.setTransfer t x).transfer t' = u.transfer t' := Function.update_of_ne h ..

namespace Usb

/-! ## What the calls come to -/

/-- What libusb keeps after the calls so far. -/
def libusb (s : Usb) : Libusb := Run.run Libusb.step Libusb.off s.calls

/-- Every call so far meets `P`. -/
def Keeps (P : Libusb → UsbCall → Prop) (s : Usb) : Prop := Run.Along Libusb.step P Libusb.off s.calls

@[simp] theorem libusb_call (c : UsbCall) (s : Usb) : (s.call c).libusb = s.libusb.step c :=
  Run.run_append ..

instance (P : Libusb → UsbCall → Prop) [∀ u, DecidablePred (P u)] (s : Usb) : Decidable (s.Keeps P) :=
  inferInstanceAs (Decidable (Run.Along _ _ _ _))

/-- A property of all calls is one of the earlier calls and the last. -/
theorem keeps_call {P : Libusb → UsbCall → Prop} {c : UsbCall} {s : Usb} :
    (s.call c).Keeps P ↔ s.Keeps P ∧ P s.libusb c := Run.along_concat

/-- The interface is claimed, and the pointers to the transfers are those libusb
has allocated; nothing libusb does not allow has been done. -/
structure Attached (s : Usb) : Prop where
  running : s.libusb.running = true
  opened : s.libusb.opened = true
  claimed : s.libusb.claimed = true
  devh : s.devh = true
  intrIn : s.intrInTransfer = true ↔ s.libusb.transfer .intrIn ≠ .unallocated
  intrOut : s.intrOutTransfer = true ↔ s.libusb.transfer .intrOut ≠ .unallocated
  allowed : s.Keeps Libusb.Allowed

/-- A call that only concerns transfers that are allocated, and leaves them so. -/
theorem Attached.call {s : Usb} (h : Attached s) {c : UsbCall} (hallowed : s.libusb.Allowed c)
    (hdevice : (s.libusb.step c).running = true ∧ (s.libusb.step c).opened = true ∧
      (s.libusb.step c).claimed = true)
    (hsame : ∀ t, (s.libusb.step c).transfer t = .unallocated ↔ s.libusb.transfer t = .unallocated) :
    Attached (s.call c) where
  running := by rw [libusb_call]; exact hdevice.1
  opened := by rw [libusb_call]; exact hdevice.2.1
  claimed := by rw [libusb_call]; exact hdevice.2.2
  devh := h.devh
  intrIn := by rw [libusb_call, Ne, hsame]; exact h.intrIn
  intrOut := by rw [libusb_call, Ne, hsame]; exact h.intrOut
  allowed := keeps_call.mpr ⟨h.allowed, hallowed⟩

/-- A transfer that is allocated stays so. -/
theorem unallocated_setTransfer {u : Libusb} {t : TransferName} {x : TransferState}
    (ht : u.transfer t ≠ .unallocated) (hx : x ≠ .unallocated) (t' : TransferName) :
    (u.setTransfer t x).transfer t' = .unallocated ↔ u.transfer t' = .unallocated := by
  by_cases heq : t' = t
  · subst heq
    simp [ht, hx]
  · rw [Libusb.setTransfer_other heq]

section
variable {s : Usb} (h : Attached s)
include h

/-- A call that libusb keeps no record of. -/
theorem Attached.unrecorded {c : UsbCall} (hstep : s.libusb.step c = s.libusb) (hallowed : s.libusb.Allowed c) :
    Attached (s.call c) :=
  h.call hallowed (by rw [hstep]; exact ⟨h.running, h.opened, h.claimed⟩) fun t => by rw [hstep]

/-- A call that only changes an allocated transfer keeps the device attached. -/
theorem Attached.transferCall {c : UsbCall} {t : TransferName} {x : TransferState}
    (hstep : s.libusb.step c = s.libusb ∨ s.libusb.step c = s.libusb.setTransfer t x)
    (ht : s.libusb.transfer t ≠ .unallocated) (hx : x ≠ .unallocated) (hallowed : s.libusb.Allowed c) :
    Attached (s.call c) := by
  obtain hstep | hstep := hstep
  · exact h.unrecorded hstep hallowed
  · refine h.call hallowed ?_ ?_ <;> rw [hstep]
    · exact ⟨h.running, h.opened, h.claimed⟩
    · exact unallocated_setTransfer ht hx

end

/-! ## The main loop -/

/-- In the main loop the output transfer is always there. -/
structure Looping (s : Usb) : Prop extends Attached s where
  out : s.intrOutTransfer = true

/-- `Do_exit` plays no part. -/
theorem Looping.setDoExit {s : Usb} (h : Looping s) (k : Nat) : Looping { s with doExit := k } :=
  ⟨⟨h.running, h.opened, h.claimed, h.devh, h.intrIn, h.intrOut, h.allowed⟩, h.out⟩

/-- From `s` to `s'` the loop goes on, if libusb answers as it says. -/
def Attends (s s' : Usb) : Prop :=
  s'.Keeps Libusb.Answered → s.Keeps Libusb.Answered ∧ (Looping s → Looping s')

namespace Attends

theorem refl (s : Usb) : Attends s s := fun h => ⟨h, id⟩

theorem trans {a b c : Usb} (h₁ : Attends a b) (h₂ : Attends b c) : Attends a c := fun h =>
  ⟨(h₁ (h₂ h).1).1, fun ha => (h₂ h).2 ((h₁ (h₂ h).1).2 ha)⟩

end Attends

/-- The loop goes on after a call that keeps the device attached. -/
theorem attends_call {s : Usb} {c : UsbCall}
    (h : Looping s → s.libusb.Answered c → Attached (s.call c)) : Attends s (s.call c) := fun hanswered =>
  have hcalls := keeps_call.mp hanswered
  ⟨hcalls.1, fun hloop => ⟨h hloop hcalls.2, hloop.out⟩⟩

theorem attends_handleEvents (s : Usb) (r : Int) : Attends s (s.call (.handleEvents r)) :=
  attends_call fun h _ => h.unrecorded rfl h.running

/-- The output transfer is allocated. -/
theorem Looping.out_ne {s : Usb} (h : Looping s) : s.libusb.transfer .intrOut ≠ .unallocated := h.intrOut.mp h.out

/-- Submitting a transfer that is there. -/
theorem attends_submit {s : Usb} (t : TransferName) (r : Int)
    (ht : Looping s → s.libusb.transfer t ≠ .unallocated) : Attends s (s.call (.submitTransfer t r)) := by
  refine attends_call fun h _ => h.transferCall (t := t) (x := .inFlight) ?_ (ht h) (by decide) ⟨h.opened, ht h⟩
  exact (ite_eq_or_eq ..).symm

/-- Cancelling a transfer that is there. -/
theorem attends_cancel {s : Usb} (t : TransferName) (r : Int)
    (ht : Looping s → s.libusb.transfer t ≠ .unallocated) : Attends s (s.call (.cancelTransfer t r)) := by
  refine attends_call fun h _ => h.transferCall (t := t) (x := .cancelled) ?_ (ht h) (by decide) (ht h)
  exact (ite_eq_or_eq ..).symm

/-- A transfer whose callback is made is allocated. -/
theorem ne_unallocated_of_callback {u : Libusb} {t : TransferName} (h : u.Answered (.callback t)) :
    u.transfer t ≠ .unallocated := by
  obtain h | h := h <;> rw [h] <;> decide

theorem attends_callback (s : Usb) (t : TransferName) : Attends s (s.call (.callback t)) :=
  attends_call fun h hanswered =>
    h.transferCall (t := t) (.inr rfl) (ne_unallocated_of_callback hanswered) (by decide) trivial

/-- Waiting until the output transfer is free. -/
theorem attends_waitOut (wait : Nat → Int) (i : Nat) (s : Usb) : Attends s (waitOut wait i s) := by
  induction i generalizing s with
  | zero => exact Attends.refl s
  | succ i ih =>
      have hround := attends_handleEvents s (wait i)
      rw [waitOut]
      split
      · dsimp only
        split
        · exact hround
        · exact hround.trans (ih _)
      · exact Attends.refl s

theorem attends_writeUsb (a : WriteAnswers) (s : Usb) : Attends s (writeUsb a s).2 := by
  have hfill : Attends s (s.call (.fillInterruptTransfer .intrOut s.outEndpoint)) :=
    attends_call fun h _ => h.unrecorded rfl h.out_ne
  have hsubmit := hfill.trans (attends_submit .intrOut a.submit Looping.out_ne)
  unfold writeUsb
  dsimp only
  split
  · exact hsubmit.trans ((attends_cancel .intrOut a.cancel Looping.out_ne).trans (attends_waitOut a.wait 100 _))
  · exact hsubmit

/-- A loop goes on if its body does. -/
theorem attends_foldl {α : Type} {f : Usb → α → Usb} (h : ∀ s x, Attends s (f s x)) (xs : List α) (s : Usb) :
    Attends s (xs.foldl f s) := by
  induction xs generalizing s with
  | nil => exact Attends.refl s
  | cons x xs ih => exact (h s x).trans (ih _)

/-- Writing several packets. -/
theorem attends_writeAll (writes : List WriteAnswers) (s : Usb) : Attends s (writeAll writes s) :=
  attends_foldl (fun s a => attends_writeUsb a s) writes s

/-- Only calls are made. -/
def CallsOnly (s s' : Usb) : Prop := ∃ calls, s' = { s with calls := calls }

/-- Waiting for the output transfer makes calls only. -/
theorem callsOnly_waitOut (wait : Nat → Int) (i : Nat) (s : Usb) : CallsOnly s (waitOut wait i s) := by
  induction i generalizing s with
  | zero => exact ⟨s.calls, rfl⟩
  | succ i ih =>
      rw [waitOut]
      split
      · dsimp only
        split
        · exact ⟨_, rfl⟩
        · obtain ⟨calls, h⟩ := ih (s.call (.handleEvents (wait i)))
          exact ⟨calls, h⟩
      · exact ⟨s.calls, rfl⟩

/-- So does writing a packet. -/
theorem callsOnly_writeUsb (a : WriteAnswers) (s : Usb) : CallsOnly s (writeUsb a s).2 := by
  unfold writeUsb
  dsimp only
  split
  · obtain ⟨calls, h⟩ := callsOnly_waitOut a.wait 100 (((s.call (.fillInterruptTransfer .intrOut
      s.outEndpoint)).call (.submitTransfer .intrOut a.submit)).call (.cancelTransfer .intrOut a.cancel))
    exact ⟨calls, h⟩
  · exact ⟨_, rfl⟩

theorem callsOnly_writeAll (writes : List WriteAnswers) (s : Usb) : CallsOnly s (writeAll writes s) := by
  induction writes generalizing s with
  | nil => exact ⟨s.calls, rfl⟩
  | cons a writes ih =>
      obtain ⟨calls, h⟩ := callsOnly_writeUsb a s
      obtain ⟨calls', h'⟩ := ih (writeUsb a s).2
      exact ⟨calls', by rw [writeAll, List.foldl_cons, ← writeAll, h', h]⟩

/-- The callback of the input transfer. -/
theorem attends_intrInCb (e : IntrIn) (s : Usb) : Attends s (intrInCb e s) := by
  have hcallback := attends_callback s .intrIn
  cases e with
  | failed =>
      intro hanswered
      obtain ⟨hcalled, -⟩ := keeps_call.mp hanswered
      obtain ⟨hbefore, hloop⟩ := hcallback hcalled
      refine ⟨hbefore, fun h => ?_⟩
      have h' := hloop h
      have hidle : (s.call (.callback .intrIn)).libusb.transfer .intrIn = .idle := by
        rw [libusb_call]
        exact Libusb.setTransfer_self ..
      let u := (s.call (.callback .intrIn)).libusb
      have hstep : (intrInCb .failed s).libusb = u.setTransfer .intrIn .unallocated := libusb_call _ _
      refine ⟨⟨?_, ?_, ?_, h'.devh, ?_, ?_, keeps_call.mpr ⟨h'.allowed, hidle⟩⟩, h'.out⟩
      · rw [hstep]
        exact h'.running
      · rw [hstep]
        exact h'.opened
      · rw [hstep]
        exact h'.claimed
      · rw [hstep, Libusb.setTransfer_self]
        simp [intrInCb]
      · rw [hstep, Libusb.setTransfer_other (by decide)]
        exact h'.intrOut
  | completed writes resubmit =>
      let s₁ := s.call (.callback .intrIn)
      let s₂ := writeAll writes s₁
      have hwrites : Attends s₁ s₂ := attends_writeAll writes s₁
      have hresubmit : Attends s (s₂.call (.submitTransfer .intrIn resubmit)) := by
        intro hanswered
        obtain ⟨h₂, -⟩ := keeps_call.mp hanswered
        obtain ⟨h₁, hloop₂⟩ := hwrites h₂
        obtain ⟨h₀, hloop₁⟩ := hcallback h₁
        refine ⟨h₀, fun h => ?_⟩
        -- the transfer was allocated when its callback was made, and still is
        have hin : s.intrInTransfer = true := h.intrIn.mpr (ne_unallocated_of_callback (keeps_call.mp h₁).2)
        have hin₂ : s₂.intrInTransfer = true := by
          obtain ⟨calls, heq⟩ := callsOnly_writeAll writes s₁
          exact (congrArg Usb.intrInTransfer heq).trans hin
        exact (attends_submit .intrIn resubmit (fun h => h.intrIn.mp hin₂) hanswered).2 (hloop₂ (hloop₁ h))
      have hexit : ∀ v : Usb, Attends v { v with doExit := 2 } := fun v h => ⟨h, fun hv => hv.setDoExit 2⟩
      change Attends s (if resubmit < 0 then { s₂.call (.submitTransfer .intrIn resubmit) with doExit := 2 }
        else s₂.call (.submitTransfer .intrIn resubmit))
      split
      · exact hresubmit.trans (hexit _)
      · exact hresubmit

theorem attends_calledBack (s : Usb) (c : Callback) : Attends s (s.calledBack c) := by
  cases c with
  | intrIn e => exact attends_intrInCb e s
  | intrOut => exact attends_callback s .intrOut
  | signal => exact fun h => ⟨h, fun hs => hs.setDoExit 1⟩

theorem attends_react (s : Usb) (e : UsbEvent) : Attends s (s.react e) := by
  cases e with
  | callback c => exact attends_calledBack s c
  | write a => exact attends_writeUsb a s

theorem attends_mainLoop (iterations : List (List UsbEvent)) (s : Usb) :
    Attends s (mainLoop iterations s) := by
  induction iterations generalizing s with
  | nil => exact Attends.refl s
  | cons events iterations ih =>
      rw [mainLoop]
      split
      · exact Attends.refl s
      · exact (attends_foldl attends_react events s).trans (ih _)

/-- Waiting for the transfers that have been cancelled. -/
theorem attends_waitTransfers (wait : Nat → List Callback × Int) (i : Nat) (s : Usb) :
    Attends s (waitTransfers wait i s) := by
  induction i generalizing s with
  | zero => exact Attends.refl s
  | succ i ih =>
      have hround := (attends_foldl attends_calledBack (wait i).1 s).trans (attends_handleEvents _ (wait i).2)
      rw [waitTransfers]
      split
      · dsimp only
        split
        · exact hround
        · exact hround.trans (ih _)
      · exact Attends.refl s

end Usb

end Mochad
