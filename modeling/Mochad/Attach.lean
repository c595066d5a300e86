import Mochad.Libusb

/-!
# Mochad.Attach

How the daemon takes hold of the controller and gives it back.
-/

namespace Mochad

namespace Usb

/-! ## The way out -/

/-- What is freed: a transfer that is there.  It may be freed unless libusb still
uses it. -/
theorem freeTransfer_spec {t : TransferName} {transfer : Bool} {s : Usb}
    (h : transfer = true ↔ s.libusb.transfer t ≠ .unallocated) :
    (freeTransfer t transfer s).libusb = s.libusb.setTransfer t .unallocated ∧
      ((freeTransfer t transfer s).Keeps Libusb.Allowed ↔
        s.Keeps Libusb.Allowed ∧ ¬ (s.libusb.transfer t).Busy) := by
  cases transfer with
  | false =>
      have hnone : s.libusb.transfer t = .unallocated := by simpa using h
      refine ⟨?_, ?_⟩
      · rw [Libusb.setTransfer, ← hnone, Function.update_eq_self]
        rfl
      · rw [hnone]
        exact (and_iff_left (by decide)).symm
  | true =>
      have hsome : s.libusb.transfer t ≠ .unallocated := h.mp rfl
      refine ⟨libusb_call _ _, keeps_call.trans (and_congr_right fun _ => ?_)⟩
      change s.libusb.transfer t = .idle ↔ _
      generalize s.libusb.transfer t = x at hsome ⊢
      revert hsome
      cases x <;> decide

/-- The device is closed, and if a driver was detached, it is attached to a handle
that is not there any more. -/
theorem out_spec {s : Usb} (hrun : s.libusb.running = true) (hopen : s.libusb.opened = s.devh)
    (hclaim : s.libusb.claimed = false) (hnone : ∀ t, s.libusb.transfer t = .unallocated) :
    (out s).libusb = Libusb.off ∧
      ((out s).Keeps Libusb.Allowed ↔ s.Keeps Libusb.Allowed ∧ s.reattach = false) := by
  unfold out
  cases hd : s.devh <;> cases hr : s.reattach <;> rw [hd] at hopen <;>
    simp [keeps_call, Libusb.step, Libusb.Allowed, Libusb.off, Libusb.ext_iff, funext_iff, hr, hrun, hopen,
      hclaim, hnone]

/-- Everything is given back; libusb allows it when no driver was detached and both
callbacks have been made. -/
theorem outDeinit_spec {s : Usb} (h : Attached s) :
    (outDeinit s).libusb = Libusb.off ∧ ((outDeinit s).Keeps Libusb.Allowed ↔
      s.reattach = false ∧ ¬ (s.libusb.transfer .intrIn).Busy ∧ ¬ (s.libusb.transfer .intrOut).Busy) := by
  let s₁ := freeTransfer .intrIn s.intrInTransfer s
  let s₂ := freeTransfer .intrOut s₁.intrOutTransfer s₁
  have hsame : s₁.devh = s.devh ∧ s₁.intrOutTransfer = s.intrOutTransfer ∧ s₁.reattach = s.reattach := by
    simp only [s₁, freeTransfer]
    split <;> exact ⟨rfl, rfl, rfl⟩
  have hsame₂ : s₂.devh = s₁.devh ∧ s₂.reattach = s₁.reattach := by
    simp only [s₂, freeTransfer]
    split <;> exact ⟨rfl, rfl⟩
  obtain ⟨hlib₁, hallowed₁⟩ := freeTransfer_spec h.intrIn
  have hother : s₁.libusb.transfer .intrOut = s.libusb.transfer .intrOut := by
    rw [hlib₁, Libusb.setTransfer_other (by decide)]
  obtain ⟨hlib₂, hallowed₂⟩ := @freeTransfer_spec .intrOut s₁.intrOutTransfer s₁ (by
    rw [hsame.2.1, hother]
    exact h.intrOut)
  have hlib : s₂.libusb =
      (s.libusb.setTransfer .intrIn .unallocated).setTransfer .intrOut .unallocated := by rw [hlib₂, hlib₁]
  have hrelease : (s₂.call .releaseInterface).libusb = { s₂.libusb with claimed := false } := libusb_call _ _
  obtain ⟨hoff, hout⟩ := @out_spec (s₂.call .releaseInterface)
    (by
      rw [hrelease, hlib]
      exact h.running)
    (by
      rw [hrelease, hlib]
      exact h.opened.trans (h.devh.symm.trans (hsame₂.1.trans hsame.1).symm))
    (by rw [hrelease])
    (fun t => by
      rw [hrelease, hlib]
      cases t with
      | intrIn => rw [Libusb.setTransfer_other (by decide), Libusb.setTransfer_self]
      | intrOut =>
          exact Libusb.setTransfer_self .intrOut .unallocated (s.libusb.setTransfer .intrIn .unallocated))
  refine ⟨hoff, hout.trans ?_⟩
  have hreleased : s₂.libusb.Allowed .releaseInterface := by
    rw [hlib]
    exact ⟨h.opened, h.claimed⟩
  have hreattach : (s₂.call .releaseInterface).reattach = s.reattach := hsame₂.2.trans hsame.2.2
  rw [keeps_call, hreattach, and_iff_left hreleased, hallowed₂, hallowed₁, hother,
    and_iff_right h.allowed, and_comm]

/-! ## Start-up -/

/-- libusb is initialised and the device may be open, but nothing else has been
acquired. -/
structure Unclaimed (s : Usb) : Prop where
  running : s.libusb.running = true
  opened : s.libusb.opened = s.devh
  claimed : s.libusb.claimed = false
  transfer : ∀ t, s.libusb.transfer t = .unallocated
  intrIn : s.intrInTransfer = false
  intrOut : s.intrOutTransfer = false
  allowed : s.Keeps Libusb.Allowed

/-- Giving back a device that is not claimed: only a driver that was detached makes
it go wrong. -/
theorem Unclaimed.out {s : Usb} (h : Unclaimed s) :
    (out s).libusb = Libusb.off ∧ ((out s).Keeps Libusb.Allowed ↔ s.reattach = false) := by
  obtain ⟨hoff, hout⟩ := out_spec h.running h.opened h.claimed h.transfer
  exact ⟨hoff, hout.trans (and_iff_right h.allowed)⟩

/-- A call libusb keeps no record of. -/
theorem Unclaimed.call {s : Usb} (h : Unclaimed s) {c : UsbCall} (hstep : s.libusb.step c = s.libusb)
    (hallowed : s.libusb.Allowed c) : Unclaimed (s.call c) where
  running := by rw [libusb_call, hstep]; exact h.running
  opened := by rw [libusb_call, hstep]; exact h.opened
  claimed := by rw [libusb_call, hstep]; exact h.claimed
  transfer := by rw [libusb_call, hstep]; exact h.transfer
  intrIn := h.intrIn
  intrOut := h.intrOut
  allowed := keeps_call.mpr ⟨h.allowed, hallowed⟩

/-- Noting a detached driver changes nothing for libusb. -/
theorem Unclaimed.setReattach {s : Usb} (h : Unclaimed s) (b : Bool) : Unclaimed { s with reattach := b } :=
  ⟨h.running, h.opened, h.claimed, h.transfer, h.intrIn, h.intrOut, h.allowed⟩

/-- The interface is claimed, and the transfers are still to come. -/
def Claimed (s : Usb) : Prop := Attached s ∧ s.intrInTransfer = false ∧ s.intrOutTransfer = false

/-- A claim that succeeds, with the answer of `libusb_claim_interface`. -/
theorem Unclaimed.claim {s : Usb} (h : Unclaimed s) (hd : s.devh = true) :
    Claimed (s.call (.claimInterface 0)) := by
  have hlib : (s.call (.claimInterface 0)).libusb = { s.libusb with claimed := true } := libusb_call _ _
  have hopen : s.libusb.opened = true := h.opened.trans hd
  refine ⟨⟨?_, ?_, ?_, hd, ?_, ?_, keeps_call.mpr ⟨h.allowed, hopen⟩⟩, h.intrIn, h.intrOut⟩
  · rw [hlib]
    exact h.running
  · rw [hlib]
    exact hopen
  · rw [hlib]
  · rw [hlib, h.transfer, call_intrInTransfer, h.intrIn]
    decide
  · rw [hlib, h.transfer, call_intrOutTransfer, h.intrOut]
    decide

/-- The claim fails. -/
theorem Unclaimed.unclaimed {s : Usb} (h : Unclaimed s) (hd : s.devh = true) {r : Int} (hr : r ≠ 0) :
    Unclaimed (s.call (.claimInterface r)) :=
  h.call (if_neg hr) (h.opened.trans hd)

/-- `find_cm15a` with the device open either claims the interface or fails and
leaves it unclaimed. -/
theorem claimCm15a_spec (a : SetupAnswers) {s : Usb} (h : Unclaimed s) (hd : s.devh = true)
    (hanswered : (claimCm15a a s).2.Keeps Libusb.Answered) :
    (claimCm15a a s).1 = 0 ∧ Claimed (claimCm15a a s).2 ∨
      (claimCm15a a s).1 < 0 ∧ Unclaimed (claimCm15a a s).2 := by
  have hopen : s.libusb.opened = true := h.opened.trans hd
  by_cases hclaim : a.claim = 0
  · left
    simp only [claimCm15a, hclaim, if_true]
    exact ⟨trivial, h.claim hd⟩
  have h₁ := h.unclaimed hd hclaim
  have h₂ := @Unclaimed.call _ h₁ (.kernelDriverActive a.kernelDriver) rfl (h₁.opened.trans hd)
  by_cases hdriver : a.kernelDriver < 0
  · right
    simp only [claimCm15a, hclaim, hdriver, if_true, if_false]
    exact ⟨by decide, h₂⟩
  have h₃ := @Unclaimed.call _ h₂ (.detachKernelDriver a.detach) rfl (h₂.opened.trans hd)
  by_cases hdetach : a.detach < 0
  · right
    simp only [claimCm15a, hclaim, hdriver, hdetach, if_true, if_false]
    exact ⟨by decide, h₃⟩
  have h₄ := h₃.setReattach true
  by_cases hagain : a.claimAgain < 0
  · right
    simp only [claimCm15a, hclaim, hdriver, hdetach, hagain, if_true, if_false]
    exact ⟨by decide, h₄.unclaimed hd (by omega)⟩
  · left
    simp only [claimCm15a, hclaim, hdriver, hdetach, hagain, if_false] at hanswered ⊢
    have hle : a.claimAgain ≤ 0 := (keeps_call.mp hanswered).2
    obtain hzero : a.claimAgain = 0 := by omega
    rw [hzero]
    exact ⟨trivial, h₄.claim hd⟩

/-- The device is opened, or it is not found. -/
theorem Unclaimed.open {s : Usb} (h : Unclaimed s) (hd : s.devh = false) (product : Nat) (found cm19a : Bool) :
    Unclaimed { s.call (.openDeviceWithVidPid product found) with devh := found, cm19a := cm19a } := by
  have hlib : (s.call (.openDeviceWithVidPid product found)).libusb = { s.libusb with opened := found } := by
    rw [libusb_call]
    cases found with
    | false => exact Libusb.ext rfl (h.opened.trans hd) rfl rfl
    | true => rfl
  refine ⟨?_, ?_, ?_, ?_, h.intrIn, h.intrOut,
    keeps_call.mpr ⟨h.allowed, h.running, h.opened.trans hd⟩⟩
  · exact (congrArg Libusb.running hlib).trans h.running
  · exact congrArg Libusb.opened hlib
  · exact (congrArg Libusb.claimed hlib).trans h.claimed
  · exact fun t => (congrArg (Libusb.transfer · t) hlib).trans (h.transfer t)

/-- `find_cm15a`, for whichever of the two controllers is there. -/
theorem findCm15a_spec (a : SetupAnswers) {s : Usb} (h : Unclaimed s) (hd : s.devh = false)
    (hanswered : (findCm15a a s).2.Keeps Libusb.Answered) :
    (findCm15a a s).1 = 0 ∧ Claimed (findCm15a a s).2 ∨
      (findCm15a a s).1 < 0 ∧ Unclaimed (findCm15a a s).2 := by
  have hfirst := h.open hd 0x0001 a.cm15a false
  unfold findCm15a at hanswered ⊢
  cases h15 : a.cm15a with
  | true =>
      rw [h15] at hfirst hanswered
      exact claimCm15a_spec a hfirst rfl hanswered
  | false =>
      rw [h15] at hfirst hanswered
      cases h19 : a.cm19a with
      | true =>
          rw [h19] at hanswered
          exact claimCm15a_spec a (hfirst.open rfl 0x0002 true true) rfl hanswered
      | false => exact .inr ⟨show -eio < 0 by decide, hfirst.open rfl 0x0002 false false⟩

/-- Only the endpoints are set. -/
def EndpointsOnly (s s' : Usb) : Prop := ∃ i o, s' = { s with inEndpoint := i, outEndpoint := o }

/-- A loop over steps that only note endpoints. -/
theorem endpointsOnly_foldl {α : Type} {f : Usb → α → Usb} (h : ∀ s x, EndpointsOnly s (f s x)) (xs : List α)
    (s : Usb) : EndpointsOnly s (xs.foldl f s) := by
  induction xs generalizing s with
  | nil => exact ⟨_, _, rfl⟩
  | cons x xs ih =>
      obtain ⟨i, o, hx⟩ := h s x
      obtain ⟨i', o', hxs⟩ := ih (f s x)
      exact ⟨i', o', by rw [List.foldl_cons, hxs, hx]⟩

/-- One endpoint is noted, for input or for output. -/
theorem endpointsOnly_takeEndpoint (s : Usb) (bEndpointAddress : UInt8) :
    EndpointsOnly s (takeEndpoint s bEndpointAddress) := by
  unfold takeEndpoint
  split
  · exact ⟨_, _, rfl⟩
  · exact ⟨_, _, rfl⟩

/-- Endpoints do not matter to libusb's records. -/
theorem Attached.setEndpoints {s : Usb} (h : Attached s) (i o : UInt8) :
    Attached { s with inEndpoint := i, outEndpoint := o } :=
  ⟨h.running, h.opened, h.claimed, h.devh, h.intrIn, h.intrOut, h.allowed⟩

/-- Nothing is acquired for good while the configuration is read. -/
theorem getEndpointAddress_spec (a : SetupAnswers) {s : Usb} (h : Claimed s) :
    Claimed (getEndpointAddress a s).2 := by
  obtain ⟨h, hin, hout⟩ := h
  have h₁ := @Attached.unrecorded _ h (.getDevice a.device) rfl h.opened
  have h₂ := @Attached.unrecorded _ h₁ (.getDeviceDescriptor a.deviceDescriptor) rfl h₁.opened
  have h₃ := @Attached.unrecorded _ h₂ (.getActiveConfigDescriptor a.configDescriptor) rfl h₂.opened
  unfold getEndpointAddress
  dsimp only
  split
  · exact ⟨h₁, hin, hout⟩
  · split
    · exact ⟨h₂, hin, hout⟩
    · split
      · exact ⟨h₃, hin, hout⟩
      · obtain ⟨i, o, hends⟩ := endpointsOnly_foldl (fun s interface => endpointsOnly_foldl
          (fun s altsetting => endpointsOnly_foldl endpointsOnly_takeEndpoint altsetting s) interface s) a.config
          (((s.call (.getDevice a.device)).call (.getDeviceDescriptor a.deviceDescriptor)).call
            (.getActiveConfigDescriptor a.configDescriptor))
        rw [hends]
        have h₄ := h₃.setEndpoints i o
        exact ⟨h₄.unrecorded rfl h₄.opened, hin, hout⟩

/-- A transfer is allocated, or there is no memory for it. -/
theorem libusb_allocTransfer {s : Usb} {t : TransferName} (hnone : s.libusb.transfer t = .unallocated)
    (allocated : Bool) :
    (s.call (.allocTransfer t allocated)).libusb =
      s.libusb.setTransfer t (if allocated then .idle else .unallocated) := by
  rw [libusb_call]
  cases allocated with
  | true => rfl
  | false => exact Libusb.ext rfl rfl rfl (hnone ▸ (Function.update_eq_self ..).symm)

/-- libusb uses none of the transfers. -/
def Unused (s : Usb) : Prop := ∀ t, ¬ (s.libusb.transfer t).Busy

/-- Allocating a transfer puts none in use. -/
theorem Unused.alloc {s : Usb} (h : Unused s) {t : TransferName} (hnone : s.libusb.transfer t = .unallocated)
    (allocated : Bool) : Unused (s.call (.allocTransfer t allocated)) := by
  intro t'
  rw [libusb_allocTransfer hnone]
  by_cases heq : t' = t
  · subst heq
    rw [Libusb.setTransfer_self]
    cases allocated <;> decide
  · rw [Libusb.setTransfer_other heq]
    exact h t'

/-- The input transfer is allocated, and its pointer says so. -/
theorem Attached.allocIn {s : Usb} (h : Attached s) (hin : s.libusb.transfer .intrIn = .unallocated)
    (allocated : Bool) :
    Attached { s.call (.allocTransfer .intrIn allocated) with intrInTransfer := allocated } := by
  have hlib := libusb_allocTransfer hin allocated
  refine ⟨?_, ?_, ?_, h.devh, ?_, ?_, keeps_call.mpr ⟨h.allowed, h.running, hin⟩⟩
  · exact (congrArg Libusb.running hlib).trans h.running
  · exact (congrArg Libusb.opened hlib).trans h.opened
  · exact (congrArg Libusb.claimed hlib).trans h.claimed
  · change allocated = true ↔ (s.call _).libusb.transfer .intrIn ≠ _
    rw [hlib, Libusb.setTransfer_self]
    cases allocated <;> decide
  · change s.intrOutTransfer = true ↔ (s.call _).libusb.transfer .intrOut ≠ _
    rw [hlib, Libusb.setTransfer_other (by decide)]
    exact h.intrOut

/-- The output transfer is allocated, and its pointer says so. -/
theorem Attached.allocOut {s : Usb} (h : Attached s) (hout : s.libusb.transfer .intrOut = .unallocated)
    (allocated : Bool) :
    Attached { s.call (.allocTransfer .intrOut allocated) with intrOutTransfer := allocated } := by
  have hlib := libusb_allocTransfer hout allocated
  refine ⟨?_, ?_, ?_, h.devh, ?_, ?_, keeps_call.mpr ⟨h.allowed, h.running, hout⟩⟩
  · exact (congrArg Libusb.running hlib).trans h.running
  · exact (congrArg Libusb.opened hlib).trans h.opened
  · exact (congrArg Libusb.claimed hlib).trans h.claimed
  · change s.intrInTransfer = true ↔ (s.call _).libusb.transfer .intrIn ≠ _
    rw [hlib, Libusb.setTransfer_other (by decide)]
    exact h.intrIn
  · change allocated = true ↔ (s.call _).libusb.transfer .intrOut ≠ _
    rw [hlib, Libusb.setTransfer_self]
    cases allocated <;> decide

/-- No transfer is allocated when the interface has just been claimed. -/
theorem Claimed.unallocated {s : Usb} (h : Claimed s) (t : TransferName) :
    s.libusb.transfer t = .unallocated := by
  obtain ⟨h, hin, hout⟩ := h
  cases t with
  | intrIn => simpa [hin] using h.intrIn
  | intrOut => simpa [hout] using h.intrOut

/-- So none is in use. -/
theorem Claimed.unused {s : Usb} (h : Claimed s) : Unused s := by
  intro t
  rw [h.unallocated]
  decide

/-- Without memory for one of the transfers the other one is there, or none is. -/
theorem allocTransfers_spec (a : SetupAnswers) {s : Usb} (h : Claimed s) :
    Attached (allocTransfers a s).2 ∧ Unused (allocTransfers a s).2 ∧
      (0 ≤ (allocTransfers a s).1 → (allocTransfers a s).2.intrInTransfer = true ∧
        (allocTransfers a s).2.intrOutTransfer = true) := by
  have h₁ := h.1.allocIn (h.unallocated .intrIn) a.allocIn
  have hused₁ := h.unused.alloc (h.unallocated .intrIn) a.allocIn
  have hno : ¬ 0 ≤ -enomem := by decide
  unfold allocTransfers
  cases hallocIn : a.allocIn with
  | false =>
      rw [hallocIn] at h₁ hused₁
      exact ⟨h₁, hused₁, fun hr => absurd hr hno⟩
  | true =>
      rw [hallocIn] at h₁ hused₁
      let s₂ := (s.call (.allocTransfer .intrIn true)).call (.fillInterruptTransfer .intrIn s.inEndpoint)
      have hlib : s₂.libusb = (s.call (.allocTransfer .intrIn true)).libusb := libusb_call _ _
      have hnone : s₂.libusb.transfer .intrOut = .unallocated := by
        rw [hlib, libusb_allocTransfer (h.unallocated .intrIn), Libusb.setTransfer_other (by decide)]
        exact h.unallocated .intrOut
      have h₃ := (@Attached.unrecorded _ h₁ (.fillInterruptTransfer .intrIn s.inEndpoint) rfl
        (h₁.intrIn.mp rfl)).allocOut hnone a.allocOut
      have hused₃ := @Unused.alloc s₂ (by rw [Unused, hlib]; exact hused₁) .intrOut hnone a.allocOut
      cases hallocOut : a.allocOut with
      | false =>
          rw [hallocOut] at h₃ hused₃
          exact ⟨h₃, hused₃, fun hr => absurd hr hno⟩
      | true =>
          rw [hallocOut] at h₃ hused₃
          exact ⟨h₃, hused₃, fun _ => ⟨rfl, rfl⟩⟩

/-- `start_transfers` keeps both pointers, and a submission that fails puts nothing
in use. -/
theorem startTransfers_spec (a : SetupAnswers) {s : Usb} (h : Attached s) (hused : Unused s)
    (hin : s.intrInTransfer = true) :
    Attached (startTransfers a s).2 ∧ ((startTransfers a s).2.intrInTransfer = s.intrInTransfer ∧
      (startTransfers a s).2.intrOutTransfer = s.intrOutTransfer) ∧
      ((startTransfers a s).1 < 0 → Unused (startTransfers a s).2) := by
  have hsubmit := @Attached.transferCall _ h (.submitTransfer .intrIn a.submit) .intrIn .inFlight
    (ite_eq_or_eq ..).symm (h.intrIn.mp hin) (by decide) ⟨h.opened, h.intrIn.mp hin⟩
  unfold startTransfers
  dsimp only
  split
  · rename_i hfail
    refine ⟨hsubmit, ⟨rfl, rfl⟩, fun _ t => ?_⟩
    have hlib : (s.call (.submitTransfer .intrIn a.submit)).libusb = s.libusb :=
      (libusb_call _ _).trans (if_neg (by omega))
    rw [hlib]
    exact hused t
  · exact ⟨hsubmit, ⟨rfl, rfl⟩, fun hr => absurd hr (Int.lt_irrefl 0)⟩

/-! ## Calls are only added -/

/-- What has been kept so far was kept before. -/
theorem Keeps.of_prefix {P : Libusb → UsbCall → Prop} {s s' : Usb} (h : s'.Keeps P) (hp : s.calls <+: s'.calls) :
    s.Keeps P := by
  obtain ⟨calls, hcalls⟩ := hp
  rw [Keeps, ← hcalls] at h
  exact (Run.along_append.mp h).1

/-- A call is recorded behind the others. -/
theorem calls_call (c : UsbCall) (s : Usb) : s.calls <+: (s.call c).calls := List.prefix_append _ _

/-- Freeing a transfer is recorded behind the others, if there is one. -/
theorem calls_freeTransfer (t : TransferName) (transfer : Bool) (s : Usb) :
    s.calls <+: (freeTransfer t transfer s).calls := by
  unfold freeTransfer
  split
  · exact calls_call _ s
  · exact List.prefix_rfl

/-- `out` only adds calls. -/
theorem calls_out (s : Usb) : s.calls <+: (out s).calls := by
  have hclose : s.calls <+: (if s.devh then s.call .close else s).calls := by
    split
    · exact calls_call _ s
    · exact List.prefix_rfl
  have hattach : ∀ v : Usb, v.calls <+: (if v.reattach then v.call .attachKernelDriver else v).calls := by
    intro v
    split
    · exact calls_call _ v
    · exact List.prefix_rfl
  exact hclose.trans ((hattach _).trans (calls_call .exit _))

/-- `out_deinit` only adds calls. -/
theorem calls_outDeinit (s : Usb) : s.calls <+: (outDeinit s).calls :=
  (calls_freeTransfer .intrIn s.intrInTransfer s).trans <| (calls_freeTransfer .intrOut _ _).trans <|
    (calls_call .releaseInterface _).trans (calls_out _)

/-- `get_endpoint_address` only adds calls. -/
theorem calls_getEndpointAddress (a : SetupAnswers) (s : Usb) :
    s.calls <+: (getEndpointAddress a s).2.calls := by
  have h₁ := calls_call (.getDevice a.device) s
  have h₂ := h₁.trans (calls_call (.getDeviceDescriptor a.deviceDescriptor) _)
  have h₃ := h₂.trans (calls_call (.getActiveConfigDescriptor a.configDescriptor) _)
  unfold getEndpointAddress
  dsimp only
  split
  · exact h₁
  · split
    · exact h₂
    · split
      · exact h₃
      · obtain ⟨i, o, hends⟩ := endpointsOnly_foldl (fun s interface => endpointsOnly_foldl
          (fun s altsetting => endpointsOnly_foldl endpointsOnly_takeEndpoint altsetting s) interface s) a.config
          (((s.call (.getDevice a.device)).call (.getDeviceDescriptor a.deviceDescriptor)).call
            (.getActiveConfigDescriptor a.configDescriptor))
        rw [hends]
        exact h₃.trans (calls_call .freeConfigDescriptor _)

/-- `alloc_transfers` only adds calls. -/
theorem calls_allocTransfers (a : SetupAnswers) (s : Usb) : s.calls <+: (allocTransfers a s).2.calls := by
  have h₁ := calls_call (.allocTransfer .intrIn a.allocIn) s
  unfold allocTransfers
  dsimp only
  split
  · exact h₁
  · split <;> exact h₁.trans ((calls_call _ _).trans (calls_call _ _))

/-- `start_transfers` only adds calls. -/
theorem calls_startTransfers (a : SetupAnswers) (s : Usb) : s.calls <+: (startTransfers a s).2.calls := by
  unfold startTransfers
  dsimp only
  split <;> exact calls_call _ s

/-! ## Lives -/

/-- libusb keeps nothing for the program any more, and what was done was allowed
unless a driver was detached; the status tells of the failure. -/
structure Failed (status : Int) (s : Usb) : Prop where
  off : s.libusb = Libusb.off
  allowed : s.Keeps Libusb.Allowed ↔ s.reattach = false
  status : status ≠ 0

/-- A failure is not reported as success. -/
theorem exitStatus_ne {r : Int} (hr : r < 0) : exitStatus r ≠ 0 := by
  unfold exitStatus
  split <;> omega

/-- Giving back does not forget that a driver was detached. -/
theorem out_reattach (s : Usb) : (out s).reattach = s.reattach := by
  unfold out
  cases hd : s.devh <;> cases hr : s.reattach <;> simp [hr]

/-- Nor does freeing the transfers first. -/
theorem outDeinit_reattach (s : Usb) : (outDeinit s).reattach = s.reattach := by
  have hfree : ∀ t transfer (v : Usb), (freeTransfer t transfer v).reattach = v.reattach := by
    intro t transfer v
    unfold freeTransfer
    split <;> rfl
  unfold outDeinit
  dsimp only
  rw [out_reattach, call_reattach, hfree, hfree]

/-- A failure behind `find_cm15a`. -/
theorem failed_outDeinit {s : Usb} (h : Attached s) (hused : Unused s) {r : Int} (hr : r < 0) :
    Failed (exitStatus r) (outDeinit s) := by
  obtain ⟨hoff, hallowed⟩ := outDeinit_spec h
  refine ⟨hoff, ?_, exitStatus_ne hr⟩
  rw [hallowed, outDeinit_reattach]
  exact and_iff_left ⟨hused .intrIn, hused .intrOut⟩

/-- What becomes of the start-up, if libusb answers as it says. -/
def Started : Except (Int × Usb) Usb → Prop
  | .error (status, s) => s.Keeps Libusb.Answered → Failed status s
  | .ok s => s.Keeps Libusb.Answered → Looping s ∧ s.intrInTransfer = true

/-- Up to the main loop the daemon fails in good order, or it is attached. -/
theorem attach_started (l : Life) : Started (attach l) := by
  let s₀ := initial.call (.init l.setup.init)
  let find := findCm15a l.setup s₀
  let ends := getEndpointAddress l.setup find.2
  let alloc := allocTransfers l.setup ends.2
  let start := startTransfers l.setup alloc.2
  have hlib : s₀.libusb = if 0 ≤ l.setup.init then { Libusb.off with running := true } else Libusb.off :=
    libusb_call _ _
  have hallowed : s₀.Keeps Libusb.Allowed := keeps_call.mpr ⟨trivial, rfl⟩
  change Started (if l.setup.init < 0 then .error (1, s₀)
    else if find.1 < 0 then .error (exitStatus find.1, out find.2)
    else if ends.1 < 0 then .error (exitStatus ends.1, outDeinit ends.2)
    else if alloc.1 < 0 then .error (exitStatus alloc.1, outDeinit alloc.2)
    else if start.1 < 0 then .error (exitStatus start.1, outDeinit start.2)
    else .ok (if start.2.cm19a then (writeUsb l.first start.2).2 else start.2))
  refine iteInduction (fun hinit _ => ?_) fun hinit => ?_
  · exact ⟨hlib.trans (if_neg (by omega)), ⟨fun _ => rfl, fun _ => hallowed⟩, by decide⟩
  have hfirst : Unclaimed s₀ := by
    rw [if_pos (by omega)] at hlib
    refine ⟨?_, ?_, ?_, fun t => ?_, rfl, rfl, hallowed⟩ <;> rw [hlib] <;> rfl
  have hfind := @findCm15a_spec l.setup s₀ hfirst rfl
  refine iteInduction (fun hr hanswered => ?_) fun hr => ?_
  · obtain ⟨hzero, -⟩ | ⟨-, hlost⟩ := hfind (hanswered.of_prefix (calls_out find.2))
    · exact absurd (hzero ▸ hr) (Int.lt_irrefl 0)
    · obtain ⟨hoff, hout⟩ := hlost.out
      exact ⟨hoff, by rw [hout, out_reattach], exitStatus_ne hr⟩
  have hclaimed : find.2.Keeps Libusb.Answered → Claimed find.2 := fun hanswered =>
    (hfind hanswered).elim And.right fun h => absurd h.1 hr
  have hcalls : find.2.calls <+: ends.2.calls := calls_getEndpointAddress l.setup find.2
  refine iteInduction (fun hr hanswered => ?_) fun hr => ?_
  · have hends := getEndpointAddress_spec l.setup
      (hclaimed (hanswered.of_prefix (hcalls.trans (calls_outDeinit ends.2))))
    exact failed_outDeinit hends.1 hends.unused hr
  have hends : ends.2.Keeps Libusb.Answered → Claimed ends.2 := fun hanswered =>
    getEndpointAddress_spec l.setup (hclaimed (hanswered.of_prefix hcalls))
  have hcalls : ends.2.calls <+: alloc.2.calls := calls_allocTransfers l.setup ends.2
  refine iteInduction (fun hr hanswered => ?_) fun hmemory => ?_
  · obtain ⟨halloc, hunused, -⟩ := allocTransfers_spec l.setup
      (hends (hanswered.of_prefix (hcalls.trans (calls_outDeinit alloc.2))))
    exact failed_outDeinit halloc hunused hr
  have halloc := fun hanswered : alloc.2.Keeps Libusb.Answered =>
    allocTransfers_spec l.setup (hends (hanswered.of_prefix hcalls))
  have hcalls : alloc.2.calls <+: start.2.calls := calls_startTransfers l.setup alloc.2
  refine iteInduction (fun hr hanswered => ?_) fun hr hanswered => ?_
  · obtain ⟨h, hunused, hpointers⟩ :=
      halloc (hanswered.of_prefix (hcalls.trans (calls_outDeinit start.2)))
    obtain ⟨hstart, -, hunused⟩ := startTransfers_spec l.setup h hunused (hpointers (Int.not_lt.mp hmemory)).1
    exact failed_outDeinit hstart (hunused hr) hr
  have hattends : Attends start.2 (if start.2.cm19a then (writeUsb l.first start.2).2 else start.2) := by
    split
    · exact attends_writeUsb l.first start.2
    · exact Attends.refl _
  obtain ⟨hanswered, hloop⟩ := hattends hanswered
  obtain ⟨h, hunused, hpointers⟩ := halloc (hanswered.of_prefix hcalls)
  obtain ⟨hin, hout⟩ := hpointers (Int.not_lt.mp hmemory)
  obtain ⟨hstart, hsame, -⟩ := startTransfers_spec l.setup h hunused hin
  refine ⟨hloop ⟨hstart, hsame.2.trans hout⟩, ?_⟩
  have hreceiving : start.2.intrInTransfer = true := hsame.1.trans hin
  split
  · obtain ⟨calls, hwrite⟩ := callsOnly_writeUsb l.first start.2
    rw [hwrite]
    exact hreceiving
  · exact hreceiving

end Usb

end Mochad
