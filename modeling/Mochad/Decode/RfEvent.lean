import Mochad.Decode.RfState

/-!
# Mochad.Decode.RfEvent

What an RF packet says: the event of a packet of each family.  The bytes the
duplicate filter compares determine the event (`event_unique`).
-/

namespace Mochad

open CString

/-- What an RF packet says. -/
inductive RfEvent where
  /-- On (0) or off (1). -/
  | houseUnit (housechar : UInt8) (unitint : Int) (funcint : Nat)
  /-- Dim (2) or bright (3), which carry no unit. -/
  | house (housechar : UInt8) (funcint : Nat)
  /-- House and key name. -/
  | camera (commandp : Text)
  | security (rf8bitaddr : Bool) (addr : Nat) (funct : UInt8)
deriving DecidableEq, Repr

/-- The event of a packet of a family. -/
def rfEvent (k : RfPacket) (p : Ptr) : Option RfEvent :=
  match k with
  | .rejected => none
  | .camera commandp => some (.camera commandp)
  | .security8 => some (.security true (p 2).toNat (p 4))
  | .securityLong a0 a1 a2 funcint => some (.security false (secaddr32 a0 a1 a2) funcint)
  | .standard =>
      let (housechar, unitint, funcint) := hufcDecode (p 2) (p 4)
      if funcint > 1 then some (.house housechar funcint)
      else some (.houseUnit housechar unitint funcint)

/-- Every class but the rejected one has an event. -/
theorem eq_rejected_of_rfEvent {k : RfPacket} {p : Ptr} (h : rfEvent k p = none) : k = .rejected := by
  cases k with
  | rejected => rfl
  | standard =>
      simp only [rfEvent] at h
      split at h <;> cases h
  | camera commandp => cases h
  | security8 => cases h
  | securityLong a0 a1 a2 funcint => cases h

/-- A packet with an event is not rejected. -/
theorem ne_rejected_of_rfEvent {k : RfPacket} {p : Ptr} {e : RfEvent} (h : rfEvent k p = some e) :
    k ≠ .rejected := by
  rintro rfl
  cases h

/-- Without an extra byte nothing is skipped. -/
theorem skipExtra_of_ne {p : Ptr} (h : p 1 ≠ 0x5d) (n : Nat) : skipExtra p n = (p, n) := by
  cases n with
  | zero => rfl
  | succ n => simp [skipExtra, h]

/-! ## Bytes -/

/-- Equal byte lists have equal bytes. -/
theorem Ptr.bytes_inj {p q : Ptr} {n : Nat} (h : p.bytes n = q.bytes n) {i : Nat} (hi : i < n) :
    p i = q i := by
  have := congrArg (·[i]?) h
  simpa [Ptr.bytes, hi] using this

/-- The event of a packet, the check on its unit and function byte left out: that
check looks behind a packet of five bytes. -/
def uncheckedEvent (p : Ptr) (n : Nat) : Option RfEvent :=
  if p 1 = 0x14 then (camRemoteText (p.add 1) (n - 1)).map .camera
  else if p 1 = 0x20 then
    if p 2 ^^^ p 3 = 0x0f then rfEvent .security8 p else rfEvent .standard p
  else
    match secafDecode p n with
    | .ok a0 a1 a2 funcint => some (.security false (secaddr32 a0 a1 a2) funcint)
    | _ => none

/-- The event of an accepted packet can be read without its check bytes. -/
theorem uncheckedEvent_of_rfEvent {p : Ptr} {n : Nat} {e : RfEvent}
    (h : rfEvent (classifyRf p n) p = some e) : uncheckedEvent p n = some e := by
  unfold classifyRf at h
  unfold uncheckedEvent
  split at h
  · cases h
  by_cases k14 : p 1 = 0x14
  · simp only [k14, if_true] at h ⊢
    cases hc : camRemoteText (p.add 1) (n - 1) with
    | none =>
        rw [hc] at h
        cases h
    | some commandp =>
        rw [hc] at h
        exact h
  simp only [k14, if_false] at h ⊢
  by_cases k20 : p 1 = 0x20
  · simp only [k20, if_true] at h ⊢
    by_cases c0 : p 2 ^^^ p 3 = 0x0f
    · simp only [c0, if_true] at h ⊢
      split at h
      · cases h
      · exact h
    simp only [c0, if_false] at h ⊢
    split at h
    · split at h
      · cases h
      · exact h
    · cases h
  simp only [k20, if_false] at h ⊢
  split at h
  · cases hc : secafDecode p n <;> rw [hc] at h
    · exact h
    · cases h
    · cases h
  · cases h

/-- It depends on the bytes of the packet alone. -/
theorem uncheckedEvent_congr {p q : Ptr} {n : Nat} (hn : 5 ≤ n) (hbytes : p.bytes n = q.bytes n) :
    uncheckedEvent p n = uncheckedEvent q n := by
  have h1 := Ptr.bytes_inj hbytes (show 1 < n by omega)
  have h2 := Ptr.bytes_inj hbytes (show 2 < n by omega)
  have h3 := Ptr.bytes_inj hbytes (show 3 < n by omega)
  have h4 := Ptr.bytes_inj hbytes (show 4 < n by omega)
  have hcam : camRemoteText (p.add 1) (n - 1) = camRemoteText (q.add 1) (n - 1) := by
    simp only [camRemoteText, Ptr.add, Nat.reduceAdd, h1, h2, h3, h4]
    rfl
  have hsec : secafDecode p n = secafDecode q n := by
    by_cases h8 : n < 8
    · simp [secafDecode, h8]
    · have h5 := Ptr.bytes_inj hbytes (show 5 < n by omega)
      have h6 := Ptr.bytes_inj hbytes (show 6 < n by omega)
      have h7 := Ptr.bytes_inj hbytes (show 7 < n by omega)
      simp only [secafDecode, h2, h3, h4, h5, h6, h7]
  have hstd : rfEvent .standard p = rfEvent .standard q := by simp only [rfEvent, h2, h4]
  have hsec8 : rfEvent .security8 p = rfEvent .security8 q := by simp only [rfEvent, h2, h4]
  simp only [uncheckedEvent, h1, h2, h3, hcam, hsec, hstd, hsec8]

/-- Packets with the same bytes that both have an event have the same one, also
where the decoder looks behind the packet. -/
theorem event_unique {p q : Ptr} {n : Nat} {e e' : RfEvent} (hbytes : p.bytes n = q.bytes n)
    (hp : rfEvent (classifyRf p n) p = some e) (hq : rfEvent (classifyRf q n) q = some e') :
    e = e' := by
  have hn := (classifyRf_length (ne_rejected_of_rfEvent hp)).1
  refine Option.some.inj ?_
  rw [← uncheckedEvent_of_rfEvent hp, uncheckedEvent_congr hn hbytes, uncheckedEvent_of_rfEvent hq]

end Mochad
