import Mochad.SensorTable

/-!
# Mochad.SensorNames

The messages of the `ST` display.  `hua_show` looks the status of every sensor up
in the table of names of its address kind and gives the result to `sendMessage`
as it is, also when there is none.  `show_names` says which received packets make
that happen: those with a function that is not listed for the kind their address
is tracked with.
-/

namespace Mochad

open CString Keyed

/-! ## Null messages -/

/-- A step whose output has `n` null messages in it. -/
def Shows (n : Nat) (w w' : World) : Prop :=
  ∃ io, w'.io = w.io ++ io ∧ io.count (.sendMessage none) = n

namespace Shows

variable {m n : Nat} {a b c : World}

theorem of_io (h : b.io = a.io) : Shows 0 a b := ⟨[], by simpa using h, rfl⟩

theorem trans (h₁ : Shows m a b) (h₂ : Shows n b c) : Shows (m + n) a c := by
  obtain ⟨io₁, hio₁, rfl⟩ := h₁
  obtain ⟨io₂, hio₂, rfl⟩ := h₂
  exact ⟨io₁ ++ io₂, by rw [hio₂, hio₁, List.append_assoc], List.count_append⟩

/-- A silent step in front, or behind. -/
theorem after (h : Shows n b c) (h₀ : Shows 0 a b) : Shows n a c := by
  have := h₀.trans h
  rwa [Nat.zero_add] at this

/-- A step without null messages comes after. -/
theorem before (h : Shows n a b) (h₀ : Shows 0 b c) : Shows n a c := h.trans h₀

/-- What is printed is no null message. -/
theorem sockprintf (fd : Int) (text : Text) (w : World) : Shows 0 w (w.sockprintf fd text) := by
  refine ⟨_, rfl, List.count_eq_zero.mpr fun hmem => ?_⟩
  unfold World.sockprintfIo World.sendAll at hmem
  split at hmem
  · cases List.mem_singleton.mp hmem
  · simp at hmem

/-- A loop sends the null messages of its rounds. -/
theorem foldl {α : Type} {f : World → α → World} {count : α → Nat} (h : ∀ w x, Shows (count x) w (f w x))
    (xs : List α) (w : World) : Shows (xs.map count).sum w (xs.foldl f w) := by
  induction xs generalizing w with
  | nil => exact of_io rfl
  | cons x xs ih => exact (h w x).trans (ih _)

/-- The null messages of the output. -/
theorem mem_drop_iff {w w' : World} (h : Shows n w w') :
    Io.sendMessage none ∉ w'.io.drop w.io.length ↔ n = 0 := by
  obtain ⟨io, hio, rfl⟩ := h
  rw [hio, List.drop_left, List.count_eq_zero]

end Shows

/-- The sensor's message is null. -/
def unnamed (sen : X10secsensor) : Nat := if sensorMessage sen = none then 1 else 0

/-- A sensor without a name sends one. -/
theorem shows_sensor (fd : Int) (w : World) (sen : X10secsensor) :
    Shows (unnamed sen) w (showSensor fd w sen) := by
  have htime : Shows 0 w w.time.2 := .of_io rfl
  have hmessage : Shows (unnamed sen) w.time.2 (w.time.2.sendMessage (sensorMessage sen)) := by
    refine ⟨[.sendMessage (sensorMessage sen)], rfl, ?_⟩
    rw [List.count_singleton, unnamed]
    simp
  exact (hmessage.after htime).before (.sockprintf fd _ _)

/-- A line of the report sends none. -/
theorem shows_line (fd : Int) (w : World) (line : Text) : Shows 0 w (showLine fd w line) := by
  have hmessage : ∀ v : World, Shows 0 v (v.sendMessage (some line)) := fun v =>
    ⟨[.sendMessage (some line)], rfl, rfl⟩
  exact (Shows.sockprintf fd line w).trans (hmessage _)

/-- The display shows one null message for each sensor without a name. -/
theorem shows_huaShow (fd : Int) (w : World) :
    Shows (w.state.x10sensors.map unnamed).sum w (huaShow fd w) := by
  have hlines : ∀ (lines : List Text) v, Shows 0 v (lines.foldl (showLine fd) v) := by
    intro lines v
    have h := Shows.foldl (shows_line fd) lines v
    rwa [show (lines.map fun _ => 0).sum = 0 by simp] at h
  have hprint : ∀ text v, Shows 0 v (World.sockprintf fd text v) := Shows.sockprintf fd
  have hstate : ∀ (lines : List Text) (v : World), (lines.foldl (showLine fd) v).state = v.state :=
    foldl_state fun _ _ => rfl
  have hsum : ((sortSensors w.state).x10sensors.map unnamed).sum = (w.state.x10sensors.map unnamed).sum :=
    ((sortSensors_perm w.state).map unnamed).sum_eq
  unfold huaShow
  extract_lets w₁ w₂ w₃ w₄ w₅ w₆ w₇
  have h₅ : w₅.state = w.state := (hstate _ w₃).trans (hstate _ w₁)
  have h₆ : w₆.state = sortSensors w.state := congrArg sortSensors h₅
  have hbefore : Shows 0 w w₆ := by
    have hsort : Shows 0 w₅ w₆ := .of_io rfl
    exact hsort.after ((hprint _ w₄).after ((hlines _ w₃).after ((hprint _ w₂).after
      ((hlines _ w₁).after (hprint _ w)))))
  have hsensors : Shows (w₆.state.x10sensors.map unnamed).sum w₆ w₇ := .foldl (shows_sensor fd) _ w₆
  rw [h₆, hsum] at hsensors
  exact (hsensors.after hbefore).before (hprint _ w₇)

/-! ## Names -/

/-- `sendMessage` only gets a text from the display. -/
def ShowsNames (fd : Int) (w : World) : Prop :=
  Io.sendMessage none ∉ (huaShow fd w).io.drop w.io.length

/-- Every tracked sensor has a message. -/
def AllNamed (sensors : List X10secsensor) : Prop := ∀ sen ∈ sensors, sensorMessage sen ≠ none

/-- The display only sends texts exactly if all sensors have names. -/
theorem showsNames_iff (fd : Int) (w : World) : ShowsNames fd w ↔ AllNamed w.state.x10sensors := by
  rw [ShowsNames, (shows_huaShow fd w).mem_drop_iff, List.sum_eq_zero_iff_forall_eq_nat, List.forall_mem_map,
    AllNamed]
  simp [unnamed]

/-- The function is in the table of names of the address kind. -/
def HasName (rf8bitaddr : Bool) (funct : UInt8) : Prop :=
  (if rf8bitaddr then findSecRemoteKeyName funct else findSecEventName funct) ≠ none

/-- A sensor has a message exactly if its function has a name. -/
theorem sensorMessage_ne_none (sen : X10secsensor) :
    sensorMessage sen ≠ none ↔ HasName sen.report.1 sen.sensorstatus := by
  rw [sensorMessage, HasName, X10secsensor.report]
  by_cases h : sen.secaddr8 = 0 <;> simp [h]

/-- An accepted security packet has a function with a name: of the kind its
address is tracked with, or of its own kind if it is tracked from now on. -/
def KeepsNames (w : World) (a : Arrival) : Prop :=
  ∀ rf8bitaddr addr funct, a.event = some (.security rf8bitaddr addr funct) → a.suppressed w = false →
    match lookup X10secsensor.secaddr addr w.state.x10sensors with
    | some sen => HasName sen.report.1 funct
    | none => w.state.x10sensors.length < x10sensorsSize - 1 → HasName rf8bitaddr funct

/-- One sensor an address, each with a name. -/
structure NamedTable (s : X10state) : Prop where
  nodup : (s.x10sensors.map X10secsensor.secaddr).Nodup
  named : AllNamed s.x10sensors

section
variable {s : X10state} (hnodup : (s.x10sensors.map X10secsensor.secaddr).Nodup) (now addr : Nat)
  (rf8bitaddr : Bool) (funct : UInt8)
include hnodup

/-- An event keeps the addresses distinct. -/
theorem nodup_huaSecEvent : ((huaSecEvent now addr funct (if rf8bitaddr then 1 else 0) s).x10sensors.map
    X10secsensor.secaddr).Nodup := by
  rw [huaSecEvent_x10sensors]
  exact nodup_record X10secsensor.secaddr (fun _ => rfl) rfl hnodup

/-- A security event keeps every sensor named exactly when its own entry is. -/
theorem allNamed_huaSecEvent (hnamed : AllNamed s.x10sensors) :
    AllNamed (huaSecEvent now addr funct (if rf8bitaddr then 1 else 0) s).x10sensors ↔
      match lookup X10secsensor.secaddr addr s.x10sensors with
      | some sen => HasName sen.report.1 funct
      | none => s.x10sensors.length < x10sensorsSize - 1 → HasName rf8bitaddr funct := by
  have hkey : ∀ sen : X10secsensor, (sen.touch funct now).secaddr = sen.secaddr := fun _ => rfl
  rw [huaSecEvent_x10sensors, AllNamed, forall_mem_record hkey hnodup hnamed]
  cases lookup X10secsensor.secaddr addr s.x10sensors with
  | some sen => exact sensorMessage_ne_none _
  | none =>
      refine imp_congr_right fun _ => (sensorMessage_ne_none _).trans ?_
      cases rf8bitaddr <;> rfl

end

/-- A packet records a security event, or it leaves the table as it is. -/
theorem receiveRf_sensors (w : World) (a : Arrival) :
    ((receiveRf w a).1.state.x10sensors = w.state.x10sensors ∧ KeepsNames w a) ∨
    ∃ now addr kind funct,
      (receiveRf w a).1.state = huaSecEvent now addr funct (if kind then 1 else 0) w.state ∧
      (KeepsNames w a ↔ match lookup X10secsensor.secaddr addr w.state.x10sensors with
        | some sen => HasName sen.report.1 funct
        | none => w.state.x10sensors.length < x10sensorsSize - 1 → HasName kind funct) := by
  obtain ⟨he, -, hsame⟩ | ⟨e, he, ⟨hsup, -, hstate⟩ | ⟨hsup, -, htracks⟩, -⟩ := receiveRf_cases w a
  · refine .inl ⟨by rw [hsame.state], fun kind addr funct hev _ => ?_⟩
    rw [he] at hev
    cases hev
  · refine .inl ⟨by rw [hstate], fun kind addr funct _ hnew => ?_⟩
    rw [hsup] at hnew
    cases hnew
  have hother : (∀ kind addr funct, e ≠ .security kind addr funct) → KeepsNames w a :=
    fun hne kind addr funct hev _ => absurd (Option.some.inj (he.symm.trans hev)) (hne kind addr funct)
  cases e with
  | security kind addr funct =>
      obtain ⟨now, hstate⟩ := htracks
      refine .inr ⟨now, addr, kind, funct, hstate, fun hkeeps => hkeeps kind addr funct he hsup, ?_⟩
      intro h kind' addr' funct' hev _
      obtain ⟨rfl, rfl, rfl⟩ := RfEvent.security.inj (Option.some.inj (he.symm.trans hev))
      exact h
  | houseUnit housechar unitint funcint =>
      refine .inl ⟨?_, hother (by rintro _ _ _ ⟨⟩)⟩
      obtain hs | hs := htracks <;> rw [hs] <;> simp only [applyOps_x10sensors]
  | house housechar funcint =>
      refine .inl ⟨?_, hother (by rintro _ _ _ ⟨⟩)⟩
      obtain hs | hs := htracks <;> rw [hs] <;> simp only [applyOps_x10sensors]
  | camera commandp =>
      refine .inl ⟨?_, hother (by rintro _ _ _ ⟨⟩)⟩
      obtain hs | hs := htracks <;> rw [hs] <;> simp only [applyOps_x10sensors]

/-- One packet. -/
theorem NamedTable.receiveRf {w : World} (h : NamedTable w.state) (a : Arrival) :
    ((receiveRf w a).1.state.x10sensors.map X10secsensor.secaddr).Nodup ∧
      (AllNamed (receiveRf w a).1.state.x10sensors ↔ KeepsNames w a) := by
  obtain ⟨hs, hkeeps⟩ | ⟨now, addr, kind, funct, hs, hkeeps⟩ := receiveRf_sensors w a
  · rw [hs]
    exact ⟨h.nodup, iff_of_true h.named hkeeps⟩
  · rw [hs, hkeeps]
    exact ⟨nodup_huaSecEvent h.nodup now addr kind funct,
      allNamed_huaSecEvent h.nodup now addr kind funct h.named⟩

/-- What a run keeps. -/
theorem namedTable_run {w₀ : World} (hinit : w₀.state = huaSecInit) {as : List Arrival}
    (hnames : Run.Along (fun w a => (receiveRf w a).1) KeepsNames w₀ as) :
    NamedTable (Run.run (fun w a => (receiveRf w a).1) w₀ as).state := by
  let I : List Arrival → World → Prop := fun _ w => NamedTable w.state
  have hstart : I [] w₀ := by
    change NamedTable w₀.state
    rw [hinit]
    exact ⟨List.nodup_nil, fun _ h => by cases h⟩
  have hstep : ∀ earlier w a, I earlier w → KeepsNames w a → I (earlier ++ [a]) (receiveRf w a).1 :=
    fun _ _ a h ha => ⟨(h.receiveRf a).1, (h.receiveRf a).2.mpr ha⟩
  exact @Run.history _ _ _ _ _ I hstart hstep as hnames

/-- After every run of RF packets the display passes a text to `sendMessage` for
every sensor: this holds, at every moment, exactly when each accepted security
packet has a function with a name of the kind its address is tracked with. -/
theorem show_names (w₀ : World) (hinit : w₀.state = huaSecInit) (as : List Arrival) :
    (∀ earlier, earlier <+: as → ∀ fd,
      ShowsNames fd (Run.run (fun w a => (receiveRf w a).1) w₀ earlier)) ↔
      Run.Along (fun w a => (receiveRf w a).1) KeepsNames w₀ as := by
  simp only [showsNames_iff]
  constructor
  · intro h
    induction as using List.reverseRecOn with
    | nil => exact Run.along_nil _ _ _
    | append_singleton as a ih =>
        have hpre := ih fun earlier he => h earlier (he.trans (List.prefix_append as [a]))
        have htable := namedTable_run hinit hpre
        refine Run.along_concat.mpr ⟨hpre, (htable.receiveRf a).2.mp ?_⟩
        have hnamed := h _ List.prefix_rfl (-1)
        rwa [Run.run_append] at hnamed
  · rintro hnames earlier ⟨later, rfl⟩ _
    exact (namedTable_run hinit (Run.along_append.mp hnames).1).named

/-- The Panic of a remote with an 8-bit address, and its code from a sensor with a
long one, which is not listed. -/
def panicRemote : Arrival := ⟨-1, Ptr.ofList [0x5d, 0x20, 0x30, 0x3f, 0x22, 0xdd], 6⟩

def unlistedCode : Arrival := ⟨-1, Ptr.ofList [0x5d, 0x29, 0x00, 0x0f, 0x22, 0xdd, 0x00, 0x30], 8⟩

theorem show_names_panic : ShowsNames 5 (Run.run (fun w a => (receiveRf w a).1)
    (worldInit (stillSetup false)) [panicRemote]) := by
  refine (show_names (worldInit (stillSetup false)) rfl [panicRemote]).mpr ⟨?_, trivial⟩ _ List.prefix_rfl 5
  intro kind addr funct he _
  have hevent : panicRemote.event = some (.security true 0x30 0x22) := by decide
  obtain ⟨rfl, rfl, rfl⟩ := RfEvent.security.inj (Option.some.inj (hevent.symm.trans he))
  exact fun _ => by unfold HasName; decide

/-- An unlisted code: the display gives `sendMessage` a null pointer. -/
theorem show_names_unlisted :
    let w := (receiveRf (worldInit (stillSetup false)) unlistedCode).1
    unlistedCode.event = some (.security false 0x30 0x22) ∧ ¬ ShowsNames 5 w ∧
      (huaShow 5 w).io.drop w.io.length =
        [.send 5 (cstr "Device selected\n"), .send 5 (cstr "Device status\n"),
          .send 5 (cstr "Security sensor status\n"), .sendMessage none,
          .send 5 (cstr "Sensor addr: 000030 Last: 00:00 (null) \n"), .send 5 (cstr "End status\n")] :=
  ⟨by decide, fun h => h (by decide), by decide⟩

end Mochad
