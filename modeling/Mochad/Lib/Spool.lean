import Mochad.Lib.Run

/-!
# Mochad.Lib.Spool

A stop-and-wait sender: one item at a time is on its way, the others wait in a
bounded queue for the acknowledge of the item before them.

This is the abstract machine an output FIFO stands for.  Its whole history is a
list of events, and the three laws of the machine are stated about that list:

* `emitted_append_waiting` — what was emitted, followed by what still waits, is
  what was accepted: nothing is lost, duplicated or reordered;
* `waiting_of_idle` — nothing waits while nothing is on its way;
* `separated` — between two items there is an acknowledge.

How far it comes is counted by the acknowledges: each takes an item that waits
(`trace_drain`), and nothing else does, but for one (`trace_pace`).
-/

namespace Spool

variable {α : Type*}

/-- What is asked of the sender. -/
inductive Call (α : Type*) where
  | put (x : α)
  | ack

/-- What happens in a call. -/
inductive Event (α : Type*) where
  | accept (x : α)
  | drop (x : α)
  | ack
  | emit (x : α)
deriving DecidableEq

/-- The sender: is an item on its way, and which items wait. -/
structure Queue (α : Type*) where
  busy : Bool
  waiting : List α
deriving DecidableEq

/-- The sender before the first call. -/
def idle : Queue α := ⟨false, []⟩

/-- One call, with `cap` places to wait. -/
def step (cap : Nat) (q : Queue α) : Call α → Queue α × List (Event α)
  | .put x =>
      if q.busy then
        if q.waiting.length = cap then (q, [.drop x])
        else ({ q with waiting := q.waiting ++ [x] }, [.accept x])
      else ({ q with busy := true }, [.accept x, .emit x])
  | .ack =>
      if q.busy then
        match q.waiting with
        | [] => (idle, [.ack])
        | x :: xs => ({ q with waiting := xs }, [.ack, .emit x])
      else (q, [.ack])

/-- The accepted items, in order. -/
def accepted (es : List (Event α)) : List α :=
  es.filterMap fun
    | .accept x => some x
    | _ => none

/-- The emitted items, in order. -/
def emitted (es : List (Event α)) : List α :=
  es.filterMap fun
    | .emit x => some x
    | _ => none

/-- Between two emitted items there is an acknowledge. -/
def Separated (es : List (Event α)) : Prop :=
  ∀ a b c x y, es = a ++ .emit x :: b ++ .emit y :: c → .ack ∈ b

/-- A sender that can be reached: nothing waits while it is idle. -/
def Queue.Ok (q : Queue α) : Prop := q.busy = false → q.waiting = []

/-- The idle queue can be reached. -/
theorem idle_ok : (idle : Queue α).Ok := fun _ => rfl

/-- So can the queue after a call. -/
theorem step_ok (cap : Nat) {q : Queue α} (h : q.Ok) (c : Call α) : (step cap q c).1.Ok := by
  cases c with
  | put x =>
      by_cases hb : q.busy = true <;> by_cases hc : q.waiting.length = cap <;>
        simp [step, Queue.Ok, hb, hc]
  | ack =>
      by_cases hb : q.busy = true
      · cases hw : q.waiting <;> simp [step, Queue.Ok, hb, hw, idle]
      · simpa [step, hb] using h

/-- One call keeps the balance of items. -/
theorem step_balance (cap : Nat) {q : Queue α} (h : q.Ok) (c : Call α) :
    emitted (step cap q c).2 ++ (step cap q c).1.waiting =
      q.waiting ++ accepted (step cap q c).2 := by
  cases c with
  | put x =>
      by_cases hb : q.busy = true
      · by_cases hc : q.waiting.length = cap <;> simp [step, emitted, accepted, hb, hc]
      · simp [step, emitted, accepted, hb, h (by simpa using hb)]
  | ack =>
      by_cases hb : q.busy = true
      · cases hw : q.waiting <;> simp [step, emitted, accepted, hb, hw, idle]
      · simp [step, emitted, accepted, hb]

/-- So can the queue after any calls. -/
theorem trace_ok {cap : Nat} {q : Queue α} (h : q.Ok) (cs : List (Call α)) :
    (Run.trace (step cap) q cs).1.Ok := by
  induction cs generalizing q with
  | nil => exact h
  | cons c cs ih => exact ih (step_ok cap h c)

/-- Nothing is lost, duplicated or reordered, from any reachable sender on. -/
theorem trace_balance {cap : Nat} {q : Queue α} (h : q.Ok) (cs : List (Call α)) :
    emitted (Run.trace (step cap) q cs).2 ++ (Run.trace (step cap) q cs).1.waiting =
      q.waiting ++ accepted (Run.trace (step cap) q cs).2 := by
  induction cs generalizing q with
  | nil => simp [Run.trace, emitted, accepted]
  | cons c cs ih =>
      have h1 := step_balance cap h c
      have h2 := ih (step_ok cap h c)
      simp only [Run.trace, emitted, accepted, List.filterMap_append] at h1 h2 ⊢
      rw [List.append_assoc, h2, ← List.append_assoc, h1, List.append_assoc]

/-- From the idle queue on, what was accepted has been emitted or waits, in order. -/
theorem emitted_append_waiting (cap : Nat) (cs : List (Call α)) :
    emitted (Run.trace (step cap) idle cs).2 ++ (Run.trace (step cap) idle cs).1.waiting =
      accepted (Run.trace (step cap) idle cs).2 :=
  trace_balance idle_ok cs

/-- Nothing waits while the sender is idle. -/
theorem waiting_of_idle (cap : Nat) (cs : List (Call α))
    (h : (Run.trace (step cap) idle cs).1.busy = false) :
    (Run.trace (step cap) idle cs).1.waiting = [] :=
  trace_ok idle_ok cs h

/-! ## Items in a row -/

/-- How many items the sender takes before it drops one. -/
def Queue.room (cap : Nat) (q : Queue α) : Nat := if q.busy then cap - q.waiting.length else cap + 1

/-- Of items put one after the other, the first are accepted while there is room. -/
theorem accepted_puts {cap : Nat} {q : Queue α} (h : q.Ok) (hlen : q.waiting.length ≤ cap) (xs : List α) :
    accepted (Run.trace (step cap) q (xs.map .put)).2 = xs.take (q.room cap) := by
  induction xs generalizing q with
  | nil => simp [Run.trace, accepted]
  | cons x xs ih =>
      have hok := step_ok cap h (.put x)
      rw [List.map_cons, Run.trace, accepted, List.filterMap_append, ← accepted, ← accepted]
      by_cases hb : q.busy = true
      · by_cases hc : q.waiting.length = cap
        · have hstep : step cap q (.put x) = (q, [.drop x]) := by simp [step, hb, hc]
          have hroom : q.room cap = 0 := by simp [Queue.room, hb, hc]
          rw [hstep] at hok ⊢
          rw [ih hok hlen, hroom]
          rfl
        · have hstep : step cap q (.put x) =
              ({ q with waiting := q.waiting ++ [x] }, [.accept x]) := by simp [step, hb, hc]
          have hroom : q.room cap = ({ q with waiting := q.waiting ++ [x] } : Queue α).room cap + 1 := by
            simp only [Queue.room, hb, if_true, List.length_append, List.length_singleton]
            omega
          rw [hstep] at hok ⊢
          rw [ih hok (by simp only [List.length_append, List.length_singleton]; omega), hroom]
          rfl
      · have hidle := h (by simpa using hb)
        have hstep : step cap q (.put x) = ({ q with busy := true }, [.accept x, .emit x]) := by
          simp [step, hb]
        have hroom : q.room cap = ({ q with busy := true } : Queue α).room cap + 1 := by
          simp [Queue.room, hb, hidle]
        rw [hstep] at hok ⊢
        rw [ih hok hlen, hroom]
        rfl

/-! ## Acknowledges between items -/

/-- The events of a sender that may emit right away only if `free`. -/
def Paced : Bool → List (Event α) → Prop
  | _, [] => True
  | free, .emit _ :: es => free = true ∧ Paced false es
  | _, .ack :: es => Paced true es
  | free, _ :: es => Paced free es

/-- A call emits only if the sender is idle. -/
theorem step_paced {cap : Nat} (q : Queue α) (c : Call α) (es : List (Event α))
    (h : Paced (!(step cap q c).1.busy) es) : Paced (!q.busy) ((step cap q c).2 ++ es) := by
  cases c with
  | put x =>
      by_cases hb : q.busy = true
      · by_cases hc : q.waiting.length = cap <;> simpa [step, Paced, hb, hc] using h
      · simpa [step, Paced, hb] using h
  | ack =>
      by_cases hb : q.busy = true
      · cases hw : q.waiting <;> simpa [step, Paced, hb, hw, idle] using h
      · simpa [step, Paced, hb] using h

theorem trace_paced {cap : Nat} (q : Queue α) (cs : List (Call α)) :
    Paced (!q.busy) (Run.trace (step cap) q cs).2 := by
  induction cs generalizing q with
  | nil => trivial
  | cons c cs ih => exact step_paced q c _ (ih _)

/-- A paced sender that may not emit needs an acknowledge first. -/
theorem ack_mem_of_paced {b c : List (Event α)} {y : α}
    (h : Paced false (b ++ .emit y :: c)) : .ack ∈ b := by
  induction b with
  | nil => simp [Paced] at h
  | cons e b ih =>
      cases e with
      | ack => exact List.mem_cons_self
      | emit z => simp [Paced] at h
      | accept z => exact List.mem_cons_of_mem _ (ih h)
      | drop z => exact List.mem_cons_of_mem _ (ih h)

/-- Between two items of a paced sender there is an acknowledge. -/
theorem separated_of_paced {es : List (Event α)} {free : Bool} (h : Paced free es) :
    Separated es := by
  rintro a b c x y rfl
  induction a generalizing free with
  | nil => exact ack_mem_of_paced h.2
  | cons e a ih =>
      cases e with
      | ack => exact ih h
      | emit z => exact ih h.2
      | accept z => exact ih h
      | drop z => exact ih h

/-- Between two items there is always an acknowledge. -/
theorem separated (cap : Nat) (cs : List (Call α)) :
    Separated (Run.trace (step cap) idle cs).2 :=
  separated_of_paced (trace_paced idle cs)

/-! ## Progress -/

/-- The items put, in order. -/
def puts (cs : List (Call α)) : List α :=
  cs.filterMap fun
    | .put x => some x
    | .ack => none

/-- The number of acknowledges. -/
def acks (cs : List (Call α)) : Nat :=
  cs.countP fun
    | .put _ => false
    | .ack => true

@[simp] theorem puts_nil : puts ([] : List (Call α)) = [] := rfl

@[simp] theorem puts_append (cs ds : List (Call α)) : puts (cs ++ ds) = puts cs ++ puts ds :=
  List.filterMap_append

@[simp] theorem acks_nil : acks ([] : List (Call α)) = 0 := rfl

@[simp] theorem acks_append (cs ds : List (Call α)) : acks (cs ++ ds) = acks cs + acks ds :=
  List.countP_append

/-- The item of a call comes first. -/
theorem puts_cons_put (x : α) (cs : List (Call α)) : puts (.put x :: cs) = x :: puts cs := rfl

/-- The emitted items of events in two parts. -/
theorem emitted_append (es fs : List (Event α)) : emitted (es ++ fs) = emitted es ++ emitted fs :=
  List.filterMap_append

/-- The accepted items of events in two parts. -/
theorem accepted_append (es fs : List (Event α)) :
    accepted (es ++ fs) = accepted es ++ accepted fs := List.filterMap_append

/-- What may be emitted without an acknowledge. -/
def Queue.credit (q : Queue α) : Nat := if q.busy then 0 else 1

/-- A call takes an acknowledge or the credit for what it emits. -/
theorem step_pace (cap : Nat) (q : Queue α) (c : Call α) :
    (emitted (step cap q c).2).length + (step cap q c).1.credit ≤ acks [c] + q.credit := by
  cases c with
  | put x =>
      by_cases hb : q.busy = true
      · by_cases hc : q.waiting.length = cap <;> simp [step, emitted, acks, Queue.credit, hb, hc]
      · simp [step, emitted, acks, Queue.credit, hb]
  | ack =>
      by_cases hb : q.busy = true
      · cases hw : q.waiting <;> simp [step, emitted, acks, Queue.credit, hb, hw, idle]
      · simp [step, emitted, acks, Queue.credit, hb]

/-- Not more is emitted than is acknowledged, one item apart. -/
theorem trace_pace (cap : Nat) (q : Queue α) (cs : List (Call α)) :
    (emitted (Run.trace (step cap) q cs).2).length + (Run.trace (step cap) q cs).1.credit ≤
      acks cs + q.credit := by
  induction cs generalizing q with
  | nil => simp [Run.trace, emitted]
  | cons c cs ih =>
      have hstep := step_pace cap q c
      have hrest := ih (step cap q c).1
      rw [Run.trace, emitted_append, List.length_append, ← List.singleton_append, acks_append]
      dsimp only
      omega

/-- An acknowledge takes the first item that waits, and a put none. -/
theorem step_drain (cap : Nat) {q : Queue α} (h : q.Ok) (c : Call α) :
    q.waiting.length ≤ (step cap q c).1.waiting.length + acks [c] ∧
      min (acks [c]) q.waiting.length ≤ (emitted (step cap q c).2).length := by
  cases c with
  | put x =>
      by_cases hb : q.busy = true
      · by_cases hc : q.waiting.length = cap <;> simp [step, acks, hb, hc]
      · simp [step, acks, hb]
  | ack =>
      by_cases hb : q.busy = true
      · cases hw : q.waiting <;> simp [step, emitted, acks, hb, hw, idle]
      · simp [h (by simpa using hb)]

/-- Every acknowledge takes an item that waits, while there is one. -/
theorem trace_drain {cap : Nat} {q : Queue α} (h : q.Ok) (cs : List (Call α)) :
    min (acks cs) q.waiting.length ≤ (emitted (Run.trace (step cap) q cs).2).length := by
  induction cs generalizing q with
  | nil => simp
  | cons c cs ih =>
      obtain ⟨hwaiting, hstep⟩ := step_drain cap h c
      have hrest := ih (step_ok cap h c)
      rw [Run.trace, emitted_append, List.length_append, ← List.singleton_append, acks_append]
      omega

/-- A call in which there is room for another item. -/
theorem step_room {cap : Nat} {q : Queue α} (c : Call α) (hroom : q.waiting.length + (puts [c]).length ≤ cap) :
    accepted (step cap q c).2 = puts [c] ∧
      (step cap q c).1.waiting.length ≤ q.waiting.length + (puts [c]).length := by
  cases c with
  | put x =>
      rw [puts_cons_put, puts_nil, List.length_singleton] at hroom
      by_cases hb : q.busy = true
      · have hc : q.waiting.length ≠ cap := by omega
        simp [step, accepted, puts, hb, hc]
      · simp [step, accepted, puts, hb]
  | ack =>
      by_cases hb : q.busy = true
      · cases hw : q.waiting <;> simp [step, accepted, puts, hb, hw, idle]
      · simp [step, accepted, puts, hb]

/-- Nothing is dropped while everything put would find room to wait. -/
theorem accepted_eq_puts {cap : Nat} {q : Queue α} (cs : List (Call α))
    (hroom : q.waiting.length + (puts cs).length ≤ cap) :
    accepted (Run.trace (step cap) q cs).2 = puts cs := by
  induction cs generalizing q with
  | nil => rfl
  | cons c cs ih =>
      rw [← List.singleton_append, puts_append, List.length_append] at hroom
      obtain ⟨hstep, hwaiting⟩ := step_room c (by omega : q.waiting.length + (puts [c]).length ≤ cap)
      rw [Run.trace, accepted_append, hstep, ih (by omega), ← puts_append, List.singleton_append]

end Spool
