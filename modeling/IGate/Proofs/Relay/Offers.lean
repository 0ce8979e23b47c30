import IGate.Proofs.Relay

/-! What becomes of the frames that the relay receives. Each is offered to the uplink once and
unchanged, in the order in which they came, until the end of the turn in which the flag is cleared,
and the counts tell what the uplink answered. -/

namespace IGate

def Reception.frame? : Reception → Option Bytes
  | .frame bytes => some bytes
  | _ => none

def Reception.isFailure : Reception → Bool
  | .failed _ => true
  | _ => false

def UplinkCall.offer? : UplinkCall → Option (Bytes × Bool)
  | .write frame taken => some (frame, taken)
  | .clock _ => none

def Uplink.remembering {υ : Type} (u : Uplink υ) : Uplink (υ × List UplinkCall) where
  write s frame :=
    ((u.write s.1 frame).1, (u.write s.1 frame).2, s.2 ++ [.write frame (u.write s.1 frame).1])
  clock s ms := (u.clock s.1 ms, s.2 ++ [.clock ms])

/-- Some counts, and what some offers and failures add to them. -/
def RelayCounts.add (c : RelayCounts) (offers : List (Bytes × Bool)) (failures : Nat) :
    RelayCounts where
  received := c.received + offers.length
  forwarded := c.forwarded + offers.countP (·.2)
  refused := c.refused + offers.countP (!·.2)
  sourceErrors := c.sourceErrors + failures

namespace Relay

/-- The calls of one turn. A frame is offered first, and then the time is told. -/
inductive Asks : Reception → List UplinkCall → Prop
  | frame (bytes taken ms) : Asks (.frame bytes) [.write bytes taken, .clock ms]
  | nothing (ms) : Asks .nothing [.clock ms]
  | failed (e ms) : Asks (.failed e) [.clock ms]

section
variable {υ : Type}

def offers (u : Uplink υ) (s : υ) : Reception → List UplinkCall
  | .frame bytes => [.write bytes (u.write s bytes).1]
  | _ => []

theorem asks_offers (u : Uplink υ) (s : υ) (what : Reception) (ms : UInt64) :
    Asks what (offers u s what ++ [.clock ms]) := by
  cases what with
  | frame bytes => exact .frame bytes _ ms
  | nothing => exact .nothing ms
  | failed e => exact .failed e ms

theorem offer_remembering (u : Uplink υ) (r : Relay) (s : υ) (l : List UplinkCall)
    (what : Reception) :
    r.offer u.remembering (s, l) what =
      ((r.offer u s what).1, ((r.offer u s what).2.1, l ++ offers u s what),
        (r.offer u s what).2.2) := by
  cases what with
  | frame bytes =>
    simp only [offer, Uplink.remembering, offers]
    cases hw : u.write s bytes with
    | mk ok s' => cases ok <;> rfl
  | _ => simp only [offer, offers, List.append_nil]

theorem receive_remembering (u : Uplink υ) (r : Relay) (s : υ) (l : List UplinkCall)
    (now : Duration) (what : Reception) :
    r.receive u.remembering (s, l) now what =
      ((r.receive u s now what).1,
        ((r.receive u s now what).2.1, l ++ (offers u s what ++ [.clock (r.lap now).1])),
        (r.receive u s now what).2.2) := by
  simp only [receive, offer_remembering, ← lap_offer u r s what now, ← List.append_assoc]
  rfl

-- The relay is taken apart first, or its instants would be compared as numerals.
theorem counts_lap (r : Relay) (now : Duration) : (r.lap now).2.counts = r.counts := by
  cases r
  rfl

theorem counts_receive (u : Uplink υ) (r : Relay) (s : υ) (now : Duration) (what : Reception) :
    (r.receive u s now what).1.counts = (r.offer u s what).1.counts := counts_lap _ now

/-! Turns -/

def Outcome.withoutCalls (o : Outcome (υ × List UplinkCall)) : Outcome υ :=
  ⟨o.relay, o.uplink.1, o.notices, o.now⟩

theorem Outcome.withoutCalls_next (u : Uplink υ) (o : Outcome (υ × List UplinkCall)) (t : Turn) :
    (o.next u.remembering t).withoutCalls = o.withoutCalls.next u t := by
  simp only [next, withoutCalls, receive_remembering u o.relay o.uplink.1 o.uplink.2]

theorem withoutCalls_turns (u : Uplink υ) (r : Relay) (s : υ) (l : List UplinkCall)
    (now : Duration) (ts : List Turn) :
    (turns u.remembering r (s, l) now ts).withoutCalls = turns u r s now ts := by
  induction ts using List.reverseRecOn with
  | nil => rfl
  | append_singleton ts t ih =>
    rw [turns_concat, turns_concat, Outcome.withoutCalls_next, ih]

theorem calls_next (u : Uplink υ) (o : Outcome (υ × List UplinkCall)) (t : Turn) :
    (o.next u.remembering t).uplink.2 =
      o.uplink.2 ++ (offers u o.uplink.1 t.reception ++
        [.clock (o.relay.lap (o.now + t.elapsed)).1]) := by
  simp only [Outcome.next, receive_remembering u o.relay o.uplink.1 o.uplink.2]

theorem counts_next (u : Uplink υ) (o : Outcome (υ × List UplinkCall)) (t : Turn) :
    (o.next u.remembering t).relay.counts =
      (o.relay.offer u o.uplink.1 t.reception).1.counts := by
  simp only [Outcome.next, receive_remembering u o.relay o.uplink.1 o.uplink.2, counts_receive]

def offered (calls : List UplinkCall) : List (Bytes × Bool) := calls.filterMap UplinkCall.offer?

def frames (ts : List Turn) : List Bytes := ts.filterMap fun t => t.reception.frame?

theorem offered_append (calls more : List UplinkCall) :
    offered (calls ++ more) = offered calls ++ offered more := List.filterMap_append

theorem offered_of_asks {what : Reception} {calls : List UplinkCall} (h : Asks what calls) :
    (offered calls).map Prod.fst = what.frame?.toList := by
  cases h <;> rfl

theorem counts_offer (u : Uplink υ) (r : Relay) (s : υ) (what : Reception) :
    (r.offer u s what).1.counts =
      r.counts.add (offered (offers u s what)) (if what.isFailure then 1 else 0) := by
  cases what with
  | frame bytes =>
    simp only [offer, offers]
    cases hw : u.write s bytes with
    | mk ok s' => cases ok <;> rfl
  | _ => rfl

structure Tallied (ts : List Turn) (o : Outcome (υ × List UplinkCall)) : Prop where
  asked : ∃ parts : List (List UplinkCall), parts.flatten = o.uplink.2 ∧
    List.Forall₂ (fun t part => Asks t.reception part) ts parts
  counted : o.relay.counts =
    RelayCounts.zero.add (offered o.uplink.2) (ts.countP (·.reception.isFailure))

namespace Tallied

variable {ts : List Turn} {o : Outcome (υ × List UplinkCall)}

theorem next (u : Uplink υ) (h : Tallied ts o) (t : Turn) :
    Tallied (ts ++ [t]) (o.next u.remembering t) := by
  obtain ⟨parts, hp, hasked⟩ := h.asked
  have hasks := asks_offers u o.uplink.1 t.reception (o.relay.lap (o.now + t.elapsed)).1
  have hoffered : offered (o.next u.remembering t).uplink.2 =
      offered o.uplink.2 ++ offered (offers u o.uplink.1 t.reception) := by
    rw [calls_next, offered_append, offered_append]
    exact congrArg _ (List.append_nil _)
  refine ⟨⟨parts ++ [_], ?_, List.rel_append hasked (.cons hasks .nil)⟩, ?_⟩
  · rw [calls_next, List.flatten_append, hp, List.flatten_singleton]
  · rw [counts_next, counts_offer, h.counted, hoffered]
    simp [RelayCounts.add, List.countP_append, List.countP_cons, Nat.add_assoc]

theorem turns (u : Uplink υ) (s : υ) (start : Duration) (ts : List Turn) :
    Tallied ts (turns u.remembering (Relay.start start) (s, []) start ts) :=
  turns_induction (motive := fun ts o => Tallied ts o) u.remembering _ _ _
    ⟨⟨[], rfl, .nil⟩, rfl⟩ (fun _ _ t h => h.next u t) ts

end Tallied

theorem offered_of_asked {ts : List Turn} {parts : List (List UplinkCall)}
    (h : List.Forall₂ (fun t part => Asks t.reception part) ts parts) :
    (offered parts.flatten).map Prod.fst = frames ts := by
  induction h with
  | nil => rfl
  | cons ht _ ih =>
    rw [List.flatten_cons, offered_append, List.map_append, offered_of_asks ht, ih, frames,
      frames, List.filterMap_cons]
    split <;> simp [*]

/-! The flag -/

theorem lt_turnEnd (began now : Duration) : began < turnEnd began now :=
  lt_of_lt_of_le (Nat.lt_add_of_pos_right (by decide)) (Nat.le_max_right _ _)

/-- The turns of a relay whose running flag is cleared at an instant. The flag is read before each
turn, and there is always something more that a wait may bring. -/
def turnsUntil (cleared : Duration) (u : Uplink υ) (r : Relay) (s : υ) (now : Duration)
    (source : Stream' Turn) : Outcome υ :=
  if now < cleared then
    let (r, s, notices) := r.receive u s (now + source.head.elapsed) source.head.reception
    let after := turnsUntil cleared u r s (turnEnd now (now + source.head.elapsed)) source.tail
    { after with notices := notices ++ after.notices }
  else ⟨r, s, [], now⟩
termination_by cleared - now
decreasing_by exact Nat.sub_lt_sub_left ‹now < cleared› (lt_turnEnd _ _)

def runUntil (cleared : Duration) (u : Uplink υ) (s : υ) (now : Duration)
    (source : Stream' Turn) : Outcome υ :=
  let after := turnsUntil cleared u (start now) s now source
  { after with
    notices := .relayStarted :: after.notices ++ [.relayStopped after.relay.counts] }

/-- The turns that are begun before the flag is cleared. -/
def taken (cleared now : Duration) (source : Stream' Turn) : List Turn :=
  if now < cleared then
    source.head :: taken cleared (turnEnd now (now + source.head.elapsed)) source.tail
  else []
termination_by cleared - now
decreasing_by exact Nat.sub_lt_sub_left ‹now < cleared› (lt_turnEnd _ _)

theorem taken_eq_take (cleared now : Duration) (source : Stream' Turn) :
    taken cleared now source = source.take (taken cleared now source).length := by
  fun_induction taken cleared now source with
  | case1 now source hrun ih => rw [List.length_cons, Stream'.take_succ, ← ih]
  | case2 now source hrun => rfl

/-- What a wait brings, and how the uplink takes it, never ends the loop. -/
theorem length_taken_of_waits {cleared now : Duration} {source other : Stream' Turn}
    (h : other.map Turn.elapsed = source.map Turn.elapsed) :
    (taken cleared now other).length = (taken cleared now source).length := by
  fun_induction taken cleared now source generalizing other with
  | case1 now source hrun ih =>
    have hhead : other.head.elapsed = source.head.elapsed := congrArg Stream'.head h
    have htail : other.tail.map Turn.elapsed = source.tail.map Turn.elapsed :=
      congrArg Stream'.tail h
    rw [taken, if_pos hrun, List.length_cons, List.length_cons, hhead, ih htail]
  | case2 now source hrun => rw [taken, if_neg hrun]

theorem turnsUntil_eq (cleared : Duration) (u : Uplink υ) (r : Relay) (s : υ) (now : Duration)
    (source : Stream' Turn) :
    turnsUntil cleared u r s now source = turns u r s now (taken cleared now source) := by
  fun_induction turnsUntil cleared u r s now source with
  | case1 r s now source hrun r' s' notices hreceive after ih =>
    rw [taken, if_pos hrun, turns, hreceive]
    simp only [← ih]
    rfl
  | case2 r s now source hrun => rw [taken, if_neg hrun, turns]

theorem runUntil_eq (cleared : Duration) (u : Uplink υ) (s : υ) (now : Duration)
    (source : Stream' Turn) :
    runUntil cleared u s now source = run u s now (taken cleared now source) := by
  simp only [runUntil, run, turnsUntil_eq]

theorem began_cons (u : Uplink υ) (s : υ) (start : Duration) (t : Turn) (ts : List Turn) :
    began u s start (t :: ts) = began u s (turnEnd start (start + t.elapsed)) ts := by
  have hnow : turnEnd start (start + t.elapsed) = start + max tick t.elapsed := by
    rw [turnEnd, max_comm, Nat.add_max_add_left]
  rw [began_eq, began_eq, hnow, List.map_cons, List.sum_cons, Nat.add_assoc]

/-- The flag is set when a turn is begun, and is found cleared behind the last of them. -/
theorem began_taken (u : Uplink υ) (s : υ) (cleared start : Duration) (source : Stream' Turn) :
    (∀ k < (taken cleared start source).length,
      began u s start ((taken cleared start source).take k) < cleared) ∧
      cleared ≤ began u s start (taken cleared start source) := by
  fun_induction taken cleared start source with
  | case1 now source hrun ih =>
    refine ⟨fun k hk => ?_, (began_cons ..).symm ▸ ih.2⟩
    cases k with
    | zero => exact hrun
    | succ k =>
      rw [List.take_succ_cons, began_cons]
      exact ih.1 k (Nat.lt_of_succ_lt_succ hk)
  | case2 now source hrun => exact ⟨nofun, not_lt.1 hrun⟩

section
variable (cleared : Duration) (u : Uplink υ) (s : υ) (start : Duration) (source : Stream' Turn)

def calls : List UplinkCall := (runUntil cleared u.remembering (s, []) start source).uplink.2

/-- How a relay treats the frames of its source until it finds its flag cleared. -/
structure Relayed : Prop where
  /-- Remembering the calls changes nothing. -/
  same : (runUntil cleared u.remembering (s, []) start source).withoutCalls =
    runUntil cleared u s start source
  run : runUntil cleared u s start source = run u s start (taken cleared start source)
  inOrder : taken cleared start source = source.take (taken cleared start source).length
  waitsDecide : ∀ other : Stream' Turn, other.map Turn.elapsed = source.map Turn.elapsed →
    (taken cleared start other).length = (taken cleared start source).length
  begun : ∀ k < (taken cleared start source).length,
    began u s start ((taken cleared start source).take k) < cleared
  ended : cleared ≤ began u s start (taken cleared start source)
  /-- Each turn offers its frame, if it brought one, and then tells the time, once. -/
  turnByTurn : ∃ parts : List (List UplinkCall),
    parts.flatten = calls cleared u s start source ∧
      List.Forall₂ (fun t part => Asks t.reception part) (taken cleared start source) parts
  offered : (offered (calls cleared u s start source)).map Prod.fst =
    frames (taken cleared start source)
  received : (runUntil cleared u s start source).relay.counts.received =
    (frames (taken cleared start source)).length
  forwarded : (runUntil cleared u s start source).relay.counts.forwarded =
    (Relay.offered (calls cleared u s start source)).countP (·.2)
  refused : (runUntil cleared u s start source).relay.counts.received =
    (runUntil cleared u s start source).relay.counts.forwarded +
      (runUntil cleared u s start source).relay.counts.refused
  sourceErrors : (runUntil cleared u s start source).relay.counts.sourceErrors =
    (taken cleared start source).countP (·.reception.isFailure)

/-- Whatever the source brings, whatever the uplink answers and whenever the flag is cleared. -/
theorem frames_offered_once_in_order : Relayed cleared u s start source := by
  have htally := Tallied.turns u s start (taken cleared start source)
  have hsame : (runUntil cleared u.remembering (s, []) start source).withoutCalls =
      runUntil cleared u s start source := by
    have h := withoutCalls_turns u (Relay.start start) s [] start (taken cleared start source)
    rw [runUntil_eq, runUntil_eq]
    simp only [run, ← h]
    rfl
  have hcalls : calls cleared u s start source =
      (turns u.remembering (Relay.start start) (s, []) start (taken cleared start source)).uplink.2 :=
    by rw [calls, runUntil_eq]; rfl
  have hcounts : (runUntil cleared u s start source).relay.counts =
      RelayCounts.zero.add (Relay.offered (calls cleared u s start source))
        ((taken cleared start source).countP (·.reception.isFailure)) := by
    rw [← hsame, hcalls, ← htally.counted, runUntil_eq]
    rfl
  have hparts := htally.asked
  rw [← hcalls] at hparts
  have hoffered : (Relay.offered (calls cleared u s start source)).map Prod.fst =
      frames (taken cleared start source) := by
    obtain ⟨parts, hp, hasked⟩ := hparts
    rw [← hp, offered_of_asked hasked]
  obtain ⟨hbegun, hended⟩ := began_taken u s cleared start source
  exact {
    same := hsame
    run := runUntil_eq cleared u s start source
    waitsDecide := fun _ h => length_taken_of_waits h
    inOrder := taken_eq_take cleared start source
    begun := hbegun
    ended := hended
    turnByTurn := hparts
    offered := hoffered
    received := by rw [hcounts, ← hoffered, List.length_map]; exact Nat.zero_add _
    forwarded := by rw [hcounts]; exact Nat.zero_add _
    refused := by
      rw [hcounts]
      simp only [RelayCounts.add, RelayCounts.zero, Nat.zero_add]
      rw [List.length_eq_countP_add_countP (fun o => o.2)]
      simp
    sourceErrors := by rw [hcounts]; exact Nat.zero_add _ }

end

end

end Relay

end IGate
