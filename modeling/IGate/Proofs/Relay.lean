import IGate.Relay.Loop
import Mathlib

/-! The time that the relay tells its uplink. Each millisecond is told once, however long the waits
for a frame take, and the turns keep their tick. -/

namespace IGate

namespace Duration

theorem toNat_millisWord {d : Duration} (h : millis d < 2 ^ 64) :
    (millisWord d).toNat = millis d := by
  have hlt : millis d < UInt64.size := h
  rw [millisWord, if_pos hlt, UInt64.toNat_ofNat_of_lt' hlt]

/-- What is told never runs ahead of the time. -/
theorem ofMillis_millisWord_le (d : Duration) : ofMillis (millisWord d).toNat ≤ d := by
  have hle : (millisWord d).toNat ≤ millis d := by
    by_cases h : millis d < 2 ^ 64
    · exact (toNat_millisWord h).le
    · exact (millisWord d).toNat_lt.le.trans (Nat.le_of_not_lt h)
  exact (Nat.mul_le_mul_right _ hle).trans (Nat.div_mul_le_self _ _)

theorem ofMillis_add (a b : Nat) : ofMillis (a + b) = ofMillis a + ofMillis b := Nat.add_mul ..

theorem ofMillis_max (a b : Nat) : ofMillis (max a b) = max (ofMillis a) (ofMillis b) :=
  (Nat.mul_max_mul_right ..).symm

theorem sum_ofMillis (ms : List Nat) : (ms.map ofMillis).sum = ofMillis ms.sum := by
  induction ms with
  | nil => simp [ofMillis]
  | cons ms rest ih => rw [List.map_cons, List.sum_cons, List.sum_cons, ofMillis_add, ih]

theorem millis_ofMillis_add (a : Nat) (d : Duration) : millis (ofMillis a + d) = a + millis d := by
  rw [millis, ofMillis, Nat.add_comm, Nat.add_mul_div_right _ _ (by decide), Nat.add_comm]
  rfl

end Duration

def Uplink.noting {υ : Type} (u : Uplink υ) : Uplink (υ × List UInt64) where
  write s frame := ((u.write s.1 frame).1, (u.write s.1 frame).2, s.2)
  clock s ms := (u.clock s.1 ms, s.2 ++ [ms])

namespace Relay

open Duration

def told (calls : List UInt64) : Nat := (calls.map UInt64.toNat).sum

theorem told_concat (calls : List UInt64) (ms : UInt64) :
    told (calls ++ [ms]) = told calls + ms.toNat := by simp [told]

section
variable {υ : Type} {start : Duration} {t : Turn}

theorem clocked_offer (u : Uplink υ) (r : Relay) (s : υ) (what : Reception) :
    (r.offer u s what).1.clocked = r.clocked := by
  cases what with
  | frame bytes =>
    simp only [offer]
    split <;> rfl
  | _ => rfl

theorem lap_offer (u : Uplink υ) (r : Relay) (s : υ) (what : Reception) (now : Duration) :
    ((r.offer u s what).1.lap now).1 = (r.lap now).1 := by
  simp only [lap, clocked_offer]

theorem clocked_receive (u : Uplink υ) (r : Relay) (s : υ) (now : Duration) (what : Reception) :
    (r.receive u s now what).1.clocked = r.clocked + ofMillis (r.lap now).1.toNat := by
  simp only [receive, lap, clocked_offer]

theorem offer_noting (u : Uplink υ) (r : Relay) (s : υ) (l : List UInt64) (what : Reception) :
    r.offer u.noting (s, l) what =
      ((r.offer u s what).1, ((r.offer u s what).2.1, l), (r.offer u s what).2.2) := by
  cases what with
  | frame bytes =>
    simp only [offer, Uplink.noting]
    cases hw : u.write s bytes with
    | mk ok s' => cases ok <;> rfl
  | _ => rfl

theorem receive_noting (u : Uplink υ) (r : Relay) (s : υ) (l : List UInt64) (now : Duration)
    (what : Reception) :
    r.receive u.noting (s, l) now what =
      ((r.receive u s now what).1, ((r.receive u s now what).2.1, l ++ [(r.lap now).1]),
        (r.receive u s now what).2.2) := by
  simp only [receive, offer_noting, ← lap_offer u r s what now]
  rfl

/-! Turns -/

namespace Outcome

def next (u : Uplink υ) (o : Outcome υ) (t : Turn) : Outcome υ :=
  let (r, s, notices) := o.relay.receive u o.uplink (o.now + t.elapsed) t.reception
  ⟨r, s, o.notices ++ notices, turnEnd o.now (o.now + t.elapsed)⟩

def forget (o : Outcome (υ × List UInt64)) : Outcome υ :=
  ⟨o.relay, o.uplink.1, o.notices, o.now⟩

theorem now_next (u : Uplink υ) (o : Outcome υ) (t : Turn) :
    (o.next u t).now = o.now + max tick t.elapsed := by
  change max (o.now + t.elapsed) (o.now + tick) = _
  rw [max_comm, Nat.add_max_add_left]

theorem noted_next (u : Uplink υ) (o : Outcome (υ × List UInt64)) (t : Turn) :
    (o.next u.noting t).uplink.2 = o.uplink.2 ++ [(o.relay.lap (o.now + t.elapsed)).1] := by
  simp only [next, receive_noting u o.relay o.uplink.1 o.uplink.2]

theorem forget_next (u : Uplink υ) (o : Outcome (υ × List UInt64)) (t : Turn) :
    (o.next u.noting t).forget = o.forget.next u t := by
  simp only [next, forget, receive_noting u o.relay o.uplink.1 o.uplink.2]

end Outcome

theorem turns_concat (u : Uplink υ) (r : Relay) (s : υ) (now : Duration) (ts : List Turn)
    (t : Turn) : turns u r s now (ts ++ [t]) = (turns u r s now ts).next u t := by
  induction ts generalizing r s now with
  | nil => simp [turns, Outcome.next]
  | cons t' ts ih =>
    rw [List.cons_append, turns, turns]
    simp only [ih]
    generalize turns u _ _ _ ts = o
    simp only [Outcome.next, List.append_assoc]

/-- An induction over the turns, the last of them last. -/
theorem turns_induction {motive : List Turn → Outcome υ → Prop} (u : Uplink υ) (r : Relay) (s : υ)
    (now : Duration) (nil : motive [] ⟨r, s, [], now⟩)
    (next : ∀ ts o t, motive ts o → motive (ts ++ [t]) (o.next u t)) (ts : List Turn) :
    motive ts (turns u r s now ts) := by
  induction ts using List.reverseRecOn with
  | nil => exact nil
  | append_singleton ts t ih =>
    rw [turns_concat]
    exact next ts _ t ih

theorem now_turns (u : Uplink υ) (r : Relay) (s : υ) (now : Duration) (ts : List Turn) :
    (turns u r s now ts).now = now + (ts.map fun t => max tick t.elapsed).sum := by
  refine turns_induction
    (motive := fun ts o => o.now = now + (ts.map fun t => max tick t.elapsed).sum)
    u r s now rfl (fun ts o t ih => ?_) ts
  simp [Outcome.now_next, ih, Nat.add_assoc]

theorem forget_turns (u : Uplink υ) (r : Relay) (s : υ) (l : List UInt64) (now : Duration)
    (ts : List Turn) : (turns u.noting r (s, l) now ts).forget = turns u r s now ts := by
  induction ts using List.reverseRecOn with
  | nil => rfl
  | append_singleton ts t ih => rw [turns_concat, turns_concat, Outcome.forget_next, ih]

/-! The time told -/

/-- What the uplink has been told is what the relay has clocked since the instant `start`. -/
structure Timely (start : Duration) (o : Outcome (υ × List UInt64)) : Prop where
  clocked : o.relay.clocked = start + ofMillis (told o.uplink.2)
  reached : o.relay.clocked ≤ o.now

namespace Timely

variable {o : Outcome (υ × List UInt64)}

theorem reached_add (h : Timely start o) (d : Duration) : o.relay.clocked ≤ o.now + d :=
  h.reached.trans (Nat.le_add_right _ _)

theorem since (h : Timely start o) (d : Duration) :
    o.now + d - start = ofMillis (told o.uplink.2) + (o.now + d - o.relay.clocked) := by
  have htold : o.relay.clocked - start = ofMillis (told o.uplink.2) := by
    rw [h.clocked, Nat.add_sub_cancel_left]
  have hstart : start ≤ o.relay.clocked := h.clocked ▸ Nat.le_add_right _ _
  rw [← htold, Nat.add_comm (_ - start), Nat.sub_add_sub_cancel (h.reached_add d) hstart]

theorem next (u : Uplink υ) (h : Timely start o) (t : Turn) : Timely start (o.next u.noting t) := by
  have hlap := ofMillis_millisWord_le (o.now + t.elapsed - o.relay.clocked)
  have hclocked : (o.next u.noting t).relay.clocked = _ :=
    clocked_receive u.noting o.relay o.uplink (o.now + t.elapsed) t.reception
  constructor
  · rw [Outcome.noted_next, told_concat, ofMillis_add, ← Nat.add_assoc, ← h.clocked, hclocked]
  · rw [Outcome.now_next]
    calc (o.next u.noting t).relay.clocked
        ≤ o.now + t.elapsed := hclocked ▸ Nat.add_le_of_le_sub' (h.reached_add t.elapsed) hlap
      _ ≤ o.now + max tick t.elapsed := Nat.add_le_add_left (Nat.le_max_right _ _) _

theorem told_next (u : Uplink υ) (h : Timely start o)
    (hl : millis (o.now + t.elapsed - start) < 2 ^ 64) :
    told (o.next u.noting t).uplink.2 = millis (o.now + t.elapsed - start) := by
  rw [h.since, millis_ofMillis_add] at hl ⊢
  rw [Outcome.noted_next, told_concat, lap,
    toNat_millisWord (lt_of_le_of_lt (Nat.le_add_left _ _) hl)]

theorem turns (u : Uplink υ) (s : υ) (start : Duration) (ts : List Turn) :
    Timely start (turns u.noting (Relay.start start) (s, []) start ts) :=
  turns_induction (motive := fun _ o => Timely start o) u.noting _ _ _
    ⟨by simp [told, ofMillis, Relay.start], Nat.le_refl _⟩ (fun _ _ t h => h.next u t) ts

end Timely

/-! Whole runs -/

section
variable (u : Uplink υ) (s : υ) (start : Duration) (ts : List Turn)

/-- What the uplink is told in a run, call by call. -/
def heard : List UInt64 :=
  (run u.noting (s, []) start ts).uplink.2

def began : Duration := (run u s start ts).now

def toldAt (k : Fin ts.length) : Duration := began u s start (ts.take k) + ts[k].elapsed

theorem heard_eq :
    heard u s start ts = (turns u.noting (Relay.start start) (s, []) start ts).uplink.2 := rfl

theorem heard_concat (t : Turn) :
    ∃ ms, heard u s start (ts ++ [t]) = heard u s start ts ++ [ms] := by
  rw [heard_eq, heard_eq, turns_concat, Outcome.noted_next]
  exact ⟨_, rfl⟩

theorem length_heard : (heard u s start ts).length = ts.length := by
  induction ts using List.reverseRecOn with
  | nil => rfl
  | append_singleton ts t ih =>
    obtain ⟨ms, hms⟩ := heard_concat u s start ts t
    simp [hms, ih]

theorem heard_prefix (later : List Turn) :
    heard u s start ts <+: heard u s start (ts ++ later) := by
  induction later using List.reverseRecOn with
  | nil => simp
  | append_singleton later t ih =>
    obtain ⟨ms, hms⟩ := heard_concat u s start (ts ++ later) t
    rw [← List.append_assoc, hms]
    exact ih.trans (List.prefix_append _ _)

theorem heard_take {k : Nat} (hk : k ≤ ts.length) :
    (heard u s start ts).take k = heard u s start (ts.take k) := by
  have hp := heard_prefix u s start (ts.take k) (ts.drop k)
  rw [List.take_append_drop, List.prefix_iff_eq_take, length_heard, List.length_take,
    Nat.min_eq_left hk] at hp
  exact hp.symm

theorem began_eq :
    began u s start ts = start + (ts.map fun t => max tick t.elapsed).sum := now_turns ..

/-- The instants do not depend on what is noted. -/
theorem now_noting :
    (turns u.noting (Relay.start start) (s, []) start ts).now = began u s start ts := by
  rw [now_turns, began_eq]

/-- When a wait has ended, all whole milliseconds since the start are told. -/
theorem told_heard (k : Fin ts.length)
    (hl : millis (toldAt u s start ts k - start) < 2 ^ 64) :
    told ((heard u s start ts).take (k + 1)) = millis (toldAt u s start ts k - start) := by
  have htimely := Timely.turns u s start (ts.take k)
  rw [heard_take u s start ts k.isLt, List.take_succ_eq_append_getElem k.isLt]
  rw [toldAt, ← now_noting] at hl ⊢
  rw [heard_eq, turns_concat]
  exact htimely.told_next u hl

theorem began_succ (k : Fin ts.length) :
    began u s start (ts.take (k + 1)) = began u s start (ts.take k) + max tick ts[k].elapsed := by
  rw [List.take_succ_eq_append_getElem k.isLt]
  simp [began_eq, Nat.add_assoc]

theorem toldAt_ofMillis {ds : List Nat} (hd : ts.map Turn.elapsed = ds.map ofMillis)
    (k : Fin ts.length) (hk : k < ds.length) :
    toldAt u s start ts k = start + ofMillis (((ds.take k).map (max 20)).sum + ds[k]) := by
  have hwait : ts[k].elapsed = ofMillis ds[k] := by
    have hget := List.getElem_of_eq hd (i := k) (by simp)
    simpa using hget
  have hmax : max tick ∘ ofMillis = ofMillis ∘ max 20 := by
    funext d
    rw [Function.comp_apply, Function.comp_apply, ofMillis_max, tick]
  have hturns : (ts.take k).map (fun t => max tick t.elapsed) =
      ((ds.take k).map (max 20)).map ofMillis := by
    calc (ts.take k).map (fun t => max tick t.elapsed)
        = ((ts.map Turn.elapsed).take k).map (max tick) := by
          rw [← List.map_take, List.map_map]
          rfl
      _ = ((ds.map ofMillis).take k).map (max tick) := by rw [hd]
      _ = ((ds.take k).map (max 20)).map ofMillis := by
          rw [← List.map_take, List.map_map, List.map_map, hmax]
  rw [toldAt, began_eq, hturns, hwait, sum_ofMillis, ofMillis_add, Nat.add_assoc]

/-- When a run returns, the rest of a tick and a fraction of a millisecond are left untold. -/
theorem leftover (k : Fin ts.length) (hlast : k + 1 = ts.length)
    (hl : millis (toldAt u s start ts k - start) < 2 ^ 64) :
    (run u s start ts).now = start + ofMillis (told (heard u s start ts)) +
      (toldAt u s start ts k - start) % perMilli + (tick - ts[k].elapsed) := by
  have htold : told (heard u s start ts) = millis (toldAt u s start ts k - start) := by
    have h := told_heard u s start ts k hl
    rwa [List.take_of_length_le (by rw [length_heard, hlast])] at h
  have hstart : start ≤ toldAt u s start ts k := by
    rw [toldAt, began_eq, Nat.add_assoc]
    exact Nat.le_add_right _ _
  have hnow : (run u s start ts).now = toldAt u s start ts k + (tick - ts[k].elapsed) := by
    have h := began_succ u s start ts k
    rwa [List.take_of_length_le hlast.ge, max_comm, ← add_tsub_eq_max, ← Nat.add_assoc] at h
  have htime : toldAt u s start ts k = start + ofMillis (told (heard u s start ts)) +
      (toldAt u s start ts k - start) % perMilli := by
    rw [htold, Nat.add_assoc, ofMillis, millis, Nat.div_add_mod', Nat.add_sub_cancel' hstart]
  rw [← htime, hnow]

end

/-- How a run from the instant `start` keeps the time. -/
structure Punctual (u : Uplink υ) (s : υ) (start : Duration) (ts : List Turn) : Prop where
  /-- Noting what is told changes nothing. -/
  same : (run u.noting (s, []) start ts).forget = run u s start ts
  once : (heard u s start ts).length = ts.length
  sums : ∀ k : Fin ts.length, millis (toldAt u s start ts k - start) < 2 ^ 64 →
    told ((heard u s start ts).take (k + 1)) = millis (toldAt u s start ts k - start)
  /-- When the waits take whole milliseconds. -/
  whole : ∀ ds : List Nat, ts.map Turn.elapsed = ds.map ofMillis → ∀ k : Fin ds.length,
    ((ds.take k).map (max 20)).sum + ds[k] < 2 ^ 64 →
    told ((heard u s start ts).take (k + 1)) = ((ds.take k).map (max 20)).sum + ds[k]
  unbegun : began u s start [] = start
  /-- A turn takes its tick, or as long as its wait and no longer. -/
  spaced : ∀ k : Fin ts.length,
    began u s start (ts.take (k + 1)) = began u s start (ts.take k) + max tick ts[k].elapsed
  /-- At the end, no more than a tick and the fraction of a millisecond are left untold. -/
  leftover : ∀ k : Fin ts.length, k + 1 = ts.length →
    millis (toldAt u s start ts k - start) < 2 ^ 64 →
    (run u s start ts).now = start + ofMillis (told (heard u s start ts)) +
      (toldAt u s start ts k - start) % perMilli + (tick - ts[k].elapsed)

/-- Whatever the uplink does, and whatever each wait brings. -/
theorem run_punctual (u : Uplink υ) (s : υ) (start : Duration) (ts : List Turn) :
    Punctual u s start ts where
  same := by
    have h := forget_turns u (Relay.start start) s [] start ts
    simp only [run, ← h]
    rfl
  once := length_heard u s start ts
  sums := told_heard u s start ts
  whole ds hd k hl := by
    have hlen : ts.length = ds.length := by simpa using congrArg List.length hd
    have hk : k < ts.length := hlen.symm ▸ k.isLt
    have hat := toldAt_ofMillis u s start ts hd ⟨k, hk⟩ k.isLt
    have htold := told_heard u s start ts ⟨k, hk⟩
    rw [hat, Nat.add_sub_cancel_left, millis_ofMillis] at htold
    exact htold hl
  unbegun := rfl
  spaced := began_succ u s start ts
  leftover := leftover u s start ts

end

/-- Two waits of 20.6 ms: the fractions that are carried make up a millisecond. -/
example : heard Recorder.uplink ⟨[], 0, []⟩ 500000
    [⟨20600000, .nothing⟩, ⟨20600000, .nothing⟩] = [20, 21] := by
  decide

end Relay

end IGate
