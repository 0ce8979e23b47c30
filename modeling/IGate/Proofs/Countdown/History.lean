import IGate.Proofs.Countdown

/-! A countdown and the delay before the next attempt, told from what was done so far. A countdown
is what it was started with less what was clocked since, and a delay counts the failures since the
last reset. -/

namespace IGate

namespace Countdown

/-- The timeout that an action sets, in whole milliseconds. A longer one counts as the longest. -/
def Action.timeout? : Action → Option Nat
  | .setTimeout d => some (min d.millis (UInt64.size - 1))
  | _ => none

def Action.millis : Action → Nat
  | .clock ms => ms.toNat
  | _ => 0

def lastTimeout (as : List Action) : Nat := (as.reverse.findSome? Action.timeout?).getD 0

def clocked (as : List Action) : Nat := (as.map Action.millis).sum

/-- The last start comes between `before` and `after`, and no stop has come since. -/
structure Started (as before after : List Action) : Prop where
  eq : as = before ++ .start :: after
  unstarted : .start ∉ after
  unstopped : .stop ∉ after

section
variable {t : Countdown} {as before after : List Action} {a : Action}

@[simp] theorem run_nil (t : Countdown) : t.run [] = t := rfl

@[simp] theorem run_cons (t : Countdown) (a : Action) (as : List Action) :
    t.run (a :: as) = (t.act a).run as := rfl

theorem run_append (t : Countdown) (as more : List Action) :
    t.run (as ++ more) = (t.run as).run more := List.foldl_append ..

theorem Started.concat (h : Started as before after) (hs : a ≠ .start) (hp : a ≠ .stop) :
    Started (as ++ [a]) before (after ++ [a]) where
  eq := by rw [h.eq, List.append_assoc, List.cons_append]
  unstarted := by simpa using ⟨h.unstarted, hs.symm⟩
  unstopped := by simpa using ⟨h.unstopped, hp.symm⟩

theorem timeout_run (as : List Action) : (initial.run as).timeout.toNat = lastTimeout as := by
  induction as using List.reverseRecOn with
  | nil => rfl
  | append_singleton as a ih =>
    rw [run_append, run_cons, run_nil, lastTimeout, List.reverse_append, List.reverse_singleton,
      List.singleton_append, List.findSome?_cons]
    cases a with
    | setTimeout d => exact Duration.toNat_millisWord_eq d
    | clock ms => exact (congrArg _ (timeout_clock _ ms)).trans ih
    | start | stop | query => exact ih

theorem running_act (h : t.running = true) (ha : a ≠ .stop) : (t.act a).running = true := by
  cases a with
  | stop => exact absurd rfl ha
  | start => rfl
  | clock ms => exact (running_clock t ms).trans h
  | setTimeout | query => exact h

theorem running_run (h : t.running = true) (hs : .stop ∉ as) : (t.run as).running = true := by
  induction as generalizing t with
  | nil => exact h
  | cons a as ih =>
    rw [List.mem_cons, not_or] at hs
    exact ih (running_act h (Ne.symm hs.1)) hs.2

theorem left_run (h : t.running = true) (hs : .start ∉ as) (hp : .stop ∉ as) :
    (t.run as).left.toNat = t.left.toNat - clocked as := by
  induction as generalizing t with
  | nil => rfl
  | cons a as ih =>
    rw [List.mem_cons, not_or] at hs hp
    rw [run_cons, ih (running_act h (Ne.symm hp.1)) hs.2 hp.2]
    simp only [clocked, List.map_cons, List.sum_cons]
    cases a with
    | start => exact absurd rfl hs.1
    | stop => exact absurd rfl hp.1
    | clock ms =>
      rw [act, toNat_left_clock, Action.millis]
      omega
    | setTimeout | query => exact congrArg _ (Nat.zero_add _).symm

theorem exists_started (h : (initial.run as).running = true) :
    ∃ before after, Started as before after := by
  induction as using List.reverseRecOn with
  | nil => cases h
  | append_singleton as a ih =>
    rw [run_append, run_cons, run_nil] at h
    have hmore : (initial.run as).running = true → a ≠ .start → a ≠ .stop →
        ∃ before after, Started (as ++ [a]) before after := by
      intro h hs hp
      obtain ⟨before, after, hstarted⟩ := ih h
      exact ⟨before, after ++ [a], hstarted.concat hs hp⟩
    cases a with
    | start => exact ⟨as, [], rfl, List.not_mem_nil, List.not_mem_nil⟩
    | stop => cases h
    | clock ms => exact hmore ((running_clock _ ms).symm.trans h) nofun nofun
    | setTimeout | query => exact hmore h nofun nofun

theorem running_run_iff (as : List Action) : (initial.run as).running = true ↔
    ∃ before after, as = before ++ .start :: after ∧ .stop ∉ after := by
  constructor
  · intro h
    obtain ⟨before, after, hstarted⟩ := exists_started h
    exact ⟨before, after, hstarted.eq, hstarted.unstopped⟩
  · rintro ⟨before, after, rfl, hp⟩
    rw [run_append, run_cons]
    exact running_run rfl hp

theorem Started.left (h : Started as before after) :
    (initial.run as).left.toNat = lastTimeout before - clocked after := by
  rw [h.eq, run_append, run_cons, left_run rfl h.unstarted h.unstopped, ← timeout_run]
  rfl

end

/-- What `as` have made of a new countdown. -/
structure CountsDown (as : List Action) (t : Countdown) : Prop where
  /-- The last start comes after the last stop. -/
  running : t.running = true ↔ ∃ before after, as = before ++ .start :: after ∧ .stop ∉ after
  /-- A timeout that was set later is not in force, and what was clocked before does not count. -/
  left : ∀ before after, Started as before after →
    t.left.toNat = lastTimeout before - clocked after
  expired : t.expired = true ↔
    ∃ before after, Started as before after ∧ lastTimeout before ≤ clocked after
  stopped : t.running = false → t.left = 0 ∧ ∀ ms, t.clock ms = t

/-- Whatever is done with a new countdown. -/
theorem counts_down_exactly (as : List Action) : CountsDown as (initial.run as) where
  running := running_run_iff as
  left := fun _ _ h => h.left
  expired := by
    rw [expired_iff]
    constructor
    · rintro ⟨hr, hl⟩
      obtain ⟨before, after, h⟩ := exists_started hr
      have := h.left
      exact ⟨before, after, h, by omega⟩
    · rintro ⟨before, after, h, hle⟩
      have := h.left
      exact ⟨(running_run_iff as).2 ⟨before, after, h.eq, h.unstopped⟩, by omega⟩
  stopped := fun h => ⟨by simp [Countdown.left, h], clock_of_stopped h⟩

example : ((initial.run [.setTimeout (.ofMillis 30), .start, .clock 10,
      .setTimeout (.ofMillis 5), .clock 10]).left,
    (initial.run [.setTimeout (.ofMillis 30), .start, .clock 10, .setTimeout (.ofMillis 5),
      .start, .clock 3]).left) = (10, 2) := by
  decide

end Countdown

namespace Backoff

def Action.millis : Action → Nat
  | .clock ms => ms.toNat
  | _ => 0

def clocked (as : List Action) : Nat := (as.map Action.millis).sum

def failures (as : List Action) : Nat := (as.rtakeWhile (· ≠ .reset)).count .fail

def answers (b : Backoff) : List Action → List Duration
  | [] => []
  | a :: as => (b.answer? a).toList ++ (b.act a).answers as

/-- The latest failure comes between `before` and `after`, and neither a stop nor a reset has come
since. -/
structure Waiting (as before after : List Action) : Prop where
  eq : as = before ++ .fail :: after
  unfailed : .fail ∉ after
  unstopped : .stop ∉ after
  unreset : .reset ∉ after

section
variable {b : Backoff} {as before after more : List Action} {a : Action} {d : Duration}

@[simp] theorem run_nil (b : Backoff) : b.run [] = b := rfl

@[simp] theorem run_cons (b : Backoff) (a : Action) (as : List Action) :
    b.run (a :: as) = (b.act a).run as := rfl

theorem run_append (b : Backoff) (as more : List Action) :
    b.run (as ++ more) = (b.run as).run more := List.foldl_append ..

theorem failures_concat (as : List Action) (a : Action) : failures (as ++ [a]) =
    if a = .reset then 0 else if a = .fail then failures as + 1 else failures as := by
  rw [failures, List.rtakeWhile_concat]
  by_cases hr : a = .reset
  · simp [hr]
  · by_cases hf : a = .fail
    · simp [hf, failures]
    · simp [hr, hf, failures]

theorem failures_le_append (as : List Action) (h : .reset ∉ more) :
    failures as ≤ failures (as ++ more) := by
  induction more using List.reverseRecOn with
  | nil => simp
  | append_singleton more a ih =>
    rw [List.mem_append, List.mem_singleton, not_or] at h
    rw [← List.append_assoc, failures_concat, if_neg (Ne.symm h.2)]
    have := ih h.1
    split <;> omega

theorem attempts_run (as : List Action) :
    (initial.run as).attempts = min maxAttempts (failures as) := by
  induction as using List.reverseRecOn with
  | nil => rfl
  | append_singleton as a ih =>
    rw [run_append, failures_concat]
    cases a with
    | fail =>
      simp only [run_cons, run_nil, act, attempts_fail, ih, reduceCtorEq, if_false, if_true]
      omega
    | reset => rfl
    | clock | stop | query => simpa [act, clock, stop] using ih

/-- A minute for each failure since the last reset and this one, up to ten. -/
theorem answer_fail (as : List Action) : (initial.run as).answer? .fail =
    some (Duration.ofSeconds (min (failures as + 1) 10 * 60)) := by
  have hmin : min (min maxAttempts (failures as) + 1) maxAttempts = min (failures as + 1) 10 := by
    rw [maxAttempts]
    omega
  rw [answer?, attempts_fail, attempts_run, hmin, delayAfter, reconnectStep, Duration.ofSeconds,
    Duration.ofSeconds, Nat.mul_right_comm, Nat.mul_comm 60]

theorem answer_fail_le (h : .reset ∉ more) (hd : (initial.run as).answer? .fail = some d)
    {d' : Duration} (hd' : (initial.run (as ++ more)).answer? .fail = some d') : d ≤ d' := by
  rw [answer_fail, Option.some_inj] at hd hd'
  rw [← hd, ← hd']
  have := failures_le_append as h
  exact Nat.mul_le_mul_right _ (by omega)

theorem answer_eq_delay (b : Backoff) :
    b.answer? .fail = some (Duration.ofMillis b.fail.delay.toNat) := by
  rw [answer?, delayAfter_eq, toNat_delay_fail]

theorem answers_concat (b : Backoff) (as : List Action) (a : Action) :
    b.answers (as ++ [a]) = b.answers as ++ ((b.run as).answer? a).toList := by
  induction as generalizing b with
  | nil => simp [answers]
  | cons a as ih => simp [answers, ih]

theorem delay_run (as : List Action) : Duration.ofMillis (initial.run as).delay.toNat =
    ((initial.answers as).getLast?.getD 0) := by
  induction as using List.reverseRecOn with
  | nil => rfl
  | append_singleton as a ih =>
    rw [run_append, run_cons, run_nil, answers_concat]
    cases a with
    | fail =>
      rw [answer_eq_delay, Option.toList_some, List.getLast?_concat]
      rfl
    | clock ms =>
      rw [act, delay_clock, ih, answer?, Option.toList_none, List.append_nil]
      nofun
    | stop | reset | query =>
      rw [answer?, Option.toList_none, List.append_nil]
      · exact ih
      · nofun

theorem Waiting.concat (h : Waiting as before after) (hf : a ≠ .fail) (hs : a ≠ .stop)
    (hr : a ≠ .reset) : Waiting (as ++ [a]) before (after ++ [a]) where
  eq := by rw [h.eq, List.append_assoc, List.cons_append]
  unfailed := by simpa using ⟨h.unfailed, hf.symm⟩
  unstopped := by simpa using ⟨h.unstopped, hs.symm⟩
  unreset := by simpa using ⟨h.unreset, hr.symm⟩

theorem exists_waiting (h : (initial.run as).running = true) :
    ∃ before after, Waiting as before after := by
  induction as using List.reverseRecOn with
  | nil => cases h
  | append_singleton as a ih =>
    rw [run_append, run_cons, run_nil] at h
    have hmore : (initial.run as).running = true → a ≠ .fail → a ≠ .stop → a ≠ .reset →
        ∃ before after, Waiting (as ++ [a]) before after := by
      intro h hf hs hr
      obtain ⟨before, after, hw⟩ := ih h
      exact ⟨before, after ++ [a], hw.concat hf hs hr⟩
    cases a with
    | fail => exact ⟨as, [], rfl, List.not_mem_nil, List.not_mem_nil, List.not_mem_nil⟩
    | stop | reset => cases h
    | clock ms => exact hmore (running_clock.symm.trans h) nofun nofun nofun
    | query => exact hmore h nofun nofun nofun

theorem left_run (h : b.running = true) (hf : .fail ∉ as) (hs : .stop ∉ as) (hr : .reset ∉ as) :
    (b.run as).running = true ∧ (b.run as).left.toNat = b.left.toNat - clocked as := by
  induction as generalizing b with
  | nil => exact ⟨h, rfl⟩
  | cons a as ih =>
    rw [List.mem_cons, not_or] at hf hs hr
    simp only [run_cons, clocked, List.map_cons, List.sum_cons]
    cases a with
    | fail => exact absurd rfl hf.1
    | stop => exact absurd rfl hs.1
    | reset => exact absurd rfl hr.1
    | clock ms =>
      obtain ⟨hrun, hl⟩ := ih (running_clock.trans h) hf.2 hs.2 hr.2
      refine ⟨hrun, hl.trans ?_⟩
      rw [toNat_left_clock, Action.millis, clocked]
      omega
    | query =>
      obtain ⟨hrun, hl⟩ := ih h hf.2 hs.2 hr.2
      exact ⟨hrun, hl.trans (congrArg _ (Nat.zero_add _).symm)⟩

theorem Waiting.left (h : Waiting as before after) : (initial.run as).running = true ∧
    (initial.run as).left.toNat = (initial.run before).fail.delay.toNat - clocked after := by
  rw [h.eq, run_append, run_cons]
  exact left_run rfl h.unfailed h.unstopped h.unreset

end

/-- What `as` have made of a new backoff. -/
structure Follows (as : List Action) (b : Backoff) : Prop where
  attempts : b.attempts = min 10 (failures as)
  /-- The answer to the failure behind `before`, the next since the last reset. -/
  answer : ∀ before after, as = before ++ .fail :: after →
    (initial.run before).answer? .fail =
      some (Duration.ofSeconds (min (failures before + 1) 10 * 60))
  growing : ∀ before mid after d d', as = before ++ .fail :: mid ++ .fail :: after →
    .reset ∉ mid → (initial.run before).answer? .fail = some d →
    (initial.run (before ++ .fail :: mid)).answer? .fail = some d' → d ≤ d'
  delay : Duration.ofMillis b.delay.toNat = (initial.answers as).getLast?.getD 0
  expired : b.expired = true ↔ ∃ before after d, Waiting as before after ∧
    (initial.run before).answer? .fail = some d ∧ d ≤ Duration.ofMillis (clocked after)
  stop : b.stop.attempts = b.attempts
  clock : ∀ ms, (b.clock ms).attempts = b.attempts ∧ (b.clock ms).delay = b.delay

/-- Whatever is done with a new backoff. -/
theorem follows_history (as : List Action) : Follows as (initial.run as) where
  attempts := attempts_run as
  answer := fun before _ _ => answer_fail before
  growing := by
    intro before mid after d d' _ hr hd hd'
    have hmid : .reset ∉ Action.fail :: mid := by simpa using hr
    exact answer_fail_le hmid hd hd'
  delay := delay_run as
  expired := by
    have hle : ∀ m n : Nat, Duration.ofMillis m ≤ Duration.ofMillis n ↔ m ≤ n := fun m n =>
      Nat.mul_le_mul_right_iff (by decide)
    rw [show (initial.run as).expired = (initial.run as).countdown.expired from rfl,
      Countdown.expired_iff]
    constructor
    · rintro ⟨hr, hl⟩
      obtain ⟨before, after, h⟩ := exists_waiting hr
      obtain ⟨-, hleft⟩ := h.left
      rw [Backoff.left, hl] at hleft
      exact ⟨before, after, _, h, answer_eq_delay _, (hle _ _).2 (by omega)⟩
    · rintro ⟨before, after, d, h, hd, hc⟩
      obtain ⟨hr, hleft⟩ := h.left
      rw [answer_eq_delay, Option.some_inj] at hd
      rw [← hd, hle] at hc
      exact ⟨hr, hleft.trans (by omega)⟩
  stop := rfl
  clock := fun _ => ⟨attempts_clock, delay_clock⟩

end Backoff

end IGate
