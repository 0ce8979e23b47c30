import IGate.Proofs.Client.Conversation
import IGate.Proofs.Client.Delay
import IGate.Proofs.Client.Serving
import IGate.Proofs.Deadline

/-! How long an attempt lasts once its connection is open, while writing takes no time. It waits for
two lines, each until the deadline that the wait began with, so that it is over by the second of
these deadlines, whatever the server sends or withholds. -/

namespace IGate

open LineBuffer

theorem Heard.ofSignal_poll {now deadline : Duration} {buffer : Bytes} :
    Heard.ofSignal now deadline buffer .poll = Heard.ofScan buffer := by
  simp [Heard.ofSignal]

namespace Inflow

/-- The signals of a wait for a line to which `i` comes: time passes until the next arrival, or
until the deadline if that is earlier. -/
def signals (deadline now : Duration) (i : Inflow) : List Signal :=
  if hs : scan i.buffer = .unfinished then
    have := length_le_of_scan_unfinished hs
    match i.coming with
    | [] => [.elapse (deadline - now), .timeout]
    | (due, arrival) :: rest =>
      if due ≤ max now deadline then
        match arrival with
        | .finished | .chunk [] => [.elapse (due - now), .endOfStream]
        | .failed e => [.elapse (due - now), .readFailed e]
        | .chunk (b :: bs) =>
          .elapse (due - now) :: .received ((b :: bs).take readChunk) ::
            -- what settles the wait is looked at as it is received
            if scan (i.pull due (b :: bs) rest).buffer = .unfinished then
              signals deadline (max now due) (i.pull due (b :: bs) rest)
            else []
      else [.elapse (deadline - now), .timeout]
  else [.poll]
termination_by maxLineLength + 1 - i.buffer.length
decreasing_by
  simp only [pull, List.length_append, List.length_take, List.length_cons, readChunk]
  omega

/-- What a wait tells that ends in `h`, and what it leaves. -/
inductive Settles (i : Inflow) : Heard → Reading → Prop
  | line (raw) : Settles i (.line raw i.buffer) (.ofLine raw)
  | failed (e) : Settles i (.failed e) (.failed e)
  | timedOut : Settles i .timedOut .timedOut

/-- What comes in a wait for a line, in what the wait ends and when. -/
inductive Wait (deadline : Duration) :
    Duration → Inflow → List Signal → Heard → Duration → Prop
  | now {now i} (hs : scan i.buffer ≠ .unfinished) :
    Wait deadline now i [.poll] (Heard.ofScan i.buffer) now
  | later {now i due s h} (hs : scan i.buffer = .unfinished) (hd : max now due ≤ deadline)
    (hr : s.failsRead = true ∨ s = .timeout)
    (ho : Heard.ofSignal (max now due) deadline i.buffer s = h) :
    Wait deadline now i [.elapse (due - now), s] h (max now due)
  | chunk {now i due bytes rest ss h later} (hs : scan i.buffer = .unfinished)
    (hd : max now due ≤ deadline)
    (hn : Wait deadline (max now due) (i.pull due bytes rest) ss h later) :
    Wait deadline now i (.elapse (due - now) :: .received (bytes.take readChunk) ::
      if scan (i.pull due bytes rest).buffer = .unfinished then ss else []) h later

/-- The signals of a wait are those on which the client waits as the wait for a line does. -/
theorem wait_signals {deadline now : Duration} (i : Inflow) (hle : now ≤ deadline) :
    ∃ h, Settles (i.readUntil deadline now).2.1 h (i.readUntil deadline now).1 ∧
      Wait deadline now i (i.signals deadline now) h (i.readUntil deadline now).2.2 := by
  have hin : ∀ {now due : Duration}, now ≤ deadline → due ≤ max now deadline →
      max now due ≤ deadline := fun hle hd => max_le hle (hd.trans (max_le hle le_rfl))
  have hlast : ∀ {now : Duration} {i : Inflow}, now ≤ deadline → scan i.buffer = .unfinished →
      Wait deadline now i [.elapse (deadline - now), .timeout] .timedOut (max now deadline) :=
    fun hle hs => .later hs (max_le hle le_rfl) (.inr rfl) (by simp [Heard.ofSignal, hs])
  fun_induction readUntil deadline now i with
  | case1 now i raw rest hs =>
    have ho : Heard.ofScan i.buffer = .line raw rest := by simp only [Heard.ofScan, hs]
    rw [signals, dif_neg (by simp [hs])]
    exact ⟨_, .line raw, ho ▸ .now (by simp [hs])⟩
  | case2 now i hs =>
    have ho : Heard.ofScan i.buffer = .failed overlongError := by simp only [Heard.ofScan, hs]
    rw [signals, dif_neg (by simp [hs])]
    exact ⟨_, .failed _, ho ▸ .now (by simp [hs])⟩
  | case3 now i hs hlen hc =>
    rw [signals, dif_pos hs, hc]
    exact ⟨_, .timedOut, hlast hle hs⟩
  | case4 now i hs hlen due rest hd hc | case6 now i hs hlen due rest hd hc =>
    rw [signals, dif_pos hs, hc]
    simp only [if_pos hd]
    exact ⟨_, .failed _, .later hs (hin hle hd) (.inl rfl) (by simp [Heard.ofSignal, hs])⟩
  | case5 now i hs hlen due rest hd e hc =>
    rw [signals, dif_pos hs, hc]
    simp only [if_pos hd]
    exact ⟨_, .failed _, .later hs (hin hle hd) (.inl rfl) (by simp [Heard.ofSignal, hs])⟩
  | case7 now i hs hlen due rest hd b bs hc ih =>
    obtain ⟨h, hsettles, hwait⟩ := ih (hin hle hd)
    rw [signals, dif_pos hs, hc]
    simp only [if_pos hd]
    exact ⟨h, hsettles, .chunk hs (hin hle hd) hwait⟩
  | case8 now i hs hlen due rest a hc hd =>
    rw [signals, dif_pos hs, hc]
    simp only [if_neg hd]
    exact ⟨_, .timedOut, hlast hle hs⟩

/-- Whether two lines come one after the other, each in time, and when that is settled. -/
def twoLines (i : Inflow) (now timeout : Duration) : Bool × Duration :=
  match i.readLine now timeout with
  | (.line _, i', later) =>
    ((i'.readLine later timeout).1.text?.isSome, (i'.readLine later timeout).2.2)
  | (_, _, later) => (false, later)

theorem twoLines_le (i : Inflow) (now timeout : Duration) :
    (i.twoLines now timeout).2 ≤ now + timeout + timeout := by
  have hfirst := (i.readLine_timely now timeout).inTime
  unfold twoLines
  split
  · next i' later hr =>
    rw [hr] at hfirst
    exact (i'.readLine_timely later timeout).inTime.trans (Nat.add_le_add_right hfirst _)
  · next hr =>
    rw [hr] at hfirst
    exact hfirst.trans (Nat.le_add_right _ _)

end Inflow

/-- The latest time at which a phase of an attempt with an open connection ends. A wait for a line
ends at its deadline, and a write takes no time. -/
def Phase.expiry? (now : Duration) : Phase → Option Duration
  | .greeting _ _ deadline => some deadline
  | .loggingIn .. => some now
  | _ => none

def Phase.OnTime (began timeout now : Duration) : Phase → Prop
  | .greeting .banner _ deadline => deadline ≤ began + timeout ∧ now ≤ deadline
  | .loggingIn .. => now ≤ began + timeout
  | .greeting .acknowledgement _ deadline => deadline ≤ began + timeout + timeout ∧ now ≤ deadline
  | _ => False

namespace Phase.OnTime

variable {began timeout now : Duration} {p : Phase}

theorem attempt? (h : p.OnTime began timeout now) : p.attempt? = some true := by
  cases p with
  | greeting | loggingIn => rfl
  | _ => cases h

theorem now_le (h : p.OnTime began timeout now) : now ≤ began + timeout + timeout := by
  cases p with
  | greeting stage =>
    cases stage with
    | banner => exact (h.2.trans h.1).trans (Nat.le_add_right _ _)
    | acknowledgement => exact h.2.trans h.1
  | loggingIn => exact h.trans (Nat.le_add_right _ _)
  | _ => cases h

theorem later {later : Duration} (h : p.OnTime began timeout now)
    (hle : ∀ expiry, p.expiry? now = some expiry → later ≤ expiry) :
    p.OnTime began timeout later := by
  cases p with
  | greeting stage buffer deadline =>
    cases stage with
    | banner => exact ⟨h.1, hle deadline rfl⟩
    | acknowledgement => exact ⟨h.1, hle deadline rfl⟩
  | loggingIn => exact (hle now rfl).trans h
  | _ => cases h

end Phase.OnTime

namespace Client

/-- `d` may pass before the attempt goes on: no wait of it ends sooner, and nothing is being
written. -/
def MayPass (c : Client) (d : Duration) : Prop :=
  ∀ w expiry, c.worker = some w → w.phase.expiry? c.now = some expiry → c.now + d ≤ expiry

def Punctual (c : Client) : List Signal → Prop
  | [] => True
  | s :: rest => (∀ d, s = .elapse d → c.MayPass d) ∧ (c.step s).1.Punctual rest

def OnTime (began : Duration) (c : Client) : Prop :=
  ∃ w, c.worker = some w ∧ w.phase.OnTime began c.settings.readTimeout c.now

/-- An attempt is over: it came to a link, or failed and the next is scheduled, or was given up for
a stop. -/
inductive Over (c : Client) : Prop
  | linked (hc : c.shared.connected = true)
  | failed {delay w} (hf : JustFailed delay c w)
  | abandoned {w} (hw : c.worker = some w) (hp : w.phase = .between) (hl : w.link = none)
    (hr : c.shared.running = false)

section
variable {c c' : Client} {w : Worker} {s : Signal} {ss : List Signal} {new : Trace}
  {began : Duration}

theorem OnTime.now_le (h : c.OnTime began) :
    c.now ≤ began + c.settings.readTimeout + c.settings.readTimeout := by
  obtain ⟨w, -, hp⟩ := h
  exact hp.now_le

theorem OnTime.elapsed {d : Duration} (h : c.OnTime began) (hd : c.MayPass d) :
    OnTime began { c with now := c.now + d } := by
  obtain ⟨w, hw, hp⟩ := h
  exact ⟨w, hw, hp.later fun expiry he => hd w expiry hw he⟩

/-- An attempt goes on with the deadlines that it has, or it is over. -/
theorem Move.onTime (hm : Move c s c' new) (hk : c.WellKept) (h : c.OnTime began)
    (hs : ∀ d, s = .elapse d → c.MayPass d) :
    c'.OnTime began ∨ c'.Over ∧ c'.now = c.now := by
  have hon : ∀ {w p}, c.worker = some w → w.phase = p →
      p.OnTime began c.settings.readTimeout c.now := by
    obtain ⟨v, hv, hp⟩ := h
    rintro w _ hw rfl
    obtain rfl := Option.some.inj (hv.symm.trans hw)
    exact hp
  have hfree : ∀ {w}, c.worker = some w → w.link = none ∧ w.attempted = true := fun hw =>
    (hk.sound hw).attempted_of_attempt (by rw [(hon hw rfl).attempt?]; rfl)
  have hfailed : ∀ {w}, c.worker = some w → (c.scheduleReconnect w).1.Over := fun hw =>
    .failed (justFailed_scheduleReconnect c (hfree hw).1 (hfree hw).2)
  cases hm with
  | ignored | stopRequested | accepted | rejected | clocked | sinkSet | stirred => exact .inl h
  | elapsed d => exact .inl (h.elapsed (hs d rfl))
  | started hw =>
    obtain ⟨v, hv, -⟩ := h
    cases hw.symm.trans hv
  | ended hw hb | rested hw hb | took hw hb | attempted hw hb | reattempted hw hb | dozed hw hb =>
    cases (hon hw rfl).attempt?.symm.trans (attempt?_of_boundary hb)
  | abandoned hw hp hr => exact .inr ⟨.abandoned rfl rfl (hfree hw).1 hr, rfl⟩
  | @awaited w stage buffer deadline s buffer' hw hp =>
    have hgreeting := hon hw hp
    refine .inl ⟨_, rfl, ?_⟩
    cases stage with
    | banner => exact hgreeting
    | acknowledgement => exact hgreeting
  | greeted hw hp => exact .inl ⟨_, rfl, (hon hw hp).2.trans (hon hw hp).1⟩
  | established => exact .inr ⟨.linked rfl, rfl⟩
  | ungreeted hw | loginFailed hw => exact .inr ⟨hfailed hw, rfl⟩
  | loginSent hw hp =>
    have hlogin := hon hw hp
    exact .inl ⟨_, rfl, hlogin⟩
  | loginFlushed hw hp =>
    exact .inl ⟨_, rfl, Nat.add_le_add_right (hon hw hp) _, Nat.le_add_right _ _⟩
  | opened hw hp | unreached hw hp | frameSent hw hp | frameFlushed hw hp | frameFailed hw hp
  | pollWoken hw hp | pollEnded hw hp | polled hw hp | heard hw hp | readFailed hw hp
  | sinkDone hw hp | idleEnded hw hp | idleWoken hw hp =>
    cases hon hw hp

/-- While nothing is late, an attempt is under way until it is over, and neither is later than two
waits after its connection. -/
theorem OnTime.run (h : c.OnTime began) (hk : c.WellKept) (hp : c.Punctual ss) :
    (c.run ss).1.OnTime began ∨ ∃ before s, before ++ [s] <+: ss ∧
      (c.run before).1.OnTime began ∧ (c.run (before ++ [s])).1.Over ∧
      (c.run (before ++ [s])).1.now ≤ began + c.settings.readTimeout + c.settings.readTimeout := by
  induction ss generalizing c with
  | nil => exact .inl h
  | cons s ss ih =>
    have hm := c.step_makes s
    rcases hm.onTime hk h hp.1 with hon | ⟨hover, hnow⟩
    · rcases ih hon (hm.wellKept hk) hp.2 with hend | ⟨before, t, hpre, hbefore, hover, hle⟩
      · exact .inl hend
      · rw [hm.settings] at hle
        exact .inr ⟨s :: before, t, List.cons_prefix_cons.2 ⟨rfl, hpre⟩, hbefore, hover, hle⟩
    · refine .inr ⟨[], s, ⟨ss, rfl⟩, h, hover, ?_⟩
      exact hnow.le.trans h.now_le

theorem Punctual.cons (hs : s.passes = false) (h : (c.step s).1.Punctual ss) :
    c.Punctual (s :: ss) := by
  refine ⟨?_, h⟩
  rintro d rfl
  cases hs

theorem Punctual.append {more : List Signal} (h : c.Punctual ss)
    (h' : (c.run ss).1.Punctual more) : c.Punctual (ss ++ more) := by
  induction ss generalizing c with
  | nil => exact h'
  | cons s ss ih => exact ⟨h.1, ih h.2 h'⟩

theorem Move.greeting_of_opened (hm : Move c s c' new) (ho : .opened ∈ new) :
    ∃ w, c'.worker = some w ∧
      w.phase = .greeting .banner [] (c'.now + c'.settings.readTimeout) := by
  cases hm <;> simp at ho
  exact ⟨_, rfl, rfl⟩

/-! An attempt to which a server's bytes come at their times -/

variable {stage : Stage} {deadline now : Duration}

theorem greetingHeard_wait (c : Client) (w : Worker) (p : Phase) (stage : Stage)
    (deadline : Duration) (h : Heard) :
    ((c.wait w p).greetingHeard { w with phase := p } stage deadline h).1 =
      (c.greetingHeard w stage deadline h).1 := by
  cases h with
  | line => cases stage <;> rfl
  | failed | timedOut | waiting => rfl

theorem punctual_elapse {d : Duration} {buffer : Bytes} (hw : c.worker = some w)
    (hp : w.phase = .greeting stage buffer deadline) (hd : c.now + d ≤ deadline)
    (h : Punctual { c with now := c.now + d } ss) : c.Punctual (.elapse d :: ss) := by
  refine ⟨?_, h⟩
  rintro _ ⟨⟩ v expiry hv he
  obtain rfl := Option.some.inj (hv.symm.trans hw)
  rw [hp] at he
  cases he
  exact hd

theorem run_settling {buffer : Bytes} {h : Heard} (hw : c.worker = some w)
    (hp : w.phase = .greeting stage buffer deadline) (hs : s.failsRead = true ∨ s = .timeout)
    (ho : Heard.ofSignal c.now deadline buffer s = h) :
    c.Punctual [s] ∧ (c.run [s]).1 = (c.greetingHeard w stage deadline h).1 := by
  have hpasses : s.passes = false := by
    rcases hs with hs | rfl
    · exact Signal.passes_of_failsRead hs
    · rfl
  refine ⟨.cons hpasses trivial, ?_⟩
  rw [run_cons, run_nil, step_of_greeting hw hp hs, ho]

theorem run_received {chunk buffer : Bytes} (hw : c.worker = some w)
    (hp : w.phase = .greeting stage buffer deadline) (hs : scan buffer = .unfinished)
    (hlen : chunk.length ≤ readChunk)
    (hss : scan (buffer ++ chunk) ≠ .unfinished → ss = [.poll])
    (hpunctual : (c.wait w (.greeting stage (buffer ++ chunk) deadline)).Punctual ss) :
    c.Punctual (.received chunk :: if scan (buffer ++ chunk) = .unfinished then ss else []) ∧
      (c.run (.received chunk :: if scan (buffer ++ chunk) = .unfinished then ss else [])).1 =
        ((c.wait w (.greeting stage (buffer ++ chunk) deadline)).run ss).1 := by
  have hstep := congrArg Prod.fst (step_of_greeting (s := .received chunk) hw hp (.inl rfl))
  rw [Heard.ofSignal_received hs hlen] at hstep
  rw [run_cons]
  split
  · next hu =>
    have hheld : (c.step (.received chunk)).1 =
        c.wait w (.greeting stage (buffer ++ chunk) deadline) := by
      rw [hstep]
      simp only [Heard.ofScan, hu, greetingHeard]
    rw [hheld]
    exact ⟨.cons rfl (hheld ▸ hpunctual), rfl⟩
  · next hu =>
    obtain ⟨-, hpoll⟩ := run_settling (c := c.wait w (.greeting stage (buffer ++ chunk) deadline))
      (s := .poll) rfl rfl (.inl rfl) Heard.ofSignal_poll
    rw [hss hu, hpoll, greetingHeard_wait]
    exact ⟨.cons rfl trivial, hstep⟩

/-- On the signals of a wait for a line the client comes to what the wait ends in, and no deadline
is missed. -/
theorem run_wait {i : Inflow} {h : Heard} {later : Duration}
    (hwait : Inflow.Wait deadline now i ss h later) (hw : c.worker = some w)
    (hp : w.phase = .greeting stage i.buffer deadline) (hnow : c.now = now) :
    c.Punctual ss ∧
      (c.run ss).1 = ({ c with now := later }.greetingHeard w stage deadline h).1 := by
  induction hwait generalizing c w with
  | now hs =>
    subst hnow
    exact run_settling hw hp (.inl rfl) Heard.ofSignal_poll
  | @later now i due s h hs hd hr ho =>
    subst hnow
    rw [← add_tsub_eq_max] at hd ho ⊢
    obtain ⟨hpunctual, hrun⟩ :=
      run_settling (c := { c with now := c.now + (due - c.now) }) hw hp hr ho
    exact ⟨punctual_elapse hw hp hd hpunctual, hrun⟩
  | @chunk now i due bytes rest ss h later hs hd hn ih =>
    subst hnow
    rw [← add_tsub_eq_max] at hd hn ih
    have hss : scan (i.buffer ++ bytes.take readChunk) ≠ .unfinished → ss = [.poll] := by
      intro hu
      cases hn with
      | now => rfl
      | later hs' | chunk hs' => exact absurd hs' hu
    have hheld := ih rfl rfl rfl
      (c := { c with now := c.now + (due - c.now) }.wait w
        (.greeting stage (i.buffer ++ bytes.take readChunk) deadline))
    obtain ⟨hpunctual, hrun⟩ := run_received (c := { c with now := c.now + (due - c.now) }) hw hp hs
      (List.length_take_le readChunk bytes) hss hheld.1
    refine ⟨punctual_elapse hw hp hd hpunctual, hrun.trans (hheld.2.trans ?_)⟩
    exact greetingHeard_wait { c with now := later } w _ stage deadline h

theorem run_login {buffer login : Bytes} (hw : c.worker = some w)
    (hp : w.phase = .loggingIn buffer login) (hl : login ≠ []) :
    c.Punctual [.took login.length, .flushed] ∧ (c.run [.took login.length, .flushed]).1 =
      c.wait w (.greeting .acknowledgement buffer (c.now + c.settings.readTimeout)) := by
  obtain ⟨n, hn⟩ := Nat.exists_eq_succ_of_ne_zero (List.length_pos_of_ne_nil hl).ne'
  have htook : (c.step (.took login.length)).1 = c.wait w (.loggingIn buffer []) := by
    rw [hn]
    simp only [step, hw, proceed, hp, loggingIn, Pushed.ofSignal]
    rw [if_neg Signal.noConfusion, List.drop_of_length_le hn.le]
  refine ⟨.cons rfl (.cons rfl trivial), ?_⟩
  rw [run_cons, run_cons, run_nil, htook]
  rfl

/-- After the signals `ss` an attempt is decided: whether it came to a link, and when. -/
structure Decided (c : Client) (ss : List Signal) (outcome : Bool × Duration) : Prop where
  punctual : c.Punctual ss
  time : (c.run ss).1.now = outcome.2
  linked : outcome.1 = true → (c.run ss).1.shared.connected = true
  failed : outcome.1 = false → ∃ delay w, JustFailed delay (c.run ss).1 w

theorem Decided.after {more : List Signal} {outcome : Bool × Duration}
    (h : Decided (c.run ss).1 more outcome) (hp : c.Punctual ss) :
    Decided c (ss ++ more) outcome := by
  obtain ⟨hpunctual, ht, hlinked, hfailed⟩ := h
  refine ⟨hp.append hpunctual, ?_, fun hl => ?_, fun hl => ?_⟩ <;> rw [run_append]
  · exact ht
  · exact hlinked hl
  · exact hfailed hl

theorem decided_of_greeting {i i' : Inflow} {r : Reading} {later : Duration} (hk : c.WellKept)
    (hw : c.worker = some w)
    (hp : w.phase = .greeting stage i.buffer (c.now + c.settings.readTimeout))
    (hr : i.readLine c.now c.settings.readTimeout = (r, i', later)) :
    (r.text? = none →
      Decided c (i.signals (c.now + c.settings.readTimeout) c.now) (false, later)) ∧
    ∀ text, r = .line text →
      c.Punctual (i.signals (c.now + c.settings.readTimeout) c.now) ∧
      ∃ raw, (c.run (i.signals (c.now + c.settings.readTimeout) c.now)).1 =
        ({ c with now := later }.greeted w raw i'.buffer stage).1 := by
  obtain ⟨h, hs, hwait⟩ := i.wait_signals (Nat.le_add_right c.now c.settings.readTimeout)
  obtain ⟨hpunctual, hrun⟩ := run_wait hwait hw hp rfl
  have hread : i.readUntil (c.now + c.settings.readTimeout) c.now = (r, i', later) := hr
  rw [hread] at hs hrun
  have hattempt : w.phase.attempt?.isSome := by rw [hp]; rfl
  obtain ⟨hl, ha⟩ := (hk.sound hw).attempted_of_attempt hattempt
  cases hs with
  | line raw => exact ⟨nofun, fun _ _ => ⟨hpunctual, raw, hrun⟩⟩
  | failed | timedOut =>
    refine ⟨fun _ => ⟨hpunctual, by rw [hrun]; rfl, nofun, fun _ => ?_⟩, nofun⟩
    rw [hrun]
    exact ⟨_, _, justFailed_scheduleReconnect { c with now := later } hl ha⟩

/-- The answer to the login decides the attempt. -/
theorem decided_of_acknowledgement {i : Inflow} (hk : c.WellKept) (hw : c.worker = some w)
    (hp : w.phase = .greeting .acknowledgement i.buffer (c.now + c.settings.readTimeout)) :
    Decided c (i.signals (c.now + c.settings.readTimeout) c.now)
      ((i.readLine c.now c.settings.readTimeout).1.text?.isSome,
        (i.readLine c.now c.settings.readTimeout).2.2) := by
  rcases hr : i.readLine c.now c.settings.readTimeout with ⟨r, i', later⟩
  obtain ⟨hfailed, hline⟩ := decided_of_greeting hk hw hp hr
  cases r with
  | timedOut | failed => exact hfailed rfl
  | line text =>
    obtain ⟨hpunctual, raw, hrun⟩ := hline text rfl
    refine ⟨hpunctual, ?_, fun _ => ?_, nofun⟩ <;> rw [hrun] <;> rfl

def loggedIn (c : Client) (i : Inflow) : List Signal :=
  [.took c.settings.login.bytes.length, .flushed] ++
    i.signals (c.now + c.settings.readTimeout) c.now

theorem decided_of_loggingIn {i : Inflow} (hk : c.WellKept) (hw : c.worker = some w)
    (hp : w.phase = .loggingIn i.buffer c.settings.login.bytes) :
    Decided c (c.loggedIn i) ((i.readLine c.now c.settings.readTimeout).1.text?.isSome,
      (i.readLine c.now c.settings.readTimeout).2.2) := by
  have hlogin : c.settings.login.bytes ≠ [] := by
    rw [Login.bytes_eq]
    exact List.concat_ne_nil _ _
  obtain ⟨hpunctual, hrun⟩ := run_login hw hp hlogin
  refine Decided.after ?_ hpunctual
  rw [hrun]
  exact decided_of_acknowledgement (hk.waitAttempt hw (by rw [hp]; rfl) rfl) rfl rfl

/-- The signals of an attempt with an open connection to which `i` comes, when a write takes all of
its bytes and no time. -/
def attended (c : Client) (i : Inflow) : List Signal :=
  match i.readLine c.now c.settings.readTimeout with
  | (.line _, i', later) =>
    i.signals (c.now + c.settings.readTimeout) c.now ++ { c with now := later }.loggedIn i'
  | _ => i.signals (c.now + c.settings.readTimeout) c.now

theorem decided_of_banner {i : Inflow} (hk : c.WellKept) (hw : c.worker = some w)
    (hp : w.phase = .greeting .banner i.buffer (c.now + c.settings.readTimeout)) :
    Decided c (c.attended i) (i.twoLines c.now c.settings.readTimeout) := by
  rcases hr : i.readLine c.now c.settings.readTimeout with ⟨r, i', later⟩
  obtain ⟨hfailed, hline⟩ := decided_of_greeting hk hw hp hr
  cases r with
  | timedOut | failed =>
    rw [attended, Inflow.twoLines, hr]
    exact hfailed rfl
  | line text =>
    obtain ⟨hpunctual, raw, hrun⟩ := hline text rfl
    rw [attended, Inflow.twoLines, hr]
    refine Decided.after ?_ hpunctual
    have hk' : ({ c with now := later } : Client).WellKept := hk
    have hattempt : w.phase.attempt?.isSome := by rw [hp]; rfl
    rw [hrun]
    exact decided_of_loggingIn (hk'.waitAttempt hw hattempt rfl) rfl rfl

end

structure Bounded (c : Client) : Prop where
  /-- At any moment before which no deadline was missed it is under way, or was over in time. -/
  inTime : ∀ ss, c.Punctual ss →
    (c.run ss).1.OnTime c.now ∧ (c.run ss).1.now ≤ c.now + 2 * c.settings.readTimeout ∨
      ∃ before s, before ++ [s] <+: ss ∧ (c.run before).1.OnTime c.now ∧
        (c.run (before ++ [s])).1.Over ∧
        (c.run (before ++ [s])).1.now ≤ c.now + 2 * c.settings.readTimeout
  /-- Whatever comes from the server, and whenever it comes. -/
  attended : ∀ coming,
    Decided c (c.attended ⟨[], coming, 0⟩)
      (Inflow.twoLines ⟨[], coming, 0⟩ c.now c.settings.readTimeout) ∧
    (c.run (c.attended ⟨[], coming, 0⟩)).1.now ≤ c.now + 2 * c.settings.readTimeout

/-- A wait for a line ends by the deadline that it began with, and with the line if that is there in
time. Hence an attempt is over two waits after its connection was opened. -/
theorem attempts_end_in_time (settings : Settings) (capacity : UInt64) (before : List Signal)
    (s : Signal) (ho : .opened ∈ (((initial settings capacity).run before).1.step s).2) :
    (∀ i now timeout, Inflow.Timely i now timeout) ∧
      Bounded (((initial settings capacity).run before).1.step s).1 := by
  have hm := ((initial settings capacity).run before).1.step_makes s
  have hk := hm.wellKept (run_wellKept settings capacity before)
  obtain ⟨w, hw, hp⟩ := hm.greeting_of_opened ((mem_quiet_iff rfl).2 ho)
  generalize (((initial settings capacity).run before).1.step s).1 = c at *
  have hdouble : c.now + 2 * c.settings.readTimeout =
      c.now + c.settings.readTimeout + c.settings.readTimeout := by
    rw [two_mul, Nat.add_assoc]
  have hon : c.OnTime c.now := ⟨w, hw, by rw [hp]; exact ⟨le_rfl, Nat.le_add_right _ _⟩⟩
  refine ⟨Inflow.readLine_timely, fun ss hss => ?_, fun coming => ?_⟩
  · rw [hdouble]
    refine (hon.run hk hss).imp_left fun hend => ⟨hend, ?_⟩
    have hle := hend.now_le
    rwa [run_settings] at hle
  · have hdecided := decided_of_banner (i := ⟨[], coming, 0⟩) hk hw hp
    rw [hdecided.time, hdouble]
    exact ⟨hdecided, Inflow.twoLines_le _ _ _⟩

theorem first_attempt_ends_in_time :
    .opened ∈ (((initial trialSettings 2000).run [.call .start, .turn]).1.step .connected).2 ∧
      Bounded (((initial trialSettings 2000).run [.call .start, .turn]).1.step .connected).1 :=
  ⟨by decide, (attempts_end_in_time trialSettings 2000 _ _ (by decide)).2⟩

end Client

end IGate
