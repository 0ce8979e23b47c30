import IGate.Proofs.Client.Conversation
import IGate.Proofs.Client.Status
import IGate.Proofs.Ending
import IGate.Proofs.Queue.Budget

/-! Stops. Whatever a worker was doing, once it has ended there is no link and no frame, no further
frame was begun, and nothing of what was accepted before goes out on a connection made later. -/

namespace IGate

open Trace
open Interleaving (State)

namespace Client

section
variable {c c' : Client} {w : Worker} {s : Signal} {new : Trace} {capacity : UInt64}

/-! Without a worker -/

/-- The queue counts its bytes, and without a worker it has no frame. -/
structure Tidy (capacity : UInt64) (c : Client) : Prop where
  budgeted : Queue.Budgeted capacity c.shared.queue
  bare : c.worker = none → c.shared.queue.frames = []

theorem Move.tidy (hm : Move c s c' new) (hk : c.WellKept) (h : Tidy capacity c) :
    Tidy capacity c' := by
  cases hm with
  | ignored | stopRequested | rejected | clocked | sinkSet | elapsed | stirred =>
    exact ⟨h.budgeted, h.bare⟩
  | accepted _ hc hq =>
    refine ⟨h.budgeted.enqueue hq, fun hw => ?_⟩
    rw [WellKept, hw] at hk
    cases hk.symm.trans hc
  | ended => exact ⟨h.budgeted.drain, fun _ => rfl⟩
  | took _ _ _ _ hq =>
    exact ⟨h.budgeted.dequeue hq, fun hw => absurd hw (Option.some_ne_none _)⟩
  | _ => exact ⟨h.budgeted, fun hw => absurd hw (Option.some_ne_none _)⟩

theorem Tidy.run (h : Tidy capacity c) (hk : c.WellKept) (ss : List Signal) :
    Tidy capacity (c.run ss).1 := by
  let P : Client → Trace → Prop := fun c _ => c.WellKept ∧ Tidy capacity c
  exact (@run_keeps P (fun h hm => ⟨hm.wellKept h.1, hm.tidy h.1 h.2⟩) c [] ⟨hk, h⟩ ss).2

theorem tidy_initial (settings : Settings) (capacity : UInt64) :
    Tidy capacity (initial settings capacity) :=
  ⟨Queue.Budgeted.empty capacity, fun _ => rfl⟩

theorem connectionUp_of_ended (hw : c.worker = none) : c.connectionUp = false := by
  simp [connectionUp, hw]

theorem step_ended (hw : c.worker = none) (hs : s ≠ .call .start) :
    (c.step s).1.worker = none := by
  have henqueue : ∀ frame, (c.enqueue frame).1.worker = none := by
    intro frame
    unfold enqueue
    split
    · split <;> exact hw
    · exact hw
  cases s with
  | call k =>
    cases k with
    | start => exact absurd rfl hs
    | write frame => exact henqueue frame
    | writeMessage text => exact henqueue _
    | _ => exact hw
  | elapse d => exact hw
  | _ => simp only [step, hw]

theorem run_ended (hw : c.worker = none) {ss : List Signal} (hs : .call .start ∉ ss) :
    (c.run ss).1.worker = none := by
  induction ss generalizing c with
  | nil => exact hw
  | cons s rest ih =>
    rw [List.mem_cons, not_or] at hs
    exact ih (step_ended hw (Ne.symm hs.1)) hs.2

/-! After a request -/

def Attemptless (c : Client) : Prop := ∀ w, c.worker = some w → w.phase.attempt? = none

theorem Move.requested (hm : Move c s c' new) (hs : s ≠ .call .start)
    (hr : c.shared.running = false) :
    c'.shared.running = false ∧ Trace.dequeued new = [] := by
  cases hm with
  | started => exact absurd rfl hs
  | took _ _ hr' => cases hr.symm.trans hr'
  | @ended w => exact ⟨hr, by cases hl : w.link <;> simp [Trace.dequeued]⟩
  | @abandoned _ opened => exact ⟨hr, by cases opened <;> simp [Trace.dequeued]⟩
  | awaited | polled | greeted | established | ungreeted | readFailed | loginSent | frameSent
  | heard => exact ⟨hr, by simp [Trace.dequeued]⟩
  | stopRequested => exact ⟨rfl, rfl⟩
  | _ => exact ⟨hr, rfl⟩

theorem Move.rest (hm : Move c s c' new) (hs : s ≠ .call .start) (hr : c.shared.running = false)
    (ha : c.Attemptless) :
    c'.Attemptless ∧ Trace.sent new ++ c'.unsent?.getD [] <+: c.unsent?.getD [] := by
  have hno : ∀ {w opened}, c.worker = some w → w.phase.attempt? = some opened → False :=
    fun hw hp => by simp [ha _ hw] at hp
  cases hm with
  | ignored | stopRequested | accepted | rejected | clocked | sinkSet | elapsed =>
    exact ⟨ha, List.prefix_rfl⟩
  | stirred hw hp | abandoned hw hp => exact (hno hw hp).elim
  | started => exact absurd rfl hs
  | @ended w hw =>
    refine ⟨fun w hw => absurd hw (Option.some_ne_none w).symm, ?_⟩
    cases hl : w.link <;> simp [Trace.sent, shutdown, unsent?]
  | rested _ _ hr' | took _ _ hr' | attempted _ _ hr' | reattempted _ _ hr' | dozed _ _ hr' =>
    cases hr.symm.trans hr'
  | opened hw hp | unreached hw hp | awaited hw hp | greeted hw hp | established hw hp
  | ungreeted hw hp | loginSent hw hp | loginFlushed hw hp | loginFailed hw hp =>
    exact (hno hw (congrArg Phase.attempt? hp)).elim
  | frameSent hw hp hs =>
    refine ⟨fun v hv => by cases hv; rfl, ?_⟩
    rw [unsent?_of_worker hw, hp, Phase.unsent?, Pushed.ofSignal_waiting hs]
    simp [Trace.sent, unsent?, wait, withWorker, Phase.unsent?]
  | frameFlushed | frameFailed | pollWoken | pollEnded | sinkDone | idleEnded | idleWoken =>
    exact ⟨fun v hv => by cases hv; rfl, List.nil_prefix⟩
  | readFailed =>
    refine ⟨fun v hv => by cases hv; rfl, ?_⟩
    simp [Trace.sent, unsent?, unlinked, scheduleReconnect, Phase.unsent?]
  | polled hw hp =>
    refine ⟨fun v hv => by cases hv; exact hp ▸ rfl, ?_⟩
    simp [Trace.sent, unsent?, withWorker, hp, Phase.unsent?]
  | heard hw hp =>
    refine ⟨fun v hv => by cases hv; exact attempt?_phaseFor c _, ?_⟩
    rw [unsent?_of_worker rfl, unsent?_phaseFor]
    simp [Trace.sent]

theorem run_requested (hr : c.shared.running = false) {ss : List Signal}
    (hs : .call .start ∉ ss) :
    (c.run ss).1.shared.running = false ∧ Trace.dequeued (c.run ss).2 = [] := by
  let P : Client → Trace → Prop := fun c es => c.shared.running = false ∧ Trace.dequeued es = []
  have hrun := @run_keeps_on P ss (fun hmem h hm => by
    obtain ⟨hr', hd⟩ := hm.requested (ne_of_mem_of_not_mem hmem hs) h.1
    exact ⟨hr', by rw [dequeued_append, h.2, hd, List.append_nil]⟩) c [] ⟨hr, rfl⟩
  simpa [P] using hrun

theorem run_rest (hr : c.shared.running = false) (ha : c.Attemptless) {ss : List Signal}
    (hs : .call .start ∉ ss) :
    Trace.sent (c.run ss).2 ++ (c.run ss).1.unsent?.getD [] <+: c.unsent?.getD [] := by
  let P : Client → Trace → Prop := fun c' es => c'.shared.running = false ∧ c'.Attemptless ∧
    Trace.sent es ++ c'.unsent?.getD [] <+: c.unsent?.getD []
  have hrun := @run_keeps_on P ss (fun hmem h hm => by
    obtain ⟨hr, ha, hsent⟩ := h
    have hne := ne_of_mem_of_not_mem hmem hs
    obtain ⟨ha', hrest⟩ := hm.rest hne hr ha
    refine ⟨(hm.requested hne hr).1, ha', ?_⟩
    rw [sent_append, List.append_assoc]
    exact ((List.prefix_append_right_inj _).2 hrest).trans hsent) c [] ⟨hr, ha, List.prefix_rfl⟩
  simpa using hrun.2.2

/-! Without a link -/

/-- A write is refused without a link, and changes nothing. -/
theorem step_refused {k : Call} {frame : Bytes} (hc : c.shared.connected = false)
    (hk : k.frame? = some frame) : c.step (.call k) = (c, [.rejected frame]) := by
  cases k <;> cases hk <;> simp [step, call, enqueue, hc]

theorem Move.disconnected (hm : Move c s c' new) (hc : c.shared.connected = false)
    (he : .established ∉ new) : c'.shared.connected = false ∧ Trace.accepted new = [] := by
  cases hm with
  | accepted _ hc' => cases hc.symm.trans hc'
  | established => simp at he
  | frameFailed => exact ⟨rfl, rfl⟩
  | readFailed => exact ⟨rfl, by simp [Trace.accepted]⟩
  | @ended w => exact ⟨rfl, by cases hl : w.link <;> simp [Trace.accepted]⟩
  | @abandoned _ opened => exact ⟨hc, by cases opened <;> simp [Trace.accepted]⟩
  | awaited | polled | greeted | ungreeted | loginSent | frameSent | heard =>
    exact ⟨hc, by simp [Trace.accepted]⟩
  | _ => exact ⟨hc, rfl⟩

theorem run_disconnected (hc : c.shared.connected = false) {ss : List Signal}
    (he : .established ∉ (c.run ss).2) :
    (c.run ss).1.shared.connected = false ∧ Trace.accepted (c.run ss).2 = [] := by
  let P : Client → Trace → Prop := fun c es =>
    .established ∉ es → c.shared.connected = false ∧ Trace.accepted es = []
  have hrun := @run_keeps P (fun h hm he => by
    rw [List.mem_append, not_or] at he
    obtain ⟨hc, ha⟩ := h he.1
    obtain ⟨hc', ha'⟩ := hm.disconnected hc he.2
    exact ⟨hc', by rw [accepted_append, ha, ha', List.append_nil]⟩) c [] (fun _ => ⟨hc, rfl⟩) ss
  have hquiet := hrun (by simpa [mem_quiet_iff (show Event.established.isLog = false from rfl)])
  simpa using hquiet

/-! What comes later -/

/-- What goes out in `later`, with nothing left over from `es`. -/
structure Afresh (login : Bytes) (es later : Trace) : Prop where
  apart : connections (es ++ later) = connections later ++ connections es
  sentOn : sent later = (connections later).reverse.flatMap sent
  dequeuedOn : dequeued later = (connections later).reverse.flatMap dequeued
  conversations : ∀ k ∈ connections later, Conversation login k
  /-- The frames are of those accepted in `later`, in that order. -/
  taken : (dequeued later).Sublist (departed later) ∧ departed later <+: accepted later

theorem run_afresh {es : Trace} (hk : c.WellKept) (hw : c.worker = none)
    (hq : c.shared.queue.frames = []) (hc : Closed (connections es)) (ss : List Signal) :
    Afresh c.settings.login.bytes es (c.run ss).2 where
  apart := stretches_append_of_closed hc _
  sentOn := by
    have h := tracking_conversing.within _ (fun hm hk => hm.sent hk) hk
      (connectionUp_of_ended hw) ss
    exact (sent_quiet _).symm.trans h
  dequeuedOn := by
    have hframes : ∀ {c s c' new}, Move c s c' new → c.WellKept →
        Trace.dequeued new = [] ∨ c.connectionUp = true ∧ c'.connectionUp = true :=
      fun hm _ => hm.dequeued.imp_right fun h =>
        ⟨connectionUp_of_linkUp h.1, connectionUp_of_linkUp h.2⟩
    have h := tracking_conversing.within _ hframes hk (connectionUp_of_ended hw) ss
    exact (dequeued_quiet _).symm.trans h
  conversations := conversations_of_idle hk (connectionUp_of_ended hw) ss
  taken := by
    have h := run_queue c ss
    rw [hq, List.nil_append] at h
    exact ⟨dequeued_sublist_departed _, _, h.symm⟩

/-- Who is connected later was started and has logged in on a connection made since. -/
theorem run_connected (hk : c.WellKept) (hw : c.worker = none) {ss : List Signal}
    (hc : (c.run ss).1.shared.connected = true) :
    .call .start ∈ ss ∧ ∃ k earlier, connections (c.run ss).2 = k :: earlier ∧
      .established ∈ k ∧ .closed ∉ k := by
  have hk' := hk.run ss
  have hup : (c.run ss).1.linkUp = true := (linkUp_eq_connected hk').trans hc
  constructor
  · by_contra hs
    have hgone := run_ended hw hs
    simp [linkUp, hgone] at hup
  · have ht := tracking_conversing.run hk (connectionUp_of_ended hw) ss
    obtain ⟨k, earlier, hks, hopen, hconv⟩ := ht.under_way (connectionUp_of_linkUp hup)
    exact ⟨k, earlier, hks, hconv.exchange.linked.2 hup, hopen⟩

/-! The way to an end -/

/-- By itself the worker comes to its end, and counts nothing unless it is writing. -/
structure Quits (c : Client) (during : List Signal) : Prop where
  uncalled : ∀ k, .call k ∉ during
  gone : (c.run during).1.worker = none
  uncounted : c.unsent? = none →
    failures (c.run during).2 = [] ∧ .established ∉ (c.run during).2

theorem quits_of_boundary (hw : c.worker = some w) (hb : w.phase.boundary = true)
    (hr : c.shared.running = false) : c.Quits [.turn] := by
  obtain ⟨hc, he⟩ := step_turn hw hb
  have hturn : c.turn w = c.shutdown w := by simp [turn, hr]
  rw [hturn, quiet_shutdown] at he
  rw [hturn] at hc
  refine ⟨by simp, ?_, fun _ => ?_⟩
  · rw [run_cons, run_nil]
    exact congrArg Client.worker hc
  · rw [run_cons, run_nil, List.append_nil, ← failures_quiet, ← mem_quiet_iff rfl, he]
    cases w.link <;> simp [failures]

theorem quits_of_step {es : Trace} (hstep : c.step s = (c', es)) (hs : ∀ k, s ≠ .call k)
    (hw : c'.worker = some w) (hb : w.phase.boundary = true) (hr : c'.shared.running = false)
    (hf : c.unsent? = none → failures es = [] ∧ .established ∉ es) : c.Quits [s, .turn] := by
  have hturn := quits_of_boundary hw hb hr
  refine ⟨fun k hm => ?_, ?_, fun hu => ?_⟩
  · rcases List.mem_cons.1 hm with hm | hm
    · exact hs k hm.symm
    · exact hturn.uncalled k hm
  · rw [run_cons, hstep]
    exact hturn.gone
  · obtain ⟨hfail, hlogin⟩ := hf hu
    obtain ⟨hfail', hlogin'⟩ := hturn.uncounted (unsent?_of_boundary hw hb)
    rw [run_cons, hstep, failures_append, hfail, hfail', List.mem_append, not_or]
    exact ⟨rfl, hlogin, hlogin'⟩

/-- Whatever the worker does, a wake-up or the outcome of its write or of the sink brings it to its
last turn. -/
theorem exists_quits (hk : c.WellKept) (hr : c.shared.running = false)
    (hp : c.shared.permit = true) : ∃ during, c.Quits during := by
  cases hw : c.worker with
  | none => exact ⟨[], by simp, hw, fun _ => ⟨rfl, by simp⟩⟩
  | some w =>
    have hattempt : ∀ {opened}, w.phase.attempt? = some opened → c.Quits [.wake, .turn] := by
      intro opened ho
      refine quits_of_step (step_wake_of_attempt hw ho hp hr) (by simp) rfl rfl hr fun _ => ?_
      cases opened <;> simp [failures]
    cases hphase : w.phase with
    | fresh | between => exact ⟨_, quits_of_boundary hw (by rw [hphase]; rfl) hr⟩
    | connecting | greeting | loggingIn => exact ⟨_, hattempt (by rw [hphase]; rfl)⟩
    | idle deadline =>
      have hstep : c.step .wake = (c.roused.wait w .between, []) := by
        simp [step, hw, proceed, hphase, idle, hp, roused]
      exact ⟨_, quits_of_step hstep (by simp) rfl rfl hr fun _ => ⟨rfl, by simp⟩⟩
    | polling deadline =>
      have hlink := (hk.sound hw).linked true (by rw [hphase]; rfl)
      have hstep : c.step .wake = (c.roused.wait w .between, []) := by
        cases hl : w.link with
        | none => simp [hl] at hlink
        | some buffer => simp [step, hw, proceed, hphase, polling, hl, hp, roused]
      exact ⟨_, quits_of_step hstep (by simp) rfl rfl hr fun _ => ⟨rfl, by simp⟩⟩
    | delivering line =>
      have hstep : c.step .sinkReturned = (c.wait w .between, []) := by
        simp [step, hw, proceed, hphase, delivering]
      exact ⟨_, quits_of_step hstep (by simp) rfl rfl hr fun _ => ⟨rfl, by simp⟩⟩
    | sending rest =>
      have hstep : c.step (.writeFailed .closedByPeer) = c.dropLink w .closedByPeer := by
        simp [step, hw, proceed, hphase, sending, Pushed.ofSignal]
      refine ⟨_, quits_of_step hstep (by simp) rfl rfl hr fun hu => ?_⟩
      rw [unsent?_of_worker hw, hphase] at hu
      cases hu

end

/-! Stops -/

def stop (c : Client) (during : List Signal) : Step := c.run (.call .requestStop :: during)

structure Stops (c : Client) (during : List Signal) : Prop where
  unstarted : .call .start ∉ during
  gone : (c.stop during).1.worker = none

/-- What a stop has led to, from a client `c` that has shown `es`. -/
structure CleanStop (settings : Settings) (capacity : UInt64) (c : Client) (es : Trace)
    (after : Step) : Prop where
  disconnected : after.1.status.connected = false
  closed : ∀ k ∈ connections (es ++ after.2), .closed ∈ k
  emptied : after.1.shared.queue = Queue.empty capacity ∧ after.1.shared.queue.free = capacity
  /-- The count is that of the latest failure or login, before the stop or during it. -/
  latest : after.1.status.attempts = min (tally (es ++ after.2)).shown 10
  uncounted : failures after.2 = [] → .established ∉ after.2 →
    after.1.status.attempts = c.status.attempts
  /-- No frame is begun, and of the one under way the rest may go out. -/
  unbegun : dequeued after.2 = []
  rest : c.shared.connected = true → sent after.2 <+: c.unsent?.getD []
  /-- Every write is refused up to the next login, which is on a connection made since. -/
  refused : ∀ later, .established ∉ (after.1.run later).2 →
    (after.1.run later).1.shared.queue = Queue.empty capacity ∧
      ∀ k frame, k.frame? = some frame →
        (after.1.run later).1.step (.call k) = ((after.1.run later).1, [.rejected frame])
  reconnected : ∀ later, (after.1.run later).1.shared.connected = true →
    .call .start ∈ later ∧ ∃ k earlier, connections (after.1.run later).2 = k :: earlier ∧
      .established ∈ k ∧ .closed ∉ k
  afresh : ∀ later, Afresh settings.login.bytes (es ++ after.2) (after.1.run later).2

theorem Stops.clean {settings : Settings} {capacity : UInt64} {ss during : List Signal}
    {c : Client} {es : Trace} (hrun : (initial settings capacity).run ss = (c, es))
    (h : c.Stops during) : CleanStop settings capacity c es (c.stop during) := by
  have hwhole : (initial settings capacity).run (ss ++ .call .requestStop :: during) =
      ((c.stop during).1, es ++ (c.stop during).2) := by
    rw [run_append, hrun]
    rfl
  have hbefore : c.WellKept ∧ Tidy capacity c ∧ Counts c (tally es) := by
    have hkept := run_wellKept settings capacity ss
    have htidy := (tidy_initial settings capacity).run rfl ss
    have hcounts := run_counts settings capacity ss
    rw [hrun] at hkept htidy hcounts
    exact ⟨hkept, htidy, hcounts⟩
  obtain ⟨hkept, htidy, hcounts⟩ := hbefore
  have hcounts' : Counts (c.stop during).1 (tally (es ++ (c.stop during).2)) := by
    have hcounts' := run_counts settings capacity (ss ++ .call .requestStop :: during)
    rwa [hwhole] at hcounts'
  have hclosed : ∀ k ∈ connections (es ++ (c.stop during).2), .closed ∈ k := by
    have hup : ((initial settings capacity).run
        (ss ++ .call .requestStop :: during)).1.connectionUp = false := by
      rw [hwhole]
      exact connectionUp_of_ended h.gone
    have hclosed := tracking_conversing.run_closed (c := initial settings capacity) rfl rfl _ hup
    rwa [hwhole] at hclosed
  have hsettings : (c.stop during).1.settings = settings := by
    have hsettings := run_settings (initial settings capacity)
      (ss ++ .call .requestStop :: during)
    rwa [hwhole] at hsettings
  have hk : (c.stop during).1.WellKept := hkept.run _
  have htidy' : Tidy capacity (c.stop during).1 := htidy.run hkept _
  have hframes := htidy'.bare h.gone
  have hdown : (c.stop during).1.shared.connected = false := by
    simpa only [WellKept, h.gone] using hk
  have hempty := htidy'.budgeted.eq_empty hframes
  refine {
    disconnected := hdown
    closed := hclosed
    emptied := ⟨hempty, hempty ▸ UInt64.sub_zero capacity⟩
    latest := hcounts'.attempts
    uncounted := fun hf he => ?_
    unbegun := (run_requested (c := (c.step (.call .requestStop)).1) rfl h.unstarted).2
    rest := fun hc => ?_
    refused := fun later he => ?_
    reconnected := fun later hc => run_connected hk h.gone hc
    afresh := fun later => ?_ }
  · refine (hcounts'.attempts.trans ?_).trans hcounts.attempts.symm
    rw [tally, List.foldl_append, shown_foldl hf he]
    rfl
  · have ha : c.Attemptless := fun w hw =>
      attempt?_of_linkUp hkept hw ((linkUp_eq_connected hkept).trans hc)
    have hrest := run_rest (c := (c.step (.call .requestStop)).1) rfl ha h.unstarted
    exact (List.prefix_append _ _).trans hrest
  · obtain ⟨hdown', haccepted⟩ := run_disconnected hdown he
    have hqueue := run_queue (c.stop during).1 later
    rw [hframes, haccepted, List.append_nil] at hqueue
    have hframes' := (List.append_eq_nil_iff.1 hqueue.symm).2
    exact ⟨(htidy'.run hk later).budgeted.eq_empty hframes',
      fun k frame hframe => step_refused hdown' hframe⟩
  · rw [← hsettings]
    exact run_afresh hk h.gone hframes
      (fun k hmem => hclosed k (List.mem_of_mem_head? hmem)) later

theorem exists_stops {c : Client} (hk : c.WellKept) :
    ∃ during, c.Stops during ∧ (∀ k, .call k ∉ during) ∧ (c.unsent? = none →
      failures (c.stop during).2 = [] ∧ .established ∉ (c.stop during).2) := by
  obtain ⟨during, h⟩ := exists_quits (Move.stopRequested.wellKept hk) rfl rfl
  exact ⟨during, ⟨h.uncalled .start, h.gone⟩, h.uncalled, h.uncounted⟩

structure StopsCleanly (settings : Settings) (capacity : UInt64) (c : Client) (es : Trace) :
    Prop where
  returns : ∃ during, c.Stops during ∧ (∀ k, .call k ∉ during) ∧ (c.unsent? = none →
    failures (c.stop during).2 = [] ∧ .established ∉ (c.stop during).2)
  clean : ∀ during, c.Stops during → CleanStop settings capacity c es (c.stop during)

/-- A stop is clean in every state of every run, whatever comes meanwhile but a start, and also
when moves of the worker come between those of the request. -/
theorem stop_clean (settings : Settings) (capacity : UInt64) (ss : List Signal)
    (moves : List Interleaving.Move) :
    StopsCleanly settings capacity ((initial settings capacity).run ss).1
        ((initial settings capacity).run ss).2 ∧
      ((State.initial capacity).run moves).EndsCleanly :=
  ⟨⟨exists_stops (run_wellKept settings capacity ss), fun _ h => h.clean rfl⟩,
    ((State.withdrawn_initial capacity).run moves).endsCleanly⟩

/-- A stop in the middle of a write, with another frame queued, and then a new start. -/
def interruptedWrite : List Signal :=
  .call .start :: trialLogin ++ [.call (.write [65, 10]), .call (.write [66, 10]), .turn, .took 1,
    .call .requestStop, .took 1, .flushed, .wake, .turn, .call .start] ++ trialLogin ++ [.turn]

example : (connections ((initial trialSettings 2000).run interruptedWrite).2).map
    (fun k => (dequeued k, decide (.closed ∈ k))) = [([], false), ([[65, 10]], true)] := by
  decide +kernel

end Client

end IGate
