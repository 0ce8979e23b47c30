import IGate.Proofs.Client.Stretch
import IGate.Proofs.Queue

/-! Frames go out in the order in which they were taken, each at most once and unchanged. One that a
link was lost with is the frame under way in a failed write; what was queued stays queued. -/

namespace IGate

open Trace
open Interleaving (State)

/-- The bytes of a frame that are not out yet, while one is under way. -/
def Phase.unsent? : Phase → Option Bytes
  | .sending rest => some rest
  | _ => none

namespace Client

def unsent? (c : Client) : Option Bytes := c.worker.bind (·.phase.unsent?)

/-- How far the frames of a link have gone out. All did, or all but the last, of which `unsent` did
not. -/
inductive Written (k : Trace) : Option Bytes → Prop
  | whole (hs : sent k = (dequeued k).flatten) : Written k none
  | cut (frames part unsent) (hd : dequeued k = frames ++ [part ++ unsent])
    (hs : sent k = frames.flatten ++ part) : Written k (some unsent)

/-- How a link is lost: in a write, with the frame under way, or in a read, with no frame at all,
or at the end of the worker, which drops the queue. -/
inductive Loss (c : Client) (s : Signal) (c' : Client) (new : Trace) : Prop
  | writing (hs : s.failsWrite = true) (hu : c.unsent?.isSome)
    (hq : c'.shared.queue = c.shared.queue)
  | reading (hs : s.failsRead = true) (hu : c.unsent? = none)
    (hq : c'.shared.queue = c.shared.queue)
  | stopping (hs : c.shared.running = false) (hu : c.unsent? = none)
    (hq : .discarded c.shared.queue.frames ∈ new)

section
variable {c c' : Client} {w : Worker} {s : Signal} {new : Trace}

/-- A frame enters the queue at its end and leaves it at its front. -/
theorem Move.queue (hm : Move c s c' new) :
    c.shared.queue.frames ++ Trace.accepted new =
      Trace.departed new ++ c'.shared.queue.frames := by
  cases hm with
  | accepted hk hc hq => simp [Trace.accepted, departed, Shared.wake, Queue.frames_of_enqueue hq]
  | took hw hp hr hl hq =>
    have h := Queue.frames_of_dequeue hq
    simp [Trace.accepted, departed, h, wait, withWorker]
  | @ended w hw hp hr => cases hl : w.link <;> simp [Trace.accepted, departed, shutdown]
  | abandoned => split <;> exact List.append_nil _
  | awaited | polled | greeted | established | ungreeted | readFailed | loginSent | frameSent
  | heard =>
    simp [Trace.accepted, departed, wait, withWorker, Client.unlinked, scheduleReconnect]
  | _ => exact List.append_nil _

theorem run_queue (c : Client) (ss : List Signal) :
    c.shared.queue.frames ++ accepted (c.run ss).2 =
      departed (c.run ss).2 ++ (c.run ss).1.shared.queue.frames := by
  let P : Client → Trace → Prop := fun c' es =>
    c.shared.queue.frames ++ accepted es = departed es ++ c'.shared.queue.frames
  have hmove : ∀ {c₁ s c₂ es new}, P c₁ es → Move c₁ s c₂ new → P c₂ (es ++ new) := by
    intro c₁ s c₂ es new h hm
    simp only [P, accepted_append, departed_append, ← List.append_assoc]
    rw [h, List.append_assoc, hm.queue, List.append_assoc]
  have h : P c [] := (List.append_nil _)
  simpa [P] using run_keeps hmove h ss

/-! What is written on a link -/

theorem unsent?_of_worker (hw : c.worker = some w) : c.unsent? = w.phase.unsent? := by
  simp [unsent?, hw]

theorem unsent?_of_boundary (hw : c.worker = some w) (hp : w.phase.boundary = true) :
    c.unsent? = none := by
  rw [unsent?_of_worker hw]
  cases h : w.phase <;> simp_all [Phase.boundary, Phase.unsent?]

theorem unsent?_phaseFor (c : Client) (line : String) : (c.phaseFor line).unsent? = none := by
  rcases c.phaseFor_eq_or line with h | h <;> rw [h] <;> rfl

namespace Written

variable {k : Trace} {u : Option Bytes}

theorem iff_out : Written k u ↔ Out (dequeued k) (sent k) u := by
  constructor
  · intro h
    cases h with
    | whole hs => exact .whole hs
    | cut frames part unsent hd hs => exact .cut frames part unsent hd hs
  · intro h
    cases h with
    | whole hs => exact .whole hs
    | cut frames part unsent hd hs => exact .cut frames part unsent hd hs

theorem more (h : Written k u) (hd : dequeued new = []) (hs : sent new = []) :
    Written (k ++ new) u := by
  rw [iff_out] at h ⊢
  simpa [hd, hs] using h

theorem begin (h : Written k none) (frame : Bytes) :
    Written (k ++ [Event.dequeued frame]) (some frame) := by
  have hd : dequeued (k ++ [Event.dequeued frame]) = dequeued k ++ [frame] := by simp [dequeued]
  have hs : sent (k ++ [Event.dequeued frame]) = sent k := by simp [sent]
  rw [iff_out] at h ⊢
  rw [hd, hs]
  exact h.begin frame

theorem push {part rest : Bytes} (h : Written k (some (part ++ rest))) :
    Written (k ++ sentEvents part) (some rest) := by
  have hd : dequeued (k ++ sentEvents part) = dequeued k := by simp [dequeued]
  have hs : sent (k ++ sentEvents part) = sent k ++ part := by simp [sent]
  rw [iff_out] at h ⊢
  rw [hd, hs]
  exact h.push

theorem finish (h : Written k (some [])) : Written k none := iff_out.2 (iff_out.1 h).finish

end Written

theorem Move.written {k : Trace} (hm : Move c s c' new) (hk : c.WellKept)
    (hu : c.linkUp = true) (hu' : c'.linkUp = true) (h : Written k c.unsent?) :
    Written (k ++ new) c'.unsent? := by
  cases hm with
  | ignored | stopRequested | accepted | rejected | clocked | sinkSet | elapsed | stirred =>
    exact h.more rfl rfl
  | started hw => simp [linkUp, hw] at hu
  | ended => simp [linkUp, shutdown] at hu'
  | rested hw hp | attempted hw hp | reattempted hw hp | dozed hw hp =>
    rw [unsent?_of_boundary hw hp] at h
    exact h.more rfl rfl
  | took hw hp =>
    rw [unsent?_of_boundary hw hp] at h
    exact h.begin _
  | opened hw hp | unreached hw hp | awaited hw hp | greeted hw hp | established hw hp
  | ungreeted hw hp | loginSent hw hp | loginFlushed hw hp | loginFailed hw hp =>
    have hn := attempt?_of_linkUp hk hw hu
    rw [hp] at hn
    cases hn
  | abandoned hw hp => cases hp.symm.trans (attempt?_of_linkUp hk hw hu)
  | frameSent hw hp hs =>
    rw [unsent?_of_worker hw, hp, Phase.unsent?, Pushed.ofSignal_waiting hs] at h
    exact h.push
  | frameFlushed hw hp hs =>
    rw [unsent?_of_worker hw, hp, Phase.unsent?, Pushed.ofSignal_finished hs] at h
    exact h.finish.more rfl rfl
  | frameFailed | readFailed => simp [linkUp, Client.unlinked, scheduleReconnect] at hu'
  | pollWoken hw hp | pollEnded hw hp | sinkDone hw hp | idleEnded hw hp | idleWoken hw hp =>
    rw [unsent?_of_worker hw, hp] at h
    exact h.more rfl rfl
  | polled hw hp =>
    rw [unsent?_of_worker hw] at h
    exact h.more (by simp [dequeued]) (by simp [sent])
  | heard hw hp =>
    rw [unsent?_of_worker hw, hp] at h
    rw [unsent?_of_worker rfl, unsent?_phaseFor]
    exact h.more (by simp [dequeued]) (by simp [sent])

theorem Move.dequeued (hm : Move c s c' new) :
    Trace.dequeued new = [] ∨ c.linkUp = true ∧ c'.linkUp = true := by
  cases hm with
  | took hw _ _ hl => exact .inr ⟨(linkUp_of_worker hw).trans hl, hl⟩
  | @ended w => exact .inl (by cases hl : w.link <;> simp [Trace.dequeued])
  | @abandoned _ opened => exact .inl (by cases opened <;> simp [Trace.dequeued])
  | awaited | polled | greeted | established | ungreeted | readFailed | loginSent | frameSent
  | heard => exact .inl (by simp [Trace.dequeued])
  | _ => exact .inl rfl

theorem Written.closing {k before later : Trace} {u : Option Bytes} (h : Written k u)
    (hm : Move c s c' (before ++ Event.closed :: later)) :
    Written (k ++ before ++ [Event.closed]) u := by
  have hd : dequeued before = [] :=
    hm.flatMap_before_closed (fun _ => rfl) rfl (fun _ => rfl) (fun _ => rfl) rfl
  have hs : sent before = [] :=
    hm.flatMap_before_closed (fun _ => rfl) rfl (fun _ => rfl) (fun _ => rfl) rfl
  exact (h.more hd hs).more rfl rfl

theorem tracking_written :
    Tracking .established linkUp (fun k => ∃ u, Written k u) (fun c k => Written k c.unsent?) where
  start_ne := nofun
  span := link_span
  begins := by
    intro c s c' new hm hk hs
    cases hm <;> simp at hs
    exact .whole rfl
  continues := fun hm hk hu hu' h => hm.written hk hu hu' h
  ends := fun hm _ _ _ h => ⟨_, h.closing hm⟩
  current := fun h => ⟨_, h⟩

/-! The end of a link -/

theorem linkUp_eq_connected (hk : c.WellKept) : c.linkUp = c.shared.connected := by
  cases hw : c.worker with
  | none =>
    rw [WellKept, hw] at hk
    simp [linkUp, hw, hk]
  | some w => rw [linkUp_of_worker hw, (hk.sound hw).connected]

theorem Move.loss (hm : Move c s c' new) (hk : c.WellKept) (hu : c.linkUp = true)
    (hx : Event.closed ∈ new) : Loss c s c' new := by
  cases hm <;> simp at hx
  · next hw hp hr => exact .stopping hr (unsent?_of_boundary hw hp) (by simp)
  · next hw hp hr => cases hp.symm.trans (attempt?_of_linkUp hk hw hu)
  · next hw hp hs => cases (congrArg _ hp).symm.trans (attempt?_of_linkUp hk hw hu)
  · next hw hp hs => cases (congrArg _ hp).symm.trans (attempt?_of_linkUp hk hw hu)
  · next hw hp hs =>
    have hu' := unsent?_of_worker hw
    rw [hp] at hu'
    exact .writing (Pushed.ofSignal_failed hs) (by rw [hu']; rfl) rfl
  · next hw hp _ hs =>
    have hu' := unsent?_of_worker hw
    rw [hp] at hu'
    exact .reading (Heard.failsRead_of_ofSignal hs) hu' rfl

theorem Move.running_of_discarded {frames : List Bytes} (hm : Move c s c' new)
    (hx : Event.discarded frames ∈ new) :
    c.shared.running = false ∧ frames = c.shared.queue.frames := by
  cases hm <;> simp at hx
  · next hw hp hr => exact ⟨hr, hx⟩

/-- What is known of the frames of a run that led to `c` and showed `es`. -/
structure Outbound (c : Client) (es : Trace) : Prop where
  /-- The frames that were taken are those that left the queue and those still in it. -/
  splits : accepted es = departed es ++ c.shared.queue.frames
  once : (dequeued es).Sublist (departed es)
  onLinks : dequeued es = (links es).reverse.flatMap dequeued
  written : ∀ k ∈ links es, ∃ u, Written k u
  underWay : c.shared.connected = true →
    ∃ k earlier, links es = k :: earlier ∧ .closed ∉ k ∧ Written k c.unsent?
  /-- Nothing overtakes a queued frame, whatever comes. -/
  later : ∀ ss, c.shared.queue.frames ++ accepted (c.run ss).2 =
    departed (c.run ss).2 ++ (c.run ss).1.shared.queue.frames
  lost : ∀ s, c.shared.connected = true → .closed ∈ (c.step s).2 →
    Loss c s (c.step s).1 (c.step s).2 ∧
      ∃ k k' earlier, links es = k :: earlier ∧ links (es ++ (c.step s).2) = k' :: earlier ∧
        k <+: k' ∧ .closed ∈ k' ∧ Written k' c.unsent?
  drained : ∀ s frames, .discarded frames ∈ (c.step s).2 →
    c.shared.running = false ∧ frames = c.shared.queue.frames

end

theorem outbound (settings : Settings) (capacity : UInt64) (ss : List Signal) :
    Outbound ((initial settings capacity).run ss).1 ((initial settings capacity).run ss).2 := by
  have hk := run_wellKept settings capacity ss
  have ht := tracking_written.run (c := initial settings capacity) rfl rfl ss
  refine {
    splits := run_queue (initial settings capacity) ss
    once := dequeued_sublist_departed _
    onLinks := ?_
    written := ht.all
    underWay := fun hc => ht.under_way ((linkUp_eq_connected hk).trans hc)
    later := run_queue _
    lost := ?_
    drained := ?_ }
  · have h := tracking_written.within _ (fun hm _ => hm.dequeued) (c := initial settings capacity)
      rfl rfl ss
    exact (dequeued_quiet _).symm.trans h
  · intro s hc hx
    have hm := step_makes ((initial settings capacity).run ss).1 s
    have hu := (linkUp_eq_connected hk).trans hc
    have hx' := (mem_quiet_iff rfl).2 hx
    obtain ⟨k, rest, before, later, hks, hn, hq, hl⟩ := tracking_written.closes hm hk ht hu hx'
    refine ⟨?_, k, k ++ before ++ [Event.closed], rest, hks, ?_, ?_, by simp, ?_⟩
    · cases hm.loss hk hu hx' with
      | writing hs hu hq => exact .writing hs hu hq
      | reading hs hu hq => exact .reading hs hu hq
      | stopping hs hu hq => exact .stopping hs hu ((mem_quiet_iff rfl).1 hq)
    · rw [links, stretches_append]
      exact hl
    · rw [List.append_assoc]
      exact List.prefix_append _ _
    · have hm' := hm
      rw [Makes, hn] at hm'
      exact Written.closing hq hm'
  · intro s frames hx
    exact (step_makes _ s).running_of_discarded ((mem_quiet_iff rfl).2 hx)

def failedWrite : List Signal :=
  .call .start :: trialLogin ++ [.call (.write [65, 10]), .call (.write [66, 10]), .turn, .took 1,
    .writeFailed (.ofKind .connectionReset), .call (.clock 60000)] ++ trialLogin ++
    [.turn, .took 2, .flushed]

example : (links ((initial trialSettings 2000).run failedWrite).2).map
    (fun k => (dequeued k, sent k)) = [([[66, 10]], [66, 10]), ([[65, 10]], [65])] := by
  decide +kernel

end Client

end IGate
