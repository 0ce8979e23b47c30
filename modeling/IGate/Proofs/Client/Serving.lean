import IGate.Client.Arrivals
import IGate.Proofs.Client.Conversation
import IGate.Proofs.Client.Inbound
import IGate.Proofs.Wakeup

/-! A connected worker at work, while nobody calls and what is written goes out: what may come to it
next, whichever of the things that are ready is taken, what that brings about, and how much of it
there can be before the worker waits. -/

namespace IGate

open Trace LineBuffer

def Signal.passes : Signal → Bool
  | .elapse _ => true
  | _ => false

theorem Signal.passes_of_failsRead {s : Signal} (h : s.failsRead = true) : s.passes = false := by
  cases s with
  | elapse => cases h
  | _ => rfl

def Signal.endsStream : Signal → Bool
  | .endOfStream | .readFailed _ => true
  | _ => false

theorem Signal.failsRead_of_endsStream {s : Signal} (h : s.endsStream = true) :
    s.failsRead = true := by
  cases s with
  | endOfStream | readFailed => rfl
  | _ => cases h

/-- What a server has sent and the worker has not read, and how the stream ends behind it, if it
does. -/
structure Coming where
  unread : Bytes
  ending : Option Signal
  endsStream : ∀ s ∈ ending, s.endsStream = true

structure Coming.Silent (a : Coming) (buffer : Bytes) : Prop where
  scan : scan buffer = .unfinished
  unread : a.unread = []
  ending : a.ending = none

instance (a : Coming) (buffer : Bytes) : Decidable (a.Silent buffer) :=
  decidable_of_iff (scan buffer = .unfinished ∧ a.unread = [] ∧ a.ending = none)
    ⟨fun ⟨hs, hu, he⟩ => ⟨hs, hu, he⟩, fun h => ⟨h.scan, h.unread, h.ending⟩⟩

namespace Client

/-- A wait may come to its end. It comes after all that there is to read, unless frames are queued:
then the wait is one of no time, and may be over before what there is to read is seen. -/
structure Lapses (s : Shared) (buffer : Bytes) (a : Coming) : Prop where
  scan : scan buffer = .unfinished
  silent : s.queue.frames = [] → a.Silent buffer

instance (s : Shared) (buffer : Bytes) (a : Coming) : Decidable (Lapses s buffer a) :=
  decidable_of_iff (scan buffer = .unfinished ∧ (s.queue.frames = [] → a.Silent buffer))
    ⟨fun ⟨hs, hq⟩ => ⟨hs, hq⟩, fun h => ⟨h.scan, h.silent⟩⟩

/-- What may come to a worker that holds `buffer`, and what is then still to come. A stored wake-up
comes before what there is to read or after it, and a read brings some of the bytes that are there.
Time may pass, but not so long that a wait comes to its end by that. -/
inductive Ready (c : Client) (w : Worker) (buffer : Bytes) (a : Coming) : Signal → Coming → Prop
  | turn (hp : w.phase = .between) : Ready c w buffer a .turn a
  | took {rest n} (hp : w.phase = .sending rest) (hn : 0 < n) (hr : n ≤ rest.length) :
    Ready c w buffer a (.took n) a
  | flushed (hp : w.phase = .sending []) : Ready c w buffer a .flushed a
  | poll {deadline} (hp : w.phase = .polling deadline) (hs : scan buffer ≠ .unfinished) :
    Ready c w buffer a .poll a
  | received {deadline chunk rest} (hp : w.phase = .polling deadline)
    (hs : scan buffer = .unfinished) (hu : a.unread = chunk ++ rest) (hc : chunk ≠ [])
    (hl : chunk.length ≤ readChunk) :
    Ready c w buffer a (.received chunk) { a with unread := rest }
  /-- A failure may come before all bytes are read, the end of the stream does not. -/
  | ended {deadline s} (hp : w.phase = .polling deadline) (hs : scan buffer = .unfinished)
    (he : a.ending = some s) (hu : s = .endOfStream → a.unread = []) : Ready c w buffer a s a
  | wake {deadline} (hp : w.phase = .polling deadline) (hw : c.shared.permit = true) :
    Ready c w buffer a .wake a
  | timeout {deadline} (hp : w.phase = .polling deadline) (hl : Lapses c.shared buffer a)
    (hd : deadline ≤ c.now) : Ready c w buffer a .timeout a
  | returned {line} (hp : w.phase = .delivering line) : Ready c w buffer a .sinkReturned a
  | panicked {line} (hp : w.phase = .delivering line) : Ready c w buffer a .sinkPanicked a
  | elapsed (d) (hd : ∀ deadline, w.phase = .polling deadline → Lapses c.shared buffer a →
      c.now < deadline → c.now + d < deadline) : Ready c w buffer a (.elapse d) a

/-- A way for a connected worker to go on from `c`, and what is then still to come. -/
inductive Serves (c : Client) (a : Coming) : List Signal → Coming → Prop
  | nil : Serves c a [] a
  | snoc {ss a₁ w buffer s a'} (h : Serves c a ss a₁) (hw : (c.run ss).1.worker = some w)
    (hl : w.link = some buffer) (hs : (c.run ss).1.Ready w buffer a₁ s a') :
    Serves c a (ss ++ [s]) a'

/-- Nothing comes to the worker but the passing of time. -/
structure Waits (c : Client) (a : Coming) : Prop where
  linkUp : c.linkUp = true
  still : ∀ w buffer s a', c.worker = some w → w.link = some buffer → c.Ready w buffer a s a' →
    s.passes = true

structure Still (c : Client) (w : Worker) (buffer : Bytes) (a : Coming) : Prop where
  silent : a.Silent buffer
  permit : c.shared.permit = false
  polling : ∃ deadline, w.phase = .polling deadline ∧ c.now < deadline

/-- What the queue, the wake-up and the server's bytes still ask of a worker: a byte that is read is
looked at again when its line is taken. -/
def backlog (s : Shared) (a : Coming) (buffer : Bytes) : Nat :=
  (s.queue.frames.map fun frame => frame.length + 3).sum + 2 * s.permit.toNat +
    3 * buffer.length + 6 * a.unread.length

/-- What a worker still does in a phase, and until it waits if nothing else is left. -/
def effort (s : Shared) (now : Duration) (a : Coming) (buffer : Bytes) : Phase → Nat
  | .sending rest => rest.length + 3
  | .delivering _ => 2
  | .polling deadline => if deadline ≤ now ∧ Lapses s buffer a then 2 else 0
  | _ => 1

def load (c : Client) (a : Coming) : Nat :=
  match c.worker with
  | none => 0
  | some w =>
    match w.link with
    | none => 0
    | some buffer => 1 + backlog c.shared a buffer + effort c.shared c.now a buffer w.phase

/-- A wait for a line ends in time, and at once if something is queued. -/
structure Patient (c : Client) (deadline : Duration) : Prop where
  due : deadline ≤ c.now + c.settings.pollTimeout
  roused : c.now < deadline → c.shared.queue.frames = [] ∨ c.shared.permit = true

structure Serving (c : Client) (w : Worker) (buffer : Bytes) : Prop where
  worker : c.worker = some w
  link : w.link = some buffer
  running : c.shared.running = true
  placed : w.phase.linked? ≠ some false
  patient : ∀ deadline, w.phase = .polling deadline → c.Patient deadline

/-- What is done on a signal that may come. -/
inductive Reaction (c : Client) (w : Worker) (buffer : Bytes) (a : Coming) :
    Signal → Coming → Client → Trace → Prop
  | took {frame queue} (hp : w.phase = .between)
    (hq : c.shared.queue.dequeue = some (frame, queue)) :
    Reaction c w buffer a .turn a
      ({ c.ticked with shared := { c.ticked.shared with queue } }.wait
        (w.ticked c.shared.pending) (.sending frame)) [.dequeued frame]
  | rested (hp : w.phase = .between) (hq : c.shared.queue.dequeue = none) :
    Reaction c w buffer a .turn a (c.ticked.enterPoll (w.ticked c.shared.pending)) []
  | pushed {n rest} (hp : w.phase = .sending rest) (hn : 0 < n) (hr : n ≤ rest.length) :
    Reaction c w buffer a (.took n) a (c.wait w (.sending (rest.drop n)))
      (sentEvents (rest.take n))
  | flushed (hp : w.phase = .sending []) : Reaction c w buffer a .flushed a (c.enterPoll w) []
  | heard {deadline s a' bytes raw rest} (hp : w.phase = .polling deadline)
    (hr : s.failsRead = true) (hu : a.unread = bytes ++ a'.unread) (he : a'.ending = a.ending)
    (hs : scan (buffer ++ bytes) = .line raw rest) :
    Reaction c w buffer a s a'
      (c.wait { w with link := some rest } (c.phaseFor (Line.rtrim (Utf8.decodeLossy raw))))
      (readEvents bytes ++ .lineRead raw :: c.deliveries (Line.rtrim (Utf8.decodeLossy raw)))
  | held {deadline s a' chunk} (hp : w.phase = .polling deadline) (hr : s.failsRead = true)
    (hu : a.unread = chunk ++ a'.unread) (he : a'.ending = a.ending) (hc : chunk ≠ []) :
    Reaction c w buffer a s a' (c.withWorker { w with link := some (buffer ++ chunk) })
      (readEvents chunk)
  /-- A read fails: the bytes are too many for a line, or the stream has ended. -/
  | lost {deadline s a' bytes} (hp : w.phase = .polling deadline) (hr : s.failsRead = true)
    (hu : a.unread = bytes ++ a'.unread) (he : a'.ending = a.ending)
    (hf : scan (buffer ++ bytes) = .overlong ∨ a.ending ≠ none) :
    Reaction c w buffer a s a' (c.unlinked w)
      (readEvents bytes ++ [.closed, .failed w.backoff.fail.delay])
  | woken {deadline} (hp : w.phase = .polling deadline) (hw : c.shared.permit = true) :
    Reaction c w buffer a .wake a (c.roused.wait w .between) []
  | expired {deadline} (hp : w.phase = .polling deadline) (hl : Lapses c.shared buffer a)
    (hd : deadline ≤ c.now) : Reaction c w buffer a .timeout a (c.wait w .between) []
  | delivered {s line} (hp : w.phase = .delivering line)
    (hs : s = .sinkReturned ∨ s = .sinkPanicked) :
    Reaction c w buffer a s a (c.wait w .between) []
  | elapsed (d) (hd : ∀ deadline, w.phase = .polling deadline → Lapses c.shared buffer a →
      c.now < deadline → c.now + d < deadline) :
    Reaction c w buffer a (.elapse d) a { c with now := c.now + d } []

section
variable {c c' : Client} {w w' : Worker} {s : Signal} {new : Trace} {deadline : Duration}

/-! Waits are patient -/

theorem patient_of_enterPoll (h : (c.enterPoll w).worker = some w')
    (hp : w'.phase = .polling deadline) : (c.enterPoll w).Patient deadline := by
  cases h
  cases hp
  refine ⟨?_, fun hd => .inl ?_⟩
  · have ht : (if c.shared.queue.isEmpty then c.settings.pollTimeout else 0) ≤
        c.settings.pollTimeout := by
      split
      · exact le_rfl
      · exact Nat.zero_le _
    exact Nat.add_le_add_left ht _
  · by_contra hq
    have hempty : c.shared.queue.isEmpty = false := by
      simpa [Queue.isEmpty, enterPoll, wait, withWorker] using hq
    simp [enterPoll, wait, withWorker, hempty] at hd

theorem Move.patient (hm : Move c s c' new)
    (h : ∀ w deadline, c.worker = some w → w.phase = .polling deadline → c.Patient deadline)
    (hw : c'.worker = some w') (hp : w'.phase = .polling deadline) : c'.Patient deadline := by
  cases hm with
  | ignored | rejected | clocked | sinkSet => exact ⟨(h _ _ hw hp).due, (h _ _ hw hp).roused⟩
  | stopRequested | accepted => exact ⟨(h _ _ hw hp).due, fun _ => .inr rfl⟩
  | elapsed d =>
    have hle : c.now ≤ c.now + d := Nat.le_add_right _ _
    exact ⟨(h _ _ hw hp).due.trans (Nat.add_le_add_right hle _),
      fun hd => (h _ _ hw hp).roused (hle.trans_lt hd)⟩
  | rested | frameFlushed => exact patient_of_enterPoll hw hp
  | polled hw₀ hp₀ =>
    cases hw
    exact ⟨(h _ _ hw₀ hp).due, (h _ _ hw₀ hp).roused⟩
  | stirred hw₀ ha =>
    cases hw₀.symm.trans hw
    rw [hp] at ha
    cases ha
  | @heard _ _ _ _ raw =>
    cases hw
    dsimp only at hp
    rcases c.phaseFor_eq_or (Line.rtrim (Utf8.decodeLossy raw)) with hl | hl <;>
      cases hl.symm.trans hp
  | ended => cases hw
  | _ =>
    cases hw
    cases hp

theorem run_patient (settings : Settings) (capacity : UInt64) (ss : List Signal)
    (hw : ((initial settings capacity).run ss).1.worker = some w)
    (hp : w.phase = .polling deadline) :
    ((initial settings capacity).run ss).1.Patient deadline := by
  let P : Client → Trace → Prop := fun c _ =>
    ∀ w deadline, c.worker = some w → w.phase = .polling deadline → c.Patient deadline
  have hinit : P (initial settings capacity) [] := nofun
  exact @run_keeps P (fun h hm _ _ hw hp => hm.patient h hw hp) _ [] hinit ss w deadline hw hp

theorem serving_of_run {settings : Settings} {capacity : UInt64} {ss : List Signal}
    (hc : ((initial settings capacity).run ss).1.shared.connected = true)
    (hr : ((initial settings capacity).run ss).1.shared.running = true) :
    ∃ w buffer, ((initial settings capacity).run ss).1.Serving w buffer := by
  have hk := run_wellKept settings capacity ss
  obtain ⟨w, buffer, hw, hl⟩ := exists_worker_of_linkUp ((linkUp_eq_connected hk).trans hc)
  refine ⟨w, buffer, hw, hl, hr, fun hp => ?_, fun _ hp => run_patient _ _ _ hw hp⟩
  have hnone := (hk.sound hw).linked false hp
  rw [hl] at hnone
  cases hnone

/-! What comes of what may come -/

variable {buffer : Bytes} {a a' : Coming}

theorem Serving.step_polling (hc : c.Serving w buffer) (hp : w.phase = .polling deadline)
    (hs : s.failsRead = true) :
    (c.step s).1 = (c.pollHeard w (Heard.ofSignal c.now deadline buffer s)).1 ∧
      Trace.quiet (c.step s).2 = readEvents (Heard.intake buffer s) ++
        Trace.quiet (c.pollHeard w (Heard.ofSignal c.now deadline buffer s)).2 := by
  rw [step_of_polling hc.worker hp hc.link hs]
  simp only [Trace.quiet_append, quiet_readEvents, and_self]

theorem Serving.reaction_of_scan {bytes : Bytes} (hc : c.Serving w buffer)
    (hp : w.phase = .polling deadline) (hs : s.failsRead = true)
    (hi : Heard.intake buffer s = bytes)
    (ho : Heard.ofSignal c.now deadline buffer s = Heard.ofScan (buffer ++ bytes))
    (hu : a.unread = bytes ++ a'.unread) (he : a'.ending = a.ending)
    (hn : scan (buffer ++ bytes) = .unfinished → bytes ≠ []) :
    Reaction c w buffer a s a' (c.step s).1 (Trace.quiet (c.step s).2) := by
  obtain ⟨hstep, hquiet⟩ := hc.step_polling hp hs
  rw [hstep, hquiet, hi, ho, Heard.ofScan]
  cases hscan : scan (buffer ++ bytes) with
  | line raw rest =>
    obtain ⟨hline, hevents⟩ := c.heardLine_eq { w with link := some rest } raw
    simp only [pollHeard]
    rw [hline, hevents]
    exact .heard hp hs hu he hscan
  | overlong => exact .lost hp hs hu he (.inl hscan)
  | unfinished =>
    simp only [pollHeard, Trace.quiet_nil, List.append_nil]
    exact .held hp hs hu he (hn hscan)

theorem Ready.reaction (h : c.Ready w buffer a s a') (hc : c.Serving w buffer) :
    Reaction c w buffer a s a' (c.step s).1 (Trace.quiet (c.step s).2) := by
  cases h with
  | turn hp =>
    have hl : w.link.isSome = true := by rw [hc.link]; rfl
    have hstep : c.step .turn = c.ticked.connectedTurn (w.ticked c.shared.pending) := by
      simp [step, hc.worker, proceed, hp, turn_of_running hc.running, hl]
    rw [hstep]
    unfold connectedTurn
    split
    · next hq => exact .rested hp hq
    · next frame queue hq =>
      rw [Trace.quiet_cons _ _ rfl, Trace.quiet_logs]
      exact .took hp hq
  | @took rest n hp hn hr =>
    obtain ⟨m, rfl⟩ := Nat.exists_eq_add_of_lt hn
    have hstep : c.step (.took (0 + m + 1)) = (c.wait w (.sending (rest.drop (0 + m + 1))),
        sentEvents (rest.take (0 + m + 1))) := by
      simp only [step, hc.worker, proceed, hp, sending, Pushed.ofSignal]
    rw [hstep, quiet_sentEvents]
    exact .pushed hp hn hr
  | flushed hp =>
    have hstep : c.step .flushed = (c.enterPoll w, []) := by
      simp [step, hc.worker, proceed, hp, sending, Pushed.ofSignal]
    rw [hstep]
    exact .flushed hp
  | poll hp hs =>
    have hi : Heard.intake buffer .poll = [] := rfl
    refine hc.reaction_of_scan hp rfl hi ?_ rfl rfl fun hu => absurd hu (by simpa using hs)
    simp [Heard.ofSignal]
  | @received deadline chunk rest hp hs hu hchunk hlen =>
    have hi := Heard.intake_received hs hlen
    exact hc.reaction_of_scan hp rfl hi (Heard.ofSignal_received hs hlen) hu rfl fun _ => hchunk
  | @ended deadline _ hp hs he hu =>
    obtain ⟨hread, hi, e, ho⟩ : s.failsRead = true ∧ Heard.intake buffer s = [] ∧
        ∃ e, Heard.ofSignal c.now deadline buffer s = .failed e := by
      have hends := a.endsStream s he
      cases s with
      | endOfStream => exact ⟨rfl, rfl, .closedByPeer, by simp only [Heard.ofSignal, hs]⟩
      | readFailed e => exact ⟨rfl, rfl, e, by simp only [Heard.ofSignal, hs]⟩
      | _ => cases hends
    obtain ⟨hstep, hquiet⟩ := hc.step_polling hp hread
    rw [hstep, hquiet, hi, ho]
    exact .lost hp hread rfl rfl (.inr (by simp [he]))
  | wake hp hw =>
    have hstep : c.step .wake = (c.roused.wait w .between, []) := by
      simp [step, hc.worker, proceed, hp, polling, hc.link, hw, roused]
    rw [hstep]
    exact .woken hp hw
  | timeout hp hl hd =>
    have hstep : c.step .timeout = (c.wait w .between, []) := by
      simp [step, hc.worker, proceed, hp, polling, hc.link, Heard.ofSignal, Heard.intake, hl.scan,
        hd, pollHeard, readEvents]
    rw [hstep]
    exact .expired hp hl hd
  | returned hp =>
    have hstep : c.step .sinkReturned = (c.wait w .between, []) := by
      simp only [step, hc.worker, proceed, hp, delivering]
    rw [hstep]
    exact .delivered hp (.inl rfl)
  | @panicked line hp =>
    have hstep : c.step .sinkPanicked = (c.wait w .between, [.log (.sinkPanicked line)]) := by
      simp only [step, hc.worker, proceed, hp, delivering]
    rw [hstep]
    exact .delivered hp (.inr rfl)
  | elapsed d hd => exact .elapsed d hd

theorem Ready.sink? (h : c.Ready w buffer a s a') : s.sink? = none := by
  cases h with
  | ended _ _ he =>
    have hends := a.endsStream s he
    cases s with
    | call => cases hends
    | _ => rfl
  | _ => rfl

/-! How much there is to do -/

theorem load_of_worker (hw : c.worker = some w) (hl : w.link = some buffer) :
    c.load a = 1 + backlog c.shared a buffer + effort c.shared c.now a buffer w.phase := by
  simp only [load, hw, hl]

theorem load_wait {p : Phase} (hl : w.link = some buffer) :
    (c.wait w p).load a = 1 + backlog c.shared a buffer + effort c.shared c.now a buffer p :=
  load_of_worker (c := c.wait w p) rfl hl

section
variable {sh : Shared} {now : Duration}

@[simp] theorem effort_sending (rest : Bytes) :
    effort sh now a buffer (.sending rest) = rest.length + 3 := rfl
@[simp] theorem effort_delivering (line : String) :
    effort sh now a buffer (.delivering line) = 2 := rfl
@[simp] theorem effort_between : effort sh now a buffer .between = 1 := rfl
theorem effort_polling : effort sh now a buffer (.polling deadline) =
    if deadline ≤ now ∧ Lapses sh buffer a then 2 else 0 := rfl

theorem effort_polling_le : effort sh now a buffer (.polling deadline) ≤ 2 := by
  rw [effort_polling]
  split <;> omega

theorem effort_phaseFor_le (line : String) : effort sh now a buffer (c.phaseFor line) ≤ 2 := by
  rcases c.phaseFor_eq_or line with h | h <;> simp [h]

end

theorem load_enterPoll_of_empty (hl : w.link = some buffer) (hq : c.shared.queue.frames = [])
    (ht : c.settings.pollTimeout ≠ 0) :
    (c.enterPoll w).load a = 1 + backlog c.shared a buffer := by
  have hempty : c.shared.queue.isEmpty = true := by rw [Queue.isEmpty, hq]; rfl
  have hlater : ¬ c.now + c.settings.pollTimeout ≤ c.now :=
    not_le.2 (Nat.lt_add_of_pos_right (Nat.pos_of_ne_zero ht))
  rw [enterPoll, load_wait hl, if_pos hempty, effort_polling, if_neg fun h => hlater h.1,
    Nat.add_zero]

/-- Whatever comes, there is less to do then, unless it was time that passed. -/
theorem Reaction.load_lt (h : Reaction c w buffer a s a' c' new) (hc : c.Serving w buffer)
    (ht : c.settings.pollTimeout ≠ 0) (hs : s.passes = false) : c'.load a' < c.load a := by
  have hticked : (w.ticked c.shared.pending).link = some buffer := hc.link
  rw [load_of_worker hc.worker hc.link]
  cases h with
  | took hp hq =>
    have hframes := Queue.frames_of_dequeue hq
    rw [load_wait hticked, hp]
    simp only [backlog, hframes, ticked, effort_sending, effort_between,
      List.map_cons, List.sum_cons]
    omega
  | rested hp hq =>
    have hempty := Queue.frames_of_dequeue_none hq
    rw [load_enterPoll_of_empty (c := c.ticked) hticked hempty ht, hp]
    exact Nat.lt_succ_self _
  | pushed hp hn hr =>
    rw [load_wait hc.link, hp]
    simp only [effort_sending, List.length_drop]
    omega
  | flushed hp =>
    rw [enterPoll, load_wait hc.link, hp, effort_sending]
    exact Nat.add_lt_add_left (Nat.lt_succ_of_le effort_polling_le) _
  | @heard _ _ _ bytes raw rest hp _ hu _ hscan =>
    obtain ⟨⟨body, -, rfl⟩, hbytes⟩ := scan_line hscan
    have hlen : buffer.length + bytes.length = body.length + (rest.length + 1) := by
      simpa using congrArg List.length hbytes
    have hle : effort c.shared c.now a' rest
        (c.phaseFor (Line.rtrim (Utf8.decodeLossy (body ++ [lineFeed])))) ≤ 2 :=
      effort_phaseFor_le _
    rw [load_wait rfl]
    simp only [backlog, hu, List.length_append]
    omega
  | @held deadline _ _ chunk hp _ hu _ hchunk =>
    have hpos := List.length_pos_of_ne_nil hchunk
    have hle : effort c.shared c.now a' (buffer ++ chunk) (.polling deadline) ≤ 2 :=
      effort_polling_le
    rw [withWorker, load_of_worker rfl rfl, hp]
    simp only [backlog, hu, List.length_append]
    omega
  | lost =>
    have hzero : (c.unlinked w).load a' = 0 := rfl
    omega
  | woken hp hw =>
    rw [load_wait hc.link, effort_between]
    simp only [backlog, roused, Shared.takePermit, hw, Bool.toNat_true, Bool.toNat_false]
    omega
  | expired hp hl hd =>
    rw [load_wait hc.link, hp, effort_polling, if_pos ⟨hd, hl⟩]
    exact Nat.lt_succ_self _
  | delivered hp =>
    rw [load_wait hc.link, hp]
    exact Nat.lt_succ_self _
  | elapsed => cases hs

theorem Reaction.load_eq (h : Reaction c w buffer a s a' c' new) (hc : c.Serving w buffer)
    (hs : s.passes = true) : c'.load a' = c.load a := by
  cases h with
  | elapsed d hd =>
    rw [load_of_worker hc.worker hc.link, load_of_worker (c := { c with now := c.now + d })
      hc.worker hc.link]
    refine congrArg _ ?_
    cases hp : w.phase with
    | polling deadline =>
      have hiff : deadline ≤ c.now + d ∧ Lapses c.shared buffer a ↔
          deadline ≤ c.now ∧ Lapses c.shared buffer a := by
        refine and_congr_left fun hl => ⟨fun hle => ?_, fun hle => hle.trans (Nat.le_add_right ..)⟩
        by_contra hlt
        exact not_lt.2 hle (hd deadline hp hl (not_le.1 hlt))
      simp only [effort_polling, hiff]
    | _ => rfl
  | heard _ hr | held _ hr | lost _ hr => cases hs.symm.trans (Signal.passes_of_failsRead hr)
  | delivered _ hd => rcases hd with rfl | rfl <;> cases hs
  | _ => cases hs

/-! A worker goes on until its link is lost -/

theorem Ready.serving {buffer' : Bytes} (h : c.Ready w buffer a s a') (hc : c.Serving w buffer)
    (hw' : (c.step s).1.worker = some w') (hl' : w'.link = some buffer') :
    (c.step s).1.Serving w' buffer' := by
  have hpatient : ∀ deadline, w'.phase = .polling deadline → (c.step s).1.Patient deadline := by
    refine fun _ hp' => (c.step_makes s).patient (fun w₀ deadline hw₀ hp₀ => ?_) hw' hp'
    cases hc.worker.symm.trans hw₀
    exact hc.patient deadline hp₀
  have hreaction := h.reaction hc
  generalize Trace.quiet (c.step s).2 = new at hreaction
  generalize (c.step s).1 = c' at *
  cases hreaction with
  | took | rested | pushed | flushed | woken | expired | delivered =>
    cases hw'
    exact ⟨rfl, hl', hc.running, nofun, hpatient⟩
  | heard =>
    cases hw'
    refine ⟨rfl, hl', hc.running, ?_, hpatient⟩
    dsimp only
    exact phaseFor_linked c _
  | held =>
    cases hw'
    exact ⟨rfl, hl', hc.running, hc.placed, hpatient⟩
  | lost =>
    cases hw'
    cases hl'
  | elapsed =>
    cases hc.worker.symm.trans hw'
    exact ⟨hw', hl', hc.running, hc.placed, hpatient⟩

theorem ready_of_not_silent (hp : w.phase = .polling deadline) (h : ¬ a.Silent buffer) :
    ∃ s a', s.passes = false ∧ c.Ready w buffer a s a' := by
  by_cases hs : scan buffer = .unfinished
  · by_cases hu : a.unread = []
    · cases he : a.ending with
      | none => exact absurd ⟨hs, hu, he⟩ h
      | some s =>
        have hread := Signal.failsRead_of_endsStream (a.endsStream s he)
        exact ⟨s, a, Signal.passes_of_failsRead hread, .ended hp hs he fun _ => hu⟩
    · obtain ⟨b, rest, hb⟩ := List.exists_cons_of_ne_nil hu
      have hlen : [b].length ≤ readChunk := Nat.succ_le_succ (Nat.zero_le _)
      exact ⟨.received [b], _, rfl, .received hp hs hb nofun hlen⟩
  · exact ⟨.poll, a, rfl, .poll hp hs⟩

/-- The order in which arrivals are taken, in a wait for a line, is one of those that may come. -/
theorem ready_of_line? {outcome : Option Signal} {after : Arrivals}
    (hp : w.phase = .polling deadline)
    (h : Arrivals.line? ⟨outcome, a.unread, a.ending⟩ c buffer deadline = some (s, after)) :
    ∃ a', a'.unread = after.unread ∧ a'.ending = after.ending ∧ c.Ready w buffer a s a' := by
  unfold Arrivals.line? at h
  by_cases hs : scan buffer = .unfinished
  · by_cases hu : a.unread = []
    · simp only [hs, hu, ne_eq, not_true_eq_false, if_false] at h
      cases he : a.ending with
      | some _ =>
        cases he ▸ h
        exact ⟨a, hu, he, .ended hp hs he fun _ => hu⟩
      | none =>
        have hsilent : a.Silent buffer := ⟨hs, hu, he⟩
        simp only [he, Option.none_or, Arrivals.interruption?] at h
        split at h
        · next hw =>
          cases h
          exact ⟨a, hu, he, .wake hp hw⟩
        · split at h
          · next hd =>
            cases h
            exact ⟨a, hu, he, .timeout hp ⟨hs, fun _ => hsilent⟩ hd⟩
          · cases h
    · have hchunk : a.unread.take readChunk ≠ [] := by simp [hu, readChunk]
      have hsplit := (List.take_append_drop readChunk a.unread).symm
      simp only [hs, ne_eq, not_true_eq_false, if_false, hu, not_false_eq_true, if_true] at h
      cases h
      exact ⟨{ a with unread := a.unread.drop readChunk }, rfl, rfl,
        .received hp hs hsplit hchunk (List.length_take_le ..)⟩
  · rw [if_pos hs] at h
    cases h
    exact ⟨a, rfl, rfl, .poll hp hs⟩

/-- Something comes to a worker at once, or it waits with nothing to read and no wake-up. -/
theorem Serving.ready_or_still (hc : c.Serving w buffer) (a : Coming) :
    (∃ s a', s.passes = false ∧ c.Ready w buffer a s a') ∨ c.Still w buffer a := by
  have hplaced := hc.placed
  cases hp : w.phase with
  | fresh | idle | connecting | greeting | loggingIn =>
    rw [hp] at hplaced
    exact absurd rfl hplaced
  | between => exact .inl ⟨_, _, rfl, .turn hp⟩
  | sending rest =>
    cases rest with
    | nil => exact .inl ⟨_, _, rfl, .flushed hp⟩
    | cons b rest => exact .inl ⟨.took 1, _, rfl, .took hp Nat.one_pos (by simp)⟩
  | delivering line => exact .inl ⟨_, _, rfl, .returned hp⟩
  | polling deadline =>
    by_cases hs : a.Silent buffer
    · cases hw : c.shared.permit with
      | true => exact .inl ⟨_, _, rfl, .wake hp hw⟩
      | false =>
        by_cases hd : deadline ≤ c.now
        · exact .inl ⟨_, _, rfl, .timeout hp ⟨hs.scan, fun _ => hs⟩ hd⟩
        · exact .inr ⟨hs, hw, deadline, hp, not_le.1 hd⟩
    · exact .inl (ready_of_not_silent hp hs)

theorem Still.passes (h : c.Still w buffer a) (hr : c.Ready w buffer a s a') :
    s.passes = true := by
  obtain ⟨hsilent, hpermit, deadline, hp, hd⟩ := h
  cases hr with
  | elapsed => rfl
  | turn hp' | took hp' | flushed hp' | returned hp' | panicked hp' => cases hp.symm.trans hp'
  | poll _ hs => exact absurd hsilent.scan hs
  | received _ _ hu hc => exact absurd (List.append_eq_nil_iff.1 (hu.symm.trans hsilent.unread)).1 hc
  | ended _ _ he => cases hsilent.ending.symm.trans he
  | wake _ hw => cases hpermit.symm.trans hw
  | timeout hp' _ hd' =>
    cases hp.symm.trans hp'
    exact absurd hd' (not_le.2 hd)

end

end Client

end IGate
