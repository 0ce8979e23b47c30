import IGate.Proofs.Client.Stretch
import IGate.Proofs.Framing

/-! What is read on a connection. A worker that waits for a line, and holds none, takes the whole of
the next chunk; nothing else is read, and nothing that was read is left out. -/

namespace IGate

open Trace LineBuffer

def Phase.listens : Phase → Bool
  | .greeting .. | .polling _ => true
  | _ => false

/-- The bytes that were read and not yet taken for a line. -/
def Worker.held (w : Worker) : Bytes :=
  match w.phase with
  | .greeting _ buffer _ | .loggingIn buffer _ => buffer
  | _ => w.link.getD []

/-- The worker waits for a line. It holds none yet, and not too many bytes for one. -/
def Worker.ReadsOn (w : Worker) : Prop :=
  w.phase.listens = true ∧ lineFeed ∉ w.held ∧ w.held.length ≤ maxLineLength

instance (w : Worker) : Decidable w.ReadsOn := inferInstanceAs (Decidable (_ ∧ _))

namespace Client

/-- What a signal brings: a chunk that one read can take, to a worker that reads on. -/
def brought (c : Client) : Signal → Bytes
  | .received chunk =>
    if (∃ w ∈ c.worker, w.ReadsOn) ∧ chunk.length ≤ readChunk then chunk else []
  | _ => []

/-- A connection that is opened has brought nothing yet. Whatever a signal brings, the latest
connection has brought. -/
def flow (c : Client) (s : Signal) (streams : List Bytes) : List Bytes :=
  if .opened ∈ (c.step s).2 then [] :: streams
  else
    match streams with
    | [] => []
    | stream :: earlier => (stream ++ c.brought s) :: earlier

def streamsFrom (c : Client) (streams : List Bytes) : List Signal → List Bytes
  | [] => streams
  | s :: rest => (c.step s).1.streamsFrom (c.flow s streams) rest

/-- What the signals of a run bring on each connection, the latest first. -/
def streams (c : Client) (ss : List Signal) : List Bytes := c.streamsFrom [] ss

section
variable {c c' : Client} {w : Worker} {s : Signal} {new : Trace}

theorem brought_of_listens (hw : c.worker = some w) (hl : w.phase.listens = true) (s : Signal) :
    c.brought s = Heard.intake w.held s := by
  cases s with
  | received chunk => simp [brought, Heard.intake, Worker.ReadsOn, scan_unfinished_iff, hw, hl]
  | _ => rfl

theorem exists_chunk (hw : c.worker = some w) (hs : c.brought s ≠ []) :
    ∃ chunk, s = .received chunk ∧ scan w.held = .unfinished ∧ chunk.length ≤ readChunk := by
  cases s with
  | received chunk =>
    obtain ⟨⟨v, hv, -, hu⟩, hlen⟩ := by_contra fun hno => hs (if_neg hno)
    obtain rfl := Option.some.inj (hw.symm.trans hv)
    exact ⟨chunk, rfl, scan_unfinished_iff.2 hu, hlen⟩
  | _ => exact absurd rfl hs

theorem brought_eq_nil (h : ∀ w, c.worker = some w → w.phase.listens = false) (s : Signal) :
    c.brought s = [] := by
  cases s with
  | received chunk =>
    refine if_neg fun hr => ?_
    obtain ⟨⟨w, hw, hl, -⟩, -⟩ := hr
    rw [h w hw] at hl
    cases hl
  | _ => rfl

theorem connectionUp_of_listens (hk : c.WellKept) (hw : c.worker = some w)
    (hl : w.phase.listens = true) : c.connectionUp = true := by
  cases hp : w.phase with
  | greeting => exact (connectionUp_of_attempt hk hw (congrArg Phase.attempt? hp)).2
  | polling =>
    rw [connectionUp_of_phase hw (hp ▸ rfl), ← linkUp_of_worker hw]
    exact linkUp_polling hk hw hp
  | _ => simp [hp, Phase.listens] at hl

theorem brought_of_disconnected (hk : c.WellKept) (hu : c.connectionUp = false) (s : Signal) :
    c.brought s = [] := by
  refine brought_eq_nil (fun w hw => ?_) s
  rw [← Bool.not_eq_true]
  intro hl
  simp [connectionUp_of_listens hk hw hl] at hu

/-- Only a worker that waits for a line reads. -/
theorem Move.reads (hm : Move c s c' new) :
    received new = [] ∨ ∃ w, c.worker = some w ∧ w.phase.listens = true ∧
      received new = Heard.intake w.held s := by
  cases hm with
  | awaited hw hp | greeted hw hp | established hw hp | ungreeted hw hp =>
    refine .inr ⟨_, hw, by rw [hp]; rfl, ?_⟩
    simp [received, Worker.held, hp]
  | polled hw hp hl | heard hw hp hl | readFailed hw hp hl =>
    refine .inr ⟨_, hw, by rw [hp]; rfl, ?_⟩
    simp [received, Worker.held, hp, hl]
  | @ended w => exact .inl (by cases hl : w.link <;> simp [received])
  | @abandoned _ opened => exact .inl (by cases opened <;> simp [received])
  | loginSent | frameSent => exact .inl (by simp [received])
  | _ => exact .inl rfl

/-- What comes of a wait for a line. Nothing more is read, the line is taken, and with a failure the
connection is closed. -/
structure Answers (answer : Heard → Step) : Prop where
  received : ∀ h, received (answer h).2 = []
  line : ∀ raw rest, Event.lineRead raw ∈ (answer (.line raw rest)).2
  failed : ∀ e, Event.closed ∈ (answer (.failed e)).2

theorem answers_greetingHeard (c : Client) (w : Worker) (stage : Stage) (deadline : Duration) :
    Answers (c.greetingHeard w stage deadline) where
  received h := by
    cases h with
    | line =>
      cases stage with
      | banner => rfl
      | acknowledgement =>
        simp only [greetingHeard, greeted]
        split <;> rfl
    | _ => rfl
  line raw rest := by cases stage <;> simp [greetingHeard, greeted]
  failed e := by simp [greetingHeard, failHandshake]

theorem answers_pollHeard (c : Client) (w : Worker) : Answers (c.pollHeard w) where
  received h := by
    cases h with
    | line raw rest =>
      rw [pollHeard, ← received_quiet, (c.heardLine_eq _ raw).2]
      simp [Trace.received]
    | _ => rfl
  line raw rest := by
    rw [pollHeard, ← mem_quiet_iff rfl, (c.heardLine_eq _ raw).2]
    exact List.mem_cons_self
  failed e := by simp [pollHeard, dropLink]

/-- A worker that waits for a line answers to what the wait ends in. -/
theorem step_of_listens (hk : c.WellKept) (hw : c.worker = some w) (hl : w.phase.listens = true)
    (hs : s.failsRead = true) :
    ∃ deadline answer, Answers answer ∧
      (c.step s).2 = readEvents (Heard.intake w.held s) ++
        (answer (Heard.ofSignal c.now deadline w.held s)).2 := by
  cases hp : w.phase with
  | greeting stage buffer deadline =>
    have hheld : w.held = buffer := by rw [Worker.held, hp]
    refine ⟨deadline, _, answers_greetingHeard c w stage deadline, ?_⟩
    rw [step_of_greeting hw hp (.inl hs), hheld]
  | polling deadline =>
    obtain ⟨buffer, hb⟩ := Option.isSome_iff_exists.1 ((hk.sound hw).linked true (by rw [hp]; rfl))
    have hheld : w.held = buffer := by simp [Worker.held, hp, hb]
    refine ⟨deadline, _, answers_pollHeard c w, ?_⟩
    rw [step_of_polling hw hp hb hs, hheld]
  | _ => simp [hp, Phase.listens] at hl

/-- A line that is there when it is looked for, or with the bytes that are read, is taken. -/
theorem lineRead_step (hk : c.WellKept) (hw : c.worker = some w) (hl : w.phase.listens = true)
    (hs : s = .poll ∨ c.brought s ≠ []) {raw rest : Bytes}
    (hr : w.held ++ c.brought s = raw ++ rest) (hline : IsLine raw) :
    Event.lineRead raw ∈ (c.step s).2 := by
  have hscan : scan (w.held ++ c.brought s) = .line raw rest := hr ▸ scan_line_append hline rest
  have hheard : s.failsRead = true ∧
      ∀ now deadline, Heard.ofSignal now deadline w.held s = .line raw rest := by
    rcases hs with rfl | hs
    · refine ⟨rfl, fun now deadline => ?_⟩
      have hheld : scan w.held = .line raw rest := by simpa [brought] using hscan
      simp [Heard.ofSignal, Heard.ofScan, hheld]
    · obtain ⟨chunk, rfl, hu, hlen⟩ := exists_chunk hw hs
      refine ⟨rfl, fun now deadline => ?_⟩
      rw [brought_of_listens hw hl, Heard.intake_received hu hlen] at hscan
      rw [Heard.ofSignal_received hu hlen, Heard.ofScan, hscan]
  obtain ⟨deadline, answer, ha, hstep⟩ := step_of_listens hk hw hl hheard.1
  rw [hstep, hheard.2]
  exact List.mem_append_right _ (ha.line raw rest)

/-- Where a line is waited for and none is there, the end of the stream closes the connection. -/
theorem closed_step_endOfStream (hk : c.WellKept) (hw : c.worker = some w) (hr : w.ReadsOn) :
    Event.closed ∈ (c.step .endOfStream).2 := by
  obtain ⟨hl, hu⟩ := hr
  rw [← scan_unfinished_iff] at hu
  obtain ⟨deadline, answer, ha, hstep⟩ := step_of_listens (s := .endOfStream) hk hw hl rfl
  have hfailed : Heard.ofSignal c.now deadline w.held .endOfStream = .failed .closedByPeer := by
    simp [Heard.ofSignal, hu]
  rw [hstep, hfailed]
  exact List.mem_append_right _ (ha.failed _)

/-- What is read in a step is what its signal brings. -/
theorem received_step (hk : c.WellKept) (s : Signal) :
    received (c.step s).2 = c.brought s := by
  by_cases hl : ∃ w, c.worker = some w ∧ w.phase.listens = true
  · obtain ⟨w, hw, hl⟩ := hl
    rw [brought_of_listens hw hl]
    cases s with
    | received chunk =>
      have hs : (Signal.received chunk).failsRead = true := rfl
      obtain ⟨deadline, answer, ha, hstep⟩ := step_of_listens hk hw hl hs
      rw [hstep, received_append, ha.received, List.append_nil]
      simp [received]
    | _ =>
      rw [← received_quiet]
      rcases (c.step_makes _).reads with hn | ⟨w', -, -, hr⟩
      · exact hn
      · exact hr
  · have hnot : ∀ w, c.worker = some w → w.phase.listens = false := fun w hw =>
      Bool.eq_false_iff.2 fun h => hl ⟨w, hw, h⟩
    rw [brought_eq_nil hnot, ← received_quiet]
    rcases (c.step_makes s).reads with hn | ⟨w, hw, h, -⟩
    · exact hn
    · exact absurd ⟨w, hw, h⟩ hl

/-- A connection is closed once in a move, and nothing is read behind that. -/
theorem Move.closing (hm : Move c s c' new) (hx : Event.closed ∈ new) :
    ∃ before later, new = before ++ .closed :: later ∧ Event.closed ∉ before ∧
      Event.closed ∉ later ∧ received later = [] := by
  cases hm with
  | @ended w =>
    have hl : w.link.isSome := by simpa using hx
    exact ⟨[], _, by rw [if_pos hl]; rfl, by simp, by simp, rfl⟩
  | @abandoned _ opened =>
    have ho : opened = true := by simpa using hx
    exact ⟨[], [], by rw [if_pos ho]; rfl, by simp, by simp, rfl⟩
  | ungreeted | readFailed => exact ⟨_, _, rfl, by simp, by simp, rfl⟩
  | loginFailed | frameFailed => exact ⟨[], _, rfl, by simp, by simp, rfl⟩
  | _ => simp at hx

theorem tracking_opened :
    Tracking .opened connectionUp (fun _ => True) (fun _ _ => True) where
  start_ne := nofun
  span := connection_span
  begins := fun _ _ _ => trivial
  continues := fun _ _ _ _ _ => trivial
  ends := fun _ _ _ _ _ => trivial
  current := fun _ => trivial

theorem flow_step (hk : c.WellKept) {ks : List Trace}
    (h : Tracked connectionUp (fun _ => True) (fun _ _ => True) c ks) (s : Signal) :
    ((quiet (c.step s).2).foldl (note .opened) ks).map received =
      c.flow s (ks.map received) := by
  have hm : Move c s (c.step s).1 (quiet (c.step s).2) := c.step_makes s
  have hread : received (quiet (c.step s).2) = c.brought s := by
    rw [received_quiet, received_step hk]
  have hopened : .opened ∈ (c.step s).2 ↔ .opened ∈ quiet (c.step s).2 := (mem_quiet_iff rfl).symm
  have hspan := connection_span hm hk
  simp only [flow, hopened]
  generalize quiet (c.step s).2 = new at *
  generalize hu : c.connectionUp = u at hspan
  generalize (c.step s).1.connectionUp = u' at hspan
  cases hspan with
  | outside ho =>
    rw [foldl_note_of_closed (h.closed hu) ho, if_neg ho, brought_of_disconnected hk hu]
    cases ks <;> simp
  | begins hn ho =>
    subst hn
    rw [List.foldl_append, foldl_note_of_closed (h.closed hu) ho, if_pos (by simp)]
    rfl
  | continues ho hc =>
    obtain ⟨k, rest, rfl, hkc, -⟩ := h.under_way hu
    rw [foldl_note_open hkc hc ho, if_neg ho, List.map_cons, received_append, hread]
    rfl
  | @ends before later hn hc ho hl =>
    obtain ⟨k, rest, rfl, hkc, -⟩ := h.under_way hu
    obtain ⟨before', later', hn', hc', hl', hnone⟩ := hm.closing (by simp [hn])
    obtain ⟨-, -, rfl⟩ := (List.append_cons_inj_of_notMem hc' hl').1 (hn'.symm.trans hn)
    have hbefore : received before = c.brought s := by
      rw [← hread, hn, received_append]
      simpa [received] using hnone
    rw [hn, foldl_note_closing tracking_opened.start_ne hkc hc ho hl, if_neg (by simp [ho, hl]),
      List.map_cons, received_append, received_append, hbefore]
    simp [received]

theorem streamsFrom_eq (hk : c.WellKept) {ks : List Trace}
    (h : Tracked connectionUp (fun _ => True) (fun _ _ => True) c ks) (ss : List Signal) :
    ((quiet (c.run ss).2).foldl (note .opened) ks).map received =
      c.streamsFrom (ks.map received) ss := by
  induction ss generalizing c ks with
  | nil => rfl
  | cons s rest ih =>
    have hm := c.step_makes s
    have hrest := ih (hm.wellKept hk) (tracking_opened.move hm hk h)
    rw [run_cons, quiet_append, List.foldl_append, hrest, flow_step hk h]
    rfl

/-- On each connection what the signals brought was read, no byte more and no byte less. -/
theorem received_connections (hk : c.WellKept) (hu : c.connectionUp = false) (ss : List Signal) :
    (connections (c.run ss).2).map received = c.streams ss :=
  streamsFrom_eq hk (.idle hu (by simp [Closed]) fun _ _ => trivial) ss

/-- What is known of the bytes in a run on `ss` that led from `start` to `c` and showed `es`. -/
structure Attends (start : Client) (ss : List Signal) (c : Client) (es : Trace) : Prop where
  /-- What is read is the chunk that comes while the worker waits for a line and holds none. -/
  read : ∀ s, received (c.step s).2 = c.brought s
  streams : (connections es).map received = start.streams ss
  /-- A line is taken once its last byte is read, or later when the worker looks for it. -/
  taken : ∀ s w raw rest, c.worker = some w → w.phase.listens = true →
    s = .poll ∨ c.brought s ≠ [] → w.held ++ c.brought s = raw ++ rest → IsLine raw →
    .lineRead raw ∈ (c.step s).2
  hungUp : ∀ w, c.worker = some w → w.ReadsOn → .closed ∈ (c.step .endOfStream).2

theorem attends_run (settings : Settings) (capacity : UInt64) (ss : List Signal) :
    Attends (initial settings capacity) ss ((initial settings capacity).run ss).1
      ((initial settings capacity).run ss).2 := by
  have hk := run_wellKept settings capacity ss
  have hstreams := received_connections (c := initial settings capacity) rfl rfl ss
  exact ⟨received_step hk, hstreams, fun _ _ _ _ hw hl hs hr => lineRead_step hk hw hl hs hr,
    fun _ hw => closed_step_endOfStream hk hw⟩

end

end Client

end IGate
