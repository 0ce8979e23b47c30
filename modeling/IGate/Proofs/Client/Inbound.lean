import IGate.Proofs.Client.Streams

/-! What a server sends is handed over line by line, without the two lines of the login, empty lines
and comments. However the bytes come, no line is lost, doubled or overtaken. -/

namespace IGate

open Trace LineBuffer

/-- The lines of text that are meant for the sink. -/
def wanted (raws : List Bytes) : List String :=
  (raws.map fun raw => Line.rtrim (Utf8.decodeLossy raw)).filter fun line =>
    line ≠ "" ∧ ¬ Line.isComment line

/-- The lines of a stream that are meant for the sink, behind the banner and the answer to the
login. -/
def deliverable (stream : Bytes) : List String := wanted ((lines stream).drop 2)

theorem wanted_append (raws more : List Bytes) :
    wanted (raws ++ more) = wanted raws ++ wanted more := by
  simp [wanted]

def Phase.greetings : Phase → Nat
  | .greeting .banner .. => 0
  | .greeting .acknowledgement .. | .loggingIn .. => 1
  | _ => 2

def Signal.sink? : Signal → Option Nat
  | .call (.setSink sink) => some sink
  | _ => none

/-- The bytes of a connection are those of its lines and those held, and the lines are handed over
if they are meant for the sink. -/
structure Heeded (k : Trace) (held : Bytes) : Prop where
  bytes : received k = (linesRead k).flatten ++ held
  lines : ∀ raw ∈ linesRead k, IsLine raw
  handed : handed k = wanted ((linesRead k).drop 2)

namespace Heeded

variable {k new : Trace} {held raw rest : Bytes}

theorem more (h : Heeded k held) (hl : linesRead new = []) (hh : Trace.handed new = []) :
    Heeded (k ++ new) (held ++ received new) where
  bytes := by rw [received_append, linesRead_append, hl, h.bytes]; simp
  lines := by simpa [hl] using h.lines
  handed := by simp [hl, hh, h.handed]

theorem line (h : Heeded k (raw ++ rest)) (hr : IsLine raw) (hn : received new = [])
    (hl : linesRead new = [raw])
    (hh : Trace.handed new = if 2 ≤ (linesRead k).length then wanted [raw] else []) :
    Heeded (k ++ new) rest where
  bytes := by rw [received_append, linesRead_append, hl, hn, h.bytes]; simp
  lines := by
    intro raw' hm
    rw [linesRead_append, hl, List.mem_append, List.mem_singleton] at hm
    rcases hm with hm | rfl
    · exact h.lines _ hm
    · exact hr
  handed := by
    rw [handed_append, linesRead_append, hl, hh, h.handed]
    split
    · next h2 => rw [List.drop_append_of_le_length h2, wanted_append]
    · next h2 =>
      have h1 : (linesRead k).drop 2 = [] := List.drop_eq_nil_of_le (by omega)
      have h1' : (linesRead k ++ [raw]).drop 2 = [] :=
        List.drop_eq_nil_of_le (by simp only [List.length_append, List.length_singleton]; omega)
      rw [h1, h1']
      rfl

/-- What was handed over is what the server's stream asks for, as far as it was read. -/
theorem prefix_deliverable (h : Heeded k held) {stream : Bytes} (hs : received k <+: stream) :
    Trace.handed k <+: deliverable stream := by
  obtain ⟨coming, rfl⟩ := hs
  rw [h.bytes, List.append_assoc, deliverable, lines_flatten_append h.lines, List.drop_append,
    wanted_append, h.handed]
  exact List.prefix_append _ _

theorem eq_deliverable (h : Heeded k held) (hf : lineFeed ∉ held) :
    Trace.handed k = deliverable (received k) := by
  rw [h.bytes, deliverable, lines_flatten_append h.lines, lines_of_not_mem hf, List.append_nil,
    h.handed]

end Heeded

theorem Heard.not_mem_of_ofSignal {now deadline : Duration} {buffer : Bytes} {s : Signal}
    (h : (∃ e, ofSignal now deadline buffer s = .failed e) ∨
      ofSignal now deadline buffer s = .timedOut) : lineFeed ∉ buffer ++ intake buffer s := by
  rcases h with ⟨e, h⟩ | h
  · rcases ofSignal_failed h with ho | ⟨hu, hi⟩
    · exact (scan_overlong ho).1
    · rw [hi, List.append_nil]
      exact scan_unfinished hu
  · obtain ⟨hu, hi⟩ := ofSignal_timedOut h
    rw [hi, List.append_nil]
    exact scan_unfinished hu

namespace Client

/-- A connection under way has read as many lines as its phase tells. -/
def Listening (c : Client) (k : Trace) : Prop :=
  ∃ w, c.worker = some w ∧ Heeded k w.held ∧ min 2 (linesRead k).length = w.phase.greetings

section
variable {c c' : Client} {w w' : Worker} {s : Signal} {new : Trace}

theorem greetings_of_phase {p : Phase} (hp : p.attempt? = none) : p.greetings = 2 := by
  cases p <;> first | rfl | cases hp

theorem held_of_phase (hp : w.phase.attempt? = none) : w.held = w.link.getD [] := by
  unfold Worker.held
  split <;> simp_all [Phase.attempt?]

theorem handed_deliveries (c : Client) (raw : Bytes) :
    Trace.handed (c.deliveries (Line.rtrim (Utf8.decodeLossy raw))) = wanted [raw] := by
  unfold deliveries wanted
  by_cases he : Line.rtrim (Utf8.decodeLossy raw) = ""
  · simp [he, Trace.handed]
  · by_cases hm : Line.isComment (Line.rtrim (Utf8.decodeLossy raw))
    · simp [he, hm, Trace.handed]
    · cases c.shared.sink <;> simp [he, hm, Trace.handed]

theorem Listening.keep {k : Trace} (h : c.Listening k) (hw : c.worker = some w)
    (hw' : c'.worker = some w') (hb : w'.held = w.held ++ received new)
    (hp : w'.phase.greetings = w.phase.greetings) (hl : linesRead new = [])
    (hh : Trace.handed new = []) : c'.Listening (k ++ new) := by
  obtain ⟨w₀, hw₀, hk, hn⟩ := h
  obtain rfl : w₀ = w := by simpa [hw] using hw₀.symm
  refine ⟨w', hw', hb ▸ hk.more hl hh, ?_⟩
  rw [hp, ← hn, linesRead_append, hl, List.append_nil]

/-- A line is taken from what was held and what has come. -/
theorem Listening.line {k : Trace} {bytes raw rest : Bytes} (h : c.Listening k)
    (hw : c.worker = some w) (hs : scan (w.held ++ bytes) = .line raw rest)
    (hw' : c'.worker = some w') (hb : w'.held = rest)
    (hp : w'.phase.greetings = min 2 (w.phase.greetings + 1)) (hn : received new = [])
    (hl : linesRead new = [raw])
    (hh : Trace.handed new = if w.phase.greetings = 2 then wanted [raw] else []) :
    c'.Listening (k ++ (readEvents bytes ++ new)) := by
  obtain ⟨w₀, hw₀, hk, hc⟩ := h
  obtain rfl : w₀ = w := by simpa [hw] using hw₀.symm
  have hread : linesRead (k ++ readEvents bytes) = linesRead k := by simp [linesRead]
  have hmore : Heeded (k ++ readEvents bytes) (w₀.held ++ bytes) := by
    have hl : linesRead (readEvents bytes) = [] := by simp [linesRead]
    have hh : Trace.handed (readEvents bytes) = [] := by simp [Trace.handed]
    simpa [received] using hk.more hl hh
  obtain ⟨hline, hrest⟩ := scan_line hs
  rw [hrest] at hmore
  rw [← List.append_assoc]
  refine ⟨w', hw', hb ▸ hmore.line hline hn hl ?_, ?_⟩
  · rw [hread, hh]
    have h2 : w₀.phase.greetings = 2 ↔ 2 ≤ (linesRead k).length := by omega
    simp only [h2]
  · rw [hp, linesRead_append, hread, hl, List.length_append, List.length_singleton]
    omega

theorem Listening.onLink {k : Trace} (h : c.Listening k) (hw : c.worker = some w)
    (hp : w.phase.attempt? = none) (hw' : c'.worker = some w') (hp' : w'.phase.attempt? = none)
    (hl : w'.link = w.link) (hr : received new = []) (hn : linesRead new = [])
    (hh : Trace.handed new = []) : c'.Listening (k ++ new) := by
  refine h.keep hw hw' ?_ ?_ hn hh
  · rw [held_of_phase hp, held_of_phase hp', hl, hr, List.append_nil]
  · rw [greetings_of_phase hp, greetings_of_phase hp']

theorem Move.listening {k : Trace} (hm : Move c s c' new) (hk : c.WellKept)
    (hu : c.connectionUp = true) (hu' : c'.connectionUp = true) (h : c.Listening k) :
    c'.Listening (k ++ new) := by
  cases hm with
  | ignored | stopRequested | accepted | rejected | clocked | sinkSet | elapsed | stirred =>
    obtain ⟨w, hw, -⟩ := id h
    exact h.keep hw hw (List.append_nil _).symm rfl rfl rfl
  | started hw => simp [connectionUp, hw] at hu
  | ended => simp [connectionUp, shutdown] at hu'
  | rested hw hp | took hw hp | dozed hw hp =>
    exact h.onLink hw (attempt?_of_boundary hp) rfl rfl rfl rfl rfl rfl
  | attempted hw hp _ hl | reattempted hw hp _ hl =>
    rw [connectionUp_of_phase hw (attempt?_of_boundary hp), hl] at hu
    cases hu
  | opened hw hp | unreached hw hp =>
    obtain ⟨-, hn⟩ := connectionUp_of_attempt hk hw (congrArg Phase.attempt? hp)
    simp [hn] at hu
  | abandoned hw hp =>
    rw [connectionUp_wait (connectionUp_of_attempt hk hw hp).1] at hu'
    cases hu'
  | ungreeted hw hp | loginFailed hw hp =>
    obtain ⟨hl, -⟩ := connectionUp_of_attempt hk hw (congrArg Phase.attempt? hp)
    rw [connectionUp_scheduleReconnect hl] at hu'
    cases hu'
  | @awaited w stage _ _ _ _ hw hp hs =>
    refine h.keep hw rfl ?_ ?_ (by simp [linesRead]) (by simp [Trace.handed])
    · simp [Worker.held, hp, received, Heard.ofSignal_waiting hs]
    · rw [hp]
      cases stage <;> rfl
  | greeted hw hp hs | established hw hp hs =>
    have hl := Heard.ofSignal_line hs
    refine h.line hw ?_ rfl rfl ?_ rfl rfl ?_
    · rw [Worker.held, hp]
      exact hl
    · rw [hp]
      rfl
    · rw [hp]
      rfl
  | loginSent hw hp | loginFlushed hw hp =>
    refine h.keep hw rfl ?_ ?_ (by simp [linesRead]) (by simp [Trace.handed])
    · simp [Worker.held, hp, received]
    · rw [hp]
      rfl
  | frameSent hw hp =>
    exact h.onLink hw (hp ▸ rfl) rfl rfl rfl (by simp [received]) (by simp [linesRead])
      (by simp [Trace.handed])
  | frameFlushed hw hp | pollWoken hw hp | pollEnded hw hp | sinkDone hw hp
  | idleEnded hw hp | idleWoken hw hp =>
    exact h.onLink hw (hp ▸ rfl) rfl rfl rfl rfl rfl rfl
  | frameFailed | readFailed => cases hu'
  | polled hw hp hl hs =>
    refine h.keep hw rfl ?_ rfl (by simp [linesRead]) (by simp [Trace.handed])
    simp [Worker.held, hp, hl, received, Heard.ofSignal_waiting hs]
  | @heard w _ buffer _ raw rest hw hp hl hs =>
    have hs' : scan (w.held ++ Heard.intake buffer s) = .line raw rest := by
      rw [Worker.held, hp, hl]
      exact Heard.ofSignal_line hs
    have hp' := attempt?_phaseFor c (Line.rtrim (Utf8.decodeLossy raw))
    refine h.line hw hs' rfl ?_ ?_ ?_ ?_ ?_
    · rw [held_of_phase (by rw [attempt?_phaseFor])]
      rfl
    · have hg := greetings_of_phase hp'
      simpa [hp, Phase.greetings] using hg
    · simp [received]
    · simp [linesRead]
    · have hd := handed_deliveries c raw
      simpa [hp, Phase.greetings, Trace.handed] using hd

theorem Move.heeded {k before later : Trace} {held : Bytes}
    (hm : Move c s c' (before ++ Event.closed :: later)) (h : Heeded k held) :
    Heeded (k ++ before ++ [Event.closed]) (held ++ received before) := by
  have hl : linesRead before = [] :=
    hm.flatMap_before_closed (fun _ => rfl) rfl (fun _ => rfl) (fun _ => rfl) rfl
  have hh : Trace.handed before = [] :=
    hm.flatMap_before_closed (fun _ => rfl) rfl (fun _ => rfl) (fun _ => rfl) rfl
  have hclosed : linesRead [.closed] = [] := rfl
  simpa [received] using (h.more hl hh).more hclosed rfl

theorem tracking_heeded :
    Tracking .opened connectionUp (fun k => ∃ held, Heeded k held) Listening where
  start_ne := nofun
  span := connection_span
  begins := by
    intro c s c' new hm hk hs
    cases hm <;> simp at hs
    next hw hp =>
      obtain ⟨hl, -⟩ := connectionUp_of_attempt hk hw (congrArg Phase.attempt? hp)
      exact ⟨_, rfl, ⟨rfl, nofun, rfl⟩, rfl⟩
  continues := fun hm hk hu hu' h => hm.listening hk hu hu' h
  ends := fun hm _ _ _ ⟨_, _, h, _⟩ => ⟨_, hm.heeded h⟩
  current := fun ⟨_, _, h, _⟩ => ⟨_, h⟩

theorem Move.handed (hm : Move c s c' new) :
    Trace.handed new = [] ∨ c.connectionUp = true ∧ c'.connectionUp = true := by
  cases hm with
  | heard hw hp hl =>
    refine .inr ⟨?_, ?_⟩
    · rw [connectionUp_of_phase hw (hp ▸ rfl), hl]
      rfl
    · rw [connectionUp_of_phase rfl (attempt?_phaseFor c _)]
      rfl
  | @ended w => exact .inl (by cases hl : w.link <;> simp [Trace.handed])
  | @abandoned _ opened => exact .inl (by cases opened <;> simp [Trace.handed])
  | awaited | polled | greeted | established | ungreeted | readFailed | loginSent | frameSent =>
    exact .inl (by simp [Trace.handed])
  | _ => exact .inl rfl

/-- No line is left among the bytes held when a read fails. -/
theorem Move.not_mem_held (hm : Move c s c' new) (hs : s.failsRead = true) (hx : Event.closed ∈ new)
    (hw : c.worker = some w) : lineFeed ∉ w.held ++ received new := by
  have hwrite : s.failsWrite = false := by cases s <;> first | rfl | cases hs
  cases hm <;> simp at hx
  · cases hs
  · cases hs
  · next w' _ _ _ hw' hp hs' =>
    obtain rfl : w' = w := by simpa [hw] using hw'.symm
    have hf := Heard.not_mem_of_ofSignal hs'
    simpa [Worker.held, hp, received] using hf
  · next hs' => simp [Pushed.ofSignal_failed hs'] at hwrite
  · next hs' => simp [Pushed.ofSignal_failed hs'] at hwrite
  · next w' _ _ e hw' hp hl hs' =>
    obtain rfl : w' = w := by simpa [hw] using hw'.symm
    have hf := Heard.not_mem_of_ofSignal (.inl ⟨e, hs'⟩)
    simpa [Worker.held, hp, hl, received] using hf

theorem Move.delivered (hm : Move c s c' new) :
    Trace.delivered new =
      (Trace.handed new).flatMap fun line => (c.shared.sink.map (·, line)).toList := by
  cases hm with
  | heard =>
    have hd : ∀ line, Trace.delivered (c.deliveries line) =
        (Trace.handed (c.deliveries line)).flatMap
          fun line => (c.shared.sink.map (·, line)).toList := by
      intro line
      unfold deliveries
      split
      · rfl
      · split <;> simp [Trace.delivered, Trace.handed, *]
    simpa [Trace.delivered, Trace.handed] using hd _
  | @ended w => cases hl : w.link <;> simp [Trace.delivered, Trace.handed]
  | @abandoned _ opened => cases opened <;> simp [Trace.delivered, Trace.handed]
  | awaited | polled | greeted | established | ungreeted | readFailed | loginSent | frameSent =>
    simp [Trace.delivered, Trace.handed]
  | _ => rfl

theorem Move.sink (hm : Move c s c' new) :
    c'.shared.sink = c.shared.sink ∨ s.sink?.isSome := by
  cases hm with
  | sinkSet => exact .inr rfl
  | _ => exact .inl rfl

theorem step_sink (c : Client) (s : Signal) :
    (c.step s).1.shared.sink = s.sink?.or c.shared.sink := by
  cases hs : s.sink? with
  | none =>
    rcases (c.step_makes s).sink with h | h
    · simpa using h
    · simp [hs] at h
  | some sink =>
    unfold Signal.sink? at hs
    split at hs <;> cases hs
    rfl

theorem run_sink (c : Client) (ss : List Signal) :
    (c.run ss).1.shared.sink = (ss.filterMap Signal.sink?).getLast?.or c.shared.sink := by
  induction ss generalizing c with
  | nil => rfl
  | cons s rest ih =>
    rw [run_cons, ih, step_sink, List.filterMap_cons]
    cases s.sink? with
    | none => rfl
    | some sink =>
      rw [List.getLast?_cons]
      cases (rest.filterMap Signal.sink?).getLast? <;> rfl

/-- What is known of the lines of a run on `ss` that led from `start` to `c` and showed `es`. -/
structure Inbound (start : Client) (ss : List Signal) (c : Client) (es : Trace) : Prop where
  attends : Attends start ss c es
  onConnections : Trace.handed es = (connections es).reverse.flatMap Trace.handed
  exact : ∀ k ∈ connections es, ∀ stream, received k <+: stream →
    Trace.handed k <+: deliverable stream
  /-- A connection that is lost in a read has no line left. -/
  complete : ∀ s, s.failsRead = true → .closed ∈ (c.step s).2 →
    ∃ k earlier, connections (es ++ (c.step s).2) = k :: earlier ∧ .closed ∈ k ∧
      Trace.handed k = deliverable (received k)
  sink : c.shared.sink = (ss.filterMap Signal.sink?).getLast?
  delivered : ∀ s, Trace.delivered (c.step s).2 =
    (Trace.handed (c.step s).2).flatMap fun line => (c.shared.sink.map (·, line)).toList

end

/-- However the bytes of a server come, and whatever is written or interrupted in between. -/
theorem lines_delivered_once_in_order (settings : Settings) (capacity : UInt64)
    (ss : List Signal) :
    Inbound (initial settings capacity) ss ((initial settings capacity).run ss).1
      ((initial settings capacity).run ss).2 := by
  have hk := run_wellKept settings capacity ss
  have ht := tracking_heeded.run (c := initial settings capacity) rfl rfl ss
  refine ⟨attends_run settings capacity ss, ?_, ?_, ?_, ?_, ?_⟩
  · have h := tracking_heeded.within _ (fun hm _ => hm.handed) (c := initial settings capacity)
      rfl rfl ss
    exact (handed_quiet _).symm.trans h
  · intro k hmem stream hs
    obtain ⟨held, hh⟩ := ht.all k hmem
    exact hh.prefix_deliverable hs
  · intro s hs hx
    have hm := step_makes ((initial settings capacity).run ss).1 s
    have hx' := (mem_quiet_iff rfl).2 hx
    have hu := connectionUp_of_closed hm hk hx'
    obtain ⟨k, rest, before, later, -, hn, ⟨w, hw, hh, -⟩, hl⟩ :=
      tracking_heeded.closes hm hk ht hu hx'
    have hf := hm.not_mem_held hs hx' hw
    refine ⟨k ++ before ++ [.closed], rest, ?_, by simp, ?_⟩
    · rw [connections, stretches_append]
      exact hl
    · rw [Makes, hn] at hm
      refine (hm.heeded hh).eq_deliverable fun hmem => hf ?_
      rw [hn, received_append, ← List.append_assoc]
      exact List.mem_append_left _ hmem
  · exact (run_sink _ ss).trans (Option.or_none)
  · intro s
    have hm := step_makes ((initial settings capacity).run ss).1 s
    rw [← delivered_quiet, ← handed_quiet]
    exact hm.delivered

/-- Both lines of the login come together with more, and the sink panics once. -/
def burst : List Signal :=
  [.call .start, .call (.setSink 7), .turn, .connected,
    .received (Utf8.encode "# hi\r\n# ok\r\nA>B:1\r\n# x\r\nC>D:2\r\nE>"), .took 100, .flushed,
    .poll, .turn, .poll, .sinkPanicked, .turn, .poll, .turn, .poll, .sinkReturned, .turn,
    .endOfStream]

example : Trace.delivered ((initial trialSettings 2000).run burst).2 =
    [(7, "A>B:1"), (7, "C>D:2")] := by
  decide +kernel

end Client

end IGate
