import IGate.Proofs.Client.Serving

/-! What a connected worker has done by the time it waits: it has written all that was queued, one
frame a turn, and taken every line that the server sent. Whatever is ready first, it comes to wait
or loses its link in a read. -/

namespace IGate

open Trace LineBuffer

namespace Client

def unsent (c : Client) : Bytes := c.unsent?.getD []

def held (c : Client) : Bytes := (c.worker.bind (·.link)).getD []

/-- What is done on the way from one state to another, in `n` turns. -/
structure Passage (n : Nat) (c : Client) (a : Coming) (c' : Client) (a' : Coming) (es : Trace) :
    Prop where
  linkUp : c'.linkUp = true → c.linkUp = true
  dequeued : Trace.dequeued es = c.shared.queue.frames.take n
  queue : c'.shared.queue.frames = c.shared.queue.frames.drop n
  sent : Trace.sent es ++ c'.unsent = c.unsent ++ (Trace.dequeued es).flatten
  received : Trace.received es ++ a'.unread = a.unread
  ending : a'.ending = a.ending
  lines : ∀ raw ∈ linesRead es, IsLine raw
  handed : Trace.handed es = wanted (linesRead es)
  held : c'.linkUp = true → c.held ++ Trace.received es = (linesRead es).flatten ++ c'.held

section
variable {c c' c'' : Client} {w w' : Worker} {s : Signal} {new more : Trace} {buffer : Bytes}
  {a a' a'' : Coming} {n m : Nat}

theorem unsent_of_worker (hw : c.worker = some w) : c.unsent = w.phase.unsent?.getD [] := by
  rw [unsent, unsent?_of_worker hw]

theorem held_of_worker (hw : c.worker = some w) : c.held = w.link.getD [] := by
  simp [held, hw]

theorem count_turn_of_failsRead (h : s.failsRead = true) : [s].count .turn = 0 := by
  cases s with
  | turn => cases h
  | _ => rfl

namespace Passage

/-- What is done without the server. -/
theorem outward (hd : Trace.dequeued new = c.shared.queue.frames.take n)
    (hq : c'.shared.queue.frames = c.shared.queue.frames.drop n)
    (hs : Trace.sent new ++ c'.unsent = c.unsent ++ (Trace.dequeued new).flatten)
    (hw : c.worker = some w) (hw' : c'.worker = some w') (hl : w'.link = w.link)
    (hr : Trace.received new = []) (hn : linesRead new = []) (hh : Trace.handed new = []) :
    Passage n c a c' a new where
  linkUp := fun h => by rwa [linkUp_of_worker hw, ← hl, ← linkUp_of_worker hw']
  dequeued := hd
  queue := hq
  sent := hs
  received := by rw [hr, List.nil_append]
  ending := rfl
  lines := by simp [hn]
  handed := by rw [hh, hn]; rfl
  held := fun _ => by simp [hr, hn, held_of_worker hw, held_of_worker hw', hl]

theorem still (hq : c'.shared.queue.frames = c.shared.queue.frames) (hu : c'.unsent = c.unsent)
    (hw : c.worker = some w) (hw' : c'.worker = some w') (hl : w'.link = w.link) :
    Passage 0 c a c' a [] :=
  outward rfl hq (by simp [Trace.sent, Trace.dequeued, hu]) hw hw' hl rfl rfl rfl

theorem inward (bytes : Bytes) (raws : List Bytes) (hd : Trace.dequeued more = [])
    (hs : Trace.sent more = []) (hr : Trace.received more = []) (hn : linesRead more = raws)
    (hh : Trace.handed more = wanted raws) (hq : c'.shared.queue.frames = c.shared.queue.frames)
    (ho : c.unsent = []) (ho' : c'.unsent = []) (hu : a.unread = bytes ++ a'.unread)
    (he : a'.ending = a.ending) (hc : c.linkUp = true) (hl : ∀ raw ∈ raws, IsLine raw)
    (hb : c'.linkUp = true → c.held ++ bytes = raws.flatten ++ c'.held) :
    Passage 0 c a c' a' (readEvents bytes ++ more) := by
  have hdequeued : Trace.dequeued (readEvents bytes ++ more) = [] := by
    rw [dequeued_append, hd]
    simp [Trace.dequeued]
  have hsent : Trace.sent (readEvents bytes ++ more) = [] := by
    rw [sent_append, hs]
    simp [Trace.sent]
  have hreceived : Trace.received (readEvents bytes ++ more) = bytes := by
    rw [received_append, hr, List.append_nil]
    simp [Trace.received]
  have hlines : linesRead (readEvents bytes ++ more) = raws := by
    rw [linesRead_append, hn]
    simp [linesRead]
  have hhanded : Trace.handed (readEvents bytes ++ more) = wanted raws := by
    rw [handed_append, hh]
    simp [Trace.handed]
  exact {
    linkUp := fun _ => hc
    dequeued := hdequeued
    queue := hq
    sent := by rw [hsent, ho, ho', hdequeued]; rfl
    received := by rw [hreceived, hu]
    ending := he
    lines := by rwa [hlines]
    handed := by rw [hlines, hhanded]
    held := fun hu => by rw [hreceived, hlines, hb hu] }

theorem trans (h : Passage n c a c' a' new) (h' : Passage m c' a' c'' a'' more) :
    Passage (n + m) c a c'' a'' (new ++ more) where
  linkUp := fun hu => h.linkUp (h'.linkUp hu)
  dequeued := by rw [dequeued_append, h.dequeued, h'.dequeued, h.queue, List.take_add]
  queue := by rw [h'.queue, h.queue, List.drop_drop]
  sent := by
    rw [sent_append, dequeued_append, List.append_assoc, h'.sent, ← List.append_assoc, h.sent,
      List.flatten_append, List.append_assoc]
  received := by rw [received_append, List.append_assoc, h'.received, h.received]
  ending := h'.ending.trans h.ending
  lines := by
    rw [linesRead_append]
    exact List.forall_mem_append.2 ⟨h.lines, h'.lines⟩
  handed := by rw [handed_append, linesRead_append, wanted_append, h.handed, h'.handed]
  held := by
    intro hu
    rw [received_append, linesRead_append, ← List.append_assoc, h.held (h'.linkUp hu),
      List.append_assoc, h'.held hu, List.flatten_append, List.append_assoc]

end Passage

theorem Reaction.passage (h : Reaction c w buffer a s a' c' new) (hc : c.Serving w buffer) :
    Passage ([s].count .turn) c a c' a' new := by
  have hunsent := unsent_of_worker hc.worker
  have hheld := held_of_worker hc.worker
  have hup := (linkUp_of_worker hc.worker).trans (congrArg _ hc.link)
  rw [hc.link, Option.getD_some] at hheld
  cases h with
  | took hp hq =>
    have hframes := Queue.frames_of_dequeue hq
    rw [hp] at hunsent
    refine .outward ?_ ?_ ?_ hc.worker rfl rfl rfl rfl rfl
    · rw [hframes]
      rfl
    · rw [hframes]
      rfl
    · rw [hunsent]
      exact (List.append_nil _).symm
  | rested hp hq =>
    have hframes := Queue.frames_of_dequeue_none hq
    rw [hp] at hunsent
    refine .outward ?_ ?_ ?_ hc.worker rfl rfl rfl rfl rfl
    · rw [hframes]
      rfl
    · rw [hframes]
      exact hframes
    · rw [hunsent]
      rfl
  | @pushed k rest hp hn hr =>
    have hrest : (c.wait w (.sending (rest.drop k))).unsent = rest.drop k := rfl
    rw [hp] at hunsent
    refine .outward ?_ rfl ?_ hc.worker rfl rfl ?_ ?_ ?_
    · simp [Trace.dequeued]
    · rw [hrest, hunsent]
      simp [Trace.dequeued, Trace.sent, Phase.unsent?]
    · simp [Trace.received]
    · simp [linesRead]
    · simp [Trace.handed]
  | flushed hp =>
    rw [hp] at hunsent
    exact .still rfl hunsent.symm hc.worker rfl rfl
  | @heard _ _ _ bytes raw rest hp hr hu he hscan =>
    obtain ⟨hline, hbytes⟩ := scan_line hscan
    have hdone := unsent?_phaseFor c (Line.rtrim (Utf8.decodeLossy raw))
    rw [hp] at hunsent
    rw [count_turn_of_failsRead hr]
    refine .inward bytes [raw] ?_ ?_ ?_ ?_ ?_ rfl hunsent ?_ hu he hup ?_ ?_
    · simp [Trace.dequeued]
    · simp [Trace.sent]
    · simp [Trace.received]
    · simp [linesRead]
    · simpa [Trace.handed] using handed_deliveries c raw
    · simp [unsent, unsent?, wait, withWorker, hdone]
    · simpa using hline
    · intro
      rw [hheld, hbytes]
      simp [Client.held, wait, withWorker]
  | @held _ _ _ chunk hp hr hu he hchunk =>
    have hdone : (c.withWorker { w with link := some (buffer ++ chunk) }).unsent = [] := by
      simp [unsent, unsent?, withWorker, hp, Phase.unsent?]
    rw [hp] at hunsent
    rw [count_turn_of_failsRead hr, ← List.append_nil (readEvents chunk)]
    exact .inward chunk [] rfl rfl rfl rfl rfl rfl hunsent hdone hu he hup
      (List.forall_mem_nil _) fun _ => by rw [hheld]; rfl
  | @lost _ _ _ bytes hp hr hu he hf =>
    rw [hp] at hunsent
    rw [count_turn_of_failsRead hr]
    exact .inward bytes [] rfl rfl rfl rfl rfl rfl hunsent rfl hu he hup (List.forall_mem_nil _)
      fun hlost => absurd hlost Bool.false_ne_true
  | woken hp | expired hp =>
    rw [hp] at hunsent
    exact .still rfl hunsent.symm hc.worker rfl rfl
  | delivered hp hs =>
    rw [hp] at hunsent
    rcases hs with rfl | rfl <;> exact .still rfl hunsent.symm hc.worker rfl rfl
  | elapsed d hd => exact .still rfl rfl hc.worker hc.worker rfl

/-- A link is lost when a read fails: there are too many bytes for a line, or the stream ends. -/
theorem Reaction.linkUp_or_lost (h : Reaction c w buffer a s a' c' new) (hc : c.Serving w buffer) :
    c'.linkUp = true ∨ s.failsRead = true ∧ .closed ∈ new ∧ c'.shared.connected = false ∧
      (a.ending = none → ∃ bytes, bytes <+: a.unread ∧ scan (buffer ++ bytes) = .overlong) := by
  have hlink : w.link.isSome = true := by rw [hc.link]; rfl
  cases h with
  | lost hp hr hu _ hf =>
    refine .inr ⟨hr, by simp, rfl, fun he => ⟨_, ⟨_, hu.symm⟩, hf.resolve_right ?_⟩⟩
    exact not_not_intro he
  | heard | held => exact .inl rfl
  | elapsed => exact .inl ((linkUp_of_worker hc.worker).trans hlink)
  | _ => exact .inl hlink

theorem Passage.fits (h : Passage n c a c' a' new) (hu : c'.linkUp = true)
    (hf : Fits (c.held ++ a.unread)) : Fits (c'.held ++ a'.unread) := by
  rw [← h.received, ← List.append_assoc, h.held hu, List.append_assoc] at hf
  exact hf.of_flatten_append h.lines

/-! Ways to go on -/

variable {ss : List Signal}

namespace Serves

theorem serving {buffer' : Bytes} (h : c.Serves a ss a') (hc : c.Serving w buffer)
    (hw' : (c.run ss).1.worker = some w') (hl' : w'.link = some buffer') :
    (c.run ss).1.Serving w' buffer' := by
  induction h generalizing w' buffer' with
  | nil =>
    cases hc.worker.symm.trans hw'
    cases hc.link.symm.trans hl'
    exact hc
  | snoc h hw hl hs ih =>
    rw [run_concat] at hw' ⊢
    exact hs.serving (ih hw hl) hw' hl'

theorem passage (h : c.Serves a ss a') (hc : c.Serving w buffer) :
    Passage (ss.count .turn) c a (c.run ss).1 a' (Trace.quiet (c.run ss).2) := by
  induction h with
  | nil => exact .still rfl rfl hc.worker hc.worker rfl
  | snoc h hw hl hs ih =>
    have hserving := h.serving hc hw hl
    rw [run_concat, List.count_append, Trace.quiet_append]
    exact ih.trans ((hs.reaction hserving).passage hserving)

theorem delivered (h : c.Serves a ss a') :
    (c.run ss).1.shared.sink = c.shared.sink ∧
      Trace.delivered (c.run ss).2 = (Trace.handed (c.run ss).2).flatMap
        fun line => (c.shared.sink.map (·, line)).toList := by
  induction h with
  | nil => exact ⟨rfl, rfl⟩
  | @snoc ss _ _ _ s _ h hw hl hs ih =>
    obtain ⟨hsink, hdelivered⟩ := ih
    have hstep := ((c.run ss).1.step_makes s).delivered
    rw [delivered_quiet, handed_quiet, hsink] at hstep
    rw [run_concat, delivered_append, hdelivered, hstep, handed_append, List.flatMap_append]
    exact ⟨by rw [step_sink, hs.sink?, hsink]; rfl, rfl⟩

theorem load_le (h : c.Serves a ss a') (hc : c.Serving w buffer)
    (ht : c.settings.pollTimeout ≠ 0) :
    ss.countP (fun s => !s.passes) + (c.run ss).1.load a' ≤ c.load a := by
  induction h with
  | nil => simp
  | @snoc _ _ _ _ s _ h hw hl hs ih =>
    have hserving := h.serving hc hw hl
    have hreaction := hs.reaction hserving
    rw [run_concat, List.countP_append, List.countP_singleton]
    cases hp : s.passes with
    | true =>
      have heq := hreaction.load_eq hserving hp
      simp
      omega
    | false =>
      have hlt := hreaction.load_lt hserving (by rwa [run_settings]) hp
      simp
      omega

/-- No link is lost while the stream stays open and none of its lines is too long. -/
theorem linkUp_of_fits (h : c.Serves a ss a') (hc : c.Serving w buffer) (he : a.ending = none)
    (hf : Fits (c.held ++ a.unread)) : (c.run ss).1.linkUp = true := by
  induction h with
  | nil =>
    rw [run_nil, linkUp_of_worker hc.worker, hc.link]
    rfl
  | @snoc _ a₁ _ buffer _ _ h hw hl hs ih =>
    have hserving := h.serving hc hw hl
    have hpassage := h.passage hc
    have hfits := hpassage.fits ih hf
    rw [held_of_worker hw, hl, Option.getD_some] at hfits
    rw [run_concat]
    refine ((hs.reaction hserving).linkUp_or_lost hserving).resolve_right ?_
    rintro ⟨-, -, -, hlong⟩
    obtain ⟨bytes, ⟨rest, hu⟩, ho⟩ := hlong (hpassage.ending.trans he)
    rw [← hu, ← List.append_assoc] at hfits
    exact absurd (length_le_of_fits hfits (scan_overlong ho).1) (not_le.2 (scan_overlong ho).2)

/-- Nothing but a failed read takes the link. -/
theorem lost (h : c.Serves a ss a') (hc : c.Serving w buffer) (hu : (c.run ss).1.linkUp = false) :
    (c.run ss).1.shared.connected = false ∧ ∃ before s, ss = before ++ [s] ∧
      s.failsRead = true ∧ .closed ∈ ((c.run before).1.step s).2 := by
  cases h with
  | nil =>
    rw [run_nil, linkUp_of_worker hc.worker, hc.link] at hu
    cases hu
  | snoc h hw hl hs =>
    have hserving := h.serving hc hw hl
    rw [run_concat] at hu ⊢
    rcases (hs.reaction hserving).linkUp_or_lost hserving with hup | ⟨hr, hx, hconnected, -⟩
    · cases hu.symm.trans hup
    · exact ⟨hconnected, _, _, rfl, hr, (mem_quiet_iff rfl).1 hx⟩

/-- Whatever has come so far, only so much can come before the worker waits or has no link. -/
theorem ends (h : c.Serves a ss a') (hc : c.Serving w buffer) (ht : c.settings.pollTimeout ≠ 0) :
    ∃ more a'', (∀ s ∈ more, s.passes = false) ∧ c.Serves a (ss ++ more) a'' ∧
      ((c.run (ss ++ more)).1.linkUp = false ∨ (c.run (ss ++ more)).1.Waits a'') := by
  induction hn : (c.run ss).1.load a' using Nat.strong_induction_on generalizing ss a' with
  | _ n ih =>
    cases hu : (c.run ss).1.linkUp with
    | false => exact ⟨[], a', nofun, by simpa using h, .inl (by simpa using hu)⟩
    | true =>
      obtain ⟨w', buffer', hw, hl⟩ := exists_worker_of_linkUp hu
      have hserving := h.serving hc hw hl
      rcases hserving.ready_or_still a' with ⟨s, a₁, hp, hr⟩ | hstill
      · have hnext := h.snoc hw hl hr
        have hlt := (hr.reaction hserving).load_lt hserving (by rwa [run_settings]) hp
        rw [← congrArg Prod.fst (run_concat c ss s), hn] at hlt
        obtain ⟨more, a'', hmore, hserves, hend⟩ := ih _ hlt hnext rfl
        rw [List.append_assoc, List.singleton_append] at hserves hend
        exact ⟨s :: more, a'', List.forall_mem_cons.2 ⟨hp, hmore⟩, hserves, hend⟩
      · refine ⟨[], a', nofun, by simpa using h, .inr ?_⟩
        rw [List.append_nil]
        refine ⟨hu, fun w₀ buffer₀ s a₀ hw₀ hl₀ hr => ?_⟩
        cases hw.symm.trans hw₀
        cases hl.symm.trans hl₀
        exact hstill.passes hr

end Serves

/-- What a worker that waits has done since `c`, where `a` was to come. -/
structure WorkedOff (c : Client) (a : Coming) (c' : Client) (a' : Coming) (es : Trace) : Prop where
  queue : c'.shared.queue.frames = []
  dequeued : Trace.dequeued es = c.shared.queue.frames
  sent : Trace.sent es = c.unsent ++ c.shared.queue.frames.flatten
  unread : a'.unread = []
  received : Trace.received es = a.unread
  linesRead : Trace.linesRead es = lines (c.held ++ a.unread)
  handed : Trace.handed es = wanted (lines (c.held ++ a.unread))
  delivered : Trace.delivered es = (wanted (lines (c.held ++ a.unread))).flatMap
    fun line => (c.shared.sink.map (·, line)).toList
  held : c'.held = unfinished (c.held ++ a.unread) ∧ lineFeed ∉ c'.held
  permit : c'.shared.permit = false
  poll : ∃ w deadline, c'.worker = some w ∧ w.phase = .polling deadline ∧ c'.now < deadline ∧
    deadline ≤ c'.now + c.settings.pollTimeout

theorem Serves.workedOff (h : c.Serves a ss a') (hc : c.Serving w buffer)
    (hw : (c.run ss).1.Waits a') : WorkedOff c a (c.run ss).1 a' (c.run ss).2 := by
  obtain ⟨w', buffer', hw', hl'⟩ := exists_worker_of_linkUp hw.linkUp
  have hserving := h.serving hc hw' hl'
  have hpassage := h.passage hc
  rcases hserving.ready_or_still a' with ⟨s, a₁, hp, hr⟩ | ⟨hsilent, hpermit, deadline, hp, hd⟩
  · cases hp.symm.trans (hw.still _ _ _ _ hw' hl' hr)
  have hpatient := hserving.patient deadline hp
  have hempty : (c.run ss).1.shared.queue.frames = [] :=
    (hpatient.roused hd).resolve_right (by simp [hpermit])
  have hdequeued : Trace.dequeued (c.run ss).2 = c.shared.queue.frames := by
    rw [← dequeued_quiet, hpassage.dequeued, List.take_of_length_le]
    exact List.drop_eq_nil_iff.1 (hpassage.queue.symm.trans hempty)
  have hunsent : (c.run ss).1.unsent = [] := by
    rw [unsent_of_worker hw', hp]
    rfl
  have hheld : (c.run ss).1.held = buffer' := by
    rw [held_of_worker hw', hl', Option.getD_some]
  have hfeed : lineFeed ∉ buffer' := scan_unfinished hsilent.scan
  have hsent := hpassage.sent
  have hreceived := hpassage.received
  have hbytes := hpassage.held hw.linkUp
  rw [hunsent, List.append_nil, sent_quiet, dequeued_quiet, hdequeued] at hsent
  rw [hsilent.unread, List.append_nil] at hreceived
  rw [hreceived, hheld] at hbytes
  have hlines : lines (c.held ++ a.unread) = linesRead (Trace.quiet (c.run ss).2) := by
    rw [hbytes, lines_flatten_append hpassage.lines, lines_of_not_mem hfeed, List.append_nil]
  have hhanded : Trace.handed (c.run ss).2 = wanted (lines (c.held ++ a.unread)) := by
    rw [hlines, ← hpassage.handed, handed_quiet]
  exact {
    queue := hempty
    dequeued := hdequeued
    sent := hsent
    unread := hsilent.unread
    received := received_quiet _ ▸ hreceived
    linesRead := by rw [hlines, linesRead_quiet]
    handed := hhanded
    delivered := hhanded ▸ h.delivered.2
    held := by
      rw [hheld, hbytes, unfinished_flatten_append hpassage.lines, unfinished_of_not_mem hfeed]
      exact ⟨rfl, hfeed⟩
    permit := hpermit
    poll := ⟨w', deadline, hw', hp, hd, by simpa [run_settings] using hpatient.due⟩ }

structure WorksOff (c : Client) (a : Coming) : Prop where
  /-- Only so much can come to it, apart from time that passes. -/
  bounded : ∀ {ss a'}, c.Serves a ss a' → ss.countP (fun s => !s.passes) ≤ c.load a
  /-- As long as it has a link and does not wait, something else comes at once. -/
  ends : ∀ {ss a'}, c.Serves a ss a' → ∃ more a'', (∀ s ∈ more, s.passes = false) ∧
    c.Serves a (ss ++ more) a'' ∧
      ((c.run (ss ++ more)).1.linkUp = false ∨ (c.run (ss ++ more)).1.Waits a'')
  /-- The link is lost in nothing but a read. -/
  lost : ∀ {ss a'}, c.Serves a ss a' → (c.run ss).1.linkUp = false →
    (c.run ss).1.shared.connected = false ∧ ∃ before s, ss = before ++ [s] ∧
      s.failsRead = true ∧ .closed ∈ ((c.run before).1.step s).2
  kept : a.ending = none → Fits (c.held ++ a.unread) → ∀ {ss a'}, c.Serves a ss a' →
    (c.run ss).1.linkUp = true
  /-- Each turn takes the first frame that is queued. -/
  inTurn : ∀ {ss a'}, c.Serves a ss a' →
    Trace.dequeued (c.run ss).2 = c.shared.queue.frames.take (ss.count .turn)
  waits : ∀ {ss a'}, c.Serves a ss a' → (c.run ss).1.Waits a' →
    WorkedOff c a (c.run ss).1 a' (c.run ss).2

theorem Serving.worksOff (hc : c.Serving w buffer) (ht : c.settings.pollTimeout ≠ 0)
    (a : Coming) : WorksOff c a where
  bounded := fun h => (Nat.le_add_right _ _).trans (h.load_le hc ht)
  ends := fun h => h.ends hc ht
  lost := fun h => h.lost hc
  kept := fun he hf _ _ h => h.linkUp_of_fits hc he hf
  inTurn := fun h => (dequeued_quiet _).symm.trans (h.passage hc).dequeued
  waits := fun h => h.workedOff hc

end

/-- Once connected and not asked to stop, with whatever is queued, held, stored or still to be read:
a worker that nobody calls and whose writes succeed works all of it off before it waits. -/
theorem works_off_before_waiting (settings : Settings) (capacity : UInt64) (history : List Signal)
    (hp : settings.pollTimeout ≠ 0)
    (hc : ((initial settings capacity).run history).1.shared.connected = true)
    (hr : ((initial settings capacity).run history).1.shared.running = true) (a : Coming) :
    WorksOff ((initial settings capacity).run history).1 a := by
  obtain ⟨w, buffer, hserving⟩ := serving_of_run hc hr
  exact hserving.worksOff (by rwa [run_settings]) a

def queued : List Signal :=
  .call .start :: trialLogin ++ [.call (.write [65, 10]), .call (.write [66, 10])]

def chatter : Coming := ⟨Utf8.encode "# x\r\nA>B:1\r\nC>", none, nofun⟩

theorem queued_worked_off :
    trialSettings.pollTimeout ≠ 0 ∧
      ((initial trialSettings 2000).run queued).1.shared.connected = true ∧
      ((initial trialSettings 2000).run queued).1.shared.running = true ∧
      ((initial trialSettings 2000).run queued).1.shared.queue.frames = [[65, 10], [66, 10]] ∧
      WorksOff ((initial trialSettings 2000).run queued).1 chatter := by
  have hp : trialSettings.pollTimeout ≠ 0 := by decide
  have hc : ((initial trialSettings 2000).run queued).1.shared.connected = true := by
    decide +kernel
  have hr : ((initial trialSettings 2000).run queued).1.shared.running = true := by
    decide +kernel
  exact ⟨hp, hc, hr, by decide +kernel,
    works_off_before_waiting trialSettings 2000 queued hp hc hr chatter⟩

end Client

end IGate
