import IGate.Proofs.Client.Consistency

/-! The stretches of a trace in which a link or a connection is up. What holds when one begins, is
kept by every move while it lasts and gives something when it ends, holds of all of them. -/

namespace IGate

namespace Client

/-- What a move shows of a stretch that begins with `start`, by whether one is under way before and
after it. -/
inductive Span (start : Event) (new : Trace) : Bool → Bool → Prop
  | outside (ho : start ∉ new) : Span start new false false
  | begins {before} (hn : new = before ++ [start]) (ho : start ∉ before) :
    Span start new false true
  | continues (ho : start ∉ new) (hc : .closed ∉ new) : Span start new true true
  | ends {before later} (hn : new = before ++ .closed :: later) (hc : .closed ∉ before)
    (ho : start ∉ before) (hl : start ∉ later) : Span start new true false

def Latest (ks : List Trace) (up : Bool) : Prop :=
  if up then ∃ k rest, ks = k :: rest ∧ .closed ∉ k else Trace.Closed ks

/-- `P` of every stretch, and `Q` of the one under way. -/
structure Tracked (up : Client → Bool) (P : Trace → Prop) (Q : Client → Trace → Prop) (c : Client)
    (ks : List Trace) : Prop where
  latest : Latest ks (up c)
  all : ∀ k ∈ ks, P k
  current : up c = true → ∀ k ∈ ks.head?, Q c k

namespace Tracked

variable {up : Client → Bool} {P : Trace → Prop} {Q : Client → Trace → Prop} {c : Client}
  {k : Trace} {ks : List Trace}

theorem idle (hu : up c = false) (hl : Trace.Closed ks) (ha : ∀ k ∈ ks, P k) :
    Tracked up P Q c ks where
  latest := by simpa [Latest, hu] using hl
  all := ha
  current := fun h => by simp [hu] at h

theorem busy (hu : up c = true) (hc : Event.closed ∉ k) (hq : Q c k) (hp : P k)
    (ha : ∀ k ∈ ks, P k) : Tracked up P Q c (k :: ks) where
  latest := by simp [Latest, hu, hc]
  all := List.forall_mem_cons.2 ⟨hp, ha⟩
  current := by
    rintro - k' ⟨⟩
    exact hq

theorem closed (h : Tracked up P Q c ks) (hu : up c = false) : Trace.Closed ks := by
  simpa [Latest, hu] using h.latest

theorem under_way (h : Tracked up P Q c ks) (hu : up c = true) :
    ∃ k rest, ks = k :: rest ∧ Event.closed ∉ k ∧ Q c k := by
  have hl := h.latest
  rw [Latest, if_pos hu] at hl
  obtain ⟨k, rest, rfl, hk⟩ := hl
  exact ⟨k, rest, rfl, hk, h.current hu k rfl⟩

end Tracked

/-- How `P` and `Q` go along with the moves of a client. -/
structure Tracking (start : Event) (up : Client → Bool) (P : Trace → Prop)
    (Q : Client → Trace → Prop) : Prop where
  start_ne : start ≠ .closed
  span : ∀ {c s c' new}, Move c s c' new → c.WellKept → Span start new (up c) (up c')
  begins : ∀ {c s c' new}, Move c s c' new → c.WellKept → start ∈ new → Q c' []
  continues : ∀ {c s c' new k}, Move c s c' new → c.WellKept → up c = true → up c' = true →
    Q c k → Q c' (k ++ new)
  ends : ∀ {c s c' before later k}, Move c s c' (before ++ .closed :: later) → c.WellKept →
    up c = true → .closed ∉ before → Q c k → P (k ++ before ++ [.closed])
  current : ∀ {c k}, Q c k → P k

namespace Tracking

variable {start : Event} {up : Client → Bool} {P : Trace → Prop} {Q : Client → Trace → Prop}

theorem move (t : Tracking start up P Q) {c c' : Client} {s : Signal} {new : Trace}
    (hm : Move c s c' new) (hk : c.WellKept) {ks : List Trace} (h : Tracked up P Q c ks) :
    Tracked up P Q c' (new.foldl (Trace.note start) ks) := by
  have hspan := t.span hm hk
  generalize hu : up c = u at hspan
  generalize hu' : up c' = u' at hspan
  cases hspan with
  | outside ho =>
    rw [Trace.foldl_note_of_closed (h.closed hu) ho]
    exact .idle hu' (h.closed hu) h.all
  | begins hn ho =>
    have hq : Q c' [] := t.begins hm hk (by simp [hn])
    rw [hn, List.foldl_append, Trace.foldl_note_of_closed (h.closed hu) ho]
    simp only [List.foldl_cons, List.foldl_nil, Trace.note, if_true]
    exact .busy hu' List.not_mem_nil hq (t.current hq) h.all
  | continues ho hc =>
    obtain ⟨k, rest, rfl, hkc, hq⟩ := h.under_way hu
    have hq' : Q c' (k ++ new) := t.continues hm hk hu hu' hq
    rw [Trace.foldl_note_open hkc hc ho]
    exact .busy hu' (by simp [hkc, hc]) hq' (t.current hq') (List.forall_mem_cons.1 h.all).2
  | ends hn hc ho hl =>
    subst hn
    obtain ⟨k, rest, rfl, hkc, hq⟩ := h.under_way hu
    have hp := t.ends hm hk hu hc hq
    rw [Trace.foldl_note_closing t.start_ne hkc hc ho hl]
    have ha := (List.forall_mem_cons.1 h.all).2
    exact .idle hu' (by simp [Trace.Closed]) (List.forall_mem_cons.2 ⟨hp, ha⟩)

theorem closes (t : Tracking start up P Q) {c c' : Client} {s : Signal} {new : Trace}
    (hm : Move c s c' new) (hk : c.WellKept) {ks : List Trace} (h : Tracked up P Q c ks)
    (hu : up c = true) (hx : Event.closed ∈ new) :
    ∃ k rest before later, ks = k :: rest ∧ new = before ++ Event.closed :: later ∧ Q c k ∧
      new.foldl (Trace.note start) ks = (k ++ before ++ [Event.closed]) :: rest := by
  obtain ⟨k, rest, rfl, hkc, hq⟩ := h.under_way hu
  have hspan := t.span hm hk
  rw [hu] at hspan
  generalize up c' = u' at hspan
  cases hspan with
  | continues ho hc => exact absurd hx hc
  | @ends before later hn hc ho hl =>
    refine ⟨k, rest, before, later, rfl, hn, hq, ?_⟩
    rw [hn, Trace.foldl_note_closing t.start_ne hkc hc ho hl]

/-- A stretch after a move was there before, is under way, or is ended by the move. -/
theorem after (t : Tracking start up P Q) {c c' : Client} {s : Signal} {new : Trace}
    (hm : Move c s c' new) (hk : c.WellKept) {ks : List Trace} (h : Tracked up P Q c ks) {k : Trace}
    (hmem : k ∈ new.foldl (Trace.note start) ks) :
    k ∈ ks ∨ Q c' k ∨ ∃ k₀ before later, new = before ++ Event.closed :: later ∧ Q c k₀ ∧
      k = k₀ ++ before ++ [Event.closed] := by
  have hspan := t.span hm hk
  generalize hu : up c = u at hspan
  generalize hu' : up c' = u' at hspan
  cases hspan with
  | outside ho =>
    rw [Trace.foldl_note_of_closed (h.closed hu) ho] at hmem
    exact .inl hmem
  | begins hn ho =>
    rw [hn, List.foldl_append, Trace.foldl_note_of_closed (h.closed hu) ho] at hmem
    simp only [List.foldl_cons, List.foldl_nil, Trace.note, if_true, List.mem_cons] at hmem
    rcases hmem with rfl | hmem
    · exact .inr (.inl (t.begins hm hk (by simp [hn])))
    · exact .inl hmem
  | continues ho hc =>
    obtain ⟨k₀, rest, rfl, hkc, hq⟩ := h.under_way hu
    rw [Trace.foldl_note_open hkc hc ho] at hmem
    rcases List.mem_cons.1 hmem with rfl | hmem
    · exact .inr (.inl (t.continues hm hk hu hu' hq))
    · exact .inl (List.mem_cons_of_mem _ hmem)
  | @ends before later hn hc ho hl =>
    obtain ⟨k₀, rest, rfl, hkc, hq⟩ := h.under_way hu
    rw [hn, Trace.foldl_note_closing t.start_ne hkc hc ho hl] at hmem
    rcases List.mem_cons.1 hmem with rfl | hmem
    · exact .inr (.inr ⟨k₀, before, later, hn, hq, rfl⟩)
    · exact .inl (List.mem_cons_of_mem _ hmem)

/-- What moves keep with the help of the stretches so far, a run keeps. -/
theorem run_keeps (t : Tracking start up P Q) {R : Client → Trace → Prop}
    (hmove : ∀ {c s c' es new}, Move c s c' new → c.WellKept →
      Tracked up P Q c (es.foldl (Trace.note start) []) → R c es → R c' (es ++ new))
    {c : Client} (hk : c.WellKept) (hu : up c = false) (hr : R c []) (ss : List Signal) :
    Tracked up P Q (c.run ss).1 (Trace.stretches start (c.run ss).2) ∧
      R (c.run ss).1 (Trace.quiet (c.run ss).2) := by
  let S : Client → Trace → Prop := fun c es =>
    c.WellKept ∧ Tracked up P Q c (es.foldl (Trace.note start) []) ∧ R c es
  have hstep : ∀ {c s c' es new}, S c es → Move c s c' new → S c' (es ++ new) := by
    intro c s c' es new h hm
    refine ⟨hm.wellKept h.1, ?_, hmove hm h.1 h.2.1 h.2.2⟩
    rw [List.foldl_append]
    exact t.move hm h.1 h.2.1
  have hinit : S c [] := ⟨hk, .idle hu (by simp [Trace.Closed]) nofun, hr⟩
  exact (Client.run_keeps hstep hinit ss).2

theorem run (t : Tracking start up P Q) {c : Client} (hk : c.WellKept) (hu : up c = false)
    (ss : List Signal) :
    Tracked up P Q (c.run ss).1 (Trace.stretches start (c.run ss).2) := by
  let R : Client → Trace → Prop := fun _ _ => True
  exact (@run_keeps _ _ _ _ t R (fun _ _ _ _ => trivial) c hk hu trivial ss).1

/-- Every stretch but the one under way is closed. -/
theorem run_closed (t : Tracking start up P Q) {c : Client} (hk : c.WellKept) (hu : up c = false)
    (ss : List Signal) (hu' : up (c.run ss).1 = false) :
    ∀ k ∈ Trace.stretches start (c.run ss).2, Event.closed ∈ k := by
  let R : Client → Trace → Prop := fun _ es =>
    ∀ k ∈ (es.foldl (Trace.note start) []).tail, Event.closed ∈ k
  have hmove : ∀ {c s c' es new}, Move c s c' new → c.WellKept →
      Tracked up P Q c (es.foldl (Trace.note start) []) → R c es → R c' (es ++ new) := by
    intro c s c' es new hm hk h hr
    simp only [R, List.foldl_append] at hr ⊢
    have hspan := t.span hm hk
    generalize hv : up c = v at hspan
    generalize up c' = v' at hspan
    cases hspan with
    | outside ho => rwa [Trace.foldl_note_of_closed (h.closed hv) ho]
    | begins hn ho =>
      have hall := h.closed hv
      rw [hn, List.foldl_append, Trace.foldl_note_of_closed hall ho]
      simp only [List.foldl_cons, List.foldl_nil, Trace.note, if_true, List.tail_cons]
      exact Trace.forall_closed hall hr
    | continues ho hc =>
      obtain ⟨k, rest, hks, hkc, -⟩ := h.under_way hv
      rw [hks] at hr ⊢
      rwa [Trace.foldl_note_open hkc hc ho]
    | ends hn hc ho hl =>
      obtain ⟨k, rest, hks, hkc, -⟩ := h.under_way hv
      rw [hks] at hr ⊢
      rwa [hn, Trace.foldl_note_closing t.start_ne hkc hc ho hl]
  obtain ⟨ht, hr⟩ := t.run_keeps (R := R) hmove hk hu (by simp [R]) ss
  have hall := ht.closed hu'
  exact Trace.forall_closed hall hr

/-- What is told of the stretch under way by something that no move changes, like the settings, is
told by it of every stretch. -/
theorem run_all {α : Type} (t : Tracking start up P Q) {f : Client → α} {T : α → Trace → Prop}
    (hf : ∀ {c s c' new}, Move c s c' new → f c' = f c)
    (hcurrent : ∀ {c k}, Q c k → T (f c) k)
    (hends : ∀ {c s c' before later k}, Move c s c' (before ++ Event.closed :: later) → Q c k →
      T (f c) (k ++ before ++ [Event.closed]))
    {c : Client} (hk : c.WellKept) (hu : up c = false) (ss : List Signal) :
    ∀ k ∈ Trace.stretches start (c.run ss).2, T (f c) k := by
  let R : Client → Trace → Prop := fun c' es =>
    f c' = f c ∧ ∀ k ∈ es.foldl (Trace.note start) [], T (f c) k
  have hmove : ∀ {c₁ s c₂ es new}, Move c₁ s c₂ new → c₁.WellKept →
      Tracked up P Q c₁ (es.foldl (Trace.note start) []) → R c₁ es → R c₂ (es ++ new) := by
    intro c₁ s c₂ es new hm hk h hr
    have hf₂ : f c₂ = f c := (hf hm).trans hr.1
    refine ⟨hf₂, fun k hmem => ?_⟩
    rw [List.foldl_append] at hmem
    rcases t.after hm hk h hmem with hold | hq | ⟨k₀, before, later, rfl, hq, rfl⟩
    · exact hr.2 k hold
    · exact hf₂ ▸ hcurrent hq
    · exact hr.1 ▸ hends hm hq
  exact (t.run_keeps hmove hk hu ⟨rfl, nofun⟩ ss).2.2

/-- What is seen only while a stretch is under way is seen in the stretches. -/
theorem within {α : Type} (t : Tracking start up P Q) (f : Event → List α)
    (hf : ∀ {c s c' new}, Move c s c' new → c.WellKept →
      new.flatMap f = [] ∨ up c = true ∧ up c' = true)
    {c : Client} (hk : c.WellKept) (hu : up c = false) (ss : List Signal) :
    (Trace.quiet (c.run ss).2).flatMap f =
      (Trace.stretches start (c.run ss).2).reverse.flatMap (·.flatMap f) := by
  let R : Client → Trace → Prop := fun _ es =>
    es.flatMap f = (es.foldl (Trace.note start) []).reverse.flatMap (·.flatMap f)
  have hmove : ∀ {c s c' es new}, Move c s c' new → c.WellKept →
      Tracked up P Q c (es.foldl (Trace.note start) []) → R c es → R c' (es ++ new) := by
    intro c s c' es new hm hk h hr
    simp only [R, List.flatMap_append, List.foldl_append] at hr ⊢
    rw [hr]
    rcases hf hm hk with hn | ⟨hu, hu'⟩
    · rw [hn, List.append_nil]
      exact (Trace.flatMap_foldl_note _ hn _).symm
    · obtain ⟨k, rest, hks, hkc, -⟩ := h.under_way hu
      have hspan := t.span hm hk
      rw [hu, hu'] at hspan
      cases hspan with
      | continues ho hc =>
        rw [hks, Trace.foldl_note_open hkc hc ho]
        simp
  exact (t.run_keeps hmove hk hu rfl ss).2

end Tracking

/-! Links and connections -/

@[simp] theorem mem_readEvents {e : Event} {bytes : Bytes} :
    e ∈ readEvents bytes ↔ bytes ≠ [] ∧ e = .read bytes := by
  unfold readEvents
  split <;> simp_all

@[simp] theorem mem_sentEvents {e : Event} {bytes : Bytes} :
    e ∈ sentEvents bytes ↔ bytes ≠ [] ∧ e = .sent bytes := by
  unfold sentEvents
  split <;> simp_all

@[simp] theorem not_mem_deliveries {c : Client} {line : String} {e : Event}
    (hh : ∀ l, e ≠ .handed l) (hd : ∀ sink l, e ≠ .delivered sink l) :
    e ∉ c.deliveries line := by
  unfold deliveries
  split
  · simp
  · split <;> simp [hh, hd]

@[simp] theorem flatMap_deliveries {α : Type} (f : Event → List α) (hh : ∀ l, f (.handed l) = [])
    (hd : ∀ sink l, f (.delivered sink l) = []) (c : Client) (line : String) :
    (c.deliveries line).flatMap f = [] := by
  unfold deliveries
  split
  · rfl
  · split <;> simp [hh, hd]

def linkUp (c : Client) : Bool := (c.worker.bind (·.link)).isSome

/-- There is a connection, logged in or not yet. -/
def connectionUp (c : Client) : Bool :=
  c.worker.any fun w => w.link.isSome || w.phase.attempt? == some true

theorem linkUp_of_worker {c : Client} {w : Worker} (hw : c.worker = some w) :
    c.linkUp = w.link.isSome := by
  simp [linkUp, hw]

theorem exists_worker_of_linkUp {c : Client} (hu : c.linkUp = true) :
    ∃ w buffer, c.worker = some w ∧ w.link = some buffer := by
  cases hw : c.worker with
  | none => simp [linkUp, hw] at hu
  | some w =>
    rw [linkUp_of_worker hw] at hu
    obtain ⟨buffer, hl⟩ := Option.isSome_iff_exists.1 hu
    exact ⟨w, buffer, rfl, hl⟩

theorem linkUp_of_attempt {c : Client} {w : Worker} (hk : c.WellKept) (hw : c.worker = some w)
    (hp : w.phase.attempt?.isSome) : c.linkUp = false := by
  rw [linkUp_of_worker hw, ((hk.sound hw).attempted_of_attempt hp).1]
  rfl

theorem Span.keep {start : Event} {new : Trace} {u u' : Bool} (h : u' = u) (ho : start ∉ new)
    (hc : Event.closed ∉ new) : Span start new u u' := by
  subst h
  cases u' with
  | false => exact .outside ho
  | true => exact .continues ho hc

theorem Span.off {start : Event} {new : Trace} {u u' : Bool} (hu : u = false) (hu' : u' = false)
    (ho : start ∉ new) : Span start new u u' := by
  subst hu hu'
  exact .outside ho

section
variable {c c' : Client} {w w' : Worker} {s : Signal} {new : Trace}

theorem linkUp_eq (hw : c.worker = some w) (hw' : c'.worker = some w')
    (hl : w'.link.isSome = w.link.isSome) : c'.linkUp = c.linkUp := by
  rw [linkUp_of_worker hw, linkUp_of_worker hw', hl]

theorem linkUp_polling {deadline : Duration} (hk : c.WellKept) (hw : c.worker = some w)
    (hp : w.phase = .polling deadline) : c.linkUp = true := by
  rw [linkUp_of_worker hw]
  exact (hk.sound hw).linked true (by rw [hp]; rfl)

theorem attempt?_of_linkUp (hk : c.WellKept) (hw : c.worker = some w) (hu : c.linkUp = true) :
    w.phase.attempt? = none := by
  by_contra hp
  have hl := linkUp_of_attempt hk hw (Option.isSome_iff_ne_none.2 hp)
  simp [hl] at hu

theorem link_span (hm : Move c s c' new) (hk : c.WellKept) :
    Span .established new c.linkUp c'.linkUp := by
  cases hm with
  | ignored | stopRequested | accepted | rejected | clocked | sinkSet | elapsed | stirred =>
    exact .keep rfl (by simp) (by simp)
  | started hw => exact .keep (by simp [linkUp, hw, Worker.initial]) (by simp) (by simp)
  | rested hw | took hw | attempted hw | reattempted hw | dozed hw | opened hw | unreached hw
  | awaited hw | greeted hw | loginSent hw | loginFlushed hw | frameSent hw | frameFlushed hw
  | pollWoken hw | pollEnded hw | sinkDone hw | idleEnded hw | idleWoken hw =>
    exact .keep (linkUp_eq hw rfl rfl) (by simp) (by simp)
  | ended hw =>
    rename_i w _ _
    have hl' : (c.shutdown w).1.linkUp = false := rfl
    rw [linkUp_of_worker hw, hl']
    cases hl : w.link with
    | none => exact .outside (by simp)
    | some buffer => exact .ends (List.nil_append _).symm (by simp) (by simp) (by simp)
  | abandoned hw hp =>
    have hl := linkUp_of_attempt hk hw (by rw [hp]; rfl)
    exact .off hl ((linkUp_of_worker hw).symm.trans hl) (by split <;> simp)
  | established hw hp =>
    rename_i w buffer _ raw rest _
    have hn : readEvents (Heard.intake buffer s) ++ [Event.lineRead raw, .established] =
        (readEvents (Heard.intake buffer s) ++ [Event.lineRead raw]) ++ [Event.established] := by
      simp
    rw [linkUp_of_attempt hk hw (by rw [hp]; rfl), hn]
    exact .begins rfl (by simp)
  | ungreeted hw hp | loginFailed hw hp =>
    have hl := linkUp_of_attempt hk hw (by rw [hp]; rfl)
    exact .off hl ((linkUp_of_worker hw).symm.trans hl) (by simp)
  | frameFailed hw hp =>
    rw [linkUp_of_worker hw, (hk.sound hw).linked true (by rw [hp]; rfl)]
    exact .ends (List.nil_append _).symm (by simp) (by simp) (by simp)
  | polled hw _ hl | heard hw _ hl =>
    exact .keep (linkUp_eq hw rfl (by simp [hl])) (by simp) (by simp)
  | readFailed hw hp =>
    rw [linkUp_polling hk hw hp]
    exact .ends rfl (by simp) (by simp) (by simp)

theorem connectionUp_of_phase (hw : c.worker = some w) (hp : w.phase.attempt? = none) :
    c.connectionUp = w.link.isSome := by
  simp [connectionUp, hw, hp]

theorem connectionUp_of_attempt {opened : Bool} (hk : c.WellKept) (hw : c.worker = some w)
    (hp : w.phase.attempt? = some opened) : w.link = none ∧ c.connectionUp = opened := by
  have hl := ((hk.sound hw).attempted_of_attempt (by rw [hp]; rfl)).1
  exact ⟨hl, by simp [connectionUp, hw, hl, hp]⟩

theorem connectionUp_wait (hl : w.link = none) (p : Phase) :
    (c.wait w p).connectionUp = (p.attempt? == some true) := by
  simp [connectionUp, wait, withWorker, hl]

theorem connectionUp_scheduleReconnect (hl : w.link = none) :
    (c.scheduleReconnect w).1.connectionUp = false := by
  simp [connectionUp, scheduleReconnect, hl, Phase.attempt?]

theorem attempt?_of_boundary {p : Phase} (h : p.boundary = true) : p.attempt? = none := by
  cases p <;> simp_all [Phase.boundary, Phase.attempt?]

theorem attempt?_phaseFor (c : Client) (line : String) : (c.phaseFor line).attempt? = none := by
  rcases c.phaseFor_eq_or line with h | h <;> rw [h] <;> rfl

theorem Span.onLink (hw : c.worker = some w) (hp : w.phase.attempt? = none)
    (hw' : c'.worker = some w') (hp' : w'.phase.attempt? = none)
    (hl : w'.link.isSome = w.link.isSome) (ho : Event.opened ∉ new) (hc : Event.closed ∉ new) :
    Span .opened new c.connectionUp c'.connectionUp := by
  rw [connectionUp_of_phase hw hp, connectionUp_of_phase hw' hp', hl]
  exact .keep rfl ho hc

theorem connection_span (hm : Move c s c' new) (hk : c.WellKept) :
    Span .opened new c.connectionUp c'.connectionUp := by
  cases hm with
  | ignored | stopRequested | accepted | rejected | clocked | sinkSet | elapsed | stirred =>
    exact .keep rfl (by simp) (by simp)
  | started hw =>
    exact .keep (by simp [connectionUp, hw, Worker.initial, Phase.attempt?]) (by simp) (by simp)
  | rested hw hp | took hw hp | dozed hw hp =>
    exact .onLink hw (attempt?_of_boundary hp) rfl rfl rfl (by simp) (by simp)
  | frameSent hw hp | frameFlushed hw hp | pollWoken hw hp | pollEnded hw hp | sinkDone hw hp
  | idleEnded hw hp | idleWoken hw hp =>
    exact .onLink hw (hp ▸ rfl) rfl rfl rfl (by simp) (by simp)
  | awaited hw hp | greeted hw hp | loginSent hw hp | loginFlushed hw hp =>
    obtain ⟨hl, hu⟩ := connectionUp_of_attempt hk hw (congrArg Phase.attempt? hp)
    exact .keep ((connectionUp_wait hl _).trans hu.symm) (by simp) (by simp)
  | ended hw hp =>
    rename_i w _
    have hl' : (c.shutdown w).1.connectionUp = false := rfl
    rw [connectionUp_of_phase hw (attempt?_of_boundary hp), hl']
    cases hl : w.link with
    | none => exact .outside (by simp)
    | some buffer => exact .ends (List.nil_append _).symm (by simp) (by simp) (by simp)
  | attempted hw hp _ hl | reattempted hw hp _ hl =>
    rw [connectionUp_of_phase hw (attempt?_of_boundary hp), hl]
    exact .off rfl (connectionUp_wait (c := c.ticked) hl _) (by simp)
  | opened hw hp =>
    obtain ⟨hl, hu⟩ := connectionUp_of_attempt hk hw (congrArg Phase.attempt? hp)
    rw [hu, connectionUp_wait hl]
    exact .begins (List.nil_append _).symm (by simp)
  | unreached hw hp =>
    obtain ⟨hl, hu⟩ := connectionUp_of_attempt hk hw (congrArg Phase.attempt? hp)
    exact .off hu (connectionUp_scheduleReconnect hl) (by simp)
  | @abandoned w opened hw hp =>
    obtain ⟨hl, hu⟩ := connectionUp_of_attempt hk hw hp
    rw [hu, connectionUp_wait hl]
    cases opened with
    | false => exact .outside (by simp)
    | true => exact .ends (List.nil_append _).symm (by simp) (by simp) (by simp)
  | established hw hp =>
    obtain ⟨hl, hu⟩ := connectionUp_of_attempt hk hw (congrArg Phase.attempt? hp)
    exact .keep (Eq.trans rfl hu.symm) (by simp) (by simp)
  | ungreeted hw hp =>
    obtain ⟨hl, hu⟩ := connectionUp_of_attempt hk hw (congrArg Phase.attempt? hp)
    rw [hu, connectionUp_scheduleReconnect hl]
    exact .ends rfl (by simp) (by simp) (by simp)
  | loginFailed hw hp =>
    obtain ⟨hl, hu⟩ := connectionUp_of_attempt hk hw (congrArg Phase.attempt? hp)
    rw [hu, connectionUp_scheduleReconnect hl]
    exact .ends (List.nil_append _).symm (by simp) (by simp) (by simp)
  | @frameFailed w _ _ _ hw hp =>
    have hl := (hk.sound hw).linked true (by rw [hp]; rfl)
    have hl' : (c.unlinked w).connectionUp = false := rfl
    rw [connectionUp_of_phase hw (hp ▸ rfl), hl, hl']
    exact .ends (List.nil_append _).symm (by simp) (by simp) (by simp)
  | polled hw hp hl =>
    exact .onLink hw (hp ▸ rfl) rfl (hp ▸ rfl) (by simp [hl]) (by simp) (by simp)
  | heard hw hp hl =>
    exact .onLink hw (hp ▸ rfl) rfl (by rw [attempt?_phaseFor]) (by simp [hl]) (by simp) (by simp)
  | @readFailed w _ _ _ _ hw hp =>
    have hl := (hk.sound hw).linked true (by rw [hp]; rfl)
    have hl' : (c.unlinked w).connectionUp = false := rfl
    rw [connectionUp_of_phase hw (hp ▸ rfl), hl, hl']
    exact .ends rfl (by simp) (by simp) (by simp)

/-- Only a connection that is there is closed. -/
theorem connectionUp_of_closed (hm : Move c s c' new) (hk : c.WellKept) (hx : Event.closed ∈ new) :
    c.connectionUp = true := by
  have hlink : ∀ {w}, c.worker = some w → w.phase.linked? = some true →
      w.phase.attempt? = none → c.connectionUp = true := fun hw hl hp =>
    (connectionUp_of_phase hw hp).trans ((hk.sound hw).linked true hl)
  cases hm <;> simp at hx
  · next hw hp hr => exact (connectionUp_of_phase hw (attempt?_of_boundary hp)).trans hx
  · next hw hp hr => exact (connectionUp_of_attempt hk hw hp).2.trans hx
  · next hw hp hs => exact (connectionUp_of_attempt hk hw (congrArg Phase.attempt? hp)).2
  · next hw hp hs => exact (connectionUp_of_attempt hk hw (congrArg Phase.attempt? hp)).2
  · next hw hp hs => exact hlink hw (by rw [hp]; rfl) (by rw [hp]; rfl)
  · next hw hp hl hs => exact hlink hw (by rw [hp]; rfl) (by rw [hp]; rfl)

theorem Move.flatMap_of_closed {α : Type} {f : Event → List α} (hr : ∀ bytes, f (.read bytes) = [])
    (hc : f .closed = []) (hf : ∀ delay, f (.failed delay) = [])
    (hd : ∀ frames, f (.discarded frames) = []) (he : f .ended = []) (hm : Move c s c' new)
    (hx : Event.closed ∈ new) : new.flatMap f = [] := by
  cases hm <;> simp at hx <;> simp [hr, hc, hf, hd, he, hx]

theorem Move.flatMap_before_closed {α : Type} {f : Event → List α} {before later : Trace}
    (hr : ∀ bytes, f (.read bytes) = []) (hc : f .closed = [])
    (hf : ∀ delay, f (.failed delay) = []) (hd : ∀ frames, f (.discarded frames) = [])
    (he : f .ended = []) (hm : Move c s c' (before ++ Event.closed :: later)) :
    before.flatMap f = [] := by
  have hall := hm.flatMap_of_closed hr hc hf hd he (by simp)
  rw [List.flatMap_append, List.append_eq_nil_iff] at hall
  exact hall.1

end

end Client

end IGate
