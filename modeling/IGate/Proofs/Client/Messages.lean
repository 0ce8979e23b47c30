import IGate.Proofs.Client.Passcode
import IGate.Proofs.Client.Stop
import IGate.Proofs.Message

/-! Messages on a connection. What is written behind the login is made of whole frames but for the
latest, and a frame that came of a message ends with a line feed. So a server that reads lines
reads those of the messages, however the writes were cut. -/

namespace IGate

open Trace LineBuffer

theorem Out.earlier {items : List Bytes} {item wire : Bytes} {owed : Option Bytes}
    (h : Out (items ++ [item]) wire owed) : items.flatten <+: wire := by
  cases h with
  | whole hw =>
    rw [hw, List.flatten_append]
    exact List.prefix_append _ _
  | cut before part owed hi hw =>
    obtain ⟨rfl, -⟩ := List.append_inj' hi rfl
    rw [hw]
    exact List.prefix_append _ _

/-- A list of images that is cut into pieces comes of pieces of the list. -/
theorem exists_groups {α β γ : Type} {f : α → List γ} {g : β → γ} {ks : List α} {l : List β}
    (h : ks.flatMap f = l.map g) :
    ∃ groups : List (List β), List.Forall₂ (fun k group => f k = group.map g) ks groups ∧
      groups.flatten = l := by
  induction ks generalizing l with
  | nil => exact ⟨[], .nil, (List.map_eq_nil_iff.1 h.symm).symm⟩
  | cons k ks ih =>
    obtain ⟨first, rest, rfl, hfirst, hrest⟩ := List.map_eq_append_iff.1 h.symm
    obtain ⟨groups, hgroups, rfl⟩ := ih hrest.symm
    exact ⟨first :: groups, .cons hfirst.symm hgroups, rfl⟩

def behind (login : Bytes) (p : Trace) : Bytes := (sent p).drop login.length

/-- The login and every frame that was begun have gone out whole. -/
def Between (login : Bytes) (p : Trace) : Prop := sent p = login ++ (dequeued p).flatten

/-- Some bytes of the latest frame have not gone out yet. -/
def Inside (login : Bytes) (p : Trace) : Prop :=
  ∃ frames part owed, owed ≠ [] ∧ dequeued p = frames ++ [part ++ owed] ∧
    sent p = login ++ frames.flatten ++ part

section
variable {login : Bytes} {p k : Trace} {texts : List String}

theorem Between.behind_eq (h : Between login p) : behind login p = (dequeued p).flatten := by
  rw [behind, h, List.drop_left]

namespace InTurn

theorem begun_eq (h : InTurn login p) (he : Event.established ∈ p) :
    begun login p = login :: dequeued p := by
  refine begun_of_read fun hnil => ?_
  have h2 := (h.established he).1
  simp [hnil] at h2

theorem between_or_inside (h : InTurn login p) (he : Event.established ∈ p) :
    Between login p ∨ Inside login p := by
  obtain ⟨owed, hout⟩ := h.out
  rw [h.begun_eq he] at hout
  cases hout with
  | whole hw => exact .inl (by rw [Between, hw, List.flatten_cons])
  | cut before part owed hi hw =>
    cases before with
    | nil =>
      -- the latest item is the login, and that is out
      obtain ⟨hlogin, hnone⟩ := List.cons_eq_cons.1 hi
      have hwhole := (h.established he).2
      rw [hw, hlogin] at hwhole
      have howed : owed = [] := by simpa using hwhole.length_le
      exact .inl (by rw [Between, hw, hlogin, hnone, howed]; simp)
    | cons first frames =>
      obtain ⟨rfl, hframes⟩ := List.cons_eq_cons.1 hi
      by_cases howed : owed = []
      · exact .inl (by rw [Between, hw, hframes, howed]; simp)
      · exact .inr ⟨frames, part, owed, howed, hframes, hw⟩

theorem between_of_begun {frame : Bytes} (hp : InTurn login p)
    (h : InTurn login (p ++ [Event.dequeued frame])) :
    Event.established ∈ p ∧ Between login p := by
  have hd : dequeued (p ++ [Event.dequeued frame]) = dequeued p ++ [frame] := by simp [dequeued]
  have hs : sent (p ++ [Event.dequeued frame]) = sent p := by simp [sent]
  have he' : Event.established ∈ p ++ [Event.dequeued frame] := h.frames (by simp [hd])
  obtain ⟨owed, hout⟩ := h.out
  rw [h.begun_eq he', hd, hs] at hout
  have hearlier : (login :: dequeued p).flatten <+: sent p := Out.earlier hout
  exact ⟨by simpa using he', hp.prefix_wire.eq_of_length_le hearlier.length_le⟩

end InTurn

/-- What a connection conveys, on which the frames that were begun are those of `texts`. -/
structure Conveys (login : Bytes) (k : Trace) (texts : List String) : Prop where
  frames : dequeued k = texts.map Line.bytes
  moments : ∀ p, p <+: k → Event.established ∈ p → Between login p ∨ Inside login p
  begun : ∀ p frame, p ++ [Event.dequeued frame] <+: k →
    Event.established ∈ p ∧ Between login p
  /-- Between two frames the server has read the lines of the messages, and nothing else. -/
  lines : ∀ p, p <+: k → Between login p →
    (behind login p = [] ∨ (behind login p).getLast? = some lineFeed) ∧
      unfinished (behind login p) = [] ∧
      lines (behind login p) =
        (texts.take (dequeued p).length).flatMap fun text => lines (Line.bytes text)

theorem conveys (hk : ∀ p, p <+: k → InTurn login p) (hf : dequeued k = texts.map Line.bytes) :
    Conveys login k texts where
  frames := hf
  moments p hp he := (hk p hp).between_or_inside he
  begun p frame hp := by
    have hprefix : p <+: k := (List.prefix_append _ _).trans hp
    exact (hk p hprefix).between_of_begun (hk _ hp)
  lines p hp h := by
    obtain ⟨rest, rfl⟩ := hp
    have hframes : dequeued p = (texts.take (dequeued p).length).map Line.bytes := by
      rw [List.map_take, ← hf, dequeued_append, List.take_left]
    have hwhole : ∀ frame ∈ dequeued p, Whole frame := by
      rw [hframes]
      exact List.forall_mem_map.2 fun text _ => Line.whole_bytes text
    have hbehind := Whole.flatten hwhole
    have hlines := Whole.lines_flatten hwhole
    rw [← h.behind_eq] at hbehind hlines
    refine ⟨hbehind.ends, hbehind, hlines.trans ?_⟩
    conv_lhs => rw [hframes]
    rw [List.flatMap_map]

end

namespace Client

section
variable {c c' : Client} {s : Signal} {new : Trace} {frame : Bytes} {capacity : UInt64}

theorem enqueue_of_room (hc : c.shared.connected = true)
    (hr : c.shared.queue.refusal? frame = none) :
    c.enqueue frame =
      ({ c with shared := { c.shared with queue := c.shared.queue.push frame }.wake },
        [.accepted frame]) := by
  simp [enqueue, hc, Queue.enqueue, hr]

theorem enqueue_of_refused
    (h : ¬ (c.shared.connected = true ∧ c.shared.queue.refusal? frame = none)) :
    (c.enqueue frame).1 = c ∧ Event.accepted frame ∉ (c.enqueue frame).2 ∧
      accepted (c.enqueue frame).2 = [] := by
  by_cases hc : c.shared.connected = true
  · obtain ⟨why, hr⟩ := Option.ne_none_iff_exists'.1 (not_and.1 h hc)
    simp [enqueue, hc, Queue.enqueue, hr, accepted]
  · simp [enqueue, hc, accepted]

structure Admits (c : Client) (text : String) : Prop where
  accepted_iff : Event.accepted (Line.bytes text) ∈ (c.step (.call (.writeMessage text))).2 ↔
    c.shared.connected = true ∧ (Line.bytes text).length ≤ 300 ∧
      (Line.bytes text).length + 4 ≤ c.shared.queue.free.toNat
  pushed : Event.accepted (Line.bytes text) ∈ (c.step (.call (.writeMessage text))).2 →
    (c.step (.call (.writeMessage text))).1.shared.queue =
      c.shared.queue.push (Line.bytes text)
  refused : Event.accepted (Line.bytes text) ∉ (c.step (.call (.writeMessage text))).2 →
    (c.step (.call (.writeMessage text))).1 = c

theorem refusal?_bytes_iff {q : Queue} (h : Queue.Budgeted capacity q) (text : String) :
    q.refusal? (Line.bytes text) = none ↔
      (Line.bytes text).length ≤ 300 ∧ (Line.bytes text).length + 4 ≤ q.free.toNat := by
  have hone : 1 ≤ (Line.bytes text).length :=
    Nat.one_le_iff_ne_zero.2 (mt List.length_eq_zero_iff.1 (Line.bytes_ne_nil text))
  have hroom := h.within
  rw [h.refusal?_eq_none_iff, h.toNat_free]
  simp only [Queue.Sized, Queue.charge, maxFrameLength, lengthPrefix]
  omega

theorem admits (h : Queue.Budgeted capacity c.shared.queue) (text : String) : c.Admits text := by
  have hstep : c.step (.call (.writeMessage text)) = c.enqueue (Line.bytes text) := rfl
  by_cases htaken : c.shared.connected = true ∧ c.shared.queue.refusal? (Line.bytes text) = none
  · have hroom := (refusal?_bytes_iff h text).1 htaken.2
    constructor <;> rw [hstep, enqueue_of_room htaken.1 htaken.2]
    · exact iff_of_true (List.mem_singleton.2 rfl) ⟨htaken.1, hroom⟩
    · exact fun _ => rfl
    · exact fun hno => absurd (List.mem_singleton.2 rfl) hno
  · obtain ⟨hsame, hno, -⟩ := enqueue_of_refused htaken
    rw [refusal?_bytes_iff h] at htaken
    constructor <;> rw [hstep]
    · exact iff_of_false hno htaken
    · exact fun hyes => absurd hyes hno
    · exact fun _ => hsame

def takes (c : Client) : Signal → List String
  | .call (.writeMessage text) =>
    if Event.accepted (Line.bytes text) ∈ (c.step (.call (.writeMessage text))).2 then [text] else []
  | _ => []

def taken (c : Client) : List Signal → List String
  | [] => []
  | s :: rest => c.takes s ++ (c.step s).1.taken rest

theorem Move.accepted_eq_nil (hm : Move c s c' new) (h : ∀ k, s ≠ .call k) :
    Trace.accepted new = [] := by
  cases hm with
  | accepted => exact absurd rfl (h _)
  | @ended w => cases hl : w.link <;> simp [Trace.accepted]
  | @abandoned _ opened => cases opened <;> simp [Trace.accepted]
  | awaited | polled | greeted | established | ungreeted | readFailed | loginSent | frameSent
  | heard => simp [Trace.accepted]
  | _ => rfl

theorem accepted_step (h : ∀ frame, s ≠ .call (.write frame)) :
    accepted (c.step s).2 = (c.takes s).map Line.bytes := by
  cases s with
  | call k =>
    cases k with
    | start => cases hw : c.worker <;> simp [step, call, hw, takes, accepted]
    | write frame => exact absurd rfl (h frame)
    | writeMessage text =>
      have hstep : c.step (.call (.writeMessage text)) = c.enqueue (Line.bytes text) := rfl
      have htakes : c.takes (.call (.writeMessage text)) =
          if Event.accepted (Line.bytes text) ∈ (c.enqueue (Line.bytes text)).2 then [text]
          else [] := rfl
      rw [hstep, htakes]
      by_cases htaken : c.shared.connected = true ∧
          c.shared.queue.refusal? (Line.bytes text) = none
      · rw [enqueue_of_room htaken.1 htaken.2]
        simp [accepted]
      · obtain ⟨-, hno, hnone⟩ := enqueue_of_refused htaken
        simp [hno, hnone]
    | _ => rfl
  | _ => exact (accepted_quiet _).symm.trans ((c.step_makes _).accepted_eq_nil (by simp))

theorem accepted_run {ss : List Signal} (h : ∀ frame, Signal.call (.write frame) ∉ ss) :
    accepted (c.run ss).2 = (c.taken ss).map Line.bytes := by
  induction ss generalizing c with
  | nil => rfl
  | cons s rest ih =>
    have hs : ∀ frame, s ≠ .call (.write frame) := fun frame heq =>
      h frame (heq ▸ List.mem_cons_self)
    have hrest : ∀ frame, Signal.call (.write frame) ∉ rest := fun frame =>
      List.not_mem_of_not_mem_cons (h frame)
    rw [run_cons, accepted_append, accepted_step hs, ih hrest, taken, List.map_append]

theorem owed?_of_linkUp (hk : c.WellKept) (hu : c.linkUp = true) : c.owed? = c.unsent? := by
  obtain ⟨w, -, hw, -⟩ := exists_worker_of_linkUp hu
  rw [owed?_of_worker hw, unsent?_of_worker hw]
  cases hp : w.phase with
  | loggingIn =>
    have hnone := attempt?_of_linkUp hk hw hu
    rw [hp] at hnone
    cases hnone
  | _ => rfl

theorem between_of_rest {k : Trace} (hk : c.WellKept) (hu : c.linkUp = true)
    (hrest : c.unsent? = none) (h : c.Conversing k) :
    Event.established ∈ k ∧ Between c.settings.login.bytes k := by
  have hexchange := h.exchange
  rw [owed?_of_linkUp hk hu, hu, hrest] at hexchange
  refine ⟨hexchange.linked.2 rfl, ?_⟩
  rw [Between, hexchange.out.eq_flatten, begun_of_read hexchange.read_of_linked, List.flatten_cons]

structure Messaging (login : Bytes) (c : Client) (es : Trace) (texts : List String) : Prop where
  accepted : accepted es = texts.map Line.bytes
  /-- On the connections, the earliest first, some of the messages go out, each once and in the
  order in which they were accepted. -/
  conveyed : ∃ groups : List (List String),
    List.Forall₂ (Conveys login) (connections es).reverse groups ∧ groups.flatten.Sublist texts
  rests : c.shared.connected = true → c.unsent? = none →
    ∃ k earlier, connections es = k :: earlier ∧ Event.closed ∉ k ∧ Event.established ∈ k ∧
      Between login k
  admits : ∀ text, c.Admits text
  bytes : ∀ text, Line.bytes text =
    if text.toList.getLast? = some '\n' then Utf8.encode text else Utf8.encode text ++ [13, 10]
  /-- A message is its own lines and nothing more. -/
  apart : ∀ text, (lines (Line.bytes text)).flatten = Line.bytes text
  single : ∀ text, '\n' ∉ text.toList.dropLast → lines (Line.bytes text) = [Line.bytes text]

end

theorem conveyed {settings : Settings} {capacity : UInt64} {ss : List Signal}
    (h : ∀ frame, Signal.call (.write frame) ∉ ss) :
    ∃ groups : List (List String),
      List.Forall₂ (Conveys settings.login.bytes)
        (connections ((initial settings capacity).run ss).2).reverse groups ∧
      groups.flatten.Sublist ((initial settings capacity).taken ss) := by
  have hout := outbound settings capacity ss
  have hdialogue := login_precedes_frames settings capacity ss
  have hall : (dequeued ((initial settings capacity).run ss).2).Sublist
      (((initial settings capacity).taken ss).map Line.bytes) := by
    rw [← accepted_run h, hout.splits]
    exact hout.once.trans (List.sublist_append_left _ _)
  obtain ⟨begun, hbegun, hframes⟩ := List.sublist_map_iff.1 hall
  rw [hdialogue.dequeuedOn] at hframes
  obtain ⟨groups, hgroups, rfl⟩ := exists_groups hframes
  refine ⟨groups, ?_, hbegun⟩
  have hmoments := moments_of_run settings capacity ss
  have hboth := (List.forall₂_and_left _ _).2
    ⟨fun k hmem => hmoments k (List.mem_reverse.1 hmem), hgroups⟩
  exact hboth.imp fun k texts hk => conveys hk.1 hk.2

/-- Where frames come of messages only, the lines that a server reads are those of the messages. -/
theorem messages_keep_to_lines (settings : Settings) (capacity : UInt64) (ss : List Signal)
    (h : ∀ frame, Signal.call (.write frame) ∉ ss) :
    Messaging settings.login.bytes ((initial settings capacity).run ss).1
      ((initial settings capacity).run ss).2 ((initial settings capacity).taken ss) where
  accepted := accepted_run h
  conveyed := conveyed h
  rests hc hrest := by
    have hk := run_wellKept settings capacity ss
    have hu := (linkUp_eq_connected hk).trans hc
    have ht := tracking_conversing.run (c := initial settings capacity) rfl rfl ss
    obtain ⟨k, earlier, hks, hopen, hconversing⟩ := ht.under_way (connectionUp_of_linkUp hu)
    have hbetween := between_of_rest hk hu hrest hconversing
    rw [run_settings] at hbetween
    exact ⟨k, earlier, hks, hopen, hbetween⟩
  admits text := admits ((tidy_initial settings capacity).run rfl ss).budgeted text
  bytes := Line.bytes_eq
  apart text := (Line.whole_bytes text).flatten_lines
  single _ := Line.lines_bytes_of_inner

/-- A message comes too early and one finds no room. Of the other two one makes two lines, and the
writes are cut in the middle of a line. -/
def chatting : List Signal :=
  .call .start :: .call (.writeMessage "early") :: trialLogin ++
    [.call (.writeMessage "one"), .call (.writeMessage "two\nthree\n"),
      .call (.writeMessage "four"), .turn, .took 4, .took 1, .flushed, .timeout, .turn, .took 5,
      .took 5, .flushed]

theorem messages_keep_to_lines_chatting :
    (initial trialSettings 30).taken chatting = ["one", "two\nthree\n"] ∧
      ∃ k, connections ((initial trialSettings 30).run chatting).2 = [k] ∧
        Between trialSettings.login.bytes k := by
  have hmessages := messages_keep_to_lines trialSettings 30 chatting
    (by simp [chatting, trialLogin])
  obtain ⟨k, earlier, hks, -, -, hbetween⟩ :=
    hmessages.rests (by decide +kernel) (by decide +kernel)
  have hone : (connections ((initial trialSettings 30).run chatting).2).length = 1 := by
    decide +kernel
  have hearlier : earlier = [] := by simpa [hks] using hone
  exact ⟨by decide +kernel, k, by rw [hks, hearlier], hbetween⟩

example : (connections ((initial trialSettings 30).run chatting).2).map
    (fun k => lines (behind trialSettings.login.bytes k)) =
      [[Utf8.encode "one\r\n", Utf8.encode "two\n", Utf8.encode "three\n"]] := by
  decide +kernel

end Client

end IGate
