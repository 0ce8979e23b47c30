import IGate.Proofs.Client.Trace

/-! What goes out on a connection, item by item: the login once a line has come in, and frames once
the connection is established. An item is begun when the one before it has gone out whole. -/

namespace IGate

open Trace

/-- What a client begins to send: its login, when it has read a line, and then frames. -/
def begun (login : Bytes) (k : Trace) : List Bytes :=
  if linesRead k = [] then [] else login :: dequeued k

section
variable {login : Bytes} {k new : Trace}

@[simp] theorem linesRead_readEvents (bytes : Bytes) :
    linesRead (Client.readEvents bytes) = [] := by
  simp [linesRead]

theorem begun_of_unread (h : linesRead k = []) : begun login k = [] := if_pos h

theorem begun_of_read (h : linesRead k ≠ []) : begun login k = login :: dequeued k := if_neg h

theorem begun_append (hd : dequeued new = []) (hl : linesRead new = [] ∨ linesRead k ≠ []) :
    begun login (k ++ new) = begun login k := by
  rcases hl with hl | hl
  · simp [begun, hd, hl]
  · simp [begun, hd, hl]

end

/-- The order of things on a connection up to some moment. -/
structure InTurn (login : Bytes) (p : Trace) : Prop where
  out : ∃ owed, Out (begun login p) (sent p) owed
  established : Event.established ∈ p → 2 ≤ (linesRead p).length ∧ login <+: sent p
  frames : dequeued p ≠ [] → Event.established ∈ p

namespace InTurn

variable {login : Bytes} {p k new : Trace}

/-- Nothing goes out before a line has come in. -/
theorem sent_eq_nil (h : InTurn login p) (hl : linesRead p = []) : sent p = [] := by
  obtain ⟨owed, hout⟩ := h.out
  have hpre := hout.prefix_flatten
  rw [begun_of_unread hl] at hpre
  exact List.prefix_nil.1 hpre

theorem dequeued_eq_nil (h : InTurn login p) (hl : (linesRead p).length < 2) :
    dequeued p = [] := by
  by_contra hd
  have := (h.established (h.frames hd)).1
  omega

theorem prefix_wire (h : InTurn login p) : sent p <+: login ++ (dequeued p).flatten := by
  obtain ⟨owed, hout⟩ := h.out
  by_cases hl : linesRead p = []
  · rw [h.sent_eq_nil hl]
    exact List.nil_prefix
  · simpa [begun_of_read hl] using hout.prefix_flatten

/-- Nothing but the login goes out before a second line has come in. -/
theorem prefix_login (h : InTurn login p) (hl : (linesRead p).length < 2) : sent p <+: login := by
  simpa [h.dequeued_eq_nil hl] using h.prefix_wire

theorem more (h : InTurn login k) (hs : sent new = []) (hd : dequeued new = [])
    (he : Event.established ∉ new) (hl : linesRead new = [] ∨ linesRead k ≠ []) :
    InTurn login (k ++ new) where
  out := by simpa [begun_append hd hl, hs] using h.out
  established := by
    intro hm
    obtain ⟨h2, hlogin⟩ := h.established (by simpa [he] using hm)
    refine ⟨?_, by simpa [hs] using hlogin⟩
    rw [linesRead_append, List.length_append]
    omega
  frames := by
    intro hm
    exact List.mem_append_left _ (h.frames (by simpa [hd] using hm))

end InTurn

/-- A connection with or without a link, and what is owed of the item under way. -/
structure Exchange (login : Bytes) (k : Trace) (up : Bool) (owed : Option Bytes) : Prop where
  out : Out (begun login k) (sent k) owed
  linked : Event.established ∈ k ↔ up = true
  answered : 2 ≤ (linesRead k).length → up = true
  moments : ∀ p, p <+: k → InTurn login p

namespace Exchange

variable {login : Bytes} {k new : Trace} {up : Bool} {owed : Option Bytes}

theorem now (h : Exchange login k up owed) : InTurn login k := h.moments k List.prefix_rfl

theorem dequeued_eq_nil (h : Exchange login k false owed) : dequeued k = [] := by
  by_contra hd
  simpa using h.linked.1 (h.now.frames hd)

theorem read_of_linked (h : Exchange login k true owed) : linesRead k ≠ [] := by
  intro hnil
  have h2 := (h.now.established (h.linked.2 rfl)).1
  simp [hnil] at h2

theorem moments_append (h : ∀ p, p <+: k → InTurn login p)
    (hn : ∀ q, q <+: new → InTurn login (k ++ q)) : ∀ p, p <+: k ++ new → InTurn login p := by
  intro p hp
  rcases List.prefix_or_prefix_of_prefix hp (List.prefix_append k new) with hpk | ⟨q, rfl⟩
  · exact h p hpk
  · exact hn q ((List.prefix_append_right_inj k).1 hp)

theorem moments_event {e : Event} (h : ∀ p, p <+: k → InTurn login p)
    (he : InTurn login (k ++ [e])) : ∀ p, p <+: k ++ [e] → InTurn login p := by
  intro p hp
  rcases List.prefix_concat_iff.1 hp with rfl | hpk
  · exact he
  · exact h p hpk

theorem start : Exchange login [] false none where
  out := .whole rfl
  linked := by simp
  answered := by simp [linesRead]
  moments := by
    intro p hp
    rw [List.prefix_nil.1 hp]
    exact ⟨⟨none, .whole rfl⟩, by simp, by simp [dequeued]⟩

theorem more (h : Exchange login k up owed) (hs : sent new = []) (hd : dequeued new = [])
    (he : Event.established ∉ new) (hl : linesRead new = [] ∨ up = true) :
    Exchange login (k ++ new) up owed := by
  have hread : linesRead new = [] ∨ linesRead k ≠ [] := by
    refine hl.imp_right fun hup => ?_
    subst hup
    exact h.read_of_linked
  refine ⟨?_, by simpa [he] using h.linked, ?_, moments_append h.moments ?_⟩
  · simpa [begun_append hd hread, hs] using h.out
  · rcases hl with hl | hl
    · simpa [hl] using h.answered
    · exact fun _ => hl
  · rintro q ⟨rest, rfl⟩
    rw [sent_append, List.append_eq_nil_iff] at hs
    rw [dequeued_append, List.append_eq_nil_iff] at hd
    rw [linesRead_append, List.append_eq_nil_iff] at hread
    simp only [List.mem_append, not_or] at he
    exact h.now.more hs.1 hd.1 he.1 (hread.imp_left And.left)

theorem read (h : Exchange login k up owed) (bytes : Bytes) :
    Exchange login (k ++ Client.readEvents bytes) up owed := by
  have hnew : Event.established ∉ Client.readEvents bytes := by
    unfold Client.readEvents
    split <;> simp
  exact h.more (by simp [sent]) (by simp [dequeued]) hnew (.inl (linesRead_readEvents bytes))

theorem banner (h : Exchange login k false none) (hk : linesRead k = []) (raw : Bytes) :
    Exchange login (k ++ [Event.lineRead raw]) false (some login) := by
  have hlines : linesRead (k ++ [Event.lineRead raw]) = [raw] := by
    rw [linesRead_append, hk]
    rfl
  have hsent : sent (k ++ [Event.lineRead raw]) = [] := by
    rw [sent_append, h.now.sent_eq_nil hk]
    rfl
  have hnone : dequeued (k ++ [Event.lineRead raw]) = [] := by
    rw [dequeued_append, h.dequeued_eq_nil]
    rfl
  have hnew : Event.established ∉ k ++ [Event.lineRead raw] := by simpa using h.linked
  have hout : Out (begun login (k ++ [Event.lineRead raw])) (sent (k ++ [Event.lineRead raw]))
      (some login) := by
    rw [begun_of_read (by rw [hlines]; exact List.cons_ne_nil _ _), hsent, hnone]
    exact .cut [] [] login rfl rfl
  refine ⟨hout, by simpa using hnew, by simp [hlines], moments_event h.moments ⟨⟨_, hout⟩, ?_, ?_⟩⟩
  · exact fun he => absurd he hnew
  · exact fun hd => absurd hnone hd

theorem push {part rest : Bytes} (h : Exchange login k up (some (part ++ rest))) :
    Exchange login (k ++ Client.sentEvents part) up (some rest) := by
  by_cases hp : part = []
  · subst hp
    simpa [Client.sentEvents] using h
  · have hd : dequeued (k ++ [Event.sent part]) = dequeued k := by simp [dequeued]
    have hl : linesRead (k ++ [Event.sent part]) = linesRead k := by simp [linesRead]
    have hs : sent (k ++ [Event.sent part]) = sent k ++ part := by simp [sent]
    have he : Event.established ∈ k ++ [Event.sent part] ↔ Event.established ∈ k := by simp
    have hout : Out (begun login (k ++ [Event.sent part])) (sent (k ++ [Event.sent part]))
        (some rest) := by
      rw [begun_append rfl (.inl rfl), hs]
      exact h.out.push
    rw [Client.sentEvents, if_neg hp]
    refine ⟨hout, he.trans h.linked, hl ▸ h.answered, moments_event h.moments ⟨⟨_, hout⟩, ?_, ?_⟩⟩
    · intro hm
      obtain ⟨h2, hlogin⟩ := h.now.established (he.1 hm)
      rw [hl, hs]
      exact ⟨h2, List.prefix_append_of_prefix hlogin⟩
    · intro hf
      rw [hd] at hf
      exact he.2 (h.now.frames hf)

theorem finish (h : Exchange login k up (some [])) : Exchange login k up none :=
  ⟨h.out.finish, h.linked, h.answered, h.moments⟩

theorem sent_login (h : Exchange login k false none) (hk : (linesRead k).length = 1) :
    sent k = login := by
  have hread : linesRead k ≠ [] := by
    intro hnil
    simp [hnil] at hk
  rw [h.out.eq_flatten, begun_of_read hread, h.dequeued_eq_nil]
  simp

theorem established (h : Exchange login k false none) (hk : (linesRead k).length = 1)
    (raw : Bytes) : Exchange login (k ++ [Event.lineRead raw, Event.established]) true none := by
  have hread : linesRead k ≠ [] := by
    intro hnil
    simp [hnil] at hk
  have hlogin : sent k = login := h.sent_login hk
  have hline : InTurn login (k ++ [Event.lineRead raw]) :=
    h.now.more rfl rfl (by simp) (.inr hread)
  have hsplit : k ++ [Event.lineRead raw, Event.established] =
      k ++ [Event.lineRead raw] ++ [Event.established] := by
    simp
  have hs : sent (k ++ [Event.lineRead raw, Event.established]) = sent k := by simp [sent]
  have hl : (linesRead (k ++ [Event.lineRead raw, Event.established])).length = 2 := by
    rw [linesRead_append, List.length_append, hk]
    rfl
  have hout : Out (begun login (k ++ [Event.lineRead raw, Event.established]))
      (sent (k ++ [Event.lineRead raw, Event.established])) none := by
    rw [begun_append rfl (.inr hread), hs]
    exact h.out
  have hturn : InTurn login (k ++ [Event.lineRead raw, Event.established]) :=
    ⟨⟨_, hout⟩, fun _ => ⟨hl.ge, by rw [hs, hlogin]⟩, fun _ => by simp⟩
  refine ⟨hout, by simp, fun _ => rfl, ?_⟩
  rw [hsplit] at hturn ⊢
  exact moments_event (moments_event h.moments hline) hturn

theorem took (h : Exchange login k true none) (frame : Bytes) :
    Exchange login (k ++ [Event.dequeued frame]) true (some frame) := by
  have he : Event.established ∈ k := h.linked.2 rfl
  have hread : linesRead k ≠ [] := h.read_of_linked
  have hl : linesRead (k ++ [Event.dequeued frame]) = linesRead k := by simp [linesRead]
  have hs : sent (k ++ [Event.dequeued frame]) = sent k := by simp [sent]
  have hout : Out (begun login (k ++ [Event.dequeued frame])) (sent (k ++ [Event.dequeued frame]))
      (some frame) := by
    rw [begun_of_read (hl ▸ hread), dequeued_append, hs]
    have hbegun := h.out.begin frame
    rw [begun_of_read hread] at hbegun
    exact hbegun
  refine ⟨hout, by simp [he], fun _ => rfl, moments_event h.moments ⟨⟨_, hout⟩, ?_, ?_⟩⟩
  · rw [hl, hs]
    exact fun _ => h.now.established he
  · exact fun _ => List.mem_append_left _ he

end Exchange

structure Conversation (login : Bytes) (k : Trace) : Prop where
  /-- Nothing goes out before the banner. -/
  silent : ∀ p, p <+: k → linesRead p = [] → sent p = []
  /-- Nothing but the login goes out before it is answered. -/
  waits : ∀ p, p <+: k → (linesRead p).length < 2 → sent p <+: login ∧ dequeued p = []
  wire : ∀ p, p <+: k → sent p <+: login ++ (dequeued p).flatten
  /-- Only the last item can be incomplete. -/
  items : ∀ p, p <+: k → ∃ owed, Out (begun login p) (sent p) owed
  established : Event.established ∈ k ↔ 2 ≤ (linesRead k).length ∧ login <+: sent k
  since : ∀ p, p ++ [Event.established] <+: k → 2 ≤ (linesRead p).length ∧ login <+: sent p
  frames : Event.established ∉ k → dequeued k = []

theorem Exchange.conversation {login : Bytes} {k : Trace} {up : Bool} {owed : Option Bytes}
    (h : Exchange login k up owed) : Conversation login k where
  silent := fun p hp hl => (h.moments p hp).sent_eq_nil hl
  waits := fun p hp hl => ⟨(h.moments p hp).prefix_login hl, (h.moments p hp).dequeued_eq_nil hl⟩
  wire := fun p hp => (h.moments p hp).prefix_wire
  items := fun p hp => (h.moments p hp).out
  established := ⟨h.now.established, fun hl => h.linked.2 (h.answered hl.1)⟩
  since := by
    intro p hp
    have hturn := (h.moments _ hp).established (by simp)
    simpa [linesRead, sent] using hturn
  frames := by
    intro he
    by_contra hd
    exact he (h.now.frames hd)

end IGate
