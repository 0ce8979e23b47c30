import IGate.Client.Step
import IGate.Datagram
import IGate.Proofs.Queue.Budget

/-! Datagrams that become frames. A source looks at each through a buffer that it fills again and
again, and which holds one byte more than a frame: that byte tells a datagram that was cut from one
that just fits. So what is told of a datagram hangs on nothing that came before it. -/

namespace IGate

open Queue (Sized)

instance (frame : Bytes) : Decidable (Sized frame) := inferInstanceAs (Decidable (_ ∧ _))

/-- What a datagram is to those who wait for frames. -/
def Reception.ofDatagram (datagram : Bytes) : Reception :=
  if Sized datagram then .frame datagram else .nothing

theorem Reception.ofDatagram_eq_frame_iff {datagram frame : Bytes} :
    ofDatagram datagram = .frame frame ↔ datagram = frame ∧ Sized frame := by
  unfold ofDatagram
  split
  · next hs =>
    rw [Reception.frame.injEq]
    exact ⟨fun h => ⟨h, h ▸ hs⟩, And.left⟩
  · next hs =>
    refine ⟨nofun, ?_⟩
    rintro ⟨rfl, h⟩
    exact absurd h hs

theorem Reception.ofDatagram_eq_nothing_iff {datagram : Bytes} :
    ofDatagram datagram = .nothing ↔ ¬ Sized datagram := by
  unfold ofDatagram
  split
  · next hs => exact ⟨nofun, fun h => absurd hs h⟩
  · next hs => exact iff_of_true rfl hs

/-- No queue refuses the frame for what it is. -/
structure Admissible (frame : Bytes) : Prop where
  queue : ∀ q : Queue, ∀ why, q.enqueue frame = .error why →
    ∃ needed free, why = .full needed free
  client : ∀ c : Client, .rejected frame ∈ (c.call (.write frame)).2 →
    c.shared.connected = false ∨
      ∃ needed free, c.shared.queue.enqueue frame = .error (.full needed free)

theorem Queue.exists_full_of_sized {q : Queue} {frame : Bytes} {why : Refusal} (h : Sized frame)
    (hq : q.enqueue frame = .error why) : ∃ needed free, why = .full needed free := by
  obtain ⟨hone, hle⟩ := h
  have he : frame ≠ [] := List.ne_nil_of_length_pos hone
  unfold enqueue refusal? at hq
  rw [if_neg he, if_neg (Nat.not_lt.2 hle)] at hq
  split at hq
  · next hr =>
    split at hr
    · cases hr
      cases hq
      exact ⟨_, _, rfl⟩
    · cases hr
  · cases hq

theorem admissible_of_sized {frame : Bytes} (h : Sized frame) : Admissible frame where
  queue _ _ hq := Queue.exists_full_of_sized h hq
  client c hr := by
    rw [Client.call, Client.enqueue] at hr
    split at hr
    · split at hr
      · simp at hr
      · next why hq =>
        obtain ⟨needed, free, rfl⟩ := Queue.exists_full_of_sized h hq
        exact .inr ⟨needed, free, hq⟩
    · next hc => exact .inl (by simpa using hc)

namespace FrameSource

/-- The buffer begins with what it was filled from. -/
theorem take_fill (s : FrameSource) (datagram : Bytes) :
    (s.fill datagram).buffer.take (min datagram.length bufferLength) =
      datagram.take bufferLength := by
  refine List.take_left' ?_
  rw [List.length_take, Nat.min_comm]

def noticesOf (sender : String) (datagram : Bytes) : List Notice :=
  if datagram = [] then []
  else if maxFrameLength < datagram.length then [.oversized sender]
  else [.received datagram.length sender]

theorem receive_eq (s : FrameSource) (sender : String) (datagram : Bytes) :
    s.receive sender datagram =
      (.ofDatagram datagram, s.fill datagram, noticesOf sender datagram) := by
  have htake := s.take_fill datagram
  have hbuffer : bufferLength = maxFrameLength + 1 := rfl
  simp only [receive, Reception.ofDatagram, noticesOf, Sized, htake]
  by_cases he : datagram = []
  · simp [he]
  have hpos : 1 ≤ datagram.length := List.length_pos_iff.2 he
  by_cases hl : maxFrameLength < datagram.length
  · have hcut : min datagram.length bufferLength = maxFrameLength + 1 := by omega
    have hover : ¬ datagram.length ≤ maxFrameLength := Nat.not_le.2 hl
    simp [he, hl, hcut, hover]
  · have hfit : min datagram.length bufferLength = datagram.length := by omega
    have hwhole : datagram.take bufferLength = datagram := List.take_of_length_le (by omega)
    simp [he, hl, hfit, hwhole, hpos, Nat.not_lt.1 hl]

namespace Inbox

def after (i : Inbox) (sender : String) (as : List Action) : Inbox :=
  as.foldl (fun i a => (i.act sender a).2.1) i

def arrivals (as : List Action) : List Bytes :=
  as.filterMap fun | .arrive datagram => some datagram | .receive => none

def frames (answers : List (Option Reception × List Notice)) : List Bytes :=
  answers.filterMap fun | (some (.frame bytes), _) => some bytes | _ => none

section
variable (i : Inbox) (sender : String)

theorem receive_of_empty {i : Inbox} (h : i.waiting = []) :
    i.act sender .receive = (some .nothing, i, []) := by
  simp only [act, h]

theorem receive_of_waiting {i : Inbox} {datagram : Bytes} {rest : List Bytes}
    (h : i.waiting = datagram :: rest) :
    i.act sender .receive =
      (some (.ofDatagram datagram), ⟨i.source.fill datagram, rest⟩, noticesOf sender datagram) := by
  simp only [act, h, receive_eq]

/-- A call takes the first datagram that waits, if one does. -/
theorem waiting_receive : (i.act sender .receive).2.1.waiting = i.waiting.tail := by
  cases hw : i.waiting with
  | nil => rw [receive_of_empty sender hw]; exact hw
  | cons datagram rest => rw [receive_of_waiting sender hw]; rfl

theorem receive_eq_frame_iff (frame : Bytes) :
    (i.act sender .receive).1 = some (.frame frame) ↔
      i.waiting.head? = some frame ∧ Sized frame := by
  cases hw : i.waiting with
  | nil =>
    rw [receive_of_empty sender hw]
    exact iff_of_false nofun (fun h => nomatch h.1)
  | cons datagram rest =>
    rw [receive_of_waiting sender hw, Option.some.injEq, Reception.ofDatagram_eq_frame_iff,
      List.head?_cons, Option.some.injEq]

theorem receive_eq_nothing_iff :
    (i.act sender .receive).1 = some .nothing ↔
      ∀ datagram ∈ i.waiting.head?, ¬ Sized datagram := by
  cases hw : i.waiting with
  | nil =>
    rw [receive_of_empty sender hw]
    exact iff_of_true rfl nofun
  | cons datagram rest =>
    rw [receive_of_waiting sender hw, Option.some.injEq, Reception.ofDatagram_eq_nothing_iff]
    simp

theorem act_alike {i j : Inbox} (h : i.waiting = j.waiting) (a : Action) :
    (i.act sender a).1 = (j.act sender a).1 ∧
      (i.act sender a).2.1.waiting = (j.act sender a).2.1.waiting ∧
      (i.act sender a).2.2 = (j.act sender a).2.2 := by
  cases a with
  | arrive datagram => exact ⟨rfl, congrArg (· ++ [datagram]) h, rfl⟩
  | receive =>
    cases hj : j.waiting with
    | nil =>
      rw [receive_of_empty sender hj, receive_of_empty sender (h.trans hj)]
      exact ⟨rfl, h, rfl⟩
    | cons datagram rest =>
      rw [receive_of_waiting sender hj, receive_of_waiting sender (h.trans hj)]
      exact ⟨rfl, rfl, rfl⟩

theorem run_alike (j : Inbox) (h : i.waiting = j.waiting) (as : List Action) :
    i.run sender as = j.run sender as := by
  induction as generalizing i j with
  | nil => rfl
  | cons a as ih =>
    obtain ⟨hwhat, hwaiting, hnotices⟩ := act_alike sender h a
    simp only [run, hwhat, hnotices, ih _ _ hwaiting]

theorem act_taken (a : Action) :
    ∃ taken : List Bytes, taken.length ≤ [a].count .receive ∧
      i.waiting ++ arrivals [a] = taken ++ (i.act sender a).2.1.waiting ∧
      frames [((i.act sender a).1, (i.act sender a).2.2)] = taken.filter (Sized ·) := by
  cases a with
  | arrive datagram => exact ⟨[], Nat.zero_le _, rfl, rfl⟩
  | receive =>
    cases hw : i.waiting with
    | nil =>
      rw [receive_of_empty sender hw]
      exact ⟨[], Nat.zero_le _, by simpa [arrivals] using hw.symm, rfl⟩
    | cons datagram rest =>
      rw [receive_of_waiting sender hw]
      refine ⟨[datagram], by simp, by simp [arrivals], ?_⟩
      by_cases hs : Sized datagram <;> simp [frames, Reception.ofDatagram, hs]

theorem run_taken (as : List Action) :
    ∃ taken : List Bytes, taken.length ≤ as.count .receive ∧
      i.waiting ++ arrivals as = taken ++ (i.after sender as).waiting ∧
      frames (i.run sender as) = taken.filter (Sized ·) := by
  induction as generalizing i with
  | nil => exact ⟨[], Nat.le_refl _, List.append_nil _, rfl⟩
  | cons a as ih =>
    obtain ⟨first, hcount, hact, hframe⟩ := i.act_taken sender a
    obtain ⟨more, hcount', hrun, hframes⟩ := ih (i.act sender a).2.1
    have harrive : arrivals (a :: as) = arrivals [a] ++ arrivals as :=
      List.filterMap_append (l := [a])
    have hanswers : frames (i.run sender (a :: as)) =
        frames [((i.act sender a).1, (i.act sender a).2.2)] ++
          frames ((i.act sender a).2.1.run sender as) := List.filterMap_append (l := [_])
    have hcalls : (a :: as).count Action.receive = [a].count .receive + as.count .receive := by
      rw [← List.count_append, List.singleton_append]
    refine ⟨first ++ more, ?_, ?_, ?_⟩
    · rw [List.length_append, hcalls]
      exact Nat.add_le_add hcount hcount'
    · rw [harrive, ← List.append_assoc, hact, List.append_assoc, hrun, List.append_assoc]
      rfl
    · rw [hanswers, hframe, hframes, List.filter_append]

structure PassesUsable (as : List Action) : Prop where
  /-- The datagrams are taken in order, at most one by a call, and the frames are those among them
  that are usable. -/
  inOrder : ∃ taken : List Bytes, taken.length ≤ as.count .receive ∧
    i.waiting ++ arrivals as = taken ++ (i.after sender as).waiting ∧
    frames (i.run sender as) =
      taken.filter fun datagram => 1 ≤ datagram.length ∧ datagram.length ≤ 300
  takesFirst : ((i.after sender as).act sender .receive).2.1.waiting =
    (i.after sender as).waiting.tail
  frame_iff : ∀ frame, ((i.after sender as).act sender .receive).1 = some (.frame frame) ↔
    (i.after sender as).waiting.head? = some frame ∧ 1 ≤ frame.length ∧ frame.length ≤ 300
  nothing_iff : ((i.after sender as).act sender .receive).1 = some .nothing ↔
    ∀ datagram ∈ (i.after sender as).waiting.head?,
      datagram.length = 0 ∨ 300 < datagram.length
  /-- Whatever the buffer may hold, all later answers are the same. -/
  forgets : ∀ source more, Inbox.run ⟨source, (i.after sender as).waiting⟩ sender more =
    (i.after sender as).run sender more
  admissible : ∀ frame ∈ frames (i.run sender as), Admissible frame

/-- Datagrams of any lengths and contents, and calls that come at any time among them. -/
theorem usable_datagrams_passed (as : List Action) : PassesUsable i sender as := by
  obtain ⟨taken, hcount, hconserved, hframes⟩ := i.run_taken sender as
  refine {
    inOrder := ⟨taken, hcount, hconserved, hframes⟩
    takesFirst := (i.after sender as).waiting_receive sender
    frame_iff := (i.after sender as).receive_eq_frame_iff sender
    nothing_iff := ?_
    forgets := fun source more => run_alike ⟨source, _⟩ sender (i.after sender as) rfl more
    admissible := ?_ }
  · refine ((i.after sender as).receive_eq_nothing_iff sender).trans ?_
    refine forall₂_congr fun datagram _ => ?_
    simp only [Sized, maxFrameLength]
    omega
  · intro frame hmem
    rw [hframes] at hmem
    exact admissible_of_sized (by simpa using (List.mem_filter.1 hmem).2)

example : (Inbox.empty.run "local" [.arrive (List.replicate 301 65), .arrive [], .receive,
      .arrive [66, 10], .receive, .receive, .receive]).map Prod.fst =
    [none, none, some .nothing, none, some .nothing, some (.frame [66, 10]), some .nothing] := by
  decide +kernel

end

end Inbox

end FrameSource

end IGate
