import IGate.Proofs.LineLimit

/-! The deadline of a wait for a line. It is set when the wait begins, and no byte that comes moves
it. A line that is there in time is told as soon as all of it is there. -/

namespace IGate

open LineBuffer

theorem IsLine.eq_of_prefix {raw raw' stream : Bytes} (h : IsLine raw) (h' : IsLine raw')
    (hp : raw <+: stream) (hp' : raw' <+: stream) : raw = raw' := by
  obtain ⟨rest, rfl⟩ := hp
  obtain ⟨rest', heq⟩ := hp'
  have hlines := congrArg lines heq
  rw [lines_line_append h, lines_line_append h'] at hlines
  exact (List.cons.inj hlines).1.symm

theorem IsLine.mem {raw : Bytes} (h : IsLine raw) : lineFeed ∈ raw := by
  obtain ⟨body, -, rfl⟩ := h
  simp

namespace Inflow

/-! Where reads end behind bytes that are held -/

theorem endsRead_zero (chunks : List Bytes) : endsRead chunks 0 = false := by
  cases chunks with
  | nil => rfl
  | cons c cs => simp [endsRead]

/-- A read ends at a place behind `held` bytes of earlier reads, or ended there. -/
def endsBehind (held : ℕ) (chunks : List Bytes) (place : ℕ) : Bool :=
  place == held || endsRead chunks (place - held)

/-- What is told of a line that begins with the bytes that are held, if the others come in
`chunks`. -/
def toldOf (held : ℕ) (chunks : List Bytes) (raw : Bytes) : Reading :=
  if refused (endsBehind held chunks) 0 raw then .failed overlongError else .ofLine raw

section
variable {held : ℕ} {chunks : List Bytes} {raw : Bytes}

theorem toldOf_short (h : raw.length ≤ maxLineLength + 1) :
    toldOf held chunks raw = .ofLine raw := by
  rw [toldOf, not_refused_of_length_le h, if_neg Bool.false_ne_true]

theorem toldOf_held (h : raw.length ≤ held) : toldOf held chunks raw = .ofLine raw := by
  have hr : refused (endsBehind held chunks) 0 raw = false := by
    rw [Bool.eq_false_iff, ne_eq, refused_iff]
    rintro ⟨n, -, hn, he⟩
    rw [Nat.zero_add, endsBehind, Nat.sub_eq_zero_of_le (by omega), endsRead_zero,
      Bool.or_false, beq_iff_eq] at he
    omega
  rw [toldOf, hr, if_neg Bool.false_ne_true]

theorem toldOf_overlong (h : maxLineLength < held) (hlt : held < raw.length) :
    toldOf held chunks raw = .failed overlongError := by
  have hr : refused (endsBehind held chunks) 0 raw = true :=
    refused_iff.2 ⟨held, h, hlt, by simp [endsBehind]⟩
  rw [toldOf, if_pos hr]

theorem toldOf_read {c : Bytes} (hc : c ≠ []) (cs : List Bytes) (h : held ≤ maxLineLength) :
    toldOf (held + (c.take readChunk).length) (leftOver c cs) raw = toldOf held (c :: cs) raw := by
  have hpos : 0 < (c.take readChunk).length := by
    have := List.length_pos_iff.2 hc
    rw [List.length_take, readChunk]
    omega
  have hends : ∀ n, held < n → endsBehind (held + (c.take readChunk).length) (leftOver c cs) n =
      endsBehind held (c :: cs) n := by
    intro n hn
    have hne : (n == held) = false := beq_eq_false_iff_ne.2 hn.ne'
    rw [endsBehind, endsBehind, hne, Bool.false_or]
    rcases Nat.lt_trichotomy n (held + (c.take readChunk).length) with hlt | rfl | hlt
    · rw [beq_eq_false_iff_ne.2 hlt.ne, Nat.sub_eq_zero_of_le hlt.le, endsRead_zero,
        not_endsRead (by omega), Bool.or_false]
    · rw [beq_self_eq_true, Nat.add_sub_cancel_left, endsRead_take hc, Bool.true_or]
    · rw [beq_eq_false_iff_ne.2 hlt.ne', Bool.false_or, Nat.sub_add_eq,
        endsRead_leftOver (by omega)]
  have hrefused : refused (endsBehind (held + (c.take readChunk).length) (leftOver c cs)) 0 raw =
      refused (endsBehind held (c :: cs)) 0 raw := by
    rw [Bool.eq_iff_iff, refused_iff, refused_iff]
    refine exists_congr fun n => and_congr_right fun hn => ?_
    rw [Nat.zero_add, hends n (by omega)]
  rw [toldOf, toldOf, hrefused]

end

/-! A line that is there in time -/

/-- `raw` is the next line, and all of it is there by `limit`: it is held, or comes in `chunks`. -/
structure LineBy (limit : Duration) (chunks : List (Duration × Bytes)) (raw : Bytes)
    (i : Inflow) : Prop where
  isLine : IsLine raw
  coming : arriving chunks <+: i.coming
  nonempty : ∀ c ∈ chunks, c.2 ≠ []
  due : ∀ c ∈ chunks, c.1 ≤ limit
  within : raw <+: i.buffer ++ chunks.flatMap Prod.snd

namespace LineBy

variable {limit : Duration} {chunks : List (Duration × Bytes)} {raw : Bytes} {i : Inflow}

theorem eq_of_scan {raw' rest : Bytes} (h : LineBy limit chunks raw i)
    (hs : scan i.buffer = .line raw' rest) : raw = raw' := by
  obtain ⟨hl, hb⟩ := scan_line hs
  refine h.isLine.eq_of_prefix hl h.within ?_
  rw [hb, List.append_assoc]
  exact List.prefix_append _ _

theorem length_lt (h : LineBy limit chunks raw i) (hno : lineFeed ∉ i.buffer) :
    i.buffer.length < raw.length := by
  by_contra hlen
  have hheld := List.prefix_of_prefix_length_le h.within (List.prefix_append _ _) (not_lt.1 hlen)
  exact hno (hheld.subset h.isLine.mem)

theorem next (h : LineBy limit chunks raw i) (hno : lineFeed ∉ i.buffer) :
    ∃ due bytes more rest, chunks = (due, bytes) :: more ∧
      i.coming = (due, .chunk bytes) :: (arriving more ++ rest) := by
  obtain ⟨rest, hrest⟩ := h.coming
  cases chunks with
  | nil =>
    have hlen := h.within.length_le
    rw [List.flatMap_nil, List.append_nil] at hlen
    exact absurd (h.length_lt hno) (not_lt.2 hlen)
  | cons c more => exact ⟨c.1, c.2, more, rest, rfl, hrest.symm⟩

theorem pull {due : Duration} {bytes : Bytes} {more : List (Duration × Bytes)}
    (h : LineBy limit ((due, bytes) :: more) raw i) (rest : List (Duration × Arrival)) :
    ∃ left, LineBy limit left raw (i.pull due bytes (arriving more ++ rest)) ∧
      left.map Prod.snd = leftOver bytes (more.map Prod.snd) := by
  obtain ⟨hne, hmore⟩ := List.forall_mem_cons.1 h.nonempty
  obtain ⟨hdue, hdues⟩ := List.forall_mem_cons.1 h.due
  obtain ⟨left, hput, hmem, hmap⟩ := putBack_arriving due bytes more rest
  refine ⟨left, ⟨h.isLine, ?_, fun c hc => ?_, fun c hc => ?_, ?_⟩, hmap⟩
  · exact ⟨rest, hput.symm⟩
  · exact (hmem c hc).elim (hmore c) And.right
  · exact (hmem c hc).elim (hdues c) fun ⟨hd, _⟩ => hd.le.trans hdue
  · have hbytes : left.flatMap Prod.snd = (leftOver bytes (more.map Prod.snd)).flatten := by
      rw [← hmap, List.flatMap_def]
    rw [Inflow.pull, hbytes, List.append_assoc, flatten_leftOver, List.flatten_cons,
      ← List.flatMap_def]
    exact h.within

end LineBy

/-- A wait that goes on to `limit` tells a line that is there by then, and no later. -/
theorem readUntil_line {deadline now limit : Duration} {i : Inflow}
    {chunks : List (Duration × Bytes)} {raw : Bytes} (h : LineBy limit chunks raw i)
    (hnow : now ≤ limit) (hlimit : limit ≤ max now deadline) :
    (i.readUntil deadline now).1 = toldOf i.buffer.length (chunks.map Prod.snd) raw ∧
      (i.readUntil deadline now).2.2 ≤ limit := by
  fun_induction readUntil deadline now i generalizing chunks with
  | case1 now i raw' rest hs =>
    obtain rfl := h.eq_of_scan hs
    have hlen : raw.length ≤ i.buffer.length := by
      rw [(scan_line hs).2, List.length_append]
      exact Nat.le_add_right _ _
    exact ⟨(toldOf_held hlen).symm, hnow⟩
  | case2 now i hs =>
    obtain ⟨hno, hlen⟩ := scan_overlong hs
    exact ⟨(toldOf_overlong hlen (h.length_lt hno)).symm, hnow⟩
  | case3 now i hs hlen hc =>
    obtain ⟨_, _, _, _, -, hcoming⟩ := h.next (scan_unfinished hs)
    cases hc.symm.trans hcoming
  | case4 now i hs hlen due rest hd hc =>
    obtain ⟨_, _, _, _, -, hcoming⟩ := h.next (scan_unfinished hs)
    cases hc.symm.trans hcoming
  | case5 now i hs hlen due rest hd e hc =>
    obtain ⟨_, _, _, _, -, hcoming⟩ := h.next (scan_unfinished hs)
    cases hc.symm.trans hcoming
  | case6 now i hs hlen due rest hd hc =>
    obtain ⟨_, _, _, _, rfl, hcoming⟩ := h.next (scan_unfinished hs)
    cases hc.symm.trans hcoming
    exact absurd rfl (h.nonempty _ List.mem_cons_self)
  | case7 now i hs hlen due rest hd b bs hc ih =>
    obtain ⟨_, _, more, behind, rfl, hcoming⟩ := h.next (scan_unfinished hs)
    cases hc.symm.trans hcoming
    have hdue : due ≤ limit := h.due _ List.mem_cons_self
    obtain ⟨left, hleft, hmap⟩ := h.pull behind
    obtain ⟨hr, ht⟩ := ih hleft (max_le hnow hdue)
      (hlimit.trans (max_le_max_right deadline (le_max_left now due)))
    refine ⟨hr.trans ?_, ht⟩
    rw [hmap, List.length_append, toldOf_read (List.cons_ne_nil b bs) _ hlen]
    rfl
  | case8 now i hs hlen due rest a hc hd =>
    obtain ⟨_, _, _, _, rfl, hcoming⟩ := h.next (scan_unfinished hs)
    cases hc.symm.trans hcoming
    have hdue : due ≤ limit := h.due _ List.mem_cons_self
    exact absurd (hdue.trans hlimit) hd

/-! A wait that is given up -/

theorem readUntil_within (deadline now : Duration) (i : Inflow) :
    now ≤ (i.readUntil deadline now).2.2 ∧ (i.readUntil deadline now).2.2 ≤ max now deadline := by
  fun_induction readUntil deadline now i with
  | case1 | case2 => exact ⟨le_rfl, le_max_left _ _⟩
  | case3 | case8 => exact ⟨le_max_left _ _, le_rfl⟩
  | case4 now i hs hlen due rest hd | case5 now i hs hlen due rest hd
  | case6 now i hs hlen due rest hd => exact ⟨le_max_left _ _, max_le (le_max_left _ _) hd⟩
  | case7 now i hs hlen due rest hd b bs hc ih =>
    obtain ⟨hle, hlt⟩ := ih
    refine ⟨(le_max_left _ _).trans hle, hlt.trans ?_⟩
    rw [max_right_comm, max_eq_left hd]

/-- A wait is given up at its deadline, when no line is held and nothing has come that was not
read. -/
theorem readUntil_timedOut {deadline now : Duration} {i : Inflow}
    (h : (i.readUntil deadline now).1 = .timedOut) :
    (i.readUntil deadline now).2.2 = max now deadline ∧
      scan (i.readUntil deadline now).2.1.buffer = .unfinished ∧
      ∀ a ∈ (i.readUntil deadline now).2.1.coming.head?, max now deadline < a.1 := by
  fun_induction readUntil deadline now i with
  | case1 | case2 | case4 | case5 | case6 => cases h
  | case3 now i hs hlen hc => exact ⟨rfl, hs, by simp [hc]⟩
  | case7 now i hs hlen due rest hd b bs hc ih =>
    have hlimit : max (max now due) deadline = max now deadline := by
      rw [max_right_comm, max_eq_left hd]
    rw [hlimit] at ih
    exact ih h
  | case8 now i hs hlen due rest a hc hd => exact ⟨rfl, hs, by simpa [hc] using hd⟩

structure Timely (i : Inflow) (now timeout : Duration) : Prop where
  notBefore : now ≤ (i.readLine now timeout).2.2
  inTime : (i.readLine now timeout).2.2 ≤ now + timeout
  /-- Bytes without a line feed neither lengthen the wait nor cut it short. -/
  timedOut : (i.readLine now timeout).1 = .timedOut →
    (i.readLine now timeout).2.2 = now + timeout ∧
      lineFeed ∉ (i.readLine now timeout).2.1.buffer ∧
      ∀ a ∈ (i.readLine now timeout).2.1.coming.head?, now + timeout < a.1
  /-- A line that is there in time is told once all of it is there, unless it is refused. -/
  line : ∀ {limit chunks raw}, LineBy limit chunks raw i → now ≤ limit → limit ≤ now + timeout →
    (i.readLine now timeout).1 = toldOf i.buffer.length (chunks.map Prod.snd) raw ∧
      (i.readLine now timeout).2.2 ≤ limit
  /-- One that keeps to the limit is not refused. -/
  short : ∀ {limit chunks raw}, LineBy limit chunks raw i → now ≤ limit → limit ≤ now + timeout →
    raw.length ≤ maxLineLength + 1 → (i.readLine now timeout).1 = .ofLine raw

theorem readLine_timely (i : Inflow) (now timeout : Duration) : Timely i now timeout := by
  have hdeadline : max now (now + timeout) = now + timeout := max_eq_right (Nat.le_add_right _ _)
  obtain ⟨hle, hlt⟩ := readUntil_within (now + timeout) now i
  rw [hdeadline] at hlt
  have hline : ∀ {limit chunks raw}, LineBy limit chunks raw i → now ≤ limit →
      limit ≤ now + timeout →
      (i.readLine now timeout).1 = toldOf i.buffer.length (chunks.map Prod.snd) raw ∧
        (i.readLine now timeout).2.2 ≤ limit :=
    fun h hnow hlimit => readUntil_line h hnow (hlimit.trans (le_max_right _ _))
  refine ⟨hle, hlt, fun h => ?_, hline, fun h hnow hlimit hlen => ?_⟩
  · obtain ⟨ht, hs, hlate⟩ := readUntil_timedOut h
    rw [hdeadline] at ht hlate
    exact ⟨ht, scan_unfinished hs, hlate⟩
  · rw [(hline h hnow hlimit).1, toldOf_short hlen]

/-- The line feed comes a moment before the deadline, and the bytes before it one by one. -/
def trickle : List (Duration × Arrival) :=
  arriving [(2, [65]), (4, [66]), (6, [13]), (9, [10])]

example : (readLine ⟨[], trickle, 0⟩ 0 9).1 = .line "AB\r\n" ∧
    (readLine ⟨[], trickle, 0⟩ 0 9).2.2 = 9 ∧ (readLine ⟨[], trickle, 0⟩ 0 8).1 = .timedOut ∧
    (readLine ⟨[], trickle, 0⟩ 0 8).2.2 = 8 := by
  decide +kernel

end Inflow

end IGate
