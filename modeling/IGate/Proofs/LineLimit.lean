import IGate.Proofs.Reading

/-! The limit on the length of a line. A buffer is held to the limit only when a read has ended and
no line is complete in it, so a line that is just over the limit is refused when a read ends inside
of it behind the limit, and is told when none does. -/

namespace IGate

open LineBuffer

namespace Inflow

/-- A read ends at a place of the stream that comes in `chunks`. -/
def endsRead : List Bytes → ℕ → Bool
  | [], _ => false
  | c :: cs, place =>
    if place ≤ c.length then 0 < place && (place == c.length || place % readChunk == 0)
    else endsRead cs (place - c.length)

/-- Some read ends inside of the line that begins at `start`, behind as many bytes of it as a line
may have. -/
def refused (ends : ℕ → Bool) (start : ℕ) (raw : Bytes) : Bool :=
  (List.range raw.length).any fun n => maxLineLength < n && ends (start + n)

theorem refused_iff {ends : ℕ → Bool} {start : ℕ} {raw : Bytes} :
    refused ends start raw = true ↔ ∃ n, maxLineLength < n ∧ n < raw.length ∧ ends (start + n) := by
  simp only [refused, List.any_eq_true, List.mem_range, Bool.and_eq_true, decide_eq_true_eq]
  exact exists_congr fun n => by tauto

theorem not_refused_of_length_le {raw : Bytes} (h : raw.length ≤ maxLineLength + 1)
    (ends : ℕ → Bool) (start : ℕ) : refused ends start raw = false := by
  rw [Bool.eq_false_iff, ne_eq, refused_iff]
  omega

/-- What reads tell once a stream has ended, again and again. -/
def Ending.telling : Ending → Stream' Reading
  | .silent => .const .timedOut
  | .finished => .const (.failed .closedByPeer)
  | .failed e => .cons (.failed e) (.const .timedOut)

def tooLong : Stream' Reading := .const (.failed overlongError)

def behind (rest : Bytes) (ending : Ending) : Stream' Reading :=
  if maxLineLength < rest.length then tooLong else ending.telling

/-- What is told of the lines from `start` on, up to the first that is refused. -/
def tell (ends : ℕ → Bool) (last : Stream' Reading) : ℕ → List Bytes → Stream' Reading
  | _, [] => last
  | start, raw :: ls =>
    if refused ends start raw then tooLong
    else .cons (.ofLine raw) (tell ends last (start + raw.length) ls)

def tellFrom (ends : ℕ → Bool) (start : ℕ) (stream : Bytes) (ending : Ending) : Stream' Reading :=
  tell ends (behind (unfinished stream) ending) start (lines stream)

def telling (chunks : List Bytes) (ending : Ending) : Stream' Reading :=
  tellFrom (endsRead chunks) 0 chunks.flatten ending

/-! Where reads end -/

theorem endsRead_cons {c : Bytes} {cs : List Bytes} {place : ℕ} :
    endsRead (c :: cs) place = true ↔
      (0 < place ∧ place ≤ c.length ∧ (place = c.length ∨ place % readChunk = 0)) ∨
        c.length < place ∧ endsRead cs (place - c.length) = true := by
  rw [endsRead]
  split
  · next h => simp [h, not_lt.2 h]
  · next h => simp [h, not_le.1 h]

theorem endsRead_take {c : Bytes} (hc : c ≠ []) (cs : List Bytes) :
    endsRead (c :: cs) (c.take readChunk).length = true := by
  have := List.length_pos_iff.2 hc
  rw [endsRead_cons, List.length_take, readChunk]
  omega

theorem not_endsRead {c : Bytes} {cs : List Bytes} {place : ℕ}
    (h : place < (c.take readChunk).length) : endsRead (c :: cs) place = false := by
  rw [List.length_take, readChunk] at h
  rw [Bool.eq_false_iff, ne_eq, endsRead_cons, readChunk]
  omega

/-- The chunks that are left after one read. -/
def leftOver (c : Bytes) (cs : List Bytes) : List Bytes :=
  if c.drop readChunk = [] then cs else c.drop readChunk :: cs

theorem endsRead_leftOver {c : Bytes} {cs : List Bytes} {place : ℕ}
    (h : (c.take readChunk).length < place) :
    endsRead (leftOver c cs) (place - (c.take readChunk).length) = endsRead (c :: cs) place := by
  rw [Bool.eq_iff_iff, endsRead_cons]
  rw [List.length_take] at h ⊢
  by_cases hl : c.length ≤ readChunk
  · rw [min_eq_right hl] at h ⊢
    rw [leftOver, if_pos (List.drop_eq_nil_of_le hl)]
    simp [h, not_le.2 h]
  · have hd : c.drop readChunk ≠ [] := by simpa using hl
    rw [min_eq_left (by omega)] at h ⊢
    rw [leftOver, if_neg hd, endsRead_cons, List.length_drop,
      show place - readChunk - (c.length - readChunk) = place - c.length by omega]
    rw [readChunk] at *
    exact or_congr (by omega) (and_congr_left' (by omega))

/-- From any place on a read ends after at most `readChunk` bytes. -/
theorem exists_endsRead (chunks : List Bytes) (place : ℕ)
    (h : place + readChunk ≤ chunks.flatten.length) :
    ∃ n, place < n ∧ n ≤ place + readChunk ∧ endsRead chunks n = true := by
  induction chunks generalizing place with
  | nil => simp [readChunk] at h
  | cons c cs ih =>
    rw [List.flatten_cons, List.length_append] at h
    by_cases hp : place < c.length
    · -- the next multiple of `readChunk`, or the end of the chunk if that comes first
      refine ⟨min ((place / readChunk + 1) * readChunk) c.length, ?_⟩
      rw [endsRead_cons, readChunk]
      omega
    · obtain ⟨n, hn, hle, he⟩ := ih (place - c.length) (by omega)
      refine ⟨n + c.length, by omega, by omega, ?_⟩
      rw [endsRead_cons, Nat.add_sub_cancel]
      exact .inr ⟨by omega, he⟩

/-! What is told as a stream is read -/

variable {ends : ℕ → Bool} {start : ℕ} {ending : Ending}

theorem tellFrom_line {raw : Bytes} (h : IsLine raw) (hr : refused ends start raw = false)
    (stream : Bytes) : tellFrom ends start (raw ++ stream) ending =
      .cons (.ofLine raw) (tellFrom ends (start + raw.length) stream ending) := by
  simp [tellFrom, h, tell, hr]

theorem tellFrom_unfinished {bytes : Bytes} (h : lineFeed ∉ bytes)
    (hlen : bytes.length ≤ maxLineLength) : tellFrom ends start bytes ending = ending.telling := by
  rw [tellFrom, lines_of_not_mem h, unfinished_of_not_mem h, tell, behind, if_neg (not_lt.2 hlen)]

/-- A read has ended behind too many bytes without a line feed. -/
theorem tellFrom_overlong {bytes : Bytes} (h : lineFeed ∉ bytes)
    (hlen : maxLineLength < bytes.length) (he : ends (start + bytes.length) = true)
    (stream : Bytes) : tellFrom ends start (bytes ++ stream) ending = tooLong := by
  obtain ⟨-, -, hs⟩ := cut_spec (bytes ++ stream)
  rw [tellFrom]
  cases hl : lines (bytes ++ stream) with
  | nil =>
    rw [hl, List.flatten_nil, List.nil_append] at hs
    rw [tell, behind, hs, List.length_append, if_pos (by omega)]
  | cons raw ls =>
    have hr : refused ends start raw = true :=
      refused_iff.2 ⟨bytes.length, hlen, length_lt_of_lines h hl, he⟩
    rw [tell, if_pos hr]

/-- `buffer` is held of the stream from `start` on, and `chunks` are still to come. -/
structure Midway (ends : ℕ → Bool) (start : ℕ) (buffer : Bytes) (chunks : List Bytes) : Prop where
  reached : maxLineLength < buffer.length → ends (start + buffer.length) = true
  /-- A read that went on found the buffer short enough and no line in it. -/
  passed : ∀ n < buffer.length, ends (start + n) = true →
    n ≤ maxLineLength ∧ lineFeed ∉ buffer.take n
  ahead : ∀ n, 0 < n → ends (start + buffer.length + n) = endsRead chunks n

namespace Midway

variable {buffer : Bytes} {chunks : List Bytes}

theorem begin (chunks : List Bytes) : Midway (endsRead chunks) 0 [] chunks where
  reached h := absurd h (Nat.not_lt_zero _)
  passed _ h := absurd h (Nat.not_lt_zero _)
  ahead n _ := by simp

theorem not_refused {raw rest : Bytes} (h : Midway ends start (raw ++ rest) chunks) :
    refused ends start raw = false := by
  rw [Bool.eq_false_iff, ne_eq, refused_iff]
  rintro ⟨n, hn, hlen, he⟩
  have hle := (h.passed n (by rw [List.length_append]; omega) he).1
  omega

theorem line {raw rest : Bytes} (h : Midway ends start (raw ++ rest) chunks) (hl : IsLine raw) :
    Midway ends (start + raw.length) rest chunks where
  reached hlen := by
    have he := h.reached (by rw [List.length_append]; omega)
    rwa [List.length_append, ← Nat.add_assoc] at he
  passed n hn he := by
    -- no read has ended behind the line, or it would have been found before
    rw [Nat.add_assoc] at he
    have hno := (h.passed _ (by rw [List.length_append]; omega) he).2
    rw [List.take_length_add_append, List.mem_append, not_or] at hno
    obtain ⟨body, -, rfl⟩ := hl
    simp at hno
  ahead n hn := by
    rw [← h.ahead n hn, List.length_append, Nat.add_assoc start]

theorem read {c : Bytes} {cs : List Bytes} (h : Midway ends start buffer (c :: cs)) (hc : c ≠ [])
    (hno : lineFeed ∉ buffer) (hlen : buffer.length ≤ maxLineLength) :
    Midway ends start (buffer ++ c.take readChunk) (leftOver c cs) where
  reached _ := by
    have hpos := length_take_readChunk_pos hc
    rw [List.length_append, ← Nat.add_assoc, h.ahead _ hpos, endsRead_take hc]
  passed n hn he := by
    rw [List.length_append] at hn
    rcases Nat.lt_or_ge buffer.length n with hb | hb
    · have hin : n - buffer.length < (c.take readChunk).length := by omega
      have hahead := h.ahead (n - buffer.length) (by omega)
      rw [not_endsRead hin, Nat.add_assoc, Nat.add_sub_cancel' hb.le, he] at hahead
      cases hahead
    · rw [List.take_append_of_le_length hb]
      exact ⟨hb.trans hlen, fun hm => hno (List.mem_of_mem_take hm)⟩
  ahead n hn := by
    have hahead := h.ahead ((c.take readChunk).length + n) (by omega)
    rw [List.length_append, ← Nat.add_assoc, Nat.add_assoc _ _ n, hahead,
      ← endsRead_leftOver (by omega), Nat.add_sub_cancel_left]

end Midway

theorem cutting_eq_nil {chunks : List (Duration × Bytes)} {due : Duration}
    (h : cutting chunks ending due = []) : chunks = [] ∧ ending = .silent := by
  cases chunks with
  | cons => cases h
  | nil =>
    cases ending with
    | silent => exact ⟨rfl, rfl⟩
    | finished | failed => cases h

theorem cutting_eq_finished {chunks : List (Duration × Bytes)} {due d : Duration}
    {rest : List (Duration × Arrival)} (h : cutting chunks ending due = (d, .finished) :: rest) :
    chunks = [] ∧ ending = .finished := by
  cases chunks with
  | cons => cases h
  | nil => cases ending <;> cases h; exact ⟨rfl, rfl⟩

theorem cutting_eq_failed {chunks : List (Duration × Bytes)} {due d : Duration} {e : IoError}
    {rest : List (Duration × Arrival)} (h : cutting chunks ending due = (d, .failed e) :: rest) :
    chunks = [] ∧ ending = .failed e ∧ rest = [] := by
  cases chunks with
  | cons => cases h
  | nil => cases ending <;> cases h; exact ⟨rfl, rfl, rfl⟩

theorem cutting_eq_chunk {chunks : List (Duration × Bytes)} {due d : Duration} {bytes : Bytes}
    {rest : List (Duration × Arrival)}
    (h : cutting chunks ending due = (d, .chunk bytes) :: rest) :
    ∃ more, chunks = (d, bytes) :: more ∧ rest = cutting more ending due := by
  cases chunks with
  | cons => cases h; exact ⟨_, rfl, rfl⟩
  | nil => cases ending <;> cases h

def arriving (chunks : List (Duration × Bytes)) : List (Duration × Arrival) :=
  chunks.map fun c => (c.1, .chunk c.2)

theorem putBack_arriving (d : Duration) (bytes : Bytes) (more : List (Duration × Bytes))
    (rest : List (Duration × Arrival)) :
    ∃ chunks, putBack d (bytes.drop readChunk) (arriving more ++ rest) = arriving chunks ++ rest ∧
      (∀ c ∈ chunks, c ∈ more ∨ c.1 = d ∧ c.2 ≠ []) ∧
      chunks.map Prod.snd = leftOver bytes (more.map Prod.snd) := by
  unfold putBack leftOver
  by_cases hl : bytes.drop readChunk = []
  · exact ⟨more, by rw [if_pos hl], fun _ => .inl, by rw [if_pos hl]⟩
  · refine ⟨(d, bytes.drop readChunk) :: more, by rw [if_neg hl]; rfl, ?_, by rw [if_neg hl]; rfl⟩
    exact List.forall_mem_cons.2 ⟨.inr ⟨rfl, hl⟩, fun _ => .inl⟩

theorem putBack_cutting (d : Duration) (bytes : Bytes) {more : List (Duration × Bytes)}
    (hne : ∀ c ∈ more, c.2 ≠ []) (ending : Ending) (due : Duration) :
    ∃ chunks, putBack d (bytes.drop readChunk) (cutting more ending due) =
        cutting chunks ending due ∧ (∀ c ∈ chunks, c.2 ≠ []) ∧
      chunks.map Prod.snd = leftOver bytes (more.map Prod.snd) := by
  obtain ⟨chunks, hput, hmem, hmap⟩ := putBack_arriving d bytes more (ending.arrivals due)
  exact ⟨chunks, hput, fun c hc => (hmem c hc).elim (hne c) And.right, hmap⟩

theorem flatten_leftOver (c : Bytes) (cs : List Bytes) :
    c.take readChunk ++ (leftOver c cs).flatten = (c :: cs).flatten := by
  unfold leftOver
  split
  · next hl => rw [List.take_of_length_le (List.drop_eq_nil_iff.1 hl), List.flatten_cons]
  · rw [List.flatten_cons, List.flatten_cons, ← List.append_assoc, List.take_append_drop]

@[simp] theorem told_timedOut : told [.timedOut] = [] := rfl

/-- What is told next, after `readings` were told, is what is left of `all`. -/
def Along (ends : ℕ → Bool) (all : Stream' Reading) (readings : List Reading) (i : Inflow) : Prop :=
  ∃ start chunks ending due, i.coming = cutting chunks ending due ∧ (∀ c ∈ chunks, c.2 ≠ []) ∧
    Midway ends start i.buffer (chunks.map Prod.snd) ∧
    readings ++ₛ tellFrom ends start (i.buffer ++ (chunks.map Prod.snd).flatten) ending = all

variable {all : Stream' Reading}

theorem Reads.along {limit : Duration} {i i' : Inflow} {r : Reading} (h : Reads limit i r i')
    {readings : List Reading} (ha : Along ends all readings i) :
    Along ends all (readings ++ told [r]) i' := by
  induction h with
  | @line i raw rest hs =>
    obtain ⟨start, chunks, ending, due, hcut, hne, hm, rfl⟩ := ha
    obtain ⟨hl, hb⟩ := scan_line hs
    rw [hb] at hm
    refine ⟨start + raw.length, chunks, ending, due, hcut, hne, hm.line hl, ?_⟩
    rw [hb, List.append_assoc raw, tellFrom_line hl hm.not_refused,
      Stream'.append_append_stream]
    rfl
  | @overlong i hs =>
    obtain ⟨start, chunks, ending, due, hcut, hne, hm, rfl⟩ := ha
    obtain ⟨hno, hlen⟩ := scan_overlong hs
    refine ⟨start, chunks, ending, due, hcut, hne, hm, ?_⟩
    rw [tellFrom_overlong hno hlen (hm.reached hlen), Stream'.append_append_stream, tooLong]
    conv_rhs => rw [Stream'.const_eq]
    rfl
  | silent | early => rwa [told_timedOut, List.append_nil]
  | @finished i d rest hs hc =>
    obtain ⟨start, chunks, ending, due, hcut, hne, hm, rfl⟩ := ha
    obtain ⟨rfl, rfl⟩ := cutting_eq_finished (hcut.symm.trans hc)
    refine ⟨start, [], .finished, due, hcut, hne, hm, ?_⟩
    rw [List.map_nil, List.flatten_nil, List.append_nil, tellFrom_unfinished (scan_unfinished hs)
      (length_le_of_scan_unfinished hs), Stream'.append_append_stream, Ending.telling]
    conv_rhs => rw [Stream'.const_eq]
    rfl
  | @failed i d e rest hs hc =>
    obtain ⟨start, chunks, ending, due, hcut, hne, hm, rfl⟩ := ha
    obtain ⟨rfl, rfl, rfl⟩ := cutting_eq_failed (hcut.symm.trans hc)
    have hend (ending : Ending) : tellFrom ends start i.buffer ending = ending.telling :=
      tellFrom_unfinished (scan_unfinished hs) (length_le_of_scan_unfinished hs)
    refine ⟨start, [], .silent, due, rfl, hne, hm, ?_⟩
    rw [List.map_nil, List.flatten_nil, List.append_nil, hend, hend,
      Stream'.append_append_stream]
    rfl
  | @empty i d rest hs hc =>
    obtain ⟨start, chunks, ending, due, hcut, hne, -⟩ := ha
    obtain ⟨more, rfl, -⟩ := cutting_eq_chunk (hcut.symm.trans hc)
    exact absurd rfl (hne _ List.mem_cons_self)
  | @chunk i d bytes rest r i' hs hc hb _ ih =>
    obtain ⟨start, chunks, ending, due, hcut, hne, hm, hall⟩ := ha
    obtain ⟨more, rfl, rfl⟩ := cutting_eq_chunk (hcut.symm.trans hc)
    obtain ⟨left, hleft, hne', hmap⟩ :=
      putBack_cutting d bytes (fun c hm => hne c (List.mem_cons_of_mem _ hm)) ending due
    refine ih ⟨start, left, ending, due, hleft, hne', ?_, ?_⟩
    · rw [hmap]
      exact hm.read hb (scan_unfinished hs) (length_le_of_scan_unfinished hs)
    · rw [← hall, hmap, pull, List.append_assoc, flatten_leftOver]
      rfl

theorem Along.told_prefix {readings : List Reading} {i : Inflow} (h : Along ends all readings i) :
    readings = all.take readings.length := by
  obtain ⟨_, _, _, _, -, -, -, rfl⟩ := h
  rw [Stream'.take_append_of_le_length _ _ _ le_rfl, List.take_length]

theorem Reads.unfinished {limit : Duration} {i i' : Inflow} (h : Reads limit i .timedOut i') :
    scan i'.buffer = .unfinished := by
  generalize hr : Reading.timedOut = r at h
  induction h with
  | silent hs | early hs => exact hs
  | chunk _ _ _ _ ih => exact ih hr
  | _ => cases hr

theorem Reads.next {limit : Duration} {i i' : Inflow} {r : Reading} (h : Reads limit i r i')
    {readings : List Reading} (ha : Along ends all readings i)
    (hd : ∀ a ∈ i.coming, a.1 ≤ limit) : r = all.get readings.length := by
  have hnext := h.along ha
  by_cases hr : r = .timedOut
  · subst hr
    obtain ⟨start, chunks, ending, due, hcut, -, -, rfl⟩ := hnext
    obtain ⟨rfl, rfl⟩ := cutting_eq_nil (hcut.symm.trans (h.coming_nil rfl hd))
    have hs := h.unfinished
    rw [List.map_nil, List.flatten_nil, List.append_nil, tellFrom_unfinished (scan_unfinished hs)
      (length_le_of_scan_unfinished hs), told_timedOut, List.append_nil,
      Stream'.get_append_length]
    rfl
  · obtain ⟨_, _, _, _, -, -, -, rfl⟩ := hnext
    have htold : told [r] = [r] := by simp [told, hr]
    rw [htold, Stream'.append_append_stream, Stream'.get_append_length]
    rfl

/-! What is told of lines by their lengths -/

theorem tell_append (last : Stream' Reading) (ls more : List Bytes) :
    tell ends last start (ls ++ more) =
      tell ends (tell ends last (start + ls.flatten.length) more) start ls := by
  induction ls generalizing start with
  | nil => rfl
  | cons raw ls ih =>
    rw [List.cons_append, tell, tell, ih, List.flatten_cons, List.length_append, Nat.add_assoc]

/-- Lines that are short enough are told, wherever reads end. -/
theorem tell_short {ls : List Bytes} (h : ∀ raw ∈ ls, raw.length ≤ maxLineLength + 1)
    (last : Stream' Reading) : tell ends last start ls = ls.map .ofLine ++ₛ last := by
  induction ls generalizing start with
  | nil => rfl
  | cons raw ls ih =>
    rw [List.forall_mem_cons] at h
    rw [tell, not_refused_of_length_le h.1, if_neg Bool.false_ne_true, ih h.2]
    rfl

theorem tell_tooLong (ends : ℕ → Bool) (start : ℕ) (ls : List Bytes) :
    ∃ n ≤ ls.length, tell ends tooLong start ls = (ls.take n).map .ofLine ++ₛ tooLong := by
  induction ls generalizing start with
  | nil => exact ⟨0, le_rfl, rfl⟩
  | cons raw ls ih =>
    rw [tell]
    split
    · exact ⟨0, Nat.zero_le _, rfl⟩
    · obtain ⟨n, hn, ht⟩ := ih (start + raw.length)
      exact ⟨n + 1, Nat.succ_le_succ hn, by rw [ht]; rfl⟩

/-- A line is so long that a read ends inside of it behind the limit, or so short that none does. -/
def Clear (raw : Bytes) : Prop :=
  raw.length ≤ maxLineLength + 1 ∨ maxLineLength + readChunk < raw.length

theorem refused_of_lt {chunks : List Bytes} {raw : Bytes}
    (h : maxLineLength + readChunk < raw.length)
    (hle : start + raw.length ≤ chunks.flatten.length) :
    refused (endsRead chunks) start raw = true := by
  obtain ⟨n, hn, hle, he⟩ := exists_endsRead chunks (start + maxLineLength) (by omega)
  refine refused_iff.2 ⟨n - start, by omega, by omega, ?_⟩
  rwa [Nat.add_sub_cancel' (by omega)]

theorem refused_of_clear {chunks : List Bytes} {raw : Bytes} (h : Clear raw)
    (hle : start + raw.length ≤ chunks.flatten.length) :
    refused (endsRead chunks) start raw = decide (maxLineLength + 1 < raw.length) := by
  rcases h with h | h
  · rw [not_refused_of_length_le h, decide_eq_false (not_lt.2 h)]
  · have hr : 1 ≤ readChunk := by decide
    rw [refused_of_lt h hle, decide_eq_true (by omega)]

theorem tell_of_clear {chunks chunks' : List Bytes} {ls : List Bytes} (h : ∀ raw ∈ ls, Clear raw)
    (hle : start + ls.flatten.length ≤ chunks.flatten.length)
    (hle' : start + ls.flatten.length ≤ chunks'.flatten.length) (last : Stream' Reading) :
    tell (endsRead chunks) last start ls = tell (endsRead chunks') last start ls := by
  induction ls generalizing start with
  | nil => rfl
  | cons raw ls ih =>
    rw [List.forall_mem_cons] at h
    rw [List.flatten_cons, List.length_append] at hle hle'
    rw [tell, tell, refused_of_clear h.1 (by omega), refused_of_clear h.1 (by omega),
      ih h.2 (by omega) (by omega)]

theorem length_flatten_lines (stream : Bytes) : (lines stream).flatten.length ≤ stream.length := by
  obtain ⟨-, -, hs⟩ := cut_spec stream
  conv_rhs => rw [← hs, List.length_append]
  omega

theorem telling_of_clear {chunks chunks' : List Bytes} (heq : chunks'.flatten = chunks.flatten)
    (h : ∀ raw ∈ lines chunks.flatten, Clear raw) (ending : Ending) :
    telling chunks' ending = telling chunks ending := by
  have hlen := length_flatten_lines chunks.flatten
  rw [telling, telling, tellFrom, tellFrom, heq]
  exact tell_of_clear h (by rw [heq]; omega) (by omega) _

theorem telling_line {chunks : List Bytes} (h : IsLine chunks.flatten) (ending : Ending) :
    telling chunks ending = if refused (endsRead chunks) 0 chunks.flatten then tooLong
      else .cons (.ofLine chunks.flatten) ending.telling := by
  have hl : lines chunks.flatten = [chunks.flatten] := by
    simpa [lines_of_not_mem] using lines_line_append h []
  have hu : unfinished chunks.flatten = [] := by
    simpa [unfinished_of_not_mem] using unfinished_line_append h []
  rw [telling, tellFrom, hl, hu]
  rfl

def cutAtLimit (raw : Bytes) : List Bytes := [raw.take maxLineLength, raw.drop maxLineLength]

def cutAtFeed (raw : Bytes) : List Bytes :=
  [raw.take (raw.length - 1), raw.drop (raw.length - 1)]

theorem not_refused_cutAtLimit {raw : Bytes} (h : raw.length ≤ maxLineLength + readChunk) :
    refused (endsRead (cutAtLimit raw)) 0 raw = false := by
  rw [Bool.eq_false_iff, ne_eq, refused_iff]
  rintro ⟨n, hn, hlen, he⟩
  rw [cutAtLimit, Nat.zero_add, endsRead_cons, endsRead_cons, List.length_take,
    List.length_drop] at he
  unfold maxLineLength readChunk at *
  simp only [endsRead] at he
  omega

theorem refused_cutAtFeed {raw : Bytes} (h : maxLineLength + 1 < raw.length) :
    refused (endsRead (cutAtFeed raw)) 0 raw = true := by
  refine refused_iff.2 ⟨raw.length - 1, by omega, by omega, ?_⟩
  rw [cutAtFeed, endsRead_cons, List.length_take]
  omega

theorem nil_not_mem_cut {raw : Bytes} {n : ℕ} (h0 : 0 < n) (hn : n < raw.length) :
    [] ∉ [raw.take n, raw.drop n] := by
  have ht : raw.take n ≠ [] := List.ne_nil_of_length_pos (by rw [List.length_take]; omega)
  have hd : raw.drop n ≠ [] := List.ne_nil_of_length_pos (by rw [List.length_drop]; omega)
  simp [ht.symm, hd.symm]

/-- One line is cut in two ways, and is told in the first and too long in the second. -/
structure Unclear (raw : Bytes) (chunks chunks' : List Bytes) : Prop where
  flatten : chunks.flatten = raw ∧ chunks'.flatten = raw
  nonempty : [] ∉ chunks ∧ [] ∉ chunks'
  told : ∀ ending, telling chunks ending = .cons (.ofLine raw) ending.telling
  refused : ∀ ending, telling chunks' ending = tooLong

theorem unclear_of_not_clear {raw : Bytes} (h : IsLine raw) (hc : ¬Clear raw) :
    Unclear raw (cutAtLimit raw) (cutAtFeed raw) := by
  obtain ⟨hlt, hle⟩ : maxLineLength + 1 < raw.length ∧ raw.length ≤ maxLineLength + readChunk := by
    simpa [Clear] using hc
  have hlimit : (cutAtLimit raw).flatten = raw := by simp [cutAtLimit]
  have hfeed : (cutAtFeed raw).flatten = raw := by simp [cutAtFeed]
  refine ⟨⟨hlimit, hfeed⟩, ⟨nil_not_mem_cut (by decide) (by omega),
    nil_not_mem_cut (by omega) (by omega)⟩, fun ending => ?_, fun ending => ?_⟩
  · rw [telling_line (by rwa [hlimit]), hlimit, not_refused_cutAtLimit hle,
      if_neg Bool.false_ne_true]
  · rw [telling_line (by rwa [hfeed]), hfeed, if_pos (refused_cutAtFeed hlt)]

end Inflow

namespace LineStream.Usage

variable {σ : Type}

open Inflow

theorem along_use {ends : ℕ → Bool} {all : Stream' Reading} {o : Outlet σ} {u : Usage σ}
    (h : Along ends all u.told u.stream.inflow) (a : Use) :
    Along ends all (u.use o a).told (u.use o a).stream.inflow := by
  rcases use_cases o u a with ⟨r, limit, hn, hr⟩ | ⟨hn, hi⟩
  · rw [Usage.told, hn, List.map_append, told_append]
    exact hr.along h
  · rwa [Usage.told, hn, hi]

theorem along_run (o : Outlet σ) {chunks : List (Duration × Bytes)} (hne : ∀ c ∈ chunks, c.2 ≠ [])
    (ending : Ending) (due : Duration) (outlet : σ) (uses : List Use) :
    Along (endsRead (chunks.map Prod.snd)) (telling (chunks.map Prod.snd) ending)
      ((initial (cutting chunks ending due) outlet).run o uses).told
      ((initial (cutting chunks ending due) outlet).run o uses).stream.inflow := by
  have hbegin : Along (endsRead (chunks.map Prod.snd)) (telling (chunks.map Prod.snd) ending)
      (initial (cutting chunks ending due) outlet).told
      (initial (cutting chunks ending due) outlet).stream.inflow :=
    ⟨0, chunks, ending, due, rfl, hne, .begin _, rfl⟩
  exact run_keeps (o := o) (P := fun u => Along _ _ u.told u.stream.inflow)
    (fun _ a h => along_use h a) hbegin uses

/-- How the limit on the length of a line is kept when a stream comes in `chunks`. -/
structure Limited (chunks : List (Duration × Bytes)) (ending : Ending) (u : Usage σ) : Prop where
  /-- What is told is settled by where the reads of the chunks end. -/
  told : u.told = (telling (chunks.map Prod.snd) ending).take u.told.length
  next : ∀ timeout, (∀ a ∈ u.coming, a.1 ≤ u.now + timeout) →
    (u.stream.readLine u.now timeout).1 = (telling (chunks.map Prod.snd) ending).get u.told.length
  /-- The limit does not count the line feed. -/
  short : ∀ ls more, lines (chunks.flatMap Prod.snd) = ls ++ more →
    (∀ raw ∈ ls, raw.length ≤ maxLineLength + 1) →
    (telling (chunks.map Prod.snd) ending).take ls.length = ls.map .ofLine
  long : ∀ ls raw more, lines (chunks.flatMap Prod.snd) = ls ++ raw :: more →
    maxLineLength + readChunk < raw.length →
    ∃ n ≤ ls.length, telling (chunks.map Prod.snd) ending = (ls.take n).map .ofLine ++ₛ tooLong
  unfinished : maxLineLength < (unfinished (chunks.flatMap Prod.snd)).length →
    ∃ n ≤ (lines (chunks.flatMap Prod.snd)).length, telling (chunks.map Prod.snd) ending =
      ((lines (chunks.flatMap Prod.snd)).take n).map .ofLine ++ₛ tooLong
  /-- The cutting makes a difference only where the length of a line is between the two. -/
  clear : (∀ raw ∈ lines (chunks.flatMap Prod.snd), Clear raw) →
    ∀ chunks' : List Bytes, chunks'.flatten = chunks.flatMap Prod.snd →
      telling chunks' ending = telling (chunks.map Prod.snd) ending

/-- However a stream is cut and timed and used, and the cutting does make a difference to every line
whose length is in between. -/
theorem lines_limited (o : Outlet σ) {chunks : List (Duration × Bytes)}
    (hne : ∀ c ∈ chunks, c.2 ≠ []) (ending : Ending) (due : Duration) (outlet : σ)
    (uses : List Use) :
    Limited chunks ending ((initial (cutting chunks ending due) outlet).run o uses) ∧
      ∀ raw, IsLine raw → ¬Clear raw → ∃ chunks chunks', Unclear raw chunks chunks' := by
  have hrun := along_run o hne ending due outlet uses
  have hflat : chunks.flatMap Prod.snd = (chunks.map Prod.snd).flatten := List.flatMap_def ..
  refine ⟨⟨hrun.told_prefix, fun timeout hd => ?_, ?_, ?_, ?_, ?_⟩,
    fun raw hl hc => ⟨_, _, unclear_of_not_clear hl hc⟩⟩
  · exact (readLine_reads _ _ timeout).next hrun fun a ha => (hd a ha).trans (le_max_right _ _)
  · intro ls more hl hs
    rw [telling, tellFrom, ← hflat, hl, tell_append, tell_short hs]
    rw [Stream'.take_append_of_le_length _ _ _ (by rw [List.length_map]),
      List.take_of_length_le (by rw [List.length_map])]
  · intro ls raw more hl hlen
    have hle := length_flatten_lines (chunks.flatMap Prod.snd)
    rw [hl, List.flatten_append, List.length_append, List.flatten_cons, List.length_append,
      hflat] at hle
    obtain ⟨n, hn, ht⟩ := tell_tooLong (endsRead (chunks.map Prod.snd)) 0 ls
    refine ⟨n, hn, ?_⟩
    rw [telling, tellFrom, ← hflat, hl, tell_append, ← ht, Inflow.tell,
      if_pos (refused_of_lt hlen (by omega))]
  · intro hlen
    rw [telling, tellFrom, ← hflat, behind, if_pos hlen]
    exact tell_tooLong _ _ _
  · intro hc chunks' heq
    rw [hflat] at heq hc
    exact telling_of_clear heq hc ending

theorem lines_limited_in_two_chunks :
    (∀ c ∈ [((0 : Duration), ([65, 66] : Bytes)), (5, [10])], c.2 ≠ []) ∧
      Limited [(0, [65, 66]), (5, [10])] .finished
        ((initial (cutting [(0, [65, 66]), (5, [10])] .finished 9) Throttle.unhindered).run
          Throttle.outlet [.readLine 3]) :=
  ⟨by decide, (lines_limited Throttle.outlet (by decide) .finished 9 _ [.readLine 3]).1⟩

def atOnce (chunks : List Bytes) : Usage Throttle :=
  initial (cutting (chunks.map fun c => (0, c)) .silent 0) Throttle.unhindered

theorem told_atOnce {chunks : List Bytes} (hne : [] ∉ chunks) :
    ((atOnce chunks).run Throttle.outlet [.readLine 0]).told =
      Inflow.told [(telling chunks .silent).get 0] := by
  have hmap : (chunks.map fun c => ((0 : Duration), c)).map Prod.snd = chunks := by simp
  have hne' : ∀ c ∈ chunks.map fun c => ((0 : Duration), c), c.2 ≠ [] := by
    intro c hc hnil
    obtain ⟨d, hd, rfl⟩ := List.mem_map.1 hc
    exact hne (hnil ▸ hd)
  have hall : ∀ a ∈ (atOnce chunks).stream.inflow.coming, a.1 ≤ max (0 : Duration) (0 + 0) := by
    intro a ha
    simp only [atOnce, initial, cutting, Ending.arrivals, List.append_nil, List.mem_map] at ha
    obtain ⟨_, ⟨_, -, rfl⟩, rfl⟩ := ha
    exact le_max_left _ _
  have hrun := along_run Throttle.outlet hne' .silent 0 Throttle.unhindered []
  rw [hmap] at hrun
  have hr := (readLine_reads (atOnce chunks).stream 0 0).next hrun hall
  rw [show (run Throttle.outlet (atOnce chunks) [.readLine 0]).told =
    Inflow.told [((atOnce chunks).stream.readLine 0 0).1] from rfl, hr]
  rfl

def justOver : Bytes := List.replicate (maxLineLength + 1) 120 ++ [lineFeed]

theorem told_or_refused_by_cutting :
    maxLineLength < justOver.length ∧
    (cutAtLimit justOver).flatten = justOver ∧ (cutAtFeed justOver).flatten = justOver ∧
    ((atOnce (cutAtLimit justOver)).run Throttle.outlet [.readLine 0]).told =
      [.ofLine justOver] ∧
    ((atOnce (cutAtFeed justOver)).run Throttle.outlet [.readLine 0]).told =
      [.failed overlongError] := by
  have hlen : justOver.length = maxLineLength + 2 := by simp [justOver]
  have hline : IsLine justOver := by
    refine ⟨_, fun hm => ?_, rfl⟩
    exact absurd (List.eq_of_mem_replicate hm) (by decide)
  have hu : Unclear justOver _ _ := unclear_of_not_clear hline (by
    rw [Clear, hlen, readChunk]
    omega)
  refine ⟨by omega, hu.flatten.1, hu.flatten.2, ?_, ?_⟩
  · rw [told_atOnce hu.nonempty.1, hu.told]
    rfl
  · rw [told_atOnce hu.nonempty.2, hu.refused]
    rfl

end LineStream.Usage

end IGate
