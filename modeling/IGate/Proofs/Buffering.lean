import IGate.Proofs.Reading

/-! What a peer can make a stream hold and do. The buffer has a bound, a wait for a line makes a
bounded number of reads, however little each of them brings and however much is still to come, and
once a line was too long nothing more is read until the stream is closed. -/

namespace IGate

open LineBuffer

namespace Inflow

/-- The reads of one wait for a line. One that is given up without an answer is one of them. -/
def readsMade (i : Inflow) (now timeout : Duration) : ℕ :=
  (i.readLine now timeout).2.1.reads - i.reads +
    if (i.readLine now timeout).1 = .timedOut then 1 else 0

def andThen (i : Inflow) (more : List (Duration × Arrival)) : Inflow :=
  { i with coming := i.coming ++ more }

theorem putBack_append (due : Duration) (left : Bytes) (coming more : List (Duration × Arrival)) :
    putBack due left (coming ++ more) = putBack due left coming ++ more := by
  unfold putBack
  split <;> rfl

theorem andThen_pull (i : Inflow) (due : Duration) (bytes : Bytes)
    (rest more : List (Duration × Arrival)) :
    (i.andThen more).pull due bytes (rest ++ more) = (i.pull due bytes rest).andThen more := by
  simp [pull, andThen, putBack_append]

section
variable {i i' : Inflow} {r : Reading} {limit deadline now due : Duration} {bytes raw : Bytes}
  {rest : List (Duration × Arrival)}

/-! One read, and none -/

theorem readUntil_of_line {rest : Bytes} (hs : scan i.buffer = .line raw rest) :
    i.readUntil deadline now = (.ofLine raw, { i with buffer := rest }, now) := by
  rw [readUntil]
  split <;> simp_all [Reading.ofLine]

theorem readUntil_of_overlong (hs : scan i.buffer = .overlong) :
    i.readUntil deadline now = (.failed overlongError, i, now) := by
  rw [readUntil]
  split <;> simp_all

theorem readUntil_of_chunk (hs : scan i.buffer = .unfinished)
    (hc : i.coming = (due, .chunk bytes) :: rest) (hb : bytes ≠ []) (hd : due ≤ max now deadline) :
    i.readUntil deadline now = (i.pull due bytes rest).readUntil deadline (max now due) := by
  obtain ⟨b, bs, rfl⟩ := List.exists_cons_of_ne_nil hb
  rw [readUntil]
  split <;> simp_all [pull]

/-- What comes behind so many arrivals makes no difference to a wait: each of them brings a byte, or
ends it. -/
theorem readUntil_andThen (h : maxLineLength < i.buffer.length + i.coming.length)
    (more : List (Duration × Arrival)) :
    (i.andThen more).readUntil deadline now =
      ((i.readUntil deadline now).1, (i.readUntil deadline now).2.1.andThen more,
        (i.readUntil deadline now).2.2) := by
  fun_induction readUntil deadline now i with
  | case1 now i raw rest hs => exact readUntil_of_line hs
  | case2 now i hs => exact readUntil_of_overlong hs
  | case3 now i hs hlen hc =>
    rw [hc, List.length_nil] at h
    omega
  | case4 | case5 | case6 | case8 =>
    rw [readUntil]
    split <;> simp_all [andThen]
  | case7 now i hs hlen due rest hd b bs hc ih =>
    have hc' : (i.andThen more).coming = (due, .chunk (b :: bs)) :: (rest ++ more) := by
      simp [andThen, hc]
    have hgrown : maxLineLength < (i.buffer ++ (b :: bs).take readChunk).length +
        (putBack due ((b :: bs).drop readChunk) rest).length := by
      have hput : rest.length ≤ (putBack due ((b :: bs).drop readChunk) rest).length := by
        unfold putBack
        split <;> simp
      have hread := length_take_readChunk_pos (List.cons_ne_nil b bs)
      rw [hc, List.length_cons] at h
      rw [List.length_append]
      omega
    rw [readUntil_of_chunk (i := i.andThen more) hs hc' (List.cons_ne_nil b bs) hd, andThen_pull]
    exact ih hgrown

/-! How many reads there are -/

/-- A read is made only while no line is there and few enough bytes are, and brings one at least or
is the last. -/
theorem Reads.count (h : Reads limit i r i') :
    i.reads ≤ i'.reads ∧ i'.reads - i.reads + (if r = .timedOut then 1 else 0) ≤
      if lineFeed ∈ i.buffer then 0 else maxLineLength + 1 - i.buffer.length := by
  have hroom : ∀ {i : Inflow}, scan i.buffer = .unfinished →
      lineFeed ∉ i.buffer ∧ 0 < maxLineLength + 1 - i.buffer.length := by
    intro i hs
    have hlen := length_le_of_scan_unfinished hs
    exact ⟨scan_unfinished hs, by omega⟩
  induction h with
  | line | overlong => simp [Reading.ofLine]
  | silent hs | early hs | finished hs | failed hs | empty hs =>
    obtain ⟨hno, hpos⟩ := hroom hs
    simp [hno]
    omega
  | @chunk i due bytes rest r i' hs hc hb _ ih =>
    obtain ⟨hno, hpos⟩ := hroom hs
    obtain ⟨hle, hcount⟩ := ih
    have hread := length_take_readChunk_pos hb
    have hless : (if lineFeed ∈ (i.pull due bytes rest).buffer then 0
        else maxLineLength + 1 - (i.pull due bytes rest).buffer.length) + 1 ≤
          maxLineLength + 1 - i.buffer.length := by
      split
      · omega
      · simp only [pull, List.length_append]
        omega
    rw [if_neg hno]
    simp only [pull] at hle hcount hless ⊢
    omega

/-- A wait that fails as if a line were too long leaves one, unless the stream failed so. -/
theorem Reads.overlong_or_mem (h : Reads limit i r i') (hr : r = .failed overlongError) :
    scan i'.buffer = .overlong ∨ ∃ a ∈ i.coming, a.2 = .failed overlongError := by
  induction h with
  | overlong hs => exact .inl hs
  | @failed i due e rest _ hc =>
    cases hr
    exact .inr ⟨(due, .failed overlongError), by simp [hc], rfl⟩
  | finished | empty => exact absurd hr (by decide)
  | line | silent | early => cases hr
  | @chunk i due bytes rest r i' _ hc _ _ ih =>
    rcases ih hr with hs | ⟨a, ha, hfail⟩
    · exact .inl hs
    · rcases mem_of_mem_pull hc ha with rfl | ha
      · cases hfail
      · exact .inr ⟨a, ha, hfail⟩

theorem Reads.length_le (h : Reads limit i r i')
    (hb : i.buffer.length ≤ maxLineLength + readChunk) :
    i'.buffer.length ≤ maxLineLength + readChunk := by
  induction h with
  | line hs =>
    have hlen := congrArg List.length (scan_line hs).2
    rw [List.length_append] at hlen
    dsimp only
    omega
  | chunk hs _ _ _ ih =>
    have hlen := length_le_of_scan_unfinished hs
    refine ih ?_
    simp only [pull, List.length_append, List.length_take]
    omega
  | _ => exact hb

end

/-- What is known of a wait for a line that begins at `now`. -/
structure Sparing (i : Inflow) (now timeout : Duration) : Prop where
  held : lineFeed ∈ i.buffer → ∃ raw rest, IsLine raw ∧ i.buffer = raw ++ rest ∧
    i.readLine now timeout = (.ofLine raw, { i with buffer := rest }, now)
  full : lineFeed ∉ i.buffer → maxLineLength < i.buffer.length →
    i.readLine now timeout = (.failed overlongError, i, now)
  reads : i.reads ≤ (i.readLine now timeout).2.1.reads ∧ i.readsMade now timeout ≤
    if lineFeed ∈ i.buffer then 0 else maxLineLength + 1 - i.buffer.length
  /-- Of arrivals that never run out so many settle what comes of the wait, whatever they bring. -/
  endless : ∀ arrivals : Stream' (Duration × Arrival), ∃ r buffer reads later, ∀ n,
    maxLineLength < i.buffer.length + n → ∃ coming,
      ({ i with coming := arrivals.take n }).readLine now timeout =
        (r, ⟨buffer, coming, reads⟩, later)

theorem readLine_sparing (i : Inflow) (now timeout : Duration) : Sparing i now timeout := by
  refine ⟨fun hfeed => ?_, fun hno hlen => ?_, ?_, fun arrivals => ?_⟩
  · cases hs : scan i.buffer with
    | line raw rest =>
      obtain ⟨hl, hb⟩ := scan_line hs
      exact ⟨raw, rest, hl, hb, readUntil_of_line hs⟩
    | overlong => exact absurd hfeed (scan_overlong hs).1
    | unfinished => exact absurd hfeed (scan_unfinished hs)
  · apply readUntil_of_overlong
    rw [scan_of_not_mem hno, if_pos hlen]
  · exact (readUntil_reads (now + timeout) now i).count
  · obtain ⟨m, hm⟩ : ∃ m, m = maxLineLength + 1 - i.buffer.length := ⟨_, rfl⟩
    rcases hread : ({ i with coming := arrivals.take m } : Inflow).readLine now timeout with
      ⟨r, ⟨buffer, coming, reads⟩, later⟩
    refine ⟨r, buffer, reads, later, fun n hn => ⟨coming ++ (arrivals.take n).drop m, ?_⟩⟩
    have hsplit : arrivals.take n = arrivals.take m ++ (arrivals.take n).drop m := by
      have htake : (arrivals.take n).take m = arrivals.take m := by
        rw [Stream'.take_take, min_eq_right (by omega)]
      rw [← htake, List.take_append_drop]
    have henough : maxLineLength < i.buffer.length + (arrivals.take m).length := by
      rw [Stream'.length_take]
      omega
    have hmore : (({ i with coming := arrivals.take m } : Inflow).andThen
        ((arrivals.take n).drop m)).readUntil (now + timeout) now = _ :=
      readUntil_andThen henough _
    rw [readLine] at hread
    rw [andThen, ← hsplit, hread] at hmore
    exact hmore

/-- Two reads bring one byte each, and the third is given up. -/
example : (⟨[], [(0, .chunk [65]), (0, .chunk [66]), (9, .chunk [10])], 0⟩ : Inflow).readsMade 0 5 =
    3 := by
  decide +kernel

end Inflow

namespace LineStream

variable {σ : Type}

/-- What is done with a stream, which may be closed. -/
inductive Handling where
  | use (a : Use)
  | close

def Use.isRead : Use → Bool
  | .readLine _ => true
  | _ => false

namespace Usage

def handle (o : Outlet σ) (u : Usage σ) : Handling → Usage σ
  | .use a => u.use o a
  | .close => { u with stream := u.stream.close o }

def handled (o : Outlet σ) (u : Usage σ) (hs : List Handling) : Usage σ := hs.foldl (handle o) u

theorem use_length_le (o : Outlet σ) {u : Usage σ} (a : Use)
    (h : u.stream.buffered ≤ maxLineLength + readChunk) :
    (u.use o a).stream.buffered ≤ maxLineLength + readChunk := by
  rcases use_cases o u a with ⟨r, limit, -, hr⟩ | ⟨-, hi⟩
  · exact hr.length_le h
  · rwa [buffered, hi]

theorem buffered_handled (o : Outlet σ) {u : Usage σ}
    (h : u.stream.buffered ≤ maxLineLength + readChunk) (hs : List Handling) :
    (u.handled o hs).stream.buffered ≤ maxLineLength + readChunk := by
  induction hs generalizing u with
  | nil => exact h
  | cons a hs ih =>
    apply ih
    cases a with
    | use a => exact use_length_le o a h
    | close => exact Nat.zero_le _

/-- A line was too long: each wait fails without a read, until the stream is closed and nothing is
held any more. -/
structure Stuck (o : Outlet σ) (u : Usage σ) (uses : List Use) : Prop where
  inflow : (u.run o uses).stream.inflow = u.stream.inflow
  readings : (u.run o uses).readings = u.readings ++
    List.replicate (uses.countP Use.isRead) (.failed overlongError, u.buffer)
  closed : ((u.run o uses).handle o .close).stream.inflow = { u.stream.inflow with buffer := [] }

theorem use_of_overlong (o : Outlet σ) {u : Usage σ} (h : scan u.buffer = .overlong) (a : Use) :
    (u.use o a).stream.inflow = u.stream.inflow ∧ (u.use o a).readings = u.readings ++
      List.replicate (if a.isRead then 1 else 0) (.failed overlongError, u.buffer) := by
  cases a with
  | readLine timeout =>
    have hread : u.stream.inflow.readLine u.now timeout =
        (.failed overlongError, u.stream.inflow, u.now) := Inflow.readUntil_of_overlong h
    simp only [use, LineStream.readLine, hread]
    exact ⟨trivial, rfl⟩
  | elapse | writeLine | writeFrame => exact ⟨rfl, (List.append_nil _).symm⟩

theorem run_of_overlong (o : Outlet σ) {u : Usage σ} (h : scan u.buffer = .overlong)
    (uses : List Use) :
    (u.run o uses).stream.inflow = u.stream.inflow ∧ (u.run o uses).readings = u.readings ++
      List.replicate (uses.countP Use.isRead) (.failed overlongError, u.buffer) := by
  induction uses generalizing u with
  | nil => exact ⟨rfl, (List.append_nil _).symm⟩
  | cons a uses ih =>
    obtain ⟨hinflow, hreadings⟩ := use_of_overlong o h a
    have hbuffer : (u.use o a).buffer = u.buffer := congrArg Inflow.buffer hinflow
    obtain ⟨hrun, hmore⟩ := ih (u := u.use o a) (by rwa [hbuffer])
    refine ⟨hrun.trans hinflow, hmore.trans ?_⟩
    rw [hreadings, hbuffer, List.append_assoc, List.replicate_append_replicate, List.countP_cons,
      Nat.add_comm]

theorem stuck_of_overlong (o : Outlet σ) {u : Usage σ} (h : scan u.buffer = .overlong)
    (uses : List Use) : Stuck o u uses := by
  obtain ⟨hinflow, hreadings⟩ := run_of_overlong o h uses
  refine ⟨hinflow, hreadings, ?_⟩
  rw [handle, LineStream.close, hinflow]
  rfl

structure Restrained (o : Outlet σ) (u : Usage σ) : Prop where
  buffered : u.stream.buffered ≤ maxLineLength + readChunk
  waits : ∀ timeout, Inflow.Sparing u.stream.inflow u.now timeout
  /-- The failure is that of a line unless the stream itself fails in the same way. -/
  stuck : ∀ timeout, (u.stream.readLine u.now timeout).1 = .failed overlongError →
    (∀ a ∈ u.coming, a.2 ≠ .failed overlongError) →
    ∀ uses, Stuck o (u.use o (.readLine timeout)) uses

/-- Whatever comes, and whatever is done with the stream. -/
theorem buffer_and_reads_bounded (o : Outlet σ) (arrivals : List (Duration × Arrival)) (outlet : σ)
    (hs : List Handling) : Restrained o ((initial arrivals outlet).handled o hs) := by
  refine ⟨buffered_handled o (Nat.zero_le _) hs, Inflow.readLine_sparing _ _,
    fun timeout hfail hcoming uses => stuck_of_overlong o ?_ uses⟩
  rcases (readLine_reads _ _ timeout).overlong_or_mem hfail with hs | ⟨a, ha, hsame⟩
  · exact hs
  · exact absurd hsame (hcoming a ha)

end Usage

end LineStream

end IGate
