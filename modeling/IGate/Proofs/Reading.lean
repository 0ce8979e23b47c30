import IGate.LineStream.Scripted
import IGate.Proofs.Framing

/-! Reading lines from a stream. No byte is lost, invented or moved, and what is told of a stream
does not depend on how its bytes are cut and timed or on how long the reads wait. -/

namespace IGate

open LineBuffer

def Arrival.bytes : Arrival → Bytes
  | .chunk bytes => bytes
  | _ => []

def Reading.text? : Reading → Option String
  | .line text => some text
  | _ => none

def Reading.ofLine (raw : Bytes) : Reading := .line (Utf8.decodeLossy raw)

namespace Inflow

def ahead (coming : List (Duration × Arrival)) : Bytes := coming.flatMap fun a => a.2.bytes

@[simp] theorem ahead_nil : ahead [] = [] := rfl
@[simp] theorem ahead_cons (due : Duration) (a : Arrival) (coming : List (Duration × Arrival)) :
    ahead ((due, a) :: coming) = a.bytes ++ ahead coming := rfl
@[simp] theorem ahead_putBack (due : Duration) (left : Bytes)
    (coming : List (Duration × Arrival)) :
    ahead (putBack due left coming) = left ++ ahead coming := by
  unfold putBack
  split <;> simp [Arrival.bytes, *]

def pull (i : Inflow) (due : Duration) (bytes : Bytes) (rest : List (Duration × Arrival)) :
    Inflow where
  buffer := i.buffer ++ bytes.take readChunk
  coming := putBack due (bytes.drop readChunk) rest
  reads := i.reads + 1

theorem buffer_append_pull (i : Inflow) (due : Duration) (bytes : Bytes)
    (rest : List (Duration × Arrival)) :
    (i.pull due bytes rest).buffer ++ ahead (i.pull due bytes rest).coming =
      i.buffer ++ (bytes ++ ahead rest) := by
  rw [pull, ahead_putBack, List.append_assoc, ← List.append_assoc (bytes.take readChunk),
    List.take_append_drop]

/-- What is still to come after a read was to come before it, but for a chunk that was read in
part. -/
theorem mem_of_mem_pull {i : Inflow} {due : Duration} {bytes : Bytes}
    {rest : List (Duration × Arrival)} (hc : i.coming = (due, .chunk bytes) :: rest)
    {a : Duration × Arrival} (ha : a ∈ (i.pull due bytes rest).coming) :
    a = (due, .chunk (bytes.drop readChunk)) ∨ a ∈ i.coming := by
  simp only [pull, putBack] at ha
  rw [hc]
  split at ha
  · exact .inr (List.mem_cons_of_mem _ ha)
  · exact (List.mem_cons.1 ha).imp_right (List.mem_cons_of_mem _)

theorem length_take_readChunk_pos {bytes : Bytes} (hb : bytes ≠ []) :
    0 < (bytes.take readChunk).length := by
  have := List.length_pos_iff.2 hb
  rw [List.length_take, readChunk]
  omega

/-- All that a wait for a line can do, with what may be read until `limit`. -/
inductive Reads (limit : Duration) : Inflow → Reading → Inflow → Prop
  | line {i raw rest} (hs : scan i.buffer = .line raw rest) :
    Reads limit i (.ofLine raw) { i with buffer := rest }
  | overlong {i} (hs : scan i.buffer = .overlong) : Reads limit i (.failed overlongError) i
  | silent {i} (hs : scan i.buffer = .unfinished) (hc : i.coming = []) :
    Reads limit i .timedOut i
  | early {i due a rest} (hs : scan i.buffer = .unfinished) (hc : i.coming = (due, a) :: rest)
    (hd : limit < due) : Reads limit i .timedOut i
  | finished {i due rest} (hs : scan i.buffer = .unfinished)
    (hc : i.coming = (due, .finished) :: rest) :
    Reads limit i (.failed .closedByPeer) { i with reads := i.reads + 1 }
  | failed {i due e rest} (hs : scan i.buffer = .unfinished)
    (hc : i.coming = (due, .failed e) :: rest) :
    Reads limit i (.failed e) { i with coming := rest, reads := i.reads + 1 }
  /-- A read of no bytes is one of the end. -/
  | empty {i due rest} (hs : scan i.buffer = .unfinished)
    (hc : i.coming = (due, .chunk []) :: rest) :
    Reads limit i (.failed .closedByPeer) { i with coming := rest, reads := i.reads + 1 }
  | chunk {i due bytes rest r i'} (hs : scan i.buffer = .unfinished)
    (hc : i.coming = (due, .chunk bytes) :: rest) (hb : bytes ≠ [])
    (hr : Reads limit (i.pull due bytes rest) r i') : Reads limit i r i'

theorem readUntil_reads (deadline now : Duration) (i : Inflow) :
    Reads (max now deadline) i (i.readUntil deadline now).1 (i.readUntil deadline now).2.1 := by
  fun_induction readUntil deadline now i with
  | case1 now i raw rest hs => exact .line hs
  | case2 now i hs => exact .overlong hs
  | case3 now i hs hlen hc => exact .silent hs hc
  | case4 now i hs hlen due rest hd hc => exact .finished hs hc
  | case5 now i hs hlen due rest hd e hc => exact .failed hs hc
  | case6 now i hs hlen due rest hd hc => exact .empty hs hc
  | case7 now i hs hlen due rest hd b bs hc ih =>
    have hlimit : max (max now due) deadline = max now deadline := by
      rw [max_right_comm, max_eq_left hd]
    rw [hlimit] at ih
    exact .chunk hs hc (List.cons_ne_nil b bs) ih
  | case8 now i hs hlen due rest a hc hd => exact .early hs hc (not_le.1 hd)

namespace Reads

variable {limit : Duration} {i i' : Inflow} {r : Reading}

/-- A read that brings no line leaves none. -/
theorem settled (h : Reads limit i r i') (hr : r.text? = none) : lineFeed ∉ i'.buffer := by
  induction h with
  | line => cases hr
  | overlong hs => exact (scan_overlong hs).1
  | chunk _ _ _ _ ih => exact ih hr
  | silent hs | early hs | finished hs | failed hs | empty hs => exact scan_unfinished hs

/-- The bytes that were there are those of the line, if there is one, and those still there. -/
theorem kept (h : Reads limit i r i') :
    ∃ raws : List Bytes, (∀ raw ∈ raws, IsLine raw) ∧
      r.text?.toList = raws.map Utf8.decodeLossy ∧
      i.buffer ++ ahead i.coming = raws.flatten ++ (i'.buffer ++ ahead i'.coming) := by
  induction h with
  | line hs =>
    obtain ⟨hl, hb⟩ := scan_line hs
    exact ⟨[_], by simpa using hl, rfl, by simp [hb]⟩
  | overlong | silent | early | finished => exact ⟨[], nofun, rfl, rfl⟩
  | failed _ hc | empty _ hc => exact ⟨[], nofun, rfl, by simp [hc, Arrival.bytes]⟩
  | chunk _ hc _ _ ih =>
    obtain ⟨raws, hl, ht, hb⟩ := ih
    exact ⟨raws, hl, ht, by rw [← hb, buffer_append_pull, hc, ahead_cons, Arrival.bytes]⟩

theorem coming_nil (h : Reads limit i r i') (hr : r = .timedOut)
    (hd : ∀ a ∈ i.coming, a.1 ≤ limit) : i'.coming = [] := by
  induction h with
  | silent _ hc => exact hc
  | early _ hc hl => exact absurd (hd _ (by rw [hc]; exact List.mem_cons_self)) (not_le.2 hl)
  | @chunk i due bytes rest _ _ _ hc _ _ ih =>
    refine ih hr fun a ha => ?_
    rcases mem_of_mem_pull hc ha with rfl | ha
    · exact hd (due, .chunk bytes) (by rw [hc]; exact List.mem_cons_self)
    · exact hd a ha
  | _ => cases hr

end Reads

/-! What is told of a stream -/

/-- The readings that are still to be told, when `buffer` is held: the lines, each failure behind
the lines before it, and `n` times the end. -/
def report (n : Nat) (buffer : Bytes) : List (Duration × Arrival) → List Reading
  | [] => (lines buffer).map .ofLine
  | (_, .chunk []) :: rest =>
    (lines buffer).map .ofLine ++ .failed .closedByPeer :: report n (unfinished buffer) rest
  | (_, .chunk (b :: bs)) :: rest => report n (buffer ++ b :: bs) rest
  | (_, .failed e) :: rest =>
    (lines buffer).map .ofLine ++ .failed e :: report n (unfinished buffer) rest
  | (_, .finished) :: _ =>
    (lines buffer).map .ofLine ++ List.replicate n (.failed .closedByPeer)

theorem report_line_append {raw : Bytes} (h : IsLine raw) (n : Nat) (buffer : Bytes)
    (coming : List (Duration × Arrival)) :
    report n (raw ++ buffer) coming = .ofLine raw :: report n buffer coming := by
  induction coming generalizing buffer with
  | nil => simp [report, h]
  | cons a coming ih =>
    obtain ⟨due, a⟩ := a
    cases a with
    | chunk bytes => cases bytes <;> simp [report, h, ih]
    | finished => simp [report, h]
    | failed e => simp [report, h]

theorem report_chunk {bytes : Bytes} (hb : bytes ≠ []) (n : Nat) (buffer : Bytes)
    (due : Duration) (rest : List (Duration × Arrival)) :
    report n buffer ((due, .chunk bytes) :: rest) = report n (buffer ++ bytes) rest := by
  cases bytes with
  | nil => exact absurd rfl hb
  | cons => rfl

/-- It does not matter in how many parts a chunk is read. -/
theorem report_pull {i : Inflow} {due : Duration} {bytes : Bytes}
    {rest : List (Duration × Arrival)} (hb : bytes ≠ [])
    (hc : i.coming = (due, .chunk bytes) :: rest) (n : Nat) :
    report n (i.pull due bytes rest).buffer (i.pull due bytes rest).coming =
      report n i.buffer i.coming := by
  rw [hc, report_chunk hb, pull, putBack]
  by_cases hl : bytes.drop readChunk = []
  · rw [if_pos hl, List.take_of_length_le (List.drop_eq_nil_iff.1 hl)]
  · rw [if_neg hl, report_chunk hl, List.append_assoc, List.take_append_drop]

def told (rs : List Reading) : List Reading := rs.filter (· ≠ .timedOut)

theorem told_append (rs more : List Reading) : told (rs ++ more) = told rs ++ told more :=
  List.filter_append ..

/-- How a stream ends: it falls silent, or is over, or fails. -/
inductive Ending where
  | silent
  | finished
  | failed (e : IoError)

def Ending.arrivals (due : Duration) : Ending → List (Duration × Arrival)
  | .silent => []
  | .finished => [(due, .finished)]
  | .failed e => [(due, .failed e)]

/-- What is told of the ending. That a stream is over can be told any number of times. -/
def Ending.readings (n : Nat) : Ending → List Reading
  | .silent => []
  | .finished => List.replicate n (.failed .closedByPeer)
  | .failed e => [.failed e]

def cutting (chunks : List (Duration × Bytes)) (ending : Ending) (due : Duration) :
    List (Duration × Arrival) :=
  chunks.map (fun c => (c.1, .chunk c.2)) ++ ending.arrivals due

theorem ahead_cutting (chunks : List (Duration × Bytes)) (ending : Ending) (due : Duration) :
    ahead (cutting chunks ending due) = chunks.flatMap Prod.snd := by
  induction chunks with
  | nil => cases ending <;> rfl
  | cons c chunks ih =>
    rw [List.flatMap_cons, ← ih]
    rfl

/-- How a stream is cut makes no difference to what is told of it. -/
theorem report_cutting {chunks : List (Duration × Bytes)} (hc : ∀ c ∈ chunks, c.2 ≠ [])
    (ending : Ending) (due : Duration) (n : Nat) (buffer : Bytes) :
    report n buffer (cutting chunks ending due) =
      (lines (buffer ++ chunks.flatMap Prod.snd)).map .ofLine ++ ending.readings n := by
  induction chunks generalizing buffer with
  | nil =>
    have hu := lines_of_not_mem (not_mem_unfinished buffer)
    cases ending <;>
      simp [cutting, Ending.arrivals, Ending.readings, report, hu]
  | cons c chunks ih =>
    have hne := hc c List.mem_cons_self
    have hrest := ih (fun c hm => hc c (List.mem_cons_of_mem _ hm)) (buffer ++ c.2)
    rw [List.flatMap_cons, ← List.append_assoc, ← hrest]
    exact report_chunk hne n buffer c.1 (cutting chunks ending due)

/-- A wait tells what comes next in the report, or nothing. -/
theorem Reads.told_next {limit : Duration} {i i' : Inflow} {r : Reading}
    (h : Reads limit i r i') (hf : Fits (i.buffer ++ ahead i.coming)) :
    ∃ m, ∀ n, report (m + n) i.buffer i.coming = told [r] ++ report n i'.buffer i'.coming := by
  induction h with
  | @line i raw rest hs =>
    obtain ⟨hl, hb⟩ := scan_line hs
    refine ⟨0, fun n => ?_⟩
    rw [hb, Nat.zero_add, report_line_append hl]
    rfl
  | overlong hs =>
    obtain ⟨hl, hlen⟩ := scan_overlong hs
    exact absurd (length_le_of_fits hf hl) (not_le.2 hlen)
  | silent | early => exact ⟨0, fun n => by rw [Nat.zero_add]; rfl⟩
  | finished hs hc =>
    have hl := lines_of_not_mem (scan_unfinished hs)
    refine ⟨1, fun n => ?_⟩
    simp [hc, report, hl, told, Nat.add_comm 1 n, List.replicate_succ]
  | failed hs hc | empty hs hc =>
    have hl := lines_of_not_mem (scan_unfinished hs)
    have hu := unfinished_of_not_mem (scan_unfinished hs)
    refine ⟨0, fun n => ?_⟩
    simp [hc, report, hl, hu, told]
  | chunk _ hc hb _ ih =>
    rw [hc, ahead_cons, Arrival.bytes, ← buffer_append_pull] at hf
    obtain ⟨m, hm⟩ := ih hf
    exact ⟨m, fun n => by rw [← report_pull hb hc, hm]⟩

/-- Nothing is left of the report when a wait ends that was long enough for all of it. -/
theorem Reads.report_nil {limit : Duration} {i i' : Inflow} (h : Reads limit i .timedOut i')
    (hf : Fits (i.buffer ++ ahead i.coming)) (hd : ∀ a ∈ i.coming, a.1 ≤ limit) :
    ∃ m, ∀ n, report (m + n) i.buffer i.coming = [] := by
  have hc := h.coming_nil rfl hd
  have hl := lines_of_not_mem (h.settled rfl)
  obtain ⟨m, hm⟩ := h.told_next hf
  refine ⟨m, fun n => ?_⟩
  rw [hm, hc, report, hl]
  rfl

end Inflow

namespace LineStream

variable {σ : Type}

theorem readLine_reads (s : LineStream σ) (now timeout : Duration) :
    Inflow.Reads (max now (now + timeout)) s.inflow (s.readLine now timeout).1
      (s.readLine now timeout).2.1.inflow :=
  Inflow.readUntil_reads (now + timeout) now s.inflow

inductive Use where
  | elapse (d : Duration)
  | readLine (timeout : Duration)
  | writeLine (text : String)
  | writeFrame (data : Bytes)

/-- A stream in use, with each reading so far and what was held after it. -/
structure Usage (σ : Type) where
  stream : LineStream σ
  now : Duration
  readings : List (Reading × Bytes)

namespace Usage

def initial (coming : List (Duration × Arrival)) (outlet : σ) : Usage σ :=
  ⟨⟨{ Inflow.empty with coming }, outlet⟩, 0, []⟩

def use (o : Outlet σ) (u : Usage σ) : Use → Usage σ
  | .elapse d => { u with now := u.now + d }
  | .readLine timeout =>
    let (r, stream, now) := u.stream.readLine u.now timeout
    ⟨stream, now, u.readings ++ [(r, stream.inflow.buffer)]⟩
  | .writeLine text => { u with stream := (u.stream.writeLine o text).2.2 }
  | .writeFrame data => { u with stream := (u.stream.writeFrame o data).2.2 }

def run (o : Outlet σ) (u : Usage σ) (uses : List Use) : Usage σ := uses.foldl (use o) u

def told (u : Usage σ) : List Reading := Inflow.told (u.readings.map Prod.fst)

def texts (u : Usage σ) : List String := u.readings.filterMap (·.1.text?)

def buffer (u : Usage σ) : Bytes := u.stream.inflow.buffer

def coming (u : Usage σ) : List (Duration × Arrival) := u.stream.inflow.coming

theorem use_cases (o : Outlet σ) (u : Usage σ) (a : Use) :
    (∃ r limit, (u.use o a).readings = u.readings ++ [(r, (u.use o a).buffer)] ∧
      Inflow.Reads limit u.stream.inflow r (u.use o a).stream.inflow) ∨
    (u.use o a).readings = u.readings ∧ (u.use o a).stream.inflow = u.stream.inflow := by
  cases a with
  | readLine timeout => exact .inl ⟨_, _, rfl, readLine_reads u.stream u.now timeout⟩
  | elapse | writeLine | writeFrame => exact .inr ⟨rfl, rfl⟩

theorem run_keeps {P : Usage σ → Prop} {o : Outlet σ} (huse : ∀ u a, P u → P (u.use o a))
    {u : Usage σ} (h : P u) (uses : List Use) : P (u.run o uses) := by
  induction uses generalizing u with
  | nil => exact h
  | cons a uses ih => exact ih (huse u a h)

/-- The bytes of the stream are those of the lines that were read, those held and those still to
come. -/
def Kept (stream : Bytes) (u : Usage σ) : Prop :=
  ∃ raws : List Bytes, (∀ raw ∈ raws, IsLine raw) ∧ u.texts = raws.map Utf8.decodeLossy ∧
    stream = raws.flatten ++ (u.buffer ++ Inflow.ahead u.coming)

theorem Kept.use {stream : Bytes} {o : Outlet σ} {u : Usage σ} (h : u.Kept stream) (a : Use) :
    (u.use o a).Kept stream := by
  obtain ⟨raws, hl, ht, hb⟩ := h
  rcases use_cases o u a with ⟨r, limit, hn, hr⟩ | ⟨hn, hi⟩
  · obtain ⟨more, hl', ht', hb'⟩ := hr.kept
    refine ⟨raws ++ more, ?_, ?_, ?_⟩
    · intro raw hm
      rcases List.mem_append.1 hm with hm | hm
      · exact hl raw hm
      · exact hl' raw hm
    · rw [texts, hn, List.filterMap_append, List.map_append, ← ht', ← ht, texts]
      cases r <;> rfl
    · rw [hb, buffer, coming, hb', List.flatten_append, List.append_assoc]
      rfl
  · exact ⟨raws, hl, by rw [texts, hn]; exact ht, by rw [buffer, coming, hi]; exact hb⟩

def Settled (u : Usage σ) : Prop := ∀ a ∈ u.readings, a.1.text? = none → lineFeed ∉ a.2

theorem Settled.use {o : Outlet σ} {u : Usage σ} (h : u.Settled) (a : Use) :
    (u.use o a).Settled := by
  rcases use_cases o u a with ⟨r, limit, hn, hr⟩ | ⟨hn, -⟩
  · intro b hb ht
    rw [hn, List.mem_append, List.mem_singleton] at hb
    rcases hb with hb | rfl
    · exact h b hb ht
    · exact hr.settled ht
  · rw [Settled, hn]
    exact h

/-- What was told is what the report of the stream says, up to what it still says. -/
def Reported (coming : List (Duration × Arrival)) (u : Usage σ) : Prop :=
  Fits (u.buffer ++ Inflow.ahead u.coming) ∧
    ∃ m, ∀ n, Inflow.report (m + n) [] coming = u.told ++ Inflow.report n u.buffer u.coming

theorem Reported.use {coming : List (Duration × Arrival)} {o : Outlet σ} {u : Usage σ}
    (h : u.Reported coming) (a : Use) : (u.use o a).Reported coming := by
  obtain ⟨hf, m, hm⟩ := h
  rcases use_cases o u a with ⟨r, limit, hn, hr⟩ | ⟨hn, hi⟩
  · obtain ⟨raws, hl, -, hb⟩ := hr.kept
    obtain ⟨m', hm'⟩ := hr.told_next hf
    have ht : (u.use o a).told = u.told ++ Inflow.told [r] := by
      rw [told, hn, List.map_append, Inflow.told_append]
      rfl
    refine ⟨Fits.of_flatten_append hl (hb ▸ hf), m + m', fun n => ?_⟩
    rw [Nat.add_assoc, hm, buffer, Usage.coming, hm', ht, List.append_assoc]
    rfl
  · refine ⟨by rw [buffer, Usage.coming, hi]; exact hf, m, fun n => ?_⟩
    rw [told, hn, buffer, Usage.coming, hi]
    exact hm n

/-- Of the bytes of a stream and its ending, what was told comes first, and all was told when a wait
that was long enough for everything to come ends without a reading. -/
structure Tells (stream : Bytes) (ending : Inflow.Ending) (u : Usage σ) : Prop where
  inOrder : ∃ n, u.told <+: (lines stream).map .ofLine ++ ending.readings n
  toTheEnd : ∀ timeout, (∀ a ∈ u.coming, a.1 ≤ u.now + timeout) →
    (u.stream.readLine u.now timeout).1 = .timedOut →
    ending ≠ .finished ∧ u.told = (lines stream).map .ofLine ++ ending.readings 0

theorem Reported.tells {chunks : List (Duration × Bytes)} (hc : ∀ c ∈ chunks, c.2 ≠ [])
    {ending : Inflow.Ending} {due : Duration} {u : Usage σ}
    (h : u.Reported (Inflow.cutting chunks ending due)) :
    Tells (chunks.flatMap Prod.snd) ending u := by
  obtain ⟨hf, m, hm⟩ := h
  have hreport : ∀ n, (lines (chunks.flatMap Prod.snd)).map .ofLine ++ ending.readings (m + n) =
      u.told ++ Inflow.report n u.buffer u.coming := by
    intro n
    rw [← hm, Inflow.report_cutting hc, List.nil_append]
  refine ⟨⟨m, ?_⟩, fun timeout hd ht => ?_⟩
  · rw [← Nat.add_zero m, hreport 0]
    exact List.prefix_append _ _
  · have hr := readLine_reads u.stream u.now timeout
    rw [ht] at hr
    obtain ⟨m', hm'⟩ := hr.report_nil hf fun a ha => (hd a ha).trans (le_max_right _ _)
    have hall : ∀ n, (lines (chunks.flatMap Prod.snd)).map .ofLine ++
        ending.readings (m + (m' + n)) = u.told := by
      intro n
      rw [hreport, buffer, coming, hm', List.append_nil]
    cases ending with
    | finished =>
      -- a wait would tell once more that the stream is over
      have hlen := congrArg List.length ((hall 1).trans (hall 0).symm)
      simp [Inflow.Ending.readings] at hlen
    | silent => exact ⟨nofun, (hall 0).symm⟩
    | failed e => exact ⟨nofun, (hall 0).symm⟩

structure Faithful (arrivals : List (Duration × Arrival)) (u : Usage σ) : Prop where
  /-- The bytes obtained so far are those of the lines that were read and those held. -/
  kept : ∃ (raws : List Bytes) (obtained : Bytes), (∀ raw ∈ raws, IsLine raw) ∧
    u.texts = raws.map Utf8.decodeLossy ∧ obtained = raws.flatten ++ u.buffer ∧
    Inflow.ahead arrivals = obtained ++ Inflow.ahead u.coming
  settled : ∀ a ∈ u.readings, a.1.text? = none → lineFeed ∉ a.2
  tells : ∀ chunks ending due, arrivals = Inflow.cutting chunks ending due →
    (∀ c ∈ chunks, c.2 ≠ []) → Fits (chunks.flatMap Prod.snd) →
    Tells (chunks.flatMap Prod.snd) ending u

/-- However the bytes are cut and timed, and whatever is read and written with any timeouts. -/
theorem stream_read_faithfully (o : Outlet σ) (arrivals : List (Duration × Arrival)) (outlet : σ)
    (uses : List Use) : Faithful arrivals ((initial arrivals outlet).run o uses) := by
  refine ⟨?_, ?_, ?_⟩
  · have h : (initial arrivals outlet).Kept (Inflow.ahead arrivals) := ⟨[], nofun, rfl, rfl⟩
    obtain ⟨raws, hl, ht, hb⟩ := run_keeps (o := o) (fun _ a h => h.use a) h uses
    exact ⟨raws, _, hl, ht, rfl, hb.trans (List.append_assoc ..).symm⟩
  · have h : (initial arrivals outlet).Settled := nofun
    exact run_keeps (o := o) (fun _ a h => h.use a) h uses
  · rintro chunks ending due rfl hc hf
    have h : (initial (Inflow.cutting chunks ending due) outlet).Reported
        (Inflow.cutting chunks ending due) := by
      refine ⟨?_, 0, fun n => by rw [Nat.zero_add]; rfl⟩
      rw [← Inflow.ahead_cutting chunks ending due] at hf
      exact hf
    exact (run_keeps (o := o) (fun _ a h => h.use a) h uses).tells hc

/-- The first chunk ends between a carriage return and its line feed, and the last line is never
finished. -/
def splitChunks : List (Duration × Bytes) := [(5, [65, 13]), (20, [10, 66, 10, 67])]

example :
    ((initial (Inflow.cutting splitChunks .finished 30) Throttle.unhindered).run Throttle.outlet
      [.readLine 10, .readLine 10, .readLine 0, .readLine 50]).readings.map Prod.fst =
        [.timedOut, .line "A\r\n", .line "B\n", .failed .closedByPeer] := by
  decide +kernel

end Usage

end LineStream

end IGate
