import IGate.Proofs.Client.Forwarding

/-! Every line that is passed on fits into one datagram. A buffer holds no more than one read can
leave in it, so no line is longer than that; reading bytes that are no text can make it three times
as long. -/

namespace IGate

open Trace LineBuffer

namespace Heard

variable {now deadline : Duration} {buffer raw rest buffer' : Bytes} {s : Signal}

theorem length_intake_le (h : buffer.length ≤ maxLineLength + readChunk) (s : Signal) :
    (buffer ++ intake buffer s).length ≤ maxLineLength + readChunk := by
  unfold intake
  split
  · split
    · next hread =>
      have hlen := length_le_of_scan_unfinished hread.1
      rw [List.length_append]
      omega
    · rwa [List.append_nil]
  · rwa [List.append_nil]

theorem length_line_le (h : buffer.length ≤ maxLineLength + readChunk)
    (hs : ofSignal now deadline buffer s = .line raw rest) :
    IsLine raw ∧ raw.length ≤ maxLineLength + readChunk ∧
      rest.length ≤ maxLineLength + readChunk := by
  obtain ⟨hl, hb⟩ := scan_line (ofSignal_line hs)
  have hlen := length_intake_le h s
  rw [hb, List.length_append] at hlen
  exact ⟨hl, by omega, by omega⟩

theorem length_waiting_le (h : buffer.length ≤ maxLineLength + readChunk)
    (hs : ofSignal now deadline buffer s = .waiting buffer') :
    buffer'.length ≤ maxLineLength + readChunk := by
  rw [ofSignal_waiting hs]
  exact length_intake_le h s

end Heard

def Phase.buffer? : Phase → Option Bytes
  | .greeting _ buffer _ | .loggingIn buffer _ => some buffer
  | _ => none

/-- Nothing is held but what one read can leave. -/
structure Worker.WithinBound (w : Worker) : Prop where
  link : ∀ buffer ∈ w.link, buffer.length ≤ maxLineLength + readChunk
  phase : ∀ buffer ∈ w.phase.buffer?, buffer.length ≤ maxLineLength + readChunk

/-- A line that goes out as one datagram, and not as an empty one. A byte that is in no text takes
three bytes there, and the line feed none. -/
structure OneDatagram (line : String) : Prop where
  nonempty : 1 ≤ (Utf8.encode line).length
  length_le : (Utf8.encode line).length ≤ 3 * (maxLineLength + readChunk - 1)
  fits : (Utf8.encode line).length ≤ Datagram.maxLength
  sent : ∀ target, Datagram.forward true target line = (some (Utf8.encode line), [])
  notTooLong : ∀ reachable target,
    .forwardFailed target (.system .messageTooLong) ∉ (Datagram.forward reachable target line).2

theorem length_trimmed_lt {raw : Bytes} (h : IsLine raw) :
    (Line.trimmed raw).length < raw.length := by
  obtain ⟨body, -, rfl⟩ := h
  have hbody : (Line.trimmed body).length ≤ body.length :=
    (List.rdropWhile_prefix Line.isEndingByte body).length_le
  rw [Line.trimmed, List.rdropWhile_concat_pos _ _ _ (by decide), List.length_append]
  exact Nat.lt_succ_of_le hbody

theorem oneDatagram_of_wanted {raw : Bytes} {line : String} (hl : IsLine raw)
    (hlen : raw.length ≤ maxLineLength + readChunk) (hw : line ∈ wanted [raw]) :
    OneDatagram line := by
  obtain ⟨rfl, hne⟩ : line = Utf8.decodeLossy (Line.trimmed raw) ∧ line ≠ "" := by
    simp only [wanted, List.map_cons, List.map_nil, List.mem_filter, List.mem_singleton,
      decide_eq_true_eq] at hw
    exact ⟨hw.1.trans (Line.rtrim_decodeLossy raw), hw.2.1⟩
  have hthree : (Utf8.encode (Utf8.decodeLossy (Line.trimmed raw))).length ≤
      3 * (maxLineLength + readChunk - 1) := by
    have hread := (Utf8.lossy_decodeLossy (Line.trimmed raw)).length_le
    have hshort := length_trimmed_lt hl
    rw [← Utf8.encode] at hread
    omega
  have hbound : 3 * (maxLineLength + readChunk - 1) ≤ Datagram.maxLength := by decide
  have hfits := hthree.trans hbound
  refine ⟨List.length_pos_iff.2 fun hnil => hne ?_, hthree, hfits,
    fun target => Datagram.forward_of_fits target hfits, fun reachable target => ?_⟩
  · rw [← Utf8.decodeLossy_encode (Utf8.decodeLossy _), hnil]
    rfl
  · rw [Datagram.forward, Datagram.send_of_fits hfits]
    cases reachable <;> simp

namespace Client

def WithinBound (c : Client) : Prop := ∀ w, c.worker = some w → w.WithinBound

section
variable {c c' : Client} {s : Signal} {new : Trace} {line : String}

theorem buffer?_phaseFor (c : Client) (line : String) : (c.phaseFor line).buffer? = none := by
  rcases c.phaseFor_eq_or line with h | h <;> rw [h] <;> rfl

theorem withinBound_of_worker {w : Worker} (hw : c.worker = some w) (h : w.WithinBound) :
    c.WithinBound := by
  intro v hv
  cases hw.symm.trans hv
  exact h

theorem Move.withinBound (hm : Move c s c' new) (h : c.WithinBound) : c'.WithinBound := by
  cases hm with
  | ignored | stopRequested | accepted | rejected | clocked | sinkSet | elapsed | stirred =>
    exact h
  | started => exact withinBound_of_worker rfl ⟨nofun, nofun⟩
  | ended => nofun
  | opened hw =>
    refine withinBound_of_worker rfl ⟨(h _ hw).link, ?_⟩
    rintro _ ⟨⟩
    exact Nat.zero_le _
  | awaited hw hp hs =>
    refine withinBound_of_worker rfl ⟨(h _ hw).link, ?_⟩
    rintro _ ⟨⟩
    exact Heard.length_waiting_le ((h _ hw).phase _ (by rw [hp]; rfl)) hs
  | greeted hw hp hs =>
    refine withinBound_of_worker rfl ⟨(h _ hw).link, ?_⟩
    rintro _ ⟨⟩
    exact (Heard.length_line_le ((h _ hw).phase _ (by rw [hp]; rfl)) hs).2.2
  | established hw hp hs =>
    refine withinBound_of_worker rfl ⟨?_, nofun⟩
    rintro _ ⟨⟩
    exact (Heard.length_line_le ((h _ hw).phase _ (by rw [hp]; rfl)) hs).2.2
  | loginSent hw hp | loginFlushed hw hp =>
    refine withinBound_of_worker rfl ⟨(h _ hw).link, ?_⟩
    rintro _ ⟨⟩
    exact (h _ hw).phase _ (by rw [hp]; rfl)
  | polled hw hp hl hs =>
    refine withinBound_of_worker rfl ⟨?_, (h _ hw).phase⟩
    rintro _ ⟨⟩
    exact Heard.length_waiting_le ((h _ hw).link _ hl) hs
  | @heard _ _ _ _ raw _ hw hp hl hs =>
    refine withinBound_of_worker rfl ⟨?_, ?_⟩
    · rintro _ ⟨⟩
      exact (Heard.length_line_le ((h _ hw).link _ hl) hs).2.2
    · have hnone := buffer?_phaseFor c (Line.rtrim (Utf8.decodeLossy raw))
      simp [hnone]
  | frameFailed | readFailed => exact withinBound_of_worker rfl ⟨nofun, nofun⟩
  | _ =>
    have hw := h _ ‹c.worker = some _›
    exact withinBound_of_worker rfl ⟨hw.link, nofun⟩

/-- What is handed over was read as a line within the bound. -/
theorem Move.exists_line_of_handed (hm : Move c s c' new) (h : c.WithinBound)
    (hh : line ∈ Trace.handed new) :
    ∃ raw, IsLine raw ∧ raw.length ≤ maxLineLength + readChunk ∧ line ∈ wanted [raw] := by
  cases hm with
  | @heard _ _ _ _ raw _ hw hp hl hs =>
    obtain ⟨hline, hlen, -⟩ := Heard.length_line_le ((h _ hw).link _ hl) hs
    refine ⟨raw, hline, hlen, ?_⟩
    rw [← handed_deliveries c raw]
    simpa [Trace.handed] using hh
  | @ended w => cases hl : w.link <;> simp [hl, Trace.handed] at hh
  | @abandoned _ opened => cases opened <;> simp [Trace.handed] at hh
  | awaited | polled | greeted | established | ungreeted | readFailed | loginSent | frameSent =>
    simp [Trace.handed] at hh
  | _ => cases hh

theorem Move.oneDatagram (hm : Move c s c' new) (h : c.WithinBound) :
    ∀ call ∈ Trace.delivered new, OneDatagram call.2 := by
  intro call hcall
  rw [hm.delivered] at hcall
  obtain ⟨line, hline, hsink⟩ := List.mem_flatMap.1 hcall
  obtain ⟨sink, -, rfl⟩ := Option.map_eq_some_iff.1 (Option.mem_toList.1 hsink)
  obtain ⟨raw, hl, hlen, hw⟩ := hm.exists_line_of_handed h hline
  exact oneDatagram_of_wanted hl hlen hw

theorem run_oneDatagram (settings : Settings) (capacity : UInt64) (ss : List Signal) :
    ∀ call ∈ Trace.delivered ((initial settings capacity).run ss).2, OneDatagram call.2 := by
  let P : Client → Trace → Prop := fun c es =>
    c.WithinBound ∧ ∀ call ∈ Trace.delivered es, OneDatagram call.2
  have hmove : ∀ {c s c' es new}, P c es → Move c s c' new → P c' (es ++ new) := by
    rintro c s c' es new ⟨hb, hes⟩ hm
    refine ⟨hm.withinBound hb, fun call hcall => ?_⟩
    rw [delivered_append, List.mem_append] at hcall
    exact hcall.elim (hes call) (hm.oneDatagram hb call)
  have hinit : P (initial settings capacity) [] := ⟨nofun, nofun⟩
  have hrun := (run_keeps (P := P) hmove hinit ss).2
  rwa [List.nil_append, delivered_quiet] at hrun

end

/-! The longest line -/

def longestLineReads : List Bytes :=
  List.replicate (maxLineLength / readChunk) (List.replicate readChunk 0xff)

def longestLineEnd : Bytes := List.replicate (readChunk - 1) 0xff ++ [lineFeed]

def longestLine : Bytes := longestLineReads.flatten ++ longestLineEnd

theorem flatten_longestLineReads :
    longestLineReads.flatten = List.replicate maxLineLength 0xff := by
  rw [longestLineReads, List.flatten_replicate_replicate]
  rfl

theorem length_longestLineEnd : longestLineEnd.length = readChunk := by
  rw [longestLineEnd, List.length_append, List.length_replicate]
  rfl

theorem longestLine_eq :
    longestLine = List.replicate (maxLineLength + readChunk - 1) 0xff ++ [lineFeed] := by
  rw [longestLine, flatten_longestLineReads, longestLineEnd, ← List.append_assoc,
    List.replicate_append_replicate]
  rfl

theorem scan_longestLine : scan longestLine = .line longestLine [] := by
  have hline : IsLine longestLine := by
    refine ⟨_, fun hm => ?_, longestLine_eq⟩
    exact absurd (List.eq_of_mem_replicate hm) (by decide)
  have hscan := scan_line_append hline []
  rwa [List.append_nil] at hscan

theorem read_replicate (n : ℕ) :
    Utf8.read .start (List.replicate n 0xff) = List.replicate n Utf8.replacement := by
  induction n with
  | zero => rfl
  | succ n ih =>
    rw [List.replicate_succ, List.replicate_succ, ← ih]
    rfl

def longestText : String :=
  String.ofList (List.replicate (maxLineLength + readChunk - 1) Utf8.replacement)

theorem rtrim_longestLine : Line.rtrim (Utf8.decodeLossy longestLine) = longestText := by
  have htrimmed : Line.trimmed longestLine =
      List.replicate (maxLineLength + readChunk - 1) 0xff := by
    rw [Line.trimmed, longestLine_eq, List.rdropWhile_concat_pos _ _ _ (by decide),
      List.rdropWhile_eq_self_iff]
    intro hne
    rw [List.getLast_replicate]
    decide
  rw [Line.rtrim_decodeLossy, htrimmed, Utf8.decodeLossy, read_replicate, longestText]

theorem length_longestText :
    (Utf8.encode longestText).length = 3 * (maxLineLength + readChunk - 1) := by
  rw [Utf8.encode, longestText, String.toList_ofList, List.flatMap_replicate, List.length_flatten,
    List.map_replicate, List.sum_replicate, smul_eq_mul, Nat.mul_comm]
  rfl

section
variable {c : Client} {w : Worker} {deadline : Duration} {buffer chunk : Bytes}

theorem step_received (hw : c.worker = some w) (hp : w.phase = .polling deadline)
    (hl : w.link = some buffer) (hs : scan buffer = .unfinished)
    (hlen : chunk.length ≤ readChunk) :
    c.step (.received chunk) =
      ((c.pollHeard w (Heard.ofScan (buffer ++ chunk))).1,
        readEvents chunk ++ (c.pollHeard w (Heard.ofScan (buffer ++ chunk))).2) := by
  rw [step_of_polling hw hp hl rfl, Heard.intake_received hs hlen,
    Heard.ofSignal_received hs hlen]

theorem run_unfinished (hw : c.worker = some w) (hp : w.phase = .polling deadline)
    (hl : w.link = some buffer) (chunks : List Bytes) (hno : lineFeed ∉ buffer ++ chunks.flatten)
    (hlen : (buffer ++ chunks.flatten).length ≤ maxLineLength)
    (hc : ∀ chunk ∈ chunks, chunk.length ≤ readChunk) :
    (c.run (chunks.map .received)).1 =
        c.withWorker { w with link := some (buffer ++ chunks.flatten) } ∧
      Trace.delivered (c.run (chunks.map .received)).2 = [] := by
  induction chunks generalizing c w buffer with
  | nil =>
    obtain ⟨_, _, _, _⟩ := c
    cases hw
    refine ⟨?_, rfl⟩
    simp [withWorker, ← hl]
  | cons chunk chunks ih =>
    rw [List.forall_mem_cons] at hc
    rw [List.flatten_cons, ← List.append_assoc] at hno hlen ⊢
    have hscan : ∀ {held more : Bytes}, lineFeed ∉ held ++ more →
        (held ++ more).length ≤ maxLineLength → scan held = .unfinished := by
      intro held more hno hlen
      rw [List.mem_append, not_or] at hno
      rw [List.length_append] at hlen
      exact scan_of_short hno.1 (by omega)
    have hheld := hscan hno hlen
    have hstep := step_received hw hp hl (hscan (List.append_assoc .. ▸ hno)
      (List.append_assoc .. ▸ hlen)) hc.1
    rw [Heard.ofScan, hheld, pollHeard, List.append_nil] at hstep
    obtain ⟨hrun, hnone⟩ := ih (c := c.withWorker { w with link := some (buffer ++ chunk) })
      rfl hp rfl hno hlen hc.2
    rw [List.map_cons, run_cons, hstep]
    refine ⟨hrun, ?_⟩
    rw [delivered_append, hnone]
    simp [Trace.delivered]

theorem longestText_matters : ¬ (longestText = "" ∨ Line.isComment longestText = true) := by
  have hhead : longestText.toList.head? = some Utf8.replacement := by
    rw [longestText, String.toList_ofList, List.head?_replicate, if_neg (by decide)]
  rw [Line.isComment, hhead, ← String.toList_eq_nil_iff]
  rintro (hnil | hcomment)
  · rw [hnil] at hhead
    cases hhead
  · exact absurd hcomment (by decide)

theorem delivered_longestLine {sink : Nat} (hw : c.worker = some w)
    (hp : w.phase = .polling deadline) (hl : w.link = some []) (hs : c.shared.sink = some sink) :
    Trace.delivered
      (c.run ((longestLineReads.map .received) ++ [.received longestLineEnd])).2 =
        [(sink, longestText)] := by
  have hlen : longestLineReads.flatten.length = maxLineLength := by
    rw [flatten_longestLineReads, List.length_replicate]
  have hno : lineFeed ∉ longestLineReads.flatten := by
    rw [flatten_longestLineReads, List.mem_replicate]
    decide
  have hreads : ∀ chunk ∈ longestLineReads, chunk.length ≤ readChunk := by
    intro chunk hc
    rw [List.eq_of_mem_replicate hc, List.length_replicate]
  obtain ⟨hrun, hnone⟩ := run_unfinished hw hp hl longestLineReads
    (by rwa [List.nil_append]) (by rw [List.nil_append, hlen]) hreads
  rw [List.nil_append] at hrun
  have hheld := scan_of_short hno hlen.le
  have hlast := step_received rfl hp rfl hheld length_longestLineEnd.le
    (c := c.withWorker { w with link := some longestLineReads.flatten })
  rw [← longestLine, Heard.ofScan, scan_longestLine, pollHeard] at hlast
  rw [run_concat, hrun, delivered_append, hnone, List.nil_append, hlast, delivered_append,
    ← delivered_quiet (heardLine _ _ _).2, (heardLine_eq ..).2,
    rtrim_longestLine, deliveries, if_neg longestText_matters]
  simp [Trace.delivered, withWorker, hs]

end

structure FitDatagrams (c : Client) (es : Trace) : Prop where
  each : ∀ call ∈ Trace.delivered es, OneDatagram call.2
  datagrams : ∀ sink target, datagrams sink target es =
    ((Trace.delivered es).filter (·.1 = sink)).map fun call => (some (Utf8.encode call.2), [])
  /-- The bound is reached by the longest line, of bytes that are in no text. -/
  longest : ∀ w deadline sink, c.worker = some w → w.phase = .polling deadline →
    w.link = some [] → c.shared.sink = some sink →
    Trace.delivered
        (c.run ((longestLineReads.map .received) ++ [.received longestLineEnd])).2 =
      [(sink, longestText)] ∧
    (Utf8.encode longestText).length = 3 * (maxLineLength + readChunk - 1)

theorem datagrams_of_oneDatagram {es : Trace}
    (h : ∀ call ∈ Trace.delivered es, OneDatagram call.2) (sink : Nat) (target : String) :
    datagrams sink target es =
      ((Trace.delivered es).filter (·.1 = sink)).map fun call =>
        (some (Utf8.encode call.2), []) := by
  rw [datagrams, ← List.filterMap_eq_filter, List.map_filterMap]
  refine List.filterMap_congr fun call hcall => ?_
  by_cases hs : call.1 = sink <;> simp [Option.guard, hs, (h call hcall).sent]

/-- Whatever a server sends and however it is cut, and whatever is called and written besides. -/
theorem lines_fit_datagrams (settings : Settings) (capacity : UInt64) (ss : List Signal) :
    FitDatagrams ((initial settings capacity).run ss).1 ((initial settings capacity).run ss).2 where
  each := run_oneDatagram settings capacity ss
  datagrams := datagrams_of_oneDatagram (run_oneDatagram settings capacity ss)
  longest _ _ _ hw hp hl hs := ⟨delivered_longestLine hw hp hl hs, length_longestText⟩

example :
    let c := ((initial trialSettings 2000).run listening).1
    c.worker.map (fun w => (w.phase, w.link)) =
      some (.polling (Duration.ofSeconds 10), some []) ∧ c.shared.sink = some 7 := by
  decide +kernel

end Client

end IGate
