import IGate.Datagram
import IGate.Proofs.Client.Outbound
import IGate.Proofs.Client.Inbound
import IGate.Proofs.Utf8.Lossy

/-! What is sent on of the lines of a server: one datagram for each line that is meant for the sink,
with the bytes of the line up to the blanks at its end. Bytes that are no text do not come through. -/

namespace IGate

open Trace LineBuffer

namespace Line

def isEndingByte (b : UInt8) : Bool := b == 0x20 || b == 0x0a || b == 0x0d

def trimmed (raw : Bytes) : Bytes := raw.rdropWhile isEndingByte

/-- A line of bytes that is neither blank nor a comment. -/
def Matters (raw : Bytes) : Prop := trimmed raw ≠ [] ∧ raw.head? ≠ some 0x23

instance (raw : Bytes) : Decidable (Matters raw) := inferInstanceAs (Decidable (_ ∧ _))

theorem isEndingByte_ascii {b : UInt8} (h : isEndingByte b = true) :
    b.toNat < 0x80 ∧ isEnding (Char.ofNat b.toNat) = true := by
  simp only [isEndingByte, Bool.or_eq_true, beq_iff_eq] at h
  rcases h with (rfl | rfl) | rfl <;> decide

theorem isEnding_ascii {c : Char} (h : isEnding c = true) :
    c.toNat < 0x80 ∧ isEndingByte (UInt8.ofNat c.toNat) = true := by
  simp only [isEnding, Bool.or_eq_true, beq_iff_eq] at h
  rcases h with (rfl | rfl) | rfl <;> decide

/-- It makes no difference whether bytes or characters are trimmed. -/
theorem rtrim_decodeLossy (raw : Bytes) :
    rtrim (Utf8.decodeLossy raw) = Utf8.decodeLossy (trimmed raw) := by
  have hread := Utf8.lossy_decodeLossy (trimmed raw)
  have hend : ∀ b ∈ raw.rtakeWhile isEndingByte, isEndingByte b = true :=
    fun b hb => List.mem_rtakeWhile_imp hb
  have hwhole := hread.append_ascii fun b hb => (isEndingByte_ascii (hend b hb)).1
  rw [trimmed, List.rdropWhile_append_rtakeWhile, ← trimmed] at hwhole
  have hchars : ∀ c ∈ (raw.rtakeWhile isEndingByte).map fun b => Char.ofNat b.toNat,
      isEnding c = true := by
    intro c hc
    obtain ⟨b, hb, rfl⟩ := List.mem_map.1 hc
    exact (isEndingByte_ascii (hend b hb)).2
  -- the last character that is left is no blank, or the last byte would be one
  have hlast : Text.dropEnd isEnding (Utf8.decodeLossy (trimmed raw)).toList =
      (Utf8.decodeLossy (trimmed raw)).toList := by
    refine List.rdropWhile_eq_self_iff.2 fun hne hblank => ?_
    obtain ⟨hlow, hbyte⟩ := isEnding_ascii hblank
    have hlastByte := hread.getLast?_ascii (List.getLast?_eq_getLast_of_ne_nil hne) hlow
    have hbytes : trimmed raw ≠ [] := fun hnil => by simp [hnil] at hlastByte
    have hnot := List.rdropWhile_last_not isEndingByte raw hbytes
    rw [List.getLast?_eq_getLast_of_ne_nil hbytes, Option.some.injEq] at hlastByte
    exact hnot (hlastByte ▸ hbyte)
  rw [← String.toList_inj, toList_rtrim, Utf8.decodeLossy_of_lossy hwhole, String.toList_ofList,
    Text.dropEnd_append hchars, hlast]

theorem matters_iff {raw : Bytes} :
    Matters raw ↔ rtrim (Utf8.decodeLossy raw) ≠ "" ∧
      ¬ isComment (rtrim (Utf8.decodeLossy raw)) = true := by
  have hread := Utf8.lossy_decodeLossy (trimmed raw)
  have hempty : Utf8.decodeLossy (trimmed raw) = "" ↔ trimmed raw = [] := by
    rw [← String.toList_eq_nil_iff, hread.eq_nil_iff]
  rw [rtrim_decodeLossy, Matters, ne_eq, ne_eq, ne_eq, hempty]
  refine and_congr_right fun hne => not_congr ?_
  have hhead : raw.head? = (trimmed raw).head? := by
    obtain ⟨t, ht⟩ : trimmed raw <+: raw := List.rdropWhile_prefix isEndingByte raw
    rw [← List.head?_append_of_ne_nil _ hne, ht]
  have hcomment := hread.head?_ascii (b := 0x23) (by decide)
  rw [isComment, beq_iff_eq, hhead]
  exact hcomment.symm

end Line

namespace Utf8

def repaired (bytes : Bytes) : Bytes := encode (decodeLossy bytes)

/-- What a datagram carries for some bytes of a line: for each character its bytes, and for each
stretch that is none the three bytes of U+FFFD. -/
structure Carries (bytes payload : Bytes) : Prop where
  characters : ∃ cs, Lossy bytes cs ∧ payload = cs.flatMap String.utf8EncodeChar
  exact : payload = bytes ↔ ∃ s, bytes = encode s

theorem carries_repaired (bytes : Bytes) : Carries bytes (repaired bytes) :=
  ⟨⟨_, lossy_decodeLossy bytes, rfl⟩, encode_decodeLossy_eq_iff⟩

end Utf8

namespace Datagram

theorem send_of_fits {content : Bytes} (h : content.length ≤ maxLength) (reachable : Bool) :
    send reachable content =
      if reachable then .ok () else .error (.system .networkUnreachable) := by
  have hrequest : ¬ maxRequest < content.length := by
    simp only [maxRequest, maxLength] at *
    omega
  rw [send, if_neg hrequest, if_neg (not_lt.2 h)]
  cases reachable <;> rfl

theorem forward_of_fits {line : String} (target : String)
    (h : (Utf8.encode line).length ≤ maxLength) :
    forward true target line = (some (Utf8.encode line), []) := by
  rw [forward, send_of_fits h]
  rfl

theorem forward_of_length_le {raw : Bytes} (target : String) (h : raw.length ≤ maxLineLength) :
    forward true target (Line.rtrim (Utf8.decodeLossy raw)) =
      (some (Utf8.repaired (Line.trimmed raw)), []) := by
  have hread := Utf8.lossy_decodeLossy (Line.trimmed raw)
  have hlength : (Utf8.repaired (Line.trimmed raw)).length ≤ 3 * maxLineLength := by
    have htrim : Line.trimmed raw <+: raw := List.rdropWhile_prefix Line.isEndingByte raw
    have hle := htrim.length_le
    have hthree := hread.length_le
    rw [← Utf8.encode, ← Utf8.repaired] at hthree
    omega
  have hfits : (Utf8.repaired (Line.trimmed raw)).length ≤ maxLength := by
    simp only [maxLength, maxLineLength] at *
    omega
  rw [Line.rtrim_decodeLossy]
  exact forward_of_fits target hfits

end Datagram

theorem Heeded.prefix_lines {k : Trace} {held stream : Bytes} (h : Heeded k held)
    (hs : received k <+: stream) : linesRead k <+: LineBuffer.lines stream := by
  obtain ⟨coming, rfl⟩ := hs
  rw [h.bytes, List.append_assoc, lines_flatten_append h.lines]
  exact List.prefix_append _ _

theorem wanted_eq (raws : List Bytes) :
    wanted raws =
      (raws.filter Line.Matters).map fun raw => Line.rtrim (Utf8.decodeLossy raw) := by
  rw [wanted, List.filter_map]
  refine congrArg _ (List.filter_congr fun raw _ => ?_)
  rw [Function.comp_apply, decide_eq_decide]
  exact Line.matters_iff.symm

namespace Client

/-- What comes of the calls of a sink that sends each line on as a datagram. -/
def datagrams (sink : Nat) (target : String) (es : Trace) : List (Option Bytes × List Notice) :=
  (Trace.delivered es).filterMap fun call =>
    if call.1 = sink then some (Datagram.forward true target call.2) else none

theorem datagrams_of_delivered {sink : Nat} {target : String} {es : Trace} {lines : List String}
    (h : Trace.delivered es = lines.map (sink, ·)) :
    datagrams sink target es = lines.map (Datagram.forward true target) := by
  rw [datagrams, h, List.filterMap_map]
  simp

theorem datagrams_of_wanted {sink : Nat} (target : String) {es : Trace} {raws : List Bytes}
    (h : Trace.delivered es = (wanted raws).map (sink, ·))
    (hl : ∀ raw ∈ raws, raw.length ≤ maxLineLength) :
    datagrams sink target es =
      (raws.filter Line.Matters).map fun raw => (some (Utf8.repaired (Line.trimmed raw)), []) := by
  rw [datagrams_of_delivered h, wanted_eq, List.map_map]
  refine List.map_congr_left fun raw hraw => ?_
  rw [Function.comp_apply, Datagram.forward_of_length_le target (hl raw (List.mem_filter.1 hraw).1)]

section
variable {c c' : Client} {s : Signal} {new : Trace} {sink : Nat} {raw : Bytes}

theorem Move.handed_of_lineRead (hm : Move c s c' new) (hk : c.WellKept)
    (hc : c.shared.connected = true) (hr : Event.lineRead raw ∈ new) :
    Trace.handed new = wanted [raw] := by
  have hl : c.linkUp = true := (linkUp_eq_connected hk).trans hc
  cases hm <;> simp at hr
  · next hw hp hs =>
    rw [linkUp_of_attempt hk hw (by rw [hp]; rfl)] at hl
    cases hl
  · next hw hp hs =>
    rw [linkUp_of_attempt hk hw (by rw [hp]; rfl)] at hl
    cases hl
  · subst hr
    simpa [Trace.handed] using handed_deliveries c raw

/-- Nothing is passed on without a line being read on a link. -/
theorem Move.lineRead_of_handed (hm : Move c s c' new) (hk : c.WellKept)
    (hh : Trace.handed new ≠ []) :
    c.shared.connected = true ∧ ∃ raw, Event.lineRead raw ∈ new := by
  cases hm with
  | @heard _ _ _ _ raw _ hw hp hl =>
    rw [← linkUp_eq_connected hk]
    exact ⟨linkUp_polling hk hw hp, raw, by simp⟩
  | @ended w => cases hl : w.link <;> simp [hl, Trace.handed] at hh
  | @abandoned _ opened => cases opened <;> simp [Trace.handed] at hh
  | awaited | polled | greeted | established | ungreeted | readFailed | loginSent | frameSent =>
    simp [Trace.handed] at hh
  | _ => exact absurd rfl hh

/-- Each line that is passed on goes to the sink, if it is there while the client is connected. -/
theorem delivered_of_sink (hk : c.WellKept)
    (hs : c.shared.connected = true → c.shared.sink = some sink) (s : Signal) :
    Trace.delivered (c.step s).2 = (Trace.handed (c.step s).2).map (sink, ·) := by
  have hm := c.step_makes s
  rw [← delivered_quiet, ← handed_quiet, hm.delivered]
  by_cases hh : Trace.handed (quiet (c.step s).2) = []
  · rw [hh]
    rfl
  · rw [hs (hm.lineRead_of_handed hk hh).1]
    exact (List.map_eq_flatMap ..).symm

theorem datagrams_of_lineRead (target : String) (hk : c.WellKept) (hc : c.shared.connected = true)
    (hs : c.shared.sink = some sink) (hr : Event.lineRead raw ∈ (c.step s).2)
    (hl : raw.length ≤ maxLineLength) :
    datagrams sink target (c.step s).2 =
      if Line.Matters raw then [(some (Utf8.repaired (Line.trimmed raw)), [])] else [] := by
  have hhanded := (c.step_makes s).handed_of_lineRead hk hc ((mem_quiet_iff rfl).2 hr)
  rw [handed_quiet] at hhanded
  have hdelivered := delivered_of_sink hk (fun _ => hs) s
  rw [hhanded] at hdelivered
  rw [datagrams_of_wanted target hdelivered (by simpa using hl)]
  by_cases hm : Line.Matters raw <;> simp [hm]

theorem datagrams_of_no_line (sink : Nat) (target : String) (hk : c.WellKept)
    (hr : ∀ raw, Event.lineRead raw ∉ (c.step s).2) : datagrams sink target (c.step s).2 = [] := by
  have hm := c.step_makes s
  have hnone : Trace.handed (quiet (c.step s).2) = [] := by
    by_contra hh
    obtain ⟨-, raw, hraw⟩ := hm.lineRead_of_handed hk hh
    exact hr raw ((mem_quiet_iff rfl).1 hraw)
  rw [datagrams, ← delivered_quiet, hm.delivered, hnone]
  rfl

end

section
variable (settings : Settings) (capacity : UInt64) {sink : Nat} {ss : List Signal}

theorem handed_on_connections (ss : List Signal) :
    Trace.handed ((initial settings capacity).run ss).2 =
      wanted ((connections ((initial settings capacity).run ss).2).reverse.flatMap fun k =>
        (linesRead k).drop 2) := by
  have hwithin := tracking_heeded.within _ (fun hm _ => hm.handed)
    (c := initial settings capacity) rfl rfl ss
  have hheeded := (tracking_heeded.run (c := initial settings capacity) rfl rfl ss).all
  have hwanted : ∀ ks : List Trace, (∀ k ∈ ks, ∃ held, Heeded k held) →
      ks.flatMap Trace.handed = wanted (ks.flatMap fun k => (linesRead k).drop 2) := by
    intro ks hks
    induction ks with
    | nil => rfl
    | cons k ks ih =>
      obtain ⟨⟨held, h⟩, hks⟩ := List.forall_mem_cons.1 hks
      rw [List.flatMap_cons, List.flatMap_cons, wanted_append, ih hks, h.handed]
  exact ((handed_quiet _).symm.trans hwithin).trans
    (hwanted _ fun k hk => hheeded k (List.mem_reverse.1 hk))

theorem delivered_of_same_sink
    (h : ∀ before, before <+: ss →
      ((initial settings capacity).run before).1.shared.connected = true →
      ((initial settings capacity).run before).1.shared.sink = some sink) :
    Trace.delivered ((initial settings capacity).run ss).2 =
      (Trace.handed ((initial settings capacity).run ss).2).map (sink, ·) := by
  induction ss using List.reverseRecOn with
  | nil => rfl
  | append_singleton ss s ih =>
    have hbefore := ih fun before hp => h before (hp.trans (List.prefix_append ..))
    have hstep := delivered_of_sink (run_wellKept settings capacity ss)
      (h ss (List.prefix_append ..)) s
    rw [run_concat, delivered_append, hbefore, hstep, handed_append, List.map_append]

end

structure Forwarded (sink : Nat) (target : String) (start : Client) (ss : List Signal) : Prop where
  attends : Attends start ss (start.run ss).1 (start.run ss).2
  /-- The lines of a connection are the first of those that the server sent. -/
  lines : ∀ k ∈ connections (start.run ss).2, ∀ stream, received k <+: stream →
    linesRead k <+: LineBuffer.lines stream
  /-- A line that is read while the sink is there leads to a datagram, unless it does not matter. -/
  line : ∀ s raw, (start.run ss).1.shared.connected = true →
    (start.run ss).1.shared.sink = some sink → Event.lineRead raw ∈ ((start.run ss).1.step s).2 →
    raw.length ≤ maxLineLength →
    datagrams sink target ((start.run ss).1.step s).2 =
      if Line.Matters raw then [(some (Utf8.repaired (Line.trimmed raw)), [])] else []
  /-- Nothing else does. -/
  nothing : ∀ s, (∀ raw, Event.lineRead raw ∉ ((start.run ss).1.step s).2) →
    datagrams sink target ((start.run ss).1.step s).2 = []
  inOrder :
    (∀ before, before <+: ss → (start.run before).1.shared.connected = true →
      (start.run before).1.shared.sink = some sink) →
    (∀ k ∈ connections (start.run ss).2, ∀ raw ∈ linesRead k, raw.length ≤ maxLineLength) →
    datagrams sink target (start.run ss).2 =
      (((connections (start.run ss).2).reverse.flatMap fun k => (linesRead k).drop 2).filter
        Line.Matters).map fun raw => (some (Utf8.repaired (Line.trimmed raw)), [])
  payload : ∀ raw, Utf8.Carries (Line.trimmed raw) (Utf8.repaired (Line.trimmed raw))

theorem lines_forwarded_repaired (settings : Settings) (capacity : UInt64) (sink : Nat)
    (target : String) (ss : List Signal) :
    Forwarded sink target (initial settings capacity) ss := by
  have hk := run_wellKept settings capacity ss
  have hheeded := (tracking_heeded.run (c := initial settings capacity) rfl rfl ss).all
  have hlines : ∀ k ∈ connections ((initial settings capacity).run ss).2, ∀ stream,
      received k <+: stream → linesRead k <+: LineBuffer.lines stream := by
    intro k hmem stream hs
    obtain ⟨held, hh⟩ := hheeded k hmem
    exact hh.prefix_lines hs
  refine ⟨attends_run settings capacity ss, hlines, fun s raw => datagrams_of_lineRead target hk,
    fun s => datagrams_of_no_line _ _ hk, fun hsink hlength => ?_,
    fun raw => Utf8.carries_repaired (Line.trimmed raw)⟩
  have hdelivered := delivered_of_same_sink settings capacity hsink
  rw [handed_on_connections] at hdelivered
  refine datagrams_of_wanted target hdelivered fun raw hraw => ?_
  obtain ⟨k, hk, hread⟩ := List.mem_flatMap.1 hraw
  exact hlength k (List.mem_reverse.1 hk) raw (List.mem_of_mem_drop hread)

/-- A login, and a sink. The client then waits for a line. -/
def listening : List Signal :=
  [.call .start, .call (.setSink 7), .turn, .connected, .received (Utf8.encode "# hi\r\n"), .took 100,
    .flushed, .received (Utf8.encode "# ok\r\n"), .turn]

def foreign : Bytes := [0x4e, 0xff, 0x0a]

/-- The datagram does not carry the bytes of this line up to the blanks at its end. -/
theorem foreign_byte_not_forwarded :
    ((initial trialSettings 2000).run listening).1.shared.connected = true ∧
      ((initial trialSettings 2000).run listening).1.shared.sink = some 7 ∧
      Event.lineRead foreign ∈
        (((initial trialSettings 2000).run listening).1.step (.received foreign)).2 ∧
      Line.Matters foreign ∧ foreign.length ≤ maxLineLength ∧
      Line.trimmed foreign = [0x4e, 0xff] ∧
      datagrams 7 "127.0.0.1:8674"
        (((initial trialSettings 2000).run listening).1.step (.received foreign)).2 =
          [(some [0x4e, 0xef, 0xbf, 0xbd], [])] := by
  decide +kernel

end Client

end IGate
