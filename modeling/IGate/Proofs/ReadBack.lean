import IGate.Proofs.Deadline
import IGate.Proofs.Line
import IGate.Proofs.Utf8.Lossy
import IGate.Proofs.Writing

/-! Lines that are written on one stream and read on another. However few bytes each write takes,
and however they are cut and timed on their way, the texts come back in order, each with its
terminator. -/

namespace IGate

open LineBuffer

namespace Outlet

variable {σ : Type}

/-- Every write takes something, and nothing fails. -/
structure Obliging (o : Outlet σ) : Prop where
  take : ∀ s {data}, data ≠ [] → ∃ n, (o.take s data).1 = .ok (n + 1)
  flush : ∀ s, (o.flush s).1 = .ok ()

/-- An outlet whose writes take one byte more than it is told each time, if there are so many. -/
def rationed : Outlet (Stream' ℕ) where
  take counts data := (.ok (min (counts.head + 1) data.length), counts.tail)
  flush counts := (.ok (), counts)
  shutdown counts := counts

theorem rationed_obliging : rationed.Obliging where
  take counts data hd := by
    have hpos := List.length_pos_iff.2 hd
    exact ⟨min (counts.head + 1) data.length - 1, congrArg Except.ok (by omega)⟩
  flush _ := rfl

theorem Obliging.course {o : Outlet σ} (h : o.Obliging) {s : σ} {data : Bytes}
    {record : List Request} {result : Except IoError Unit} (hc : Course o s data record result) :
    result = .ok () := by
  induction hc with
  | flushed hf => rw [← hf, h.flush]
  | @failed s _ _ hd ht | @tookNothing s _ hd ht =>
    obtain ⟨n, htook⟩ := h.take s hd
    cases htook.symm.trans ht
  | took _ _ _ ih => exact ih

end Outlet

structure Sendable (text : String) : Prop where
  noFeed : '\n' ∉ text.toList
  fits : (Utf8.encode text).length ≤ maxLineLength - 2

namespace Sendable

variable {text : String}

theorem isLine (h : Sendable text) : IsLine (Outlet.lineBytes text) := by
  refine ⟨Utf8.encode text ++ [0x0d], ?_, ?_⟩
  · have hcount : (Utf8.encode text).count lineFeed = 0 := by
      rw [Utf8.count_lineFeed_encode, Text.lineFeeds, List.count_eq_zero]
      exact h.noFeed
    rw [List.mem_append, not_or]
    exact ⟨List.count_eq_zero.1 hcount, by decide⟩
  · rw [Outlet.lineBytes, Utf8.encode_append, List.append_assoc]
    rfl

theorem length_le (h : Sendable text) :
    (Outlet.lineBytes text).length ≤ maxLineLength := by
  have hfits := h.fits
  have hterminator : (Utf8.encode Line.terminator).length = 2 := rfl
  rw [Outlet.lineBytes, Utf8.encode_append, List.length_append, hterminator]
  unfold maxLineLength at *
  omega

end Sendable

theorem ofLine_lineBytes (text : String) :
    Reading.ofLine (Outlet.lineBytes text) = .line (text ++ Line.terminator) := by
  rw [Reading.ofLine, Outlet.lineBytes, Utf8.decodeLossy_encode]

namespace Inflow

theorem telling_flatten {ls chunks : List Bytes} (hl : ∀ raw ∈ ls, IsLine raw)
    (hs : ∀ raw ∈ ls, raw.length ≤ maxLineLength) (hc : chunks.flatten = ls.flatten)
    (ending : Ending) : telling chunks ending = ls.map .ofLine ++ₛ ending.telling := by
  have hlines : lines ls.flatten = ls := by
    simpa [lines_of_not_mem] using lines_flatten_append hl []
  have hunfinished : unfinished ls.flatten = [] := by
    simpa [unfinished_of_not_mem] using unfinished_flatten_append hl []
  have hshort : ∀ raw ∈ ls, raw.length ≤ maxLineLength + 1 := fun raw hr =>
    Nat.le_succ_of_le (hs raw hr)
  rw [telling, tellFrom, hc, hlines, hunfinished, tell_short hshort]
  rfl

def recital (texts : List String) (ending : Ending) : Stream' Reading :=
  (texts.map fun text => .line (text ++ Line.terminator)) ++ₛ ending.telling

theorem telling_sendable {texts : List String} (h : ∀ text ∈ texts, Sendable text)
    {chunks : List Bytes} (hc : chunks.flatten = (texts.map Outlet.lineBytes).flatten)
    (ending : Ending) : telling chunks ending = recital texts ending := by
  have hlines : ∀ raw ∈ texts.map Outlet.lineBytes, IsLine raw ∧ raw.length ≤ maxLineLength :=
    List.forall_mem_map.2 fun text ht => ⟨(h text ht).isLine, (h text ht).length_le⟩
  rw [telling_flatten (fun raw hr => (hlines raw hr).1) (fun raw hr => (hlines raw hr).2) hc,
    List.map_map, recital]
  congr 2
  funext text
  exact ofLine_lineBytes text

theorem filterMap_telling (ending : Ending) (n : ℕ) :
    (ending.telling.take n).filterMap Reading.text? = [] := by
  have hget : ∀ n, (ending.telling.get n).text? = none := by
    intro n
    cases ending with
    | silent | finished => rfl
    | failed e => cases n <;> rfl
  induction n with
  | zero => rfl
  | succ n ih => rw [Stream'.take_succ', List.filterMap_append, ih]; simp [hget]

theorem filterMap_recital (texts : List String) (ending : Ending) (n : ℕ) :
    ((recital texts ending).take n).filterMap Reading.text? =
      (texts.take n).map (· ++ Line.terminator) := by
  induction texts generalizing n with
  | nil => simpa [recital] using filterMap_telling ending n
  | cons text texts ih =>
    cases n with
    | zero => rfl
    | succ n =>
      rw [List.take_succ_cons, List.map_cons, ← ih n]
      rfl

theorem get_recital {texts : List String} {n : ℕ} (h : n < texts.length) (ending : Ending) :
    (recital texts ending).get n = .line (texts[n] ++ Line.terminator) := by
  rw [recital, Stream'.get_append_left _ _ _ (by simpa using h), List.getElem_map]

theorem Reads.due_of_mem {limit : Duration} {i i' : Inflow} {r : Reading} (h : Reads limit i r i')
    {a : Duration × Arrival} (ha : a ∈ i'.coming) : ∃ b ∈ i.coming, b.1 = a.1 := by
  induction h with
  | line | overlong | silent | early | finished => exact ⟨a, ha, rfl⟩
  | failed _ hc | empty _ hc => exact ⟨a, by rw [hc]; exact List.mem_cons_of_mem _ ha, rfl⟩
  | @chunk i due bytes rest r i' _ hc _ _ ih =>
    obtain ⟨b, hb, hdue⟩ := ih ha
    rcases mem_of_mem_pull hc hb with rfl | hb
    · exact ⟨(due, .chunk bytes), by rw [hc]; exact List.mem_cons_self, hdue⟩
    · exact ⟨b, hb, hdue⟩

end Inflow

namespace LineStream

variable {σ τ : Type}

open Outlet

/-- Lines written one after the other: what each call tells, and all the bytes. -/
def writeLines (o : Outlet σ) : LineStream σ → List String → List (Except IoError Unit) × Bytes
  | _, [] => ([], [])
  | s, text :: texts =>
    let (result, wire, s) := s.writeLine o text
    let rest := writeLines o s texts
    (result :: rest.1, wire ++ rest.2)

theorem writeLines_obliging {o : Outlet σ} (h : o.Obliging) (s : LineStream σ)
    (texts : List String) : ∀ r ∈ (s.writeLines o texts).1, r = .ok () := by
  induction texts generalizing s with
  | nil => exact nofun
  | cons text texts ih =>
    have hcourse := (course_asked o s.outlet (lineBytes text)).2.2
    exact List.forall_mem_cons.2 ⟨h.course hcourse, ih _⟩

theorem wire_writeLines {o : Outlet σ} {s : LineStream σ} {texts : List String}
    (h : ∀ r ∈ (s.writeLines o texts).1, r = .ok ()) :
    (s.writeLines o texts).2 = (texts.map Outlet.lineBytes).flatten := by
  induction texts generalizing s with
  | nil => rfl
  | cons text texts ih =>
    obtain ⟨hfirst, hrest⟩ := List.forall_mem_cons.1 h
    have htruly := writeFrame_truthful o s (Outlet.lineBytes text)
    rw [List.map_cons, List.flatten_cons, ← (htruly.ok_iff.1 hfirst).1, ← htruly.wire, ← ih hrest]
    rfl

namespace Usage

theorem texts_eq_filterMap_told (u : Usage σ) : u.texts = u.told.filterMap Reading.text? := by
  rw [texts, told, Inflow.told, List.filterMap_filter, List.filterMap_map]
  refine List.filterMap_congr fun a _ => ?_
  rw [Function.comp_apply]
  cases a.1 <;> rfl

/-- Of `texts` the first were read so far, in order and each with its terminator, and nothing
else. -/
structure ReadsBack (o : Outlet τ) (texts : List String) (ending : Inflow.Ending) (u : Usage τ) :
    Prop where
  told : u.told = (Inflow.recital texts ending).take u.told.length
  read : u.texts = (texts.take u.told.length).map (· ++ Line.terminator)
  trimmed : u.texts.map Line.rtrim = (texts.take u.told.length).map Line.rtrim
  next : ∀ timeout, (∀ a ∈ u.coming, a.1 ≤ u.now + timeout) →
    (u.stream.readLine u.now timeout).1 = (Inflow.recital texts ending).get u.told.length
  /-- As many waits as there are texts are enough, if each is long enough for everything to come. -/
  complete : ∀ timeouts : List Duration,
    (∀ timeout ∈ timeouts, ∀ a ∈ u.coming, a.1 ≤ u.now + timeout) →
    texts.length ≤ timeouts.length →
    (u.run o (timeouts.map .readLine)).texts = texts.map (· ++ Line.terminator)

/-- What was told and what is still to be told are the lines that `texts` make. -/
def Recites (ends : ℕ → Bool) (texts : List String) (ending : Inflow.Ending) (u : Usage τ) : Prop :=
  Inflow.Along ends (Inflow.recital texts ending) u.told u.stream.inflow

namespace Recites

variable {ends : ℕ → Bool} {texts : List String} {ending : Inflow.Ending} {u : Usage τ}
  {o : Outlet τ} {timeout : Duration}

theorem use (h : u.Recites ends texts ending) (a : Use) : (u.use o a).Recites ends texts ending :=
  along_use h a

theorem run (h : u.Recites ends texts ending) (uses : List Use) :
    (u.run o uses).Recites ends texts ending :=
  run_keeps (P := Recites ends texts ending) (fun _ a h => h.use a) h uses

theorem texts_eq (h : u.Recites ends texts ending) :
    u.texts = (texts.take u.told.length).map (· ++ Line.terminator) := by
  rw [texts_eq_filterMap_told]
  conv_lhs => rw [h.told_prefix]
  exact Inflow.filterMap_recital texts ending _

theorem next (h : u.Recites ends texts ending) (hd : ∀ a ∈ u.coming, a.1 ≤ u.now + timeout) :
    (u.stream.readLine u.now timeout).1 = (Inflow.recital texts ending).get u.told.length :=
  (readLine_reads u.stream u.now timeout).next h fun a ha => (hd a ha).trans (le_max_right _ _)

/-- A wait that is long enough gets one text further, if there is one. -/
theorem told_length_readLine (h : u.Recites ends texts ending)
    (hd : ∀ a ∈ u.coming, a.1 ≤ u.now + timeout) :
    min (u.told.length + 1) texts.length ≤ (u.use o (.readLine timeout)).told.length := by
  have htold : (u.use o (.readLine timeout)).told =
      u.told ++ Inflow.told [(u.stream.readLine u.now timeout).1] := by
    rw [Usage.told, Usage.use, List.map_append, Inflow.told_append]
    rfl
  rw [htold, List.length_append]
  rcases Nat.lt_or_ge u.told.length texts.length with hlt | hge
  · rw [h.next hd, Inflow.get_recital hlt]
    exact min_le_left _ _
  · omega

theorem told_length_waits (h : u.Recites ends texts ending) (timeouts : List Duration)
    (hd : ∀ timeout ∈ timeouts, ∀ a ∈ u.coming, a.1 ≤ u.now + timeout) :
    min (u.told.length + timeouts.length) texts.length ≤
      (u.run o (timeouts.map .readLine)).told.length := by
  induction timeouts generalizing u with
  | nil => exact min_le_left _ _
  | cons timeout timeouts ih =>
    rw [List.forall_mem_cons] at hd
    have hone := h.told_length_readLine (o := o) hd.1
    -- the later waits are long enough for what is then to come
    have hlater : ∀ t ∈ timeouts, ∀ a ∈ (u.use o (.readLine timeout)).coming,
        a.1 ≤ (u.use o (.readLine timeout)).now + t := by
      intro t ht a ha
      obtain ⟨b, hb, hdue⟩ := (readLine_reads u.stream u.now timeout).due_of_mem ha
      have hnow := (Inflow.readUntil_within (u.now + timeout) u.now u.stream.inflow).1
      exact hdue ▸ (hd.2 t ht b hb).trans (Nat.add_le_add_right hnow t)
    have hrest := ih (h.use (.readLine timeout)) hlater
    rw [List.map_cons, List.length_cons]
    refine le_trans ?_ hrest
    omega

theorem readsBack (h : u.Recites ends texts ending) : ReadsBack o texts ending u := by
  refine ⟨h.told_prefix, h.texts_eq, ?_, fun timeout => h.next, fun timeouts hd hlen => ?_⟩
  · rw [h.texts_eq, List.map_map]
    congr 1
    funext text
    exact Line.rtrim_append Line.filler_terminator text
  · have hall := h.told_length_waits (o := o) timeouts hd
    rw [(h.run (timeouts.map .readLine)).texts_eq, List.take_of_length_le (by omega)]

end Recites

end Usage

open Usage

structure Conveyed (o : Outlet σ) (s : LineStream σ) (texts : List String) : Prop where
  written : o.Obliging → ∀ r ∈ (s.writeLines o texts).1, r = .ok ()
  readBack : (∀ r ∈ (s.writeLines o texts).1, r = .ok ()) →
    ∀ {τ : Type} (o' : Outlet τ) (outlet : τ) (chunks : List (Duration × Bytes))
      (ending : Inflow.Ending) (due : Duration) (uses : List Use),
      (∀ c ∈ chunks, c.2 ≠ []) → chunks.flatMap Prod.snd = (s.writeLines o texts).2 →
      ReadsBack o' texts ending
        ((initial (Inflow.cutting chunks ending due) outlet).run o' uses)

/-- Whatever each write takes, however the bytes are cut and timed, and whatever else is done with
the stream on which they arrive. -/
theorem lines_conveyed (o : Outlet σ) (s : LineStream σ) {texts : List String}
    (h : ∀ text ∈ texts, Sendable text) : Conveyed o s texts where
  written ho := writeLines_obliging ho s texts
  readBack hok τ o' outlet chunks ending due uses hne hchunks := by
    have hflat : (chunks.map Prod.snd).flatten = (texts.map Outlet.lineBytes).flatten := by
      rw [← List.flatMap_def, hchunks, wire_writeLines hok]
    have hrun := along_run o' hne ending due outlet uses
    rw [Inflow.telling_sendable h hflat] at hrun
    exact Recites.readsBack hrun

/-- No text, and one that ends in a carriage return and whose first character is two bytes. -/
def twoTexts : List String := ["", "å \r"]

def twoTextsCut : List (Duration × Bytes) := [(3, [13]), (5, [10, 195]), (5, [165, 32, 13, 13, 10])]

theorem twoTexts_conveyed :
    (∀ text ∈ twoTexts, Sendable text) ∧
      ReadsBack Throttle.outlet twoTexts .finished
        ((initial (Inflow.cutting twoTextsCut .finished 9) Throttle.unhindered).run
          Throttle.outlet [.readLine 4]) := by
  have hsendable : ∀ text ∈ twoTexts, Sendable text := by
    rw [twoTexts, List.forall_mem_cons, List.forall_mem_singleton]
    exact ⟨⟨by decide +kernel, by decide +kernel⟩, ⟨by decide +kernel, by decide +kernel⟩⟩
  have hconveyed := lines_conveyed Outlet.rationed ⟨Inflow.empty, .const 0⟩ hsendable
  have hwritten := hconveyed.written Outlet.rationed_obliging
  have hcut : twoTextsCut.flatMap Prod.snd = (twoTexts.map Outlet.lineBytes).flatten := by
    decide +kernel
  exact ⟨hsendable, hconveyed.readBack hwritten Throttle.outlet Throttle.unhindered twoTextsCut
    .finished 9 [.readLine 4] (by decide) (hcut.trans (wire_writeLines hwritten).symm)⟩

end LineStream

end IGate
