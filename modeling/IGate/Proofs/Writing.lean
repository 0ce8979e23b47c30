import IGate.Proofs.Buffering
import IGate.Proofs.Text

/-! What a write puts on the wire and what it tells of that. An outlet is asked for one write after
the other, each of all that is left, and when nothing is left for a flush. The first of them that
breaks off ends the call. What is read is not touched by any of this. -/

namespace IGate

/-- What an outlet is asked for, and what it answers. -/
inductive Request where
  | write (offered : Bytes) (answer : Except IoError Nat)
  | flush (answer : Except IoError Unit)
  | shutdown

/-- A write with which a call breaks off, and what the call tells of it. -/
inductive Request.Breaks : Request → IoError → Prop
  | failed (offered e) : Breaks (.write offered (.error e)) e
  | tookNothing (offered) : Breaks (.write offered (.ok 0)) (.ofKind .writeZero)

namespace Outlet

variable {σ : Type}

/-- The outlet, with a record of what it was asked for. -/
def recording (o : Outlet σ) : Outlet (σ × List Request) where
  take s data :=
    ((o.take s.1 data).1, (o.take s.1 data).2, s.2 ++ [.write data (o.take s.1 data).1])
  flush s := ((o.flush s.1).1, (o.flush s.1).2, s.2 ++ [.flush (o.flush s.1).1])
  shutdown s := (o.shutdown s.1, s.2 ++ [.shutdown])

def asked (o : Outlet σ) (s : σ) (data : Bytes) : List Request :=
  (o.recording.writeFrame (s, []) data).outlet.2

def taken (record : List Request) : Bytes :=
  record.flatMap fun | .write offered (.ok n) => offered.take n | _ => []

@[simp] theorem taken_nil : taken [] = [] := rfl
@[simp] theorem taken_append (record more : List Request) :
    taken (record ++ more) = taken record ++ taken more := List.flatMap_append
@[simp] theorem taken_took (offered : Bytes) (n : ℕ) (record : List Request) :
    taken (.write offered (.ok n) :: record) = offered.take n ++ taken record := rfl
@[simp] theorem taken_flush (answer : Except IoError Unit) (record : List Request) :
    taken (.flush answer :: record) = taken record := rfl

theorem taken_of_breaks {r : Request} {e : IoError} (h : r.Breaks e) : taken [r] = [] := by
  cases h with
  | failed | tookNothing => rfl

/-! One request of a call -/

section
variable (o : Outlet σ) (s : σ) {data : Bytes}

theorem writeFrame_nil :
    o.writeFrame s [] = ⟨(o.flush s).1, [], (o.flush s).2⟩ := by
  simp [writeFrame, writeAll]

theorem writeFrame_failed (hd : data ≠ []) {e : IoError} (ht : (o.take s data).1 = .error e) :
    o.writeFrame s data = ⟨.error e, [], (o.take s data).2⟩ := by
  obtain ⟨b, bs, rfl⟩ := List.exists_cons_of_ne_nil hd
  have hall : o.writeAll s (b :: bs) = ⟨.error e, [], (o.take s (b :: bs)).2⟩ := by
    rw [writeAll]
    split <;> simp_all
  rw [writeFrame, hall]

theorem writeFrame_tookNothing (hd : data ≠ []) (ht : (o.take s data).1 = .ok 0) :
    o.writeFrame s data = ⟨.error (.ofKind .writeZero), [], (o.take s data).2⟩ := by
  obtain ⟨b, bs, rfl⟩ := List.exists_cons_of_ne_nil hd
  have hall : o.writeAll s (b :: bs) =
      ⟨.error (.ofKind .writeZero), [], (o.take s (b :: bs)).2⟩ := by
    rw [writeAll]
    split <;> simp_all
  rw [writeFrame, hall]

theorem writeFrame_took (hd : data ≠ []) {n : ℕ} (ht : (o.take s data).1 = .ok (n + 1)) :
    o.writeFrame s data =
      ⟨(o.writeFrame (o.take s data).2 (data.drop (n + 1))).result,
        data.take (n + 1) ++ (o.writeFrame (o.take s data).2 (data.drop (n + 1))).wire,
        (o.writeFrame (o.take s data).2 (data.drop (n + 1))).outlet⟩ := by
  obtain ⟨b, bs, rfl⟩ := List.exists_cons_of_ne_nil hd
  have hall : o.writeAll s (b :: bs) =
      ⟨(o.writeAll (o.take s (b :: bs)).2 (bs.drop n)).result,
        b :: bs.take n ++ (o.writeAll (o.take s (b :: bs)).2 (bs.drop n)).wire,
        (o.writeAll (o.take s (b :: bs)).2 (bs.drop n)).outlet⟩ := by
    rw [writeAll]
    split <;> simp_all
  rw [writeFrame, hall, List.drop_succ_cons, List.take_succ_cons, writeFrame]
  dsimp only
  split <;> simp_all

end

/-! The course of a call -/

/-- How a call goes that writes `data`: what is asked for and answered, and what is told in the
end. -/
inductive Course (o : Outlet σ) : σ → Bytes → List Request → Except IoError Unit → Prop
  | flushed {s answer} (hf : (o.flush s).1 = answer) : Course o s [] [.flush answer] answer
  | failed {s data e} (hd : data ≠ []) (ht : (o.take s data).1 = .error e) :
    Course o s data [.write data (.error e)] (.error e)
  | tookNothing {s data} (hd : data ≠ []) (ht : (o.take s data).1 = .ok 0) :
    Course o s data [.write data (.ok 0)] (.error (.ofKind .writeZero))
  | took {s data n record result} (hd : data ≠ []) (ht : (o.take s data).1 = .ok (n + 1))
    (h : Course o (o.take s data).2 (data.drop (n + 1)) record result) :
    Course o s data (.write data (.ok (n + 1)) :: record) result

/-- A call takes its course, and it makes no difference to it that a record is kept. -/
theorem exists_course (o : Outlet σ) (s : σ) (before : List Request) (data : Bytes) :
    ∃ record, o.recording.writeFrame (s, before) data =
        ⟨(o.writeFrame s data).result, (o.writeFrame s data).wire,
          ((o.writeFrame s data).outlet, before ++ record)⟩ ∧
      (o.writeFrame s data).wire = taken record ∧
      Course o s data record (o.writeFrame s data).result := by
  induction hlen : data.length using Nat.strong_induction_on generalizing s before data with
  | _ len ih =>
    subst hlen
    by_cases hd : data = []
    · subst hd
      rw [writeFrame_nil, writeFrame_nil]
      exact ⟨[.flush (o.flush s).1], rfl, rfl, .flushed rfl⟩
    · rcases ht : (o.take s data).1 with e | n
      · have ht' : (o.recording.take (s, before) data).1 = .error e := ht
        rw [writeFrame_failed o s hd ht, writeFrame_failed o.recording (s, before) hd ht']
        exact ⟨[.write data (.error e)], by simp [recording, ht], rfl, .failed hd ht⟩
      · have ht' : (o.recording.take (s, before) data).1 = .ok n := ht
        cases n with
        | zero =>
          rw [writeFrame_tookNothing o s hd ht,
            writeFrame_tookNothing o.recording (s, before) hd ht']
          exact ⟨[.write data (.ok 0)], by simp [recording, ht], rfl, .tookNothing hd ht⟩
        | succ n =>
          have hshort : (data.drop (n + 1)).length < data.length := by
            have := List.length_pos_iff.2 hd
            rw [List.length_drop]
            omega
          obtain ⟨record, hrecord, hwire, hcourse⟩ := ih _ hshort (o.take s data).2
            (before ++ [.write data (.ok (n + 1))]) (data.drop (n + 1)) rfl
          have hnext : (o.recording.take (s, before) data).2 =
              ((o.take s data).2, before ++ [.write data (.ok (n + 1))]) := by
            simp [recording, ht]
          rw [writeFrame_took o s hd ht, writeFrame_took o.recording (s, before) hd ht']
          exact ⟨.write data (.ok (n + 1)) :: record, by simp [hnext, hrecord], by simp [hwire],
            .took hd ht hcourse⟩

theorem course_asked (o : Outlet σ) (s : σ) (data : Bytes) :
    o.recording.writeFrame (s, []) data =
        ⟨(o.writeFrame s data).result, (o.writeFrame s data).wire,
          ((o.writeFrame s data).outlet, o.asked s data)⟩ ∧
      (o.writeFrame s data).wire = taken (o.asked s data) ∧
      Course o s data (o.asked s data) (o.writeFrame s data).result := by
  obtain ⟨record, hrecord, hwire, hcourse⟩ := exists_course o s [] data
  rw [asked, hrecord]
  exact ⟨rfl, hwire, hcourse⟩

namespace Course

variable {o : Outlet σ} {s : σ} {data offered : Bytes} {record before after : List Request}
  {r : Request} {result : Except IoError Unit}

/-- Where a call goes on after a request, it goes as one that writes what was not taken. -/
theorem next (h : Course o s data (r :: record) result) (hr : record ≠ []) :
    ∃ s' rest, taken [r] ++ rest = data ∧ Course o s' rest record result := by
  cases h with
  | flushed | failed | tookNothing => exact absurd rfl hr
  | took _ _ h => exact ⟨_, _, by simp, h⟩

theorem split (h : Course o s data record result) (hr : record = before ++ r :: after) :
    ∃ s' rest, taken before ++ rest = data ∧ Course o s' rest (r :: after) result := by
  subst hr
  induction before generalizing s data with
  | nil => exact ⟨s, data, rfl, h⟩
  | cons x before ih =>
    obtain ⟨s', rest, hx, hnext⟩ := h.next (by simp)
    obtain ⟨s'', left, hleft, hcourse⟩ := ih hnext
    refine ⟨s'', left, ?_, hcourse⟩
    rw [← hx, ← hleft, ← List.append_assoc, ← taken_append]
    rfl

theorem offers {answer : Except IoError ℕ} (h : Course o s data record result)
    (hr : record = before ++ .write offered answer :: after) :
    offered ≠ [] ∧ taken before ++ offered = data := by
  obtain ⟨s', rest, hrest, hcourse⟩ := h.split hr
  cases hcourse with
  | failed hd | tookNothing hd | took hd => exact ⟨hd, hrest⟩

theorem flush {answer : Except IoError Unit} (h : Course o s data record result)
    (hr : record = before ++ .flush answer :: after) :
    taken before = data ∧ after = [] ∧ result = answer := by
  obtain ⟨s', rest, hrest, hcourse⟩ := h.split hr
  cases hcourse with
  | flushed => exact ⟨by rwa [List.append_nil] at hrest, rfl, rfl⟩

theorem breaks {e : IoError} (h : Course o s data record result)
    (hr : record = before ++ r :: after) (he : r.Breaks e) : after = [] ∧ result = .error e := by
  obtain ⟨s', rest, -, hcourse⟩ := h.split hr
  cases he with
  | failed | tookNothing =>
    cases hcourse
    exact ⟨rfl, rfl⟩

theorem ends (h : Course o s data record result) :
    ∃ before r, record = before ++ [r] ∧
      (r = .flush result ∨ ∃ e, r.Breaks e ∧ result = .error e) := by
  induction h with
  | flushed => exact ⟨[], _, rfl, .inl rfl⟩
  | failed => exact ⟨[], _, rfl, .inr ⟨_, .failed _ _, rfl⟩⟩
  | tookNothing => exact ⟨[], _, rfl, .inr ⟨_, .tookNothing _, rfl⟩⟩
  | took _ _ _ ih =>
    obtain ⟨before, r, rfl, hr⟩ := ih
    exact ⟨_ :: before, r, rfl, hr⟩

theorem taken_prefix (h : Course o s data record result) : taken record <+: data := by
  induction h with
  | flushed | failed | tookNothing => exact List.nil_prefix
  | @took s data n record result _ _ _ ih =>
    have hwhole := (List.prefix_append_right_inj (data.take (n + 1))).2 ih
    rwa [List.take_append_drop] at hwhole

theorem ok_iff (h : Course o s data record result) :
    result = .ok () ↔ taken record = data ∧ .flush (.ok ()) ∈ record := by
  constructor
  · rintro rfl
    obtain ⟨before, r, hr, hlast | ⟨e, -, he⟩⟩ := h.ends
    · subst hlast
      obtain ⟨htaken, -, -⟩ := h.flush hr
      simp [hr, htaken]
    · cases he
  · rintro ⟨-, hmem⟩
    obtain ⟨before, after, hr⟩ := List.append_of_mem hmem
    exact (h.flush hr).2.2

theorem not_flush_of_breaks {e : IoError} (h : Course o s data record result)
    (hr : record = before ++ r :: after) (he : r.Breaks e) (answer : Except IoError Unit) :
    .flush answer ∉ record := by
  intro hmem
  obtain ⟨before', after', hr'⟩ := List.append_of_mem hmem
  obtain ⟨-, rfl, -⟩ := h.flush hr'
  obtain ⟨rfl, -⟩ := h.breaks hr he
  -- the last request would be a flush and would break off
  obtain ⟨-, hlast⟩ := List.append_inj' (hr.symm.trans hr') rfl
  cases hlast
  cases he

end Course

end Outlet

namespace LineStream

variable {σ : Type}

open Outlet

/-- What is known of a call that writes `data`, from the record of what the outlet was asked for. -/
structure Truthful (o : Outlet σ) (s : LineStream σ) (data : Bytes) : Prop where
  /-- It makes no difference that a record is kept. -/
  recorded : o.recording.writeFrame (s.outlet, []) data =
    ⟨(s.writeFrame o data).1, (s.writeFrame o data).2.1,
      ((s.writeFrame o data).2.2.outlet, o.asked s.outlet data)⟩
  wire : (s.writeFrame o data).2.1 = taken (o.asked s.outlet data)
  inOrder : taken (o.asked s.outlet data) <+: data
  offers : ∀ before offered answer after,
    o.asked s.outlet data = before ++ .write offered answer :: after →
    offered ≠ [] ∧ taken before ++ offered = data
  ok_iff : (s.writeFrame o data).1 = .ok () ↔
    taken (o.asked s.outlet data) = data ∧ .flush (.ok ()) ∈ o.asked s.outlet data
  /-- Nothing is asked for after a write with which the call breaks off. -/
  breaks : ∀ before r after e, o.asked s.outlet data = before ++ r :: after → r.Breaks e →
    (s.writeFrame o data).1 = .error e ∧ after = [] ∧
      (s.writeFrame o data).2.1 = taken before ∧
      ∀ answer, .flush answer ∉ o.asked s.outlet data
  flush : ∀ before answer after, o.asked s.outlet data = before ++ .flush answer :: after →
    (s.writeFrame o data).1 = answer ∧ after = [] ∧ taken before = data
  /-- A failure that is told is one of the last request. -/
  fails : ∀ e, (s.writeFrame o data).1 = .error e → ∃ before r,
    o.asked s.outlet data = before ++ [r] ∧ (r.Breaks e ∨ r = .flush (.error e))

theorem writeFrame_truthful (o : Outlet σ) (s : LineStream σ) (data : Bytes) :
    Truthful o s data := by
  obtain ⟨hrecorded, hwire, hcourse⟩ := course_asked o s.outlet data
  refine ⟨hrecorded, hwire, hcourse.taken_prefix, fun _ _ _ _ => hcourse.offers, hcourse.ok_iff,
    fun before r after e hr he => ?_, fun before answer after hr => ?_, fun e he => ?_⟩
  · obtain ⟨rfl, hresult⟩ := hcourse.breaks hr he
    refine ⟨hresult, rfl, ?_, hcourse.not_flush_of_breaks hr he⟩
    rw [writeFrame, hwire, hr, taken_append, taken_of_breaks he, List.append_nil]
  · obtain ⟨htaken, hafter, hresult⟩ := hcourse.flush hr
    exact ⟨hresult, hafter, htaken⟩
  · obtain ⟨before, r, hr, hflush | ⟨e', hbreaks, hresult⟩⟩ := hcourse.ends
    · exact ⟨before, r, hr, .inr (hflush.trans (congrArg _ he))⟩
    · cases he.symm.trans hresult
      exact ⟨before, r, hr, .inl hbreaks⟩

/-! What is read besides -/

def Handling.isWrite : Handling → Bool
  | .use (.writeLine _) | .use (.writeFrame _) => true
  | _ => false

namespace Usage

/-- The same was read, the same is held, and the same is still to be read. -/
structure ReadsAlike (u v : Usage σ) : Prop where
  inflow : u.stream.inflow = v.stream.inflow
  now : u.now = v.now
  readings : u.readings = v.readings

theorem ReadsAlike.write {o : Outlet σ} {u v : Usage σ} (h : ReadsAlike u v) {a : Handling}
    (ha : a.isWrite = true) : ReadsAlike (u.handle o a) v := by
  rcases a with (_ | _ | _ | _) | _
  case use.writeLine | use.writeFrame => exact ⟨h.inflow, h.now, h.readings⟩
  all_goals cases ha

theorem ReadsAlike.handle {o : Outlet σ} {u v : Usage σ} (h : ReadsAlike u v) (a : Handling) :
    ReadsAlike (u.handle o a) (v.handle o a) := by
  obtain ⟨hinflow, hnow, hreadings⟩ := h
  rcases a with (d | timeout | text | data) | _
  case use.elapse => exact ⟨hinflow, congrArg (· + d) hnow, hreadings⟩
  case use.readLine =>
    simp only [Usage.handle, use, LineStream.readLine, hinflow, hnow, hreadings]
    exact ⟨rfl, rfl, rfl⟩
  case use.writeLine | use.writeFrame => exact ⟨hinflow, hnow, hreadings⟩
  case close => exact ⟨congrArg Inflow.clear hinflow, hnow, hreadings⟩

theorem handled_withoutWrites (o : Outlet σ) {u v : Usage σ} (h : ReadsAlike u v)
    (hs : List Handling) :
    ReadsAlike (u.handled o hs) (v.handled o (hs.filter fun a => !a.isWrite)) := by
  induction hs generalizing u v with
  | nil => exact h
  | cons a hs ih =>
    cases ha : a.isWrite with
    | true =>
      rw [List.filter_cons_of_neg (by simp [ha])]
      exact ih (h.write ha)
    | false =>
      rw [List.filter_cons_of_pos (by simp [ha])]
      exact ih (h.handle a)

/-- What is written to a stream in use. -/
structure WritesTruly (o : Outlet σ) (u : Usage σ) : Prop where
  frame : ∀ data, Truthful o u.stream data
  line : ∀ text,
    u.stream.writeLine o text = u.stream.writeFrame o (Utf8.encode text ++ [0x0d, 0x0a])
  /-- All that is read is the same without the writes. -/
  reads : ∀ hs, ReadsAlike (u.handled o hs) (u.handled o (hs.filter fun a => !a.isWrite))

/-- However much of it the outlet takes at a time, and wherever it fails. -/
theorem written_truly_and_reads_alike (o : Outlet σ) (u : Usage σ) : WritesTruly o u where
  frame := writeFrame_truthful o u.stream
  line text := by
    rw [LineStream.writeLine, lineBytes, Utf8.encode_append]
    rfl
  reads hs := handled_withoutWrites o ⟨rfl, rfl, rfl⟩ hs

example :
    let broken : Throttle := ⟨some 3, some (4, .ofKind .brokenPipe), none, 0, 0⟩
    (Throttle.outlet.writeLine broken "hello").result = .error (.ofKind .brokenPipe) ∧
      (Throttle.outlet.writeLine broken "hello").wire = Utf8.encode "hell" := by
  decide +kernel

end Usage

end LineStream

end IGate
