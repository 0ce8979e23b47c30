import IGate.Client.Step
import Mathlib

/-! What the events of a run tell: the frames that came in and went out, and the stretches in which
a connection or a link was up, each with what was read, written and handed over in it. What is
written goes out item by item, the last of them perhaps in part. -/

namespace IGate

def Event.isLog : Event → Bool
  | .log _ => true
  | _ => false

abbrev Trace := List Event

namespace Trace

/-- The events that are not notices for the log. -/
def quiet (es : Trace) : Trace := es.filter fun e => !e.isLog

@[simp] theorem quiet_nil : quiet [] = [] := rfl
@[simp] theorem quiet_append (es more : Trace) : quiet (es ++ more) = quiet es ++ quiet more := by
  simp [quiet]
@[simp] theorem quiet_log (n : Notice) (es : Trace) : quiet (.log n :: es) = quiet es := by
  simp [quiet, Event.isLog]
@[simp] theorem quiet_logs (ns : List Notice) : quiet (ns.map .log) = [] := by
  simp [quiet, Event.isLog]
theorem quiet_cons (e : Event) (es : Trace) (h : e.isLog = false) :
    quiet (e :: es) = e :: quiet es := by
  simp [quiet, h]

def accepted (es : Trace) : List Bytes := es.flatMap fun | .accepted frame => [frame] | _ => []

def dequeued (es : Trace) : List Bytes := es.flatMap fun | .dequeued frame => [frame] | _ => []

/-- Frames that left the queue, to be written or to be dropped at the end of a worker. -/
def departed (es : Trace) : List Bytes :=
  es.flatMap fun | .dequeued frame => [frame] | .discarded frames => frames | _ => []

def sent (es : Trace) : Bytes := es.flatMap fun | .sent bytes => bytes | _ => []

def received (es : Trace) : Bytes := es.flatMap fun | .read bytes => bytes | _ => []

def linesRead (es : Trace) : List Bytes := es.flatMap fun | .lineRead raw => [raw] | _ => []

def handed (es : Trace) : List String := es.flatMap fun | .handed line => [line] | _ => []

/-- The calls of a sink, each with the sink and the line. -/
def delivered (es : Trace) : List (Nat × String) :=
  es.flatMap fun | .delivered sink line => [(sink, line)] | _ => []

theorem flatMap_quiet {α : Type} (f : Event → List α) (h : ∀ n, f (.log n) = []) (es : Trace) :
    (quiet es).flatMap f = es.flatMap f := by
  induction es with
  | nil => rfl
  | cons e es ih =>
    cases e with
    | log n => simp [h, ih]
    | _ => rw [quiet_cons _ _ rfl]; simp [ih]

@[simp] theorem accepted_quiet (es : Trace) : accepted (quiet es) = accepted es :=
  flatMap_quiet _ (fun _ => rfl) es
@[simp] theorem dequeued_quiet (es : Trace) : dequeued (quiet es) = dequeued es :=
  flatMap_quiet _ (fun _ => rfl) es
@[simp] theorem departed_quiet (es : Trace) : departed (quiet es) = departed es :=
  flatMap_quiet _ (fun _ => rfl) es
@[simp] theorem sent_quiet (es : Trace) : sent (quiet es) = sent es :=
  flatMap_quiet _ (fun _ => rfl) es
@[simp] theorem received_quiet (es : Trace) : received (quiet es) = received es :=
  flatMap_quiet _ (fun _ => rfl) es
@[simp] theorem linesRead_quiet (es : Trace) : linesRead (quiet es) = linesRead es :=
  flatMap_quiet _ (fun _ => rfl) es
@[simp] theorem handed_quiet (es : Trace) : handed (quiet es) = handed es :=
  flatMap_quiet _ (fun _ => rfl) es
@[simp] theorem delivered_quiet (es : Trace) : delivered (quiet es) = delivered es :=
  flatMap_quiet _ (fun _ => rfl) es

@[simp] theorem accepted_append (es more : Trace) :
    accepted (es ++ more) = accepted es ++ accepted more := List.flatMap_append
@[simp] theorem dequeued_append (es more : Trace) :
    dequeued (es ++ more) = dequeued es ++ dequeued more := List.flatMap_append
@[simp] theorem departed_append (es more : Trace) :
    departed (es ++ more) = departed es ++ departed more := List.flatMap_append
@[simp] theorem sent_append (es more : Trace) : sent (es ++ more) = sent es ++ sent more :=
  List.flatMap_append
@[simp] theorem received_append (es more : Trace) :
    received (es ++ more) = received es ++ received more := List.flatMap_append
@[simp] theorem linesRead_append (es more : Trace) :
    linesRead (es ++ more) = linesRead es ++ linesRead more := List.flatMap_append
@[simp] theorem handed_append (es more : Trace) : handed (es ++ more) = handed es ++ handed more :=
  List.flatMap_append

@[simp] theorem delivered_append (es more : Trace) :
    delivered (es ++ more) = delivered es ++ delivered more := List.flatMap_append

@[simp] theorem flatMap_readEvents {α : Type} (f : Event → List α) (h : f (.read []) = [])
    (bytes : Bytes) : (Client.readEvents bytes).flatMap f = f (.read bytes) := by
  unfold Client.readEvents
  split
  · simp [*]
  · simp

@[simp] theorem flatMap_sentEvents {α : Type} (f : Event → List α) (h : f (.sent []) = [])
    (bytes : Bytes) : (Client.sentEvents bytes).flatMap f = f (.sent bytes) := by
  unfold Client.sentEvents
  split
  · simp [*]
  · simp

theorem dequeued_sublist_departed (es : Trace) : (dequeued es).Sublist (departed es) := by
  induction es with
  | nil => exact .slnil
  | cons e es ih =>
    simp only [dequeued, departed, List.flatMap_cons]
    refine List.Sublist.append ?_ ih
    cases e with
    | discarded => exact List.nil_sublist _
    | _ => exact .refl _

/-! Stretches of a trace -/

/-- Adds an event to the latest stretch. A stretch begins after `start` and ends with the closing of
the connection; what happens between two stretches belongs to none. -/
def note (start : Event) (ks : List Trace) (e : Event) : List Trace :=
  if e = start then [] :: ks
  else
    match ks with
    | [] => []
    | k :: rest => if .closed ∈ k then k :: rest else (k ++ [e]) :: rest

/-- The stretches that begin with `start`, the latest first, without the notices. -/
def stretches (start : Event) (es : Trace) : List Trace := (quiet es).foldl (note start) []

/-- What happened on each connection, from its opening on, the latest first. -/
def connections (es : Trace) : List Trace := stretches .opened es

/-- What happened on each link, from the end of the login on, the latest first. -/
def links (es : Trace) : List Trace := stretches .established es

def Closed (ks : List Trace) : Prop := ∀ k ∈ ks.head?, Event.closed ∈ k

theorem forall_closed {ks : List Trace} (hk : Closed ks) (ht : ∀ k ∈ ks.tail, Event.closed ∈ k) :
    ∀ k ∈ ks, Event.closed ∈ k := by
  cases ks with
  | nil => nofun
  | cons k rest => exact List.forall_mem_cons.2 ⟨hk k rfl, ht⟩

section
variable {start : Event}

theorem foldl_note_open {k es : Trace} (hk : Event.closed ∉ k) (hc : Event.closed ∉ es)
    (ho : start ∉ es) (ks : List Trace) :
    es.foldl (note start) (k :: ks) = (k ++ es) :: ks := by
  induction es generalizing k with
  | nil => simp
  | cons e es ih =>
    simp only [List.mem_cons, not_or] at hc ho
    have he : note start (k :: ks) e = (k ++ [e]) :: ks := by
      simp [note, hk, Ne.symm ho.1]
    have hk' : Event.closed ∉ k ++ [e] := by simp [hk, hc.1]
    rw [List.foldl_cons, he, ih hk' hc.2 ho.2]
    simp

theorem foldl_note_of_closed {ks : List Trace} (hk : Closed ks) {es : Trace} (ho : start ∉ es) :
    es.foldl (note start) ks = ks := by
  induction es with
  | nil => rfl
  | cons e es ih =>
    simp only [List.mem_cons, not_or] at ho
    have he : note start ks e = ks := by
      cases ks with
      | nil => simp [note, Ne.symm ho.1]
      | cons k ks =>
        have : Event.closed ∈ k := hk k (by simp)
        simp [note, Ne.symm ho.1, this]
    rw [List.foldl_cons, he, ih ho.2]

theorem foldl_note_closing (hs : start ≠ .closed) {k es later : Trace} (hk : Event.closed ∉ k)
    (hc : Event.closed ∉ es) (ho : start ∉ es) (hl : start ∉ later) (ks : List Trace) :
    (es ++ Event.closed :: later).foldl (note start) (k :: ks) =
      (k ++ es ++ [Event.closed]) :: ks := by
  have hke : Event.closed ∉ k ++ es := by simp [hk, hc]
  have he : note start ((k ++ es) :: ks) .closed = (k ++ es ++ [Event.closed]) :: ks := by
    rw [note, if_neg (Ne.symm hs)]
    simp only [hke, if_false]
  rw [List.foldl_append, foldl_note_open hk hc ho, List.foldl_cons, he]
  apply foldl_note_of_closed _ hl
  intro k' hk'
  simp only [List.head?_cons, Option.mem_def, Option.some.injEq] at hk'
  simp [← hk']

theorem flatMap_foldl_note {α : Type} (f : Event → List α) {new : Trace}
    (hn : new.flatMap f = []) (ks : List Trace) :
    (new.foldl (note start) ks).reverse.flatMap (·.flatMap f) =
      ks.reverse.flatMap (·.flatMap f) := by
  induction new generalizing ks with
  | nil => rfl
  | cons e new ih =>
    simp only [List.flatMap_cons, List.append_eq_nil_iff] at hn
    rw [List.foldl_cons, ih hn.2]
    unfold note
    split
    · simp
    · split
      · rfl
      · split <;> simp [hn.1]

theorem stretches_append (es more : Trace) :
    stretches start (es ++ more) = (quiet more).foldl (note start) (stretches start es) := by
  simp [stretches]

/-- Stretches of which the latest is closed stay behind those to come. -/
theorem foldl_note_behind {ks : List Trace} (hk : Closed ks) (es : Trace) (js : List Trace) :
    es.foldl (note start) (js ++ ks) = es.foldl (note start) js ++ ks := by
  have hnote : ∀ js e, note start (js ++ ks) e = note start js e ++ ks := by
    intro js e
    unfold note
    split
    · rfl
    · cases js with
      | nil =>
        cases ks with
        | nil => rfl
        | cons k ks => exact if_pos (hk k rfl)
      | cons j js =>
        simp only [List.cons_append]
        split <;> rfl
  induction es generalizing js with
  | nil => rfl
  | cons e es ih => rw [List.foldl_cons, hnote, ih, List.foldl_cons]

theorem stretches_append_of_closed {es : Trace} (hk : Closed (stretches start es)) (more : Trace) :
    stretches start (es ++ more) = stretches start more ++ stretches start es := by
  rw [stretches_append]
  exact foldl_note_behind hk (quiet more) []

end

end Trace

/-! What goes out, item by item -/

/-- How far items have gone out. All did, or all but the last, which still owes some bytes. -/
inductive Out (items : List Bytes) (wire : Bytes) : Option Bytes → Prop
  | whole (hw : wire = items.flatten) : Out items wire none
  | cut (before : List Bytes) (part owed : Bytes) (hi : items = before ++ [part ++ owed])
    (hw : wire = before.flatten ++ part) : Out items wire (some owed)

namespace Out

variable {items : List Bytes} {wire part rest : Bytes} {owed : Option Bytes}

theorem begin (h : Out items wire none) (item : Bytes) :
    Out (items ++ [item]) wire (some item) := by
  cases h with
  | whole hw => exact .cut items [] item rfl (by rw [hw, List.append_nil])

theorem push (h : Out items wire (some (part ++ rest))) :
    Out items (wire ++ part) (some rest) := by
  cases h with
  | cut before part' _ hi hw =>
    refine .cut before (part' ++ part) rest ?_ ?_
    · rw [hi, List.append_assoc]
    · rw [hw, List.append_assoc]

theorem finish (h : Out items wire (some [])) : Out items wire none := by
  cases h with
  | cut before part _ hi hw => exact .whole (by simp [hi, hw])

theorem prefix_flatten (h : Out items wire owed) : wire <+: items.flatten := by
  cases h with
  | whole hw => exact hw ▸ List.prefix_rfl
  | cut before part owed hi hw => exact ⟨owed, by simp [hi, hw]⟩

theorem eq_flatten (h : Out items wire none) : wire = items.flatten := by
  cases h with
  | whole hw => exact hw

end Out

end IGate
