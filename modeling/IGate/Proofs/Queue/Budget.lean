import IGate.Proofs.Queue

/-! What a queue counts. The bytes in use are always those that the queued frames take together, so
that no sum and no difference leaves the words it is made of, for the smallest capacity and for the
largest. -/

namespace IGate

namespace Queue

def charge (frame : Bytes) : Nat := frame.length + lengthPrefix

def room (frames : List Bytes) : Nat := (frames.map charge).sum

@[simp] theorem room_nil : room [] = 0 := rfl
@[simp] theorem room_cons (f : Bytes) (fs : List Bytes) : room (f :: fs) = charge f + room fs := rfl
@[simp] theorem room_append (fs gs : List Bytes) : room (fs ++ gs) = room fs + room gs := by
  simp [room]

def Sized (frame : Bytes) : Prop := 1 ≤ frame.length ∧ frame.length ≤ maxFrameLength

theorem toNat_cost {frame : Bytes} (h : frame.length ≤ maxFrameLength) :
    (cost frame).toNat = charge frame := by
  apply UInt64.toNat_ofNat_of_lt'
  simp only [maxFrameLength] at h
  simp only [lengthPrefix, UInt64.size]
  omega

/-- The count of the bytes in use is right, and they are no more than there are. -/
structure Budgeted (capacity : UInt64) (q : Queue) : Prop where
  capacity_eq : q.capacity = capacity
  used : q.used.toNat = room q.frames
  within : room q.frames ≤ capacity.toNat
  sized : ∀ f ∈ q.frames, Sized f

inductive Refuses (q : Queue) (frame : Bytes) : Refusal → Prop
  | empty (hl : frame.length = 0) : Refuses q frame .emptyFrame
  | tooLarge (hl : maxFrameLength < frame.length) :
    Refuses q frame (.frameTooLarge frame.length)
  | full {needed free : UInt64} (hl : Sized frame)
    (hr : q.capacity.toNat < room q.frames + (frame.length + 4))
    (hn : needed.toNat = frame.length + 4)
    (hf : free.toNat = q.capacity.toNat - room q.frames) : Refuses q frame (.full needed free)

section
variable {capacity : UInt64} {q q' : Queue} {frame : Bytes} {why : Refusal}

namespace Budgeted

theorem empty (capacity : UInt64) : Budgeted capacity (empty capacity) where
  capacity_eq := rfl
  used := rfl
  within := Nat.zero_le _
  sized := nofun

theorem used_le (h : Budgeted capacity q) : q.used ≤ q.capacity := by
  rw [UInt64.le_iff_toNat_le, h.used, h.capacity_eq]
  exact h.within

theorem toNat_free (h : Budgeted capacity q) : q.free.toNat = capacity.toNat - room q.frames := by
  rw [free, UInt64.toNat_sub_of_le _ _ h.used_le, h.used, h.capacity_eq]

theorem free_lt_cost_iff (h : Budgeted capacity q) (hl : frame.length ≤ maxFrameLength) :
    q.free < cost frame ↔ capacity.toNat < room q.frames + charge frame := by
  have hw := h.within
  rw [UInt64.lt_iff_toNat_lt, h.toNat_free, toNat_cost hl]
  omega

theorem refusal?_eq_some_iff (h : Budgeted capacity q) :
    q.refusal? frame = some why ↔ Refuses q frame why := by
  have hempty : frame = [] ↔ frame.length = 0 := List.length_eq_zero_iff.symm
  constructor
  · intro hr
    unfold refusal? at hr
    split at hr
    · next he =>
      cases hr
      exact .empty (hempty.1 he)
    · next he =>
      split at hr
      · next hl =>
        cases hr
        exact .tooLarge hl
      · next hl =>
        have hle : frame.length ≤ maxFrameLength := Nat.le_of_not_lt hl
        have hone : 1 ≤ frame.length := Nat.one_le_iff_ne_zero.2 (mt hempty.2 he)
        split at hr
        · next hfull =>
          cases hr
          rw [h.free_lt_cost_iff hle, ← h.capacity_eq] at hfull
          exact .full ⟨hone, hle⟩ hfull (toNat_cost hle) (by rw [h.toNat_free, h.capacity_eq])
        · cases hr
  · intro hr
    cases hr with
    | empty hl => exact if_pos (hempty.2 hl)
    | tooLarge hl =>
      have he : frame ≠ [] := by
        rintro rfl
        exact absurd hl (Nat.not_lt_zero _)
      rw [refusal?, if_neg he, if_pos hl]
    | full hs hr hn hf =>
      obtain ⟨hone, hle⟩ := hs
      have he : frame ≠ [] := by
        rintro rfl
        exact absurd hone (Nat.not_succ_le_zero _)
      rw [h.capacity_eq] at hr hf
      have hcost : cost frame = _ := UInt64.toNat_inj.1 ((toNat_cost hle).trans hn.symm)
      have hfree : q.free = _ := UInt64.toNat_inj.1 (h.toNat_free.trans hf.symm)
      rw [refusal?, if_neg he, if_neg (Nat.not_lt.2 hle),
        if_pos ((h.free_lt_cost_iff hle).2 hr), hcost, hfree]

theorem refusal?_eq_none_iff (h : Budgeted capacity q) :
    q.refusal? frame = none ↔ Sized frame ∧ room q.frames + charge frame ≤ capacity.toNat := by
  rw [Option.eq_none_iff_forall_ne_some]
  constructor
  · intro hno
    have hne : frame.length ≠ 0 := fun hl =>
      hno _ (h.refusal?_eq_some_iff.2 (.empty hl))
    have hle : frame.length ≤ maxFrameLength := Nat.le_of_not_lt fun hl =>
      hno _ (h.refusal?_eq_some_iff.2 (.tooLarge hl))
    refine ⟨⟨Nat.one_le_iff_ne_zero.2 hne, hle⟩, Nat.le_of_not_lt fun hr => ?_⟩
    rw [← h.capacity_eq] at hr
    exact hno _ (h.refusal?_eq_some_iff.2 (.full ⟨Nat.one_le_iff_ne_zero.2 hne, hle⟩ hr
      (toNat_cost hle) (by rw [h.toNat_free, h.capacity_eq])))
  · rintro ⟨⟨hone, hle⟩, hr⟩ why hw
    cases h.refusal?_eq_some_iff.1 hw with
    | empty hl => omega
    | tooLarge hl => omega
    | full _ hfull =>
      rw [h.capacity_eq] at hfull
      exact absurd hr (Nat.not_le.2 hfull)

theorem push (h : Budgeted capacity q) (hf : q.refusal? frame = none) :
    Budgeted capacity (q.push frame) := by
  obtain ⟨hs, hr⟩ := h.refusal?_eq_none_iff.1 hf
  have hsum : room (q.push frame).frames = room q.frames + charge frame := by simp
  refine ⟨h.capacity_eq, ?_, hsum ▸ hr, ?_⟩
  · have hlt : room q.frames + charge frame < 2 ^ 64 := lt_of_le_of_lt hr capacity.toNat_lt
    rw [hsum, Queue.push, UInt64.toNat_add, h.used, toNat_cost hs.2, Nat.mod_eq_of_lt hlt]
  · intro f hmem
    rcases List.mem_append.1 hmem with hmem | hmem
    · exact h.sized f hmem
    · exact List.mem_singleton.1 hmem ▸ hs

theorem cost_le_used {rest : List Bytes} (h : Budgeted capacity q)
    (hq : q.frames = frame :: rest) : cost frame ≤ q.used := by
  have hs := h.sized frame (by simp [hq])
  rw [UInt64.le_iff_toNat_le, h.used, toNat_cost hs.2, hq, room_cons]
  exact Nat.le_add_right _ _

theorem pop {rest : List Bytes} (h : Budgeted capacity q) (hq : q.frames = frame :: rest) :
    Budgeted capacity { q with used := q.used - cost frame, frames := rest } := by
  have hs := h.sized frame (by simp [hq])
  have hroom : room q.frames = charge frame + room rest := by rw [hq, room_cons]
  have hw := h.within
  refine ⟨h.capacity_eq, ?_, ?_, fun f hmem => h.sized f (by simp [hq, hmem])⟩
  · rw [UInt64.toNat_sub_of_le _ _ (h.cost_le_used hq), h.used, toNat_cost hs.2, hroom]
    exact Nat.add_sub_cancel_left _ _
  · change room rest ≤ capacity.toNat
    omega

theorem drain (h : Budgeted capacity q) : Budgeted capacity q.drain.2 where
  capacity_eq := h.capacity_eq
  used := rfl
  within := Nat.zero_le _
  sized := nofun

theorem eq_empty (h : Budgeted capacity q) (hq : q.frames = []) : q = Queue.empty capacity := by
  have hu : q.used = 0 := by
    rw [← UInt64.toNat_inj, h.used, hq]
    rfl
  rw [Queue.empty, ← h.capacity_eq, ← hu, ← hq]

theorem enqueue (h : Budgeted capacity q) (hq : q.enqueue frame = .ok q') :
    Budgeted capacity q' := by
  unfold Queue.enqueue at hq
  split at hq
  · cases hq
  · next hf =>
    cases hq
    exact h.push hf

theorem dequeue (h : Budgeted capacity q) (hq : q.dequeue = some (frame, q')) :
    Budgeted capacity q' := by
  unfold Queue.dequeue at hq
  split at hq
  · cases hq
  · next hframes =>
    cases hq
    exact h.pop hframes

theorem act (h : Budgeted capacity q) (a : Action) : Budgeted capacity (q.act a).2 := by
  cases a with
  | enqueue frame =>
    simp only [Queue.act]
    split
    · next hq => exact h.enqueue hq
    · exact h
  | dequeue =>
    simp only [Queue.act]
    split
    · next hq => exact h.dequeue hq
    · exact h
  | drain => exact h.drain
  | query => exact h

end Budgeted

/-! Runs -/

def after (q : Queue) (as : List Action) : Queue := as.foldl (fun q a => (q.act a).2) q

theorem Budgeted.after (h : Budgeted capacity q) (as : List Action) :
    Budgeted capacity (q.after as) := by
  induction as generalizing q with
  | nil => exact h
  | cons a as ih => exact ih (h.act a)

/-! With every sum and difference checked -/

def add? (a b : UInt64) : Option UInt64 :=
  if a.toNat + b.toNat < UInt64.size then some (a + b) else none

def sub? (a b : UInt64) : Option UInt64 := if b ≤ a then some (a - b) else none

def cost? (frame : Bytes) : Option UInt64 :=
  add? (.ofNat frame.length) (.ofNat lengthPrefix)

/-- What a queue does, unless a sum or a difference leaves its word. -/
def act? (q : Queue) : Action → Option (Answer × Queue)
  | .enqueue frame =>
    if frame = [] then some (.refused .emptyFrame, q)
    else if maxFrameLength < frame.length then
      some (.refused (.frameTooLarge frame.length), q)
    else
      (cost? frame).bind fun needed =>
        (sub? q.capacity q.used).bind fun free =>
          if free < needed then some (.refused (.full needed free), q)
          else (add? q.used needed).map fun used =>
            (.taken, { q with used, frames := q.frames ++ [frame] })
  | .dequeue =>
    match q.frames with
    | [] => some (.front none, q)
    | frame :: rest =>
      (cost? frame).bind fun cost =>
        (sub? q.used cost).map fun used =>
          (.front (some frame), { q with used, frames := rest })
  | .drain => some (.dropped q.frames.length, { q with used := 0, frames := [] })
  | .query => (sub? q.capacity q.used).map fun _ => (.nothing, q)

def run? (q : Queue) : List Action → Option (List (Answer × Queue))
  | [] => some []
  | a :: rest =>
    (q.act? a).bind fun next => (run? next.2 rest).map (next :: ·)

theorem cost?_eq (h : frame.length ≤ maxFrameLength) : cost? frame = some (cost frame) := by
  simp only [maxFrameLength] at h
  have hlen : (UInt64.ofNat frame.length).toNat = frame.length :=
    UInt64.toNat_ofNat_of_lt' (by simp only [UInt64.size]; omega)
  have hfour : (UInt64.ofNat lengthPrefix).toNat = 4 := rfl
  have hfits : (UInt64.ofNat frame.length).toNat + (UInt64.ofNat lengthPrefix).toNat <
      UInt64.size := by
    rw [hlen, hfour, UInt64.size]
    omega
  rw [cost?, add?, if_pos hfits, cost, UInt64.ofNat_add]

theorem Budgeted.free?_eq (h : Budgeted capacity q) :
    sub? q.capacity q.used = some q.free := if_pos h.used_le

theorem Budgeted.add?_eq (h : Budgeted capacity q) (hf : q.refusal? frame = none) :
    add? q.used (cost frame) = some (q.push frame).used := by
  obtain ⟨hs, hr⟩ := h.refusal?_eq_none_iff.1 hf
  refine if_pos ?_
  rw [h.used, toNat_cost hs.2]
  exact lt_of_le_of_lt hr capacity.toNat_lt

theorem Budgeted.act?_eq (h : Budgeted capacity q) (a : Action) : q.act? a = some (q.act a) := by
  cases a with
  | enqueue frame =>
    by_cases he : frame = []
    · simp [act?, Queue.act, Queue.enqueue, refusal?, he]
    by_cases hl : maxFrameLength < frame.length
    · simp [act?, Queue.act, Queue.enqueue, refusal?, he, hl]
    have hcost : cost? frame = some (cost frame) := cost?_eq (Nat.le_of_not_lt hl)
    by_cases hfull : q.free < cost frame
    · simp [act?, Queue.act, Queue.enqueue, refusal?, he, hl, hcost, h.free?_eq, hfull]
    · have hnone : q.refusal? frame = none := by simp [refusal?, he, hl, hfull]
      simp only [act?, he, hl, if_false, hcost, h.free?_eq, Option.bind_some, hfull,
        h.add?_eq hnone, Option.map_some, Queue.act, Queue.enqueue, hnone]
      rfl
  | dequeue =>
    unfold act? Queue.act Queue.dequeue
    cases hq : q.frames with
    | nil => rfl
    | cons frame rest =>
      have hs := h.sized frame (by simp [hq])
      simp only [cost?_eq hs.2, Option.bind_some, sub?, if_pos (h.cost_le_used hq),
        Option.map_some]
  | drain => rfl
  | query => simp only [act?, h.free?_eq, Option.map_some, Queue.act]

theorem Budgeted.run?_eq (h : Budgeted capacity q) (as : List Action) :
    q.run? as = some (q.run as) := by
  induction as generalizing q with
  | nil => rfl
  | cons a as ih => rw [run?, h.act?_eq, Option.bind_some, ih (h.act a), Option.map_some, run]

structure Exact (capacity : UInt64) (q : Queue) : Prop
    extends Budgeted capacity q where
  free : q.free.toNat = capacity.toNat - room q.frames
  accepts : ∀ frame, (∃ q', q.enqueue frame = .ok q') ↔
    (1 ≤ frame.length ∧ frame.length ≤ 300) ∧
      room q.frames + (frame.length + 4) ≤ capacity.toNat
  refuses : ∀ frame why, q.enqueue frame = .error why ↔ Refuses q frame why
  /-- A frame that is refused leaves the queue as it was. -/
  unchanged : ∀ frame why, q.enqueue frame = .error why → q.act (.enqueue frame) = (.refused why, q)

theorem Budgeted.exact (h : Budgeted capacity q) : Exact capacity q := by
  have herror : ∀ {frame why}, q.enqueue frame = .error why ↔ q.refusal? frame = some why := by
    intro frame why
    unfold Queue.enqueue
    cases q.refusal? frame <;> simp
  have hok : ∀ {frame}, (∃ q', q.enqueue frame = .ok q') ↔ q.refusal? frame = none := by
    intro frame
    unfold Queue.enqueue
    cases q.refusal? frame <;> simp
  refine ⟨h, h.toNat_free, fun frame => ?_, fun frame why => ?_, fun frame why hr => ?_⟩
  · exact hok.trans h.refusal?_eq_none_iff
  · exact herror.trans h.refusal?_eq_some_iff
  · simp only [Queue.act, hr]

end

/-- Whatever is asked of a queue of any capacity, its count is right and no arithmetic on it goes
wrong. -/
theorem count_exact (capacity : UInt64) (as : List Action) :
    (empty capacity).run? as = some ((empty capacity).run as) ∧
      Exact capacity ((empty capacity).after as) :=
  ⟨(Budgeted.empty capacity).run?_eq as, ((Budgeted.empty capacity).after as).exact⟩

example : ((Queue.empty 14).act (.enqueue (List.replicate 10 65))).1 = .taken ∧
    ((Queue.empty 13).act (.enqueue (List.replicate 10 65))).1 = .refused (.full 14 13) := by
  decide

end Queue

end IGate
