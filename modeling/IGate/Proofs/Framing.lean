import IGate.LineBuffer
import Mathlib

/-! Lines of a stream of bytes. A line ends with its only line feed, so there is one way to cut a
stream into lines and an unfinished rest, and a buffer finds the first of them. -/

namespace IGate

theorem cut_at_first {α : Type} [DecidableEq α] {a : α} {front : List α} (h : a ∉ front)
    (rest : List α) :
    (front ++ a :: rest).takeWhile (· != a) = front ∧
      (front ++ a :: rest).dropWhile (· != a) = a :: rest := by
  have hfront : ∀ x ∈ front, (x != a) = true := by
    intro x hx
    exact bne_iff_ne.2 (ne_of_mem_of_not_mem hx h)
  rw [List.takeWhile_append_of_pos hfront, List.dropWhile_append_of_pos hfront]
  simp

/-- Bytes up to their only line feed. -/
def IsLine (raw : Bytes) : Prop := ∃ body, lineFeed ∉ body ∧ raw = body ++ [lineFeed]

namespace LineBuffer

/-- The lines of a stream, and what comes behind the last of them. -/
def cut : Bytes → List Bytes × Bytes
  | [] => ([], [])
  | b :: bs =>
    if b = lineFeed then ([b] :: (cut bs).1, (cut bs).2)
    else
      match cut bs with
      | ([], rest) => ([], b :: rest)
      | (l :: ls, rest) => ((b :: l) :: ls, rest)

def lines (stream : Bytes) : List Bytes := (cut stream).1

def unfinished (stream : Bytes) : Bytes := (cut stream).2

theorem cut_of_not_mem {bytes : Bytes} (h : lineFeed ∉ bytes) : cut bytes = ([], bytes) := by
  induction bytes with
  | nil => rfl
  | cons b bs ih =>
    simp only [List.mem_cons, not_or] at h
    simp [cut, Ne.symm h.1, ih h.2]

theorem cut_line_append {raw : Bytes} (h : IsLine raw) (stream : Bytes) :
    cut (raw ++ stream) = (raw :: lines stream, unfinished stream) := by
  obtain ⟨body, hb, rfl⟩ := h
  induction body with
  | nil => simp [cut, lines, unfinished]
  | cons b body ih =>
    simp only [List.mem_cons, not_or] at hb
    simp only [List.cons_append, cut, if_neg (Ne.symm hb.1)]
    rw [ih hb.2]

@[simp] theorem lines_line_append {raw : Bytes} (h : IsLine raw) (stream : Bytes) :
    lines (raw ++ stream) = raw :: lines stream := by
  rw [lines, cut_line_append h]

@[simp] theorem unfinished_line_append {raw : Bytes} (h : IsLine raw) (stream : Bytes) :
    unfinished (raw ++ stream) = unfinished stream := by
  rw [unfinished, cut_line_append h]

/-- Lines are found again in what they make up. -/
theorem lines_flatten_append {ls : List Bytes} (h : ∀ raw ∈ ls, IsLine raw) (stream : Bytes) :
    lines (ls.flatten ++ stream) = ls ++ lines stream := by
  induction ls with
  | nil => rfl
  | cons raw ls ih =>
    have hraw := h raw List.mem_cons_self
    have hls := ih fun raw hr => h raw (List.mem_cons_of_mem _ hr)
    rw [List.flatten_cons, List.append_assoc, lines_line_append hraw, hls, List.cons_append]

theorem unfinished_flatten_append {ls : List Bytes} (h : ∀ raw ∈ ls, IsLine raw)
    (stream : Bytes) : unfinished (ls.flatten ++ stream) = unfinished stream := by
  induction ls with
  | nil => rfl
  | cons raw ls ih =>
    have hraw := h raw List.mem_cons_self
    have hls := ih fun raw hr => h raw (List.mem_cons_of_mem _ hr)
    rw [List.flatten_cons, List.append_assoc, unfinished_line_append hraw, hls]

theorem lines_of_not_mem {bytes : Bytes} (h : lineFeed ∉ bytes) : lines bytes = [] := by
  rw [lines, cut_of_not_mem h]

theorem unfinished_of_not_mem {bytes : Bytes} (h : lineFeed ∉ bytes) :
    unfinished bytes = bytes := by
  rw [unfinished, cut_of_not_mem h]

/-- A stream is its lines and an unfinished rest. -/
theorem cut_spec (stream : Bytes) :
    (∀ raw ∈ lines stream, IsLine raw) ∧ lineFeed ∉ unfinished stream ∧
      (lines stream).flatten ++ unfinished stream = stream := by
  induction stream with
  | nil => exact ⟨nofun, List.not_mem_nil, rfl⟩
  | cons b bs ih =>
    obtain ⟨hl, hu, hb⟩ := ih
    unfold lines unfinished at *
    by_cases hf : b = lineFeed
    · simp only [cut, if_pos hf]
      refine ⟨List.forall_mem_cons.2 ⟨⟨[], List.not_mem_nil, by rw [hf]; rfl⟩, hl⟩, hu, ?_⟩
      rw [List.flatten_cons, List.append_assoc, hb]
      rfl
    · simp only [cut, if_neg hf]
      rcases hc : cut bs with ⟨_ | ⟨l, ls⟩, rest⟩
      · simp only [hc, List.flatten_nil, List.nil_append] at hu hb ⊢
        exact ⟨nofun, by simp [hu, Ne.symm hf], by rw [hb]⟩
      · simp only [hc, List.forall_mem_cons] at hl hu hb ⊢
        obtain ⟨⟨body, hbody, rfl⟩, hls⟩ := hl
        refine ⟨⟨⟨b :: body, by simp [hbody, Ne.symm hf], rfl⟩, hls⟩, hu, ?_⟩
        rw [← hb]
        rfl

theorem not_mem_unfinished (stream : Bytes) : lineFeed ∉ unfinished stream :=
  (cut_spec stream).2.1

structure Fits (stream : Bytes) : Prop where
  lines : ∀ raw ∈ lines stream, raw.length ≤ maxLineLength
  unfinished : (unfinished stream).length ≤ maxLineLength

theorem Fits.of_flatten_append {ls : List Bytes} (h : ∀ raw ∈ ls, IsLine raw) {stream : Bytes}
    (hf : Fits (ls.flatten ++ stream)) : Fits stream where
  lines := by
    intro raw hr
    refine hf.lines raw ?_
    rw [lines_flatten_append h]
    exact List.mem_append_right _ hr
  unfinished := by
    rw [← unfinished_flatten_append h]
    exact hf.unfinished

/-- What stands before the first line feed is shorter than the first line. -/
theorem length_lt_of_lines {bytes stream raw : Bytes} {ls : List Bytes} (h : lineFeed ∉ bytes)
    (hl : lines (bytes ++ stream) = raw :: ls) : bytes.length < raw.length := by
  obtain ⟨hlines, -, hs⟩ := cut_spec (bytes ++ stream)
  rw [hl] at hlines hs
  obtain ⟨body, -, rfl⟩ := hlines raw List.mem_cons_self
  by_contra hlen
  have hwhole : body ++ [lineFeed] <+: bytes ++ stream := by
    rw [← hs, List.flatten_cons, List.append_assoc]
    exact List.prefix_append _ _
  have hline : body ++ [lineFeed] <+: bytes :=
    List.prefix_of_prefix_length_le hwhole (List.prefix_append _ _) (not_lt.1 hlen)
  exact h (hline.subset (by simp))

theorem length_le_of_fits {bytes stream : Bytes} (hf : Fits (bytes ++ stream))
    (h : lineFeed ∉ bytes) : bytes.length ≤ maxLineLength := by
  obtain ⟨-, -, hs⟩ := cut_spec (bytes ++ stream)
  cases hl : lines (bytes ++ stream) with
  | nil =>
    rw [hl, List.flatten_nil, List.nil_append] at hs
    have hlen := hf.unfinished
    rw [hs, List.length_append] at hlen
    omega
  | cons raw ls =>
    have hlen := hf.lines raw (by rw [hl]; exact List.mem_cons_self)
    exact (length_lt_of_lines h hl).le.trans hlen

/-! What a buffer holds -/

theorem isLine_of_split {buffer raw rest : Bytes} (h : split? buffer = some (raw, rest)) :
    IsLine raw ∧ buffer = raw ++ rest := by
  unfold split? at h
  split at h
  · cases h
  · next feed after hd =>
    simp only [Option.some.injEq, Prod.mk.injEq] at h
    obtain ⟨rfl, rfl⟩ := h
    have hfeed : feed = lineFeed := by
      have := List.head_dropWhile_not (· != lineFeed) (by simp [hd] : buffer.dropWhile _ ≠ [])
      simpa [hd] using this
    subst hfeed
    refine ⟨⟨_, fun hm => ?_, rfl⟩, ?_⟩
    · simpa using List.mem_takeWhile_imp hm
    · rw [List.append_assoc, List.singleton_append, ← hd]
      exact (List.takeWhile_append_dropWhile ..).symm

theorem not_mem_of_split {buffer : Bytes} (h : split? buffer = none) : lineFeed ∉ buffer := by
  unfold split? at h
  split at h
  · next hd =>
    rw [List.dropWhile_eq_nil_iff] at hd
    intro hm
    simpa using hd _ hm
  · cases h

theorem split?_of_not_mem {buffer : Bytes} (h : lineFeed ∉ buffer) : split? buffer = none := by
  have hnil : buffer.dropWhile (· != lineFeed) = [] := by
    rw [List.dropWhile_eq_nil_iff]
    intro b hb
    simpa using ne_of_mem_of_not_mem hb h
  rw [split?, hnil]

theorem scan_of_not_mem {buffer : Bytes} (h : lineFeed ∉ buffer) :
    scan buffer = if maxLineLength < buffer.length then .overlong else .unfinished := by
  rw [scan, split?_of_not_mem h]

theorem scan_of_short {buffer : Bytes} (h : lineFeed ∉ buffer)
    (hlen : buffer.length ≤ maxLineLength) : scan buffer = .unfinished := by
  rw [scan_of_not_mem h, if_neg (not_lt.2 hlen)]

theorem scan_line_append {raw : Bytes} (h : IsLine raw) (rest : Bytes) :
    scan (raw ++ rest) = .line raw rest := by
  obtain ⟨body, hbody, rfl⟩ := h
  obtain ⟨hfront, hrest⟩ := cut_at_first hbody rest
  have hsplit : split? (body ++ [lineFeed] ++ rest) = some (body ++ [lineFeed], rest) := by
    rw [split?, List.append_assoc, List.singleton_append, hrest, hfront]
  rw [scan, hsplit]

theorem scan_line {buffer raw rest : Bytes} (h : scan buffer = .line raw rest) :
    IsLine raw ∧ buffer = raw ++ rest := by
  unfold scan at h
  split at h
  · next hs =>
    cases h
    exact isLine_of_split hs
  · split at h <;> cases h

theorem scan_unfinished {buffer : Bytes} (h : scan buffer = .unfinished) :
    lineFeed ∉ buffer := by
  unfold scan at h
  split at h
  · cases h
  · next hs => exact not_mem_of_split hs

theorem scan_unfinished_iff {buffer : Bytes} :
    scan buffer = .unfinished ↔ lineFeed ∉ buffer ∧ buffer.length ≤ maxLineLength := by
  refine ⟨fun h => ?_, fun ⟨hfeed, hlen⟩ => scan_of_short hfeed hlen⟩
  have hfeed := scan_unfinished h
  refine ⟨hfeed, not_lt.1 fun hlong => ?_⟩
  rw [scan_of_not_mem hfeed, if_pos hlong] at h
  cases h

theorem scan_overlong {buffer : Bytes} (h : scan buffer = .overlong) :
    lineFeed ∉ buffer ∧ maxLineLength < buffer.length := by
  unfold scan at h
  split at h
  · cases h
  · next hs =>
    split at h
    · next hl => exact ⟨not_mem_of_split hs, hl⟩
    · cases h

end LineBuffer

end IGate
