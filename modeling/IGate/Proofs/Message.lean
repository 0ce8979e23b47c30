import IGate.Line
import IGate.Proofs.Login

/-! The bytes of a message. They end with a line feed, so what is written behind them begins a line
of its own, and messages in a row are found again in what they make up. -/

namespace IGate

namespace LineBuffer

/-- Nothing stands behind the last line. -/
def Whole (stream : Bytes) : Prop := unfinished stream = []

namespace Whole

variable {front : Bytes} {frames : List Bytes}

theorem flatten_lines (h : Whole front) : (lines front).flatten = front := by
  have hcut := (cut_spec front).2.2
  rwa [h, List.append_nil] at hcut

theorem lines_append (h : Whole front) (rest : Bytes) :
    lines (front ++ rest) = lines front ++ lines rest := by
  have hfront := lines_flatten_append (cut_spec front).1 rest
  rwa [h.flatten_lines] at hfront

theorem append (h : Whole front) {rest : Bytes} (hrest : Whole rest) : Whole (front ++ rest) := by
  have hfront := unfinished_flatten_append (cut_spec front).1 rest
  rw [h.flatten_lines] at hfront
  exact hfront.trans hrest

theorem flatten (h : ∀ frame ∈ frames, Whole frame) : Whole frames.flatten := by
  induction frames with
  | nil => rfl
  | cons frame frames ih =>
    rw [List.forall_mem_cons] at h
    exact h.1.append (ih h.2)

/-- No line is made of parts of two frames. -/
theorem lines_flatten (h : ∀ frame ∈ frames, Whole frame) :
    lines frames.flatten = frames.flatMap lines := by
  induction frames with
  | nil => rfl
  | cons frame frames ih =>
    rw [List.forall_mem_cons] at h
    rw [List.flatten_cons, h.1.lines_append, ih h.2, List.flatMap_cons]

theorem ends (h : Whole front) : front = [] ∨ front.getLast? = some lineFeed := by
  have hlines := (cut_spec front).1
  have hfront := h.flatten_lines
  rcases List.eq_nil_or_concat (lines front) with hnil | ⟨before, raw, hconcat⟩
  · rw [hnil] at hfront
    exact .inl hfront.symm
  · rw [List.concat_eq_append] at hconcat
    obtain ⟨body, -, rfl⟩ := hlines raw (by simp [hconcat])
    refine .inr ?_
    rw [← hfront, hconcat]
    simp

end Whole

end LineBuffer

namespace Line

open LineBuffer

def bytes (text : String) : Bytes := Utf8.encode (terminate text)

/-- The text as it goes out, without its last line feed. -/
theorem exists_terminate_eq (text : String) :
    ∃ body, terminate text = body ++ "\n" ∧
      ('\n' ∉ text.toList.dropLast → '\n' ∉ body.toList) := by
  by_cases hends : text.toList.getLast? = some '\n'
  · refine ⟨String.ofList text.toList.dropLast, ?_, by rw [String.toList_ofList]; exact id⟩
    have htext := List.dropLast_append_getLast? '\n' hends
    rw [terminate, if_pos hends, ← String.toList_inj, String.toList_append, String.toList_ofList]
    exact htext.symm
  · refine ⟨text ++ "\r", ?_, fun hinner => ?_⟩
    · rw [terminate, if_neg hends, String.append_assoc]
      rfl
    · rcases List.eq_nil_or_concat text.toList with hnil | ⟨before, c, hconcat⟩
      · simp [hnil]
      · rw [List.concat_eq_append] at hconcat
        rw [hconcat, List.getLast?_concat, Option.some.injEq] at hends
        rw [hconcat, List.dropLast_concat] at hinner
        simp [hconcat, hinner, Ne.symm hends]

theorem bytes_eq (text : String) :
    bytes text = if text.toList.getLast? = some '\n' then Utf8.encode text
      else Utf8.encode text ++ [13, 10] := by
  unfold bytes terminate
  split
  · rfl
  · rw [Utf8.encode_append]
    rfl

theorem bytes_ne_nil (text : String) : bytes text ≠ [] := by
  obtain ⟨body, hbody, -⟩ := exists_terminate_eq text
  rw [bytes, hbody, Utf8.encode_append]
  exact List.append_ne_nil_of_right_ne_nil _ (by decide)

theorem whole_bytes (text : String) : Whole (bytes text) := by
  obtain ⟨body, hbody, -⟩ := exists_terminate_eq text
  rw [bytes, hbody, Utf8.encode_append]
  exact unfinished_append_lineFeed _

theorem lines_bytes_of_inner {text : String} (h : '\n' ∉ text.toList.dropLast) :
    lines (bytes text) = [bytes text] := by
  obtain ⟨body, hbody, hinner⟩ := exists_terminate_eq text
  have hfeeds : (Utf8.encode body).count lineFeed = 0 := by
    rw [Utf8.count_lineFeed_encode]
    exact List.count_eq_zero.2 (hinner h)
  have hline : IsLine (bytes text) := by
    rw [bytes, hbody, Utf8.encode_append]
    exact (isLine_append_lineFeed_iff _).2 (List.count_eq_zero.1 hfeeds)
  have hlines := lines_line_append hline []
  rwa [List.append_nil] at hlines

end Line

end IGate
