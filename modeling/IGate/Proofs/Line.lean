import IGate.Line
import IGate.Proofs.Text

/-! The end of a line. Trimming takes away the spaces, carriage returns and line feeds that stand
there, terminating adds some, and a line is a comment afterwards just when it was one before. -/

namespace IGate.Line

def Filler (run : String) : Prop := ∀ c ∈ run.toList, c = ' ' ∨ c = '\r' ∨ c = '\n'

/-- The longest filler at the end of a text is taken away. -/
structure Trims (text front : String) : Prop where
  rest : ∃ run, text = front ++ run ∧ Filler run
  last : ∀ c ∈ front.toList.getLast?, c ≠ ' ' ∧ c ≠ '\r' ∧ c ≠ '\n'
  longest : ∀ front' run', text = front' ++ run' → Filler run' →
    front.toList <+: front'.toList

/-- A text is made to end in a line feed. -/
structure Terminates (text line : String) : Prop where
  last : line.toList.getLast? = some '\n'
  added : line = text ∨ line = text ++ "\r\n"

def data (lines : List String) : List String := lines.filter fun line => ¬ isComment line

theorem isEnding_iff {c : Char} : isEnding c = true ↔ c = ' ' ∨ c = '\r' ∨ c = '\n' := by
  simp only [isEnding, Bool.or_eq_true, beq_iff_eq]
  tauto

theorem filler_iff {run : String} : Filler run ↔ ∀ c ∈ run.toList, isEnding c = true := by
  simp only [Filler, isEnding_iff]

theorem filler_terminator : Filler terminator := by
  simp [Filler, terminator]

/-! Trimming and termination -/

theorem rtrim_append {run : String} (h : Filler run) (text : String) :
    rtrim (text ++ run) = rtrim text := by
  rw [rtrim, String.toList_append, Text.dropEnd_append (filler_iff.1 h), rtrim]

theorem exists_rtrim_append (text : String) : ∃ run, text = rtrim text ++ run ∧ Filler run := by
  refine ⟨String.ofList (text.toList.rtakeWhile isEnding), ?_, ?_⟩
  · rw [← String.toList_inj, String.toList_append, toList_rtrim, String.toList_ofList]
    exact (List.rdropWhile_append_rtakeWhile ..).symm
  · rw [filler_iff, String.toList_ofList]
    exact fun c hc => List.mem_rtakeWhile_imp hc

theorem last_rtrim (text : String) :
    ∀ c ∈ (rtrim text).toList.getLast?, c ≠ ' ' ∧ c ≠ '\r' ∧ c ≠ '\n' := by
  intro c hc
  rw [toList_rtrim] at hc
  have hnot : ¬ isEnding c = true := by
    rw [Text.not_of_mem_getLast?_dropEnd c hc]
    exact Bool.false_ne_true
  rwa [isEnding_iff, not_or, not_or] at hnot

theorem rtrim_prefix (text : String) : (rtrim text).toList <+: text.toList := by
  obtain ⟨run, hrun, -⟩ := exists_rtrim_append text
  refine ⟨run.toList, ?_⟩
  rw [← String.toList_append, ← hrun]

/-- A front of the text that leaves filler only is no shorter. -/
theorem rtrim_prefix_of_append {text front run : String} (htext : text = front ++ run)
    (h : Filler run) : (rtrim text).toList <+: front.toList := by
  rw [htext, rtrim_append h]
  exact rtrim_prefix front

theorem trims_rtrim (text : String) : Trims text (rtrim text) :=
  ⟨exists_rtrim_append text, last_rtrim text, fun _ _ => rtrim_prefix_of_append⟩

theorem terminates_terminate (text : String) : Terminates text (terminate text) := by
  unfold terminate
  split
  · next hends => exact ⟨hends, .inl rfl⟩
  · refine ⟨?_, .inr rfl⟩
    have hlist : (text ++ terminator).toList = (text.toList ++ ['\r']) ++ ['\n'] := by
      simp [terminator]
    rw [hlist, List.getLast?_concat]

theorem terminate_eq_self {line : String} (h : line.toList.getLast? = some '\n') :
    terminate line = line := if_pos h

theorem exists_terminate_append (text : String) :
    ∃ run, terminate text = text ++ run ∧ Filler run := by
  rcases (terminates_terminate text).added with h | h
  · exact ⟨"", by simp [h], by simp [Filler]⟩
  · exact ⟨terminator, h, filler_terminator⟩

theorem terminate_terminate (text : String) : terminate (terminate text) = terminate text :=
  terminate_eq_self (terminates_terminate text).last

/-! Comments -/

theorem isComment_iff {text : String} :
    isComment text = true ↔ ∃ rest, text = "#" ++ rest := by
  rw [isComment, beq_iff_eq, List.head?_eq_some_iff]
  constructor
  · rintro ⟨rest, hrest⟩
    refine ⟨String.ofList rest, ?_⟩
    rw [← String.toList_inj, hrest]
    simp
  · rintro ⟨rest, rfl⟩
    exact ⟨rest.toList, String.toList_append⟩

theorem Filler.not_isComment {run : String} (h : Filler run) : isComment run = false := by
  rw [isComment, beq_eq_false_iff_ne]
  intro hhead
  rcases h '#' (List.mem_of_head? hhead) with hc | hc | hc <;> exact absurd hc (by decide)

theorem isComment_append {run : String} (h : Filler run) (text : String) :
    isComment (text ++ run) = isComment text := by
  by_cases htext : text.toList = []
  · obtain rfl := String.toList_eq_nil_iff.1 htext
    rw [String.empty_append, h.not_isComment]
    rfl
  · rw [isComment, String.toList_append, List.head?_append_of_ne_nil _ htext, isComment]

/-! What does not depend on filler -/

/-- Filler at the end of a text makes no difference to it. -/
def IgnoresFiller {α : Type} (f : String → α) : Prop :=
  ∀ {run}, Filler run → ∀ text, f (text ++ run) = f text

namespace IgnoresFiller

variable {α : Type} {f : String → α} (h : IgnoresFiller f) (text : String)
include h

theorem trimmed : f (rtrim text) = f text := by
  obtain ⟨run, hrun, hfiller⟩ := exists_rtrim_append text
  have happend := h hfiller (rtrim text)
  rw [← hrun] at happend
  exact happend.symm

theorem terminated : f (terminate text) = f text := by
  obtain ⟨run, hrun, hfiller⟩ := exists_terminate_append text
  rw [hrun, h hfiller]

end IgnoresFiller

theorem ignoresFiller_rtrim : IgnoresFiller rtrim := rtrim_append

theorem ignoresFiller_isComment : IgnoresFiller isComment := isComment_append

theorem data_map {f : String → String} (h : ∀ line, isComment (f line) = isComment line)
    (lines : List String) : data (lines.map f) = (data lines).map f := by
  rw [data, List.filter_map]
  refine congrArg _ (List.filter_congr fun line _ => ?_)
  rw [Function.comp_apply, h]

/-- The longest filler is trimmed and a line feed is the end of what is terminated, neither changes
anything when it is done again, trimming takes back what terminating adds, and comments are the
same lines before and after. -/
theorem ends_compose (text : String) (lines : List String) :
    Trims text (rtrim text) ∧ Terminates text (terminate text) ∧
      rtrim (rtrim text) = rtrim text ∧ terminate (terminate text) = terminate text ∧
      rtrim (terminate text) = rtrim text ∧
      (isComment text = true ↔ ∃ rest, text = "#" ++ rest) ∧
      isComment (rtrim text) = isComment text ∧ isComment (terminate text) = isComment text ∧
      data (lines.map rtrim) = (data lines).map rtrim ∧
      data (lines.map terminate) = (data lines).map terminate :=
  ⟨trims_rtrim text, terminates_terminate text, ignoresFiller_rtrim.trimmed text,
    terminate_terminate text, ignoresFiller_rtrim.terminated text, isComment_iff,
    ignoresFiller_isComment.trimmed text, ignoresFiller_isComment.terminated text,
    data_map ignoresFiller_isComment.trimmed lines,
    data_map ignoresFiller_isComment.terminated lines⟩

end IGate.Line
