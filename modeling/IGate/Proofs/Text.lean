import IGate.LineBuffer
import IGate.Text.Blank
import IGate.Text.Uppercase
import Mathlib

/-! What trimming and upper case leave of a text, and where the line feeds of a text stand among
its bytes. -/

namespace IGate

/-- Counting goes through a map of characters that turns one `a` into one `b` and makes no other
`b`. -/
theorem count_flatMap_of_count {α β : Type} [DecidableEq α] [DecidableEq β] {f : α → List β}
    {a : α} {b : β} (h : ∀ x, (f x).count b = if x = a then 1 else 0) (xs : List α) :
    (xs.flatMap f).count b = xs.count a := by
  induction xs with
  | nil => rfl
  | cons x xs ih => simp [h, ih, List.count_cons, Nat.add_comm]

namespace Text

theorem dropEnd_append {p : Char → Bool} {more : List Char} (h : ∀ c ∈ more, p c = true)
    (cs : List Char) : dropEnd p (cs ++ more) = dropEnd p cs := by
  have hmore : more.reverse.dropWhile p = [] :=
    List.dropWhile_eq_nil_iff.2 fun c hc => h c (List.mem_reverse.1 hc)
  simp [dropEnd, List.dropWhile_append, hmore]

@[simp] theorem dropEnd_eq_nil_iff {p : Char → Bool} {cs : List Char} :
    dropEnd p cs = [] ↔ ∀ c ∈ cs, p c = true := by
  simp [dropEnd, List.dropWhile_eq_nil_iff]

theorem trimEnd_eq_empty_iff {s : String} :
    trimEnd s = "" ↔ ∀ c ∈ s.toList, isBlank c = true := by
  rw [← String.toList_eq_nil_iff, toList_trimEnd, dropEnd_eq_nil_iff]

theorem trim_eq_empty_iff {s : String} : trim s = "" ↔ ∀ c ∈ s.toList, isBlank c = true := by
  rw [← String.toList_eq_nil_iff, toList_trim, dropEnd_eq_nil_iff]
  refine ⟨fun h => ?_, fun h c hc => h c ((List.dropWhile_suffix isBlank).subset hc)⟩
  -- were a character not blank, the first of the rest would be one, and it is blank
  by_contra hs
  have hrest : s.toList.dropWhile isBlank ≠ [] := fun hnil => hs (List.dropWhile_eq_nil_iff.1 hnil)
  have hhead := List.head_dropWhile_not isBlank hrest
  rw [h _ (List.head_mem hrest)] at hhead
  cases hhead

section
variable {p : Char → Bool} {cs : List Char}

theorem not_of_mem_getLast?_dropEnd : ∀ c ∈ (dropEnd p cs).getLast?, p c = false := by
  intro c hc
  rw [dropEnd, List.getLast?_reverse] at hc
  have hfirst := List.head?_dropWhile_not p cs.reverse
  rw [Option.mem_def.1 hc] at hfirst
  exact hfirst

theorem dropEnd_eq_self (h : ∀ c ∈ cs.getLast?, p c = false) : dropEnd p cs = cs := by
  rcases List.eq_nil_or_concat cs with rfl | ⟨before, c, rfl⟩
  · rfl
  · simp only [List.concat_eq_append, List.getLast?_concat, Option.mem_def, Option.some.injEq,
      forall_eq'] at h
    simp [dropEnd, h]

theorem length_dropEnd_le : (dropEnd p cs).length ≤ cs.length := by
  have h := (List.dropWhile_suffix p (l := cs.reverse)).length_le
  simpa [dropEnd] using h

theorem mem_of_mem_dropEnd {c : Char} (h : c ∈ dropEnd p cs) : c ∈ cs :=
  List.mem_reverse.1 ((List.dropWhile_suffix p).subset (List.mem_reverse.1 h))

end

def Firm (s : String) : Prop := ∀ c ∈ s.toList.getLast?, isBlank c = false

theorem Firm.trimEnd_eq {s : String} (h : Firm s) : trimEnd s = s := by
  rw [← String.toList_inj, toList_trimEnd, dropEnd_eq_self h]

theorem firm_trimEnd (s : String) : Firm (trimEnd s) := by
  rw [Firm, toList_trimEnd]
  exact not_of_mem_getLast?_dropEnd

/-! Upper case -/

inductive MapsTo (n : Nat) : List Nat → Prop
  | expansion {ns : List Nat} (he : (n, ns) ∈ upperExpansions) : MapsTo n ns
  | run {r : CaseRun} (hr : r ∈ upperRuns)
    (hin : r.first ≤ n ∧ n ≤ r.last ∧ (n - r.first) % r.stride = 0) :
    MapsTo n [r.image + (n - r.first)]

theorem upperChar_eq_or_mapsTo (c : Char) :
    upperChar c = [c] ∨ ∃ ns, MapsTo c.toNat ns ∧ upperChar c = ns.map Char.ofNat := by
  unfold upperChar
  split
  · next ns hns =>
    obtain ⟨before, after, htable, -⟩ := List.lookup_eq_some_iff.1 hns
    exact .inr ⟨ns, .expansion (by rw [htable]; simp), rfl⟩
  · split
    · next n hn =>
      obtain ⟨r, hr, hrun⟩ := List.exists_of_findSome?_eq_some hn
      simp only [CaseRun.image?] at hrun
      split at hrun
      · next hin =>
        cases hrun
        exact .inr ⟨_, .run hr hin, rfl⟩
      · cases hrun
    · exact .inl rfl

/-- The tables map to one or more characters, none of which stands before `A`. -/
theorem MapsTo.valid {n : Nat} {ns : List Nat} (h : MapsTo n ns) :
    ns ≠ [] ∧ ∀ m ∈ ns, m.isValidChar ∧ 'A'.toNat ≤ m := by
  have hexpansions : ∀ e ∈ upperExpansions,
      e.2 ≠ [] ∧ ∀ n ∈ e.2, n.isValidChar ∧ 'A'.toNat ≤ n := by decide +kernel
  have hruns : ∀ r ∈ upperRuns, 'A'.toNat ≤ r.image ∧
      (r.image + (r.last - r.first) < 0xd800 ∨
        0xdfff < r.image ∧ r.image + (r.last - r.first) < 0x110000) := by decide +kernel
  cases h with
  | expansion he => exact hexpansions _ he
  | run hr hin =>
    have himage := hruns _ hr
    refine ⟨List.cons_ne_nil _ _, ?_⟩
    simp only [List.mem_singleton, forall_eq, Nat.isValidChar]
    omega

theorem upperChar_cases (c : Char) :
    upperChar c = [c] ∨
      ∃ ns : List Nat, ns ≠ [] ∧ (∀ n ∈ ns, n.isValidChar ∧ 'A'.toNat ≤ n) ∧
        upperChar c = ns.map Char.ofNat := by
  obtain h | ⟨ns, hmaps, h⟩ := upperChar_eq_or_mapsTo c
  · exact .inl h
  · obtain ⟨hne, hvalid⟩ := hmaps.valid
    exact .inr ⟨ns, hne, hvalid, h⟩

@[simp] theorem upperChar_ne_nil (c : Char) : upperChar c ≠ [] := by
  obtain h | ⟨ns, hne, -, h⟩ := upperChar_cases c <;> simp [*]

/-- Nothing but letters and marks comes out of upper case that was not there before. -/
theorem eq_or_le_of_mem_upperChar {c d : Char} (h : d ∈ upperChar c) : d = c ∨ 'A' ≤ d := by
  obtain hc | ⟨ns, -, hvalid, hc⟩ := upperChar_cases c
  · exact .inl (List.mem_singleton.1 (hc ▸ h))
  · rw [hc] at h
    obtain ⟨n, hn, rfl⟩ := List.mem_map.1 h
    have hn' : (Char.ofNat n).toNat = n := by rw [Char.toNat_ofNat, if_pos (hvalid n hn).1]
    refine .inr ?_
    rw [Char.le_def, UInt32.le_iff_toNat_le]
    exact (hvalid n hn).2.trans_eq hn'.symm

@[simp] theorem upper_eq_empty_iff {s : String} : upper s = "" ↔ s = "" := by
  rw [← String.toList_eq_nil_iff, ← String.toList_eq_nil_iff, toList_upper]
  cases s.toList <;> simp

/-! Line feeds -/

def lineFeeds (s : String) : Nat := s.toList.count '\n'

@[simp] theorem lineFeeds_append (s t : String) :
    lineFeeds (s ++ t) = lineFeeds s + lineFeeds t := by
  simp [lineFeeds]

theorem lineFeeds_upper (s : String) : lineFeeds (upper s) = lineFeeds s := by
  unfold lineFeeds
  rw [toList_upper]
  refine count_flatMap_of_count (fun c => ?_) s.toList
  split
  · next hc => subst hc; rfl
  · next hc =>
    refine List.count_eq_zero.2 fun hmem => ?_
    obtain h | h := eq_or_le_of_mem_upperChar hmem
    · exact hc h.symm
    · exact absurd h (by decide)

end Text

namespace Utf8

@[simp] theorem encode_append (s t : String) : encode (s ++ t) = encode s ++ encode t := by
  simp [encode]

theorem le_of_mem_encodeChar {c : Char} (hc : ¬ c.val.toNat ≤ 127) :
    ∀ b ∈ String.utf8EncodeChar c, 128 ≤ b.toNat := by
  simp only [String.utf8EncodeChar, if_neg hc]
  split_ifs <;>
    simp only [List.forall_mem_cons, UInt8.toNat_ofNat', List.not_mem_nil, false_imp_iff,
      implies_true, and_true] <;> omega

/-- A byte below 128 is a character of its own. -/
theorem count_lineFeed_encodeChar (c : Char) :
    (String.utf8EncodeChar c).count lineFeed = if c = '\n' then 1 else 0 := by
  by_cases hc : c.val.toNat ≤ 127
  · have hbyte : UInt8.ofNat c.val.toNat = lineFeed ↔ c = '\n' := by
      have hsize : c.val.toNat < 2 ^ 8 := by omega
      rw [← UInt8.toNat_inj, UInt8.toNat_ofNat_of_lt' hsize, ← Char.toNat_inj]
      exact Iff.rfl
    simp only [String.utf8EncodeChar, if_pos hc, List.count_singleton, beq_iff_eq, hbyte]
  · have hne : c ≠ '\n' := by rintro rfl; exact hc (by decide)
    rw [if_neg hne]
    exact List.count_eq_zero.2 fun hmem => absurd (le_of_mem_encodeChar hc _ hmem) (by decide)

theorem count_lineFeed_encode (s : String) : (encode s).count lineFeed = Text.lineFeeds s :=
  count_flatMap_of_count count_lineFeed_encodeChar s.toList

end Utf8

end IGate
