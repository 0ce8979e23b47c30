import IGate.Proofs.Acceptance
import IGate.Proofs.Text.Uppercase

/-! What is stored of a callsign. It is cut first and goes to upper case then, where a letter may
become several. So it may be longer in the end than the cut allows, and it is cut once more when it
is given again. -/

namespace IGate.Credentials

open Text

def kept (raw : String) : String := trimEnd (String.ofList (raw.toList.take callsignLength))

theorem normalCallsign_eq_upper (raw : String) : normalCallsign raw = upper (kept raw) :=
  normalCallsign_eq raw

theorem kept_ne_empty_iff (raw : String) :
    kept raw ≠ "" ↔ ∃ c ∈ raw.toList.take callsignLength, isBlank c = false := by
  simp [kept, trimEnd_eq_empty_iff]

theorem length_kept_le (raw : String) : (kept raw).length ≤ callsignLength := by
  rw [← String.length_toList, kept, toList_trimEnd, String.toList_ofList]
  exact length_dropEnd_le.trans (List.length_take_le _ _)

theorem kept_eq_self {s : String} (hfirm : Firm s) (h : s.length ≤ callsignLength) :
    kept s = s := by
  rw [kept, List.take_of_length_le (by rwa [String.length_toList]), String.ofList_toList,
    hfirm.trimEnd_eq]

theorem settled_kept {s : String} (h : Settled s) : Settled (kept s) := by
  intro c hc
  rw [kept, toList_trimEnd, String.toList_ofList] at hc
  exact h c (List.mem_of_mem_take (mem_of_mem_dropEnd hc))

theorem new_eq_ok_iff {raw passcode : String} {c : Credentials} :
    new raw passcode = .ok c ↔
      kept raw ≠ "" ∧ passcode ≠ "" ∧ c = ⟨upper (kept raw), passcode⟩ := by
  simp only [new, normalCallsign_eq_upper, upper_eq_empty_iff]
  by_cases hcallsign : kept raw = ""
  · simp [hcallsign]
  · by_cases hpasscode : passcode = "" <;> simp [hcallsign, hpasscode, eq_comm]

structure Canonical (callsign : String) : Prop where
  length_pos : 1 ≤ callsign.length
  length_le : callsign.length ≤ 8
  firm : ∀ c ∈ callsign.toList.getLast?, isBlank c = false
  upper_eq : upper callsign = callsign
  /-- It is accepted again, and stored as it is. -/
  fixed : ∀ passcode ≠ "", new callsign passcode = .ok ⟨callsign, passcode⟩

theorem canonical_of_length_le {s : String} (hne : s ≠ "") (hfirm : Firm s) (hsettled : Settled s)
    (h : s.length ≤ 8) : Canonical s where
  length_pos := by
    rw [Nat.one_le_iff_ne_zero, ← String.length_toList, ne_eq, List.length_eq_zero_iff,
      String.toList_eq_nil_iff]
    exact hne
  length_le := h
  firm := hfirm
  upper_eq := hsettled.upper_eq
  fixed passcode hp := by
    have hkept : kept s = s := kept_eq_self hfirm h
    rw [new_eq_ok_iff, hkept, hsettled.upper_eq]
    exact ⟨hne, hp, rfl⟩

/-- A text in upper case comes back as it is just when the cut leaves it alone. -/
theorem fixed_iff_of_settled {s : String} (hne : s ≠ "") (hfirm : Firm s) (hsettled : Settled s) :
    (∃ passcode, new s passcode = .ok ⟨s, passcode⟩) ↔ s.length ≤ 8 := by
  refine ⟨fun ⟨passcode, hnew⟩ => ?_, fun h => ?_⟩
  · obtain ⟨-, -, hsame⟩ := new_eq_ok_iff.1 hnew
    rw [(settled_kept hsettled).upper_eq, mk.injEq] at hsame
    rw [hsame.1]
    exact length_kept_le s
  · exact ⟨"0", (canonical_of_length_le hne hfirm hsettled h).fixed "0" (by decide)⟩

theorem canonical_of_again {s : String} (hne : kept s ≠ "") (hsettled : Settled s) :
    ∀ passcode ≠ "", ∃ c, new s passcode = .ok c ∧ Canonical c.callsign := by
  intro passcode hp
  have hstored : upper (kept s) = kept s := (settled_kept hsettled).upper_eq
  refine ⟨⟨kept s, passcode⟩, new_eq_ok_iff.2 ⟨hne, hp, by rw [hstored]⟩, ?_⟩
  exact canonical_of_length_le hne (firm_trimEnd _) (settled_kept hsettled) (length_kept_le s)

structure Stored (raw stored : String) : Prop where
  ne_empty : stored ≠ ""
  firm : ∀ c ∈ stored.toList.getLast?, isBlank c = false
  upper_eq : upper stored = stored
  length_eq : stored.length = ((kept raw).toList.map fun c => (upperChar c).length).sum
  length_le : stored.length ≤ 24
  /-- It can only be too long. -/
  canonical_iff : Canonical stored ↔ stored.length ≤ 8
  fixed_iff : (∃ passcode, new stored passcode = .ok ⟨stored, passcode⟩) ↔ stored.length ≤ 8
  /-- No letter of it has become several. -/
  plain : (∀ c ∈ (kept raw).toList, (upperChar c).length = 1) → Canonical stored
  /-- Given again it is as it should be. -/
  second : ∀ passcode ≠ "", ∃ c, new stored passcode = .ok c ∧ Canonical c.callsign

theorem length_upper (s : String) :
    (upper s).length = (s.toList.map fun c => (upperChar c).length).sum := by
  rw [← String.length_toList, toList_upper, List.length_flatMap]

theorem length_upper_le (s : String) : (upper s).length ≤ s.length * 3 := by
  have hbound := List.sum_le_card_nsmul (s.toList.map fun c => (upperChar c).length) 3
    (by simpa using fun c _ => length_upperChar_le c)
  rwa [List.length_map, smul_eq_mul, ← length_upper, String.length_toList] at hbound

theorem length_upper_of_plain {s : String} (h : ∀ c ∈ s.toList, (upperChar c).length = 1) :
    (upper s).length = s.length := by
  rw [length_upper, List.map_congr_left h, List.map_const', List.sum_replicate, smul_eq_mul,
    mul_one, String.length_toList]

theorem kept_upper_ne_empty {raw : String} (h : kept raw ≠ "") : kept (upper (kept raw)) ≠ "" := by
  have hself : kept (kept raw) = kept raw := kept_eq_self (firm_trimEnd _) (length_kept_le raw)
  rw [kept_ne_empty_iff, toList_upper]
  exact exists_visible_take_upper ((kept_ne_empty_iff _).1 (hself.symm ▸ h))

theorem stored_upper {raw : String} (h : kept raw ≠ "") : Stored raw (upper (kept raw)) := by
  have hne : upper (kept raw) ≠ "" := mt upper_eq_empty_iff.1 h
  have hfirm : Firm (upper (kept raw)) := (firm_trimEnd _).upper
  have hsettled : Settled (upper (kept raw)) := settled_upper _
  have hcanonical := canonical_of_length_le hne hfirm hsettled
  have hkept : (kept raw).length ≤ 8 := length_kept_le raw
  have hlength : (upper (kept raw)).length ≤ (kept raw).length * 3 := length_upper_le _
  exact {
    ne_empty := hne
    firm := hfirm
    upper_eq := upper_upper _
    length_eq := length_upper _
    length_le := by omega
    canonical_iff := ⟨Canonical.length_le, hcanonical⟩
    fixed_iff := fixed_iff_of_settled hne hfirm hsettled
    plain := fun hplain => hcanonical ((length_upper_of_plain hplain).trans_le hkept)
    second := canonical_of_again (kept_upper_ne_empty h) hsettled }

/-- An accepted callsign is stored in upper case and without blanks at its end. It is as it should
be just when upper case has not made it too long, and otherwise it is so when it is given again. -/
theorem callsign_stored {raw passcode : String} {c : Credentials} (h : new raw passcode = .ok c) :
    Stored raw c.callsign ∧ c.passcode = passcode := by
  obtain ⟨hkept, -, rfl⟩ := new_eq_ok_iff.1 h
  exact ⟨stored_upper hkept, rfl⟩

theorem callsign_stored_within : new " oh2rdß  home" "12345" = .ok ⟨" OH2RDSS", "12345"⟩ ∧
    Canonical " OH2RDSS" := by
  have hnew : new " oh2rdß  home" "12345" = .ok ⟨" OH2RDSS", "12345"⟩ := by decide
  exact ⟨hnew, (callsign_stored hnew).1.canonical_iff.2 (by decide)⟩

/-- Eight characters are kept, nine stored, and eight of these when they are given again. -/
theorem stored_too_long :
    ∃ c, new "dl1abc-ß" "12345" = .ok c ∧ 8 < c.callsign.length ∧
      new c.callsign "12345" ≠ .ok c :=
  ⟨⟨"DL1ABC-SS", "12345"⟩, by decide, by decide, by decide⟩

end IGate.Credentials
