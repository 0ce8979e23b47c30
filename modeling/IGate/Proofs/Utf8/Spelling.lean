import IGate.Proofs.Text

/-! The bytes of a character, one by one. From one state to the next they make up a character, and no
other bytes make it up. -/

namespace IGate.Utf8

/-- A byte that stands where it should, at the end of a character. -/
def State.Ends : State → UInt8 → Prop
  | .start, b => b.toNat < 0x80
  | .within _ _ low high, b => low ≤ b ∧ b ≤ high

/-- From a state on, some bytes make up one character. -/
inductive Spells : State → Bytes → Char → Prop
  | last {q b c} (hb : q.Ends b) (h : step q b = ([c], .start)) : Spells q [b] c
  | more {q q' b u c} (h : step q b = ([], q')) (hu : Spells q' u c) : Spells q (b :: u) c

theorem read_cons (q : State) (b : UInt8) (rest : Bytes) :
    read q (b :: rest) = (step q b).1 ++ read (step q b).2 rest := by
  cases q <;> rfl

/-- What a first byte of several says of the others. -/
inductive Leads (b : UInt8) : Nat → Nat → UInt8 → UInt8 → Prop
  | two {value low high} (hb : b.toNat = value + 192) (hv : 2 ≤ value ∧ value < 32)
    (hl : 0x80 ≤ low.toNat) (hh : high.toNat ≤ 0xbf) : Leads b value 1 low high
  | three {value low high} (hb : b.toNat = value + 224) (hv : value < 16)
    (hl : 0x80 ≤ low.toNat) (hh : high.toNat ≤ 0xbf) (h0 : value = 0 → 0xa0 ≤ low.toNat)
    (hd : value = 13 → high.toNat ≤ 0x9f) : Leads b value 2 low high
  | four {value low high} (hb : b.toNat = value + 240) (hv : value < 5)
    (hl : 0x80 ≤ low.toNat) (hh : high.toNat ≤ 0xbf) (h0 : value = 0 → 0x90 ≤ low.toNat)
    (h4 : value = 4 → high.toNat ≤ 0x8f) : Leads b value 3 low high

/-- A first byte is a character, leads one of several bytes, or is in none. -/
inductive First (b : UInt8) : List Char × State → Prop
  | whole (hb : b.toNat < 0x80) : First b ([Char.ofNat b.toNat], .start)
  | leads {value owed low high} (hl : low ≤ high) (h : Leads b value owed low high) :
    First b ([], .within value owed low high)
  | none (hb : 0x80 ≤ b.toNat) : First b ([replacement], .start)

theorem First.of_eq {b : UInt8} {r : List Char × State} (hr : first b = r) : First b r := by
  unfold first at hr
  dsimp only at hr
  split at hr
  · next h => exact hr ▸ .whole h
  split at hr
  · exact hr ▸ .none (by omega)
  split at hr
  · refine hr ▸ .leads (by decide) (.two (by omega) (by omega) (by decide) (by decide))
  split at hr
  · refine hr ▸ .leads (by decide) (.three (by omega) (by omega) (by decide) (by decide) ?_ ?_) <;> decide
  split at hr
  · refine hr ▸ .leads (by decide) (.three (by omega) (by omega) (by decide) (by decide) ?_ ?_) <;> decide
  split at hr
  · refine hr ▸ .leads (by decide) (.three (by omega) (by omega) (by decide) (by decide) ?_ ?_) <;> omega
  split at hr
  · refine hr ▸ .leads (by decide) (.four (by omega) (by omega) (by decide) (by decide) ?_ ?_) <;> decide
  split at hr
  · refine hr ▸ .leads (by decide) (.four (by omega) (by omega) (by decide) (by decide) ?_ ?_) <;> omega
  split at hr
  · refine hr ▸ .leads (by decide) (.four (by omega) (by omega) (by decide) (by decide) ?_ ?_) <;> decide
  · exact hr ▸ .none (by omega)

section
variable {value owed : Nat} {low high b : UInt8}

theorem step_last (hb : low ≤ b ∧ b ≤ high) (ho : owed ≤ 1) :
    step (.within value owed low high) b = ([Char.ofNat (value * 64 + b.toNat % 64)], .start) := by
  simp only [step, if_pos hb, if_pos ho]

theorem step_more (hb : low ≤ b ∧ b ≤ high) (ho : ¬ owed ≤ 1) :
    step (.within value owed low high) b =
      ([], .within (value * 64 + b.toNat % 64) (owed - 1) 0x80 0xbf) := by
  simp only [step, if_pos hb, if_neg ho]

theorem step_broken (hb : ¬ (low ≤ b ∧ b ≤ high)) :
    step (.within value owed low high) b = (replacement :: (first b).1, (first b).2) := by
  simp only [step, if_neg hb]

end

namespace Spells

variable {q : State} {u t : Bytes} {c c' : Char} {b : UInt8}

theorem ne_nil (h : Spells q u c) : u ≠ [] := by
  cases h <;> exact List.cons_ne_nil _ _

theorem of_more {q' : State} (hs : step q b = ([], q')) (h : Spells q (b :: u) c) :
    Spells q' u c := by
  cases h with
  | last hb hs' =>
    rw [hs] at hs'
    cases hs'
  | more hs' hu =>
    rw [hs] at hs'
    cases hs'
    exact hu

/-- Nothing follows a character that is complete. -/
theorem eq_of_append (h : Spells q u c) (h' : Spells q (u ++ t) c') : t = [] ∧ c = c' := by
  induction h with
  | last hb hs =>
    cases h' with
    | last hb' hs' =>
      rw [hs] at hs'
      cases hs'
      exact ⟨rfl, rfl⟩
    | more hs' =>
      rw [hs] at hs'
      cases hs'
  | more hs _ ih => exact ih (h'.of_more hs)

theorem head (h : Spells q (b :: u) c) : q.Ends b ∨ ∃ q', step q b = ([], q') := by
  cases h with
  | last hb => exact .inl hb
  | more hs => exact .inr ⟨_, hs⟩

theorem exists_of_within (value owed : Nat) {low high : UInt8} (h : low ≤ high) :
    ∃ u c, Spells (.within value owed low high) u c := by
  induction owed generalizing value low high with
  | zero =>
    have hlow := And.intro (UInt8.le_refl low) h
    exact ⟨_, _, .last hlow (step_last hlow (Nat.zero_le 1))⟩
  | succ owed ih =>
    have hlow := And.intro (UInt8.le_refl low) h
    by_cases ho : owed + 1 ≤ 1
    · exact ⟨_, _, .last hlow (step_last hlow ho)⟩
    · obtain ⟨u, c, hu⟩ := ih (value * 64 + low.toNat % 64) (by decide : (0x80 : UInt8) ≤ 0xbf)
      exact ⟨_, c, .more (step_more hlow ho) hu⟩

theorem read_append (h : Spells q u c) (rest : Bytes) :
    read q (u ++ rest) = c :: read .start rest := by
  induction h with
  | last hb hs => rw [List.singleton_append, read_cons, hs, List.singleton_append]
  | more hs _ ih => rw [List.cons_append, read_cons, hs, ih, List.nil_append]

end Spells

/-! The bytes of a character -/

theorem toNat_byte {n : Nat} (h : n < 256) : (UInt8.ofNat n).toNat = n :=
  UInt8.toNat_ofNat_of_lt' h

theorem byte_eq {n : Nat} {b : UInt8} (h : n = b.toNat) : UInt8.ofNat n = b := by
  rw [h, UInt8.ofNat_toNat]

theorem toNat_ofNat_of_valid {n : Nat} (h : n.isValidChar) : (Char.ofNat n).val.toNat = n := by
  have hn := Char.toNat_ofNat n
  rwa [if_pos h] at hn

theorem between {n l h : Nat} (hl : l ≤ n) (hh : n ≤ h) (hb : h < 256) :
    UInt8.ofNat l ≤ UInt8.ofNat n ∧ UInt8.ofNat n ≤ UInt8.ofNat h := by
  rw [UInt8.le_iff_toNat_le, UInt8.le_iff_toNat_le, toNat_byte (by omega),
    toNat_byte (by omega), toNat_byte (by omega)]
  exact ⟨hl, hh⟩

theorem first_of_three {n : Nat} (h : 0x800 ≤ n) (hn : n < 0x10000) (hv : n.isValidChar) :
    ∃ low high, low ≤ n / 64 % 64 + 128 ∧ n / 64 % 64 + 128 ≤ high ∧ high < 256 ∧
      first (UInt8.ofNat (n / 4096 % 16 + 224)) =
        ([], .within (n / 4096) 2 (UInt8.ofNat low) (UInt8.ofNat high)) := by
  have hb : (UInt8.ofNat (n / 4096 % 16 + 224)).toNat = n / 4096 + 224 := by
    rw [toNat_byte (by omega)]
    omega
  simp only [Nat.isValidChar] at hv
  simp only [first, hb]
  by_cases h0 : n / 4096 = 0
  · refine ⟨0xa0, 0xbf, by omega, by omega, by omega, ?_⟩
    simp [h0]
  · by_cases hd : n / 4096 = 13
    · refine ⟨0x80, 0x9f, by omega, by omega, by omega, ?_⟩
      simp [hd]
    · refine ⟨0x80, 0xbf, by omega, by omega, by omega, ?_⟩
      rw [if_neg (by omega), if_neg (by omega), if_neg (by omega), if_neg (by omega),
        if_neg (by omega), if_pos (by omega)]
      simp

theorem first_of_four {n : Nat} (h : 0x10000 ≤ n) (hn : n < 0x110000) :
    ∃ low high, low ≤ n / 4096 % 64 + 128 ∧ n / 4096 % 64 + 128 ≤ high ∧ high < 256 ∧
      first (UInt8.ofNat (n / 262144 % 8 + 240)) =
        ([], .within (n / 262144) 3 (UInt8.ofNat low) (UInt8.ofNat high)) := by
  have hb : (UInt8.ofNat (n / 262144 % 8 + 240)).toNat = n / 262144 + 240 := by
    rw [toNat_byte (by omega)]
    omega
  simp only [first, hb]
  by_cases h0 : n / 262144 = 0
  · refine ⟨0x90, 0xbf, by omega, by omega, by omega, ?_⟩
    simp [h0]
  · by_cases h4 : n / 262144 = 4
    · refine ⟨0x80, 0x8f, by omega, by omega, by omega, ?_⟩
      simp [h4]
    · refine ⟨0x80, 0xbf, by omega, by omega, by omega, ?_⟩
      rw [if_neg (by omega), if_neg (by omega), if_neg (by omega), if_neg (by omega),
        if_neg (by omega), if_neg (by omega), if_neg (by omega), if_pos (by omega)]
      simp

theorem spells_last {value low high n m : Nat} (hl : low ≤ n % 64 + 128) (hh : n % 64 + 128 ≤ high)
    (hb : high < 256) (hm : m = value * 64 + n % 64) :
    Spells (.within value 1 (UInt8.ofNat low) (UInt8.ofNat high)) [UInt8.ofNat (n % 64 + 128)]
      (Char.ofNat m) := by
  have hrange := between hl hh hb
  have hsix : value * 64 + (UInt8.ofNat (n % 64 + 128)).toNat % 64 = m := by
    rw [toNat_byte (by omega)]
    omega
  have hstep : step (.within value 1 (UInt8.ofNat low) (UInt8.ofNat high)) _ = _ :=
    step_last hrange (Nat.le_refl 1)
  rw [hsix] at hstep
  exact .last hrange hstep

theorem spells_more {value owed low high n m : Nat} {u : Bytes} {c : Char}
    (hl : low ≤ n % 64 + 128) (hh : n % 64 + 128 ≤ high) (hb : high < 256)
    (hm : m = value * 64 + n % 64)
    (hu : Spells (.within m (owed + 1) (UInt8.ofNat 0x80) (UInt8.ofNat 0xbf)) u c) :
    Spells (.within value (owed + 2) (UInt8.ofNat low) (UInt8.ofNat high))
      (UInt8.ofNat (n % 64 + 128) :: u) c := by
  have hrange := between hl hh hb
  have hsix : value * 64 + (UInt8.ofNat (n % 64 + 128)).toNat % 64 = m := by
    rw [toNat_byte (by omega)]
    omega
  have hstep : step (.within value (owed + 2) (UInt8.ofNat low) (UInt8.ofNat high)) _ = _ :=
    step_more hrange (by omega)
  rw [hsix] at hstep
  exact .more hstep hu

theorem spells_encodeChar (c : Char) : Spells .start (String.utf8EncodeChar c) c := by
  have hvalid : c.val.toNat.isValidChar := c.valid
  obtain ⟨n, hn, hc⟩ : ∃ n, c.val.toNat = n ∧ c = Char.ofNat n :=
    ⟨_, rfl, (Char.ofNat_toNat c).symm⟩
  rw [hn] at hvalid
  have hbound : n < 0x110000 := by
    simp only [Nat.isValidChar] at hvalid
    omega
  simp only [String.utf8EncodeChar, hn]
  rw [hc]
  split_ifs with h1 h2 h3
  · have hb : (UInt8.ofNat n).toNat = n := toNat_byte (by omega)
    refine .last (by rw [State.Ends, hb]; omega) ?_
    simp only [step, first, hb]
    rw [if_pos (by omega)]
  · have hb : (UInt8.ofNat (n / 64 % 32 + 192)).toNat = n / 64 + 192 := by
      rw [toNat_byte (by omega)]
      omega
    have hfirst : first (UInt8.ofNat (n / 64 % 32 + 192)) =
        ([], .within (n / 64) 1 (UInt8.ofNat 0x80) (UInt8.ofNat 0xbf)) := by
      simp only [first, hb]
      rw [if_neg (by omega), if_neg (by omega), if_pos (by omega)]
      simp
    exact .more hfirst (spells_last (by omega) (by omega) (by omega) (by omega))
  · obtain ⟨low, high, hl, hh, hb, hfirst⟩ := first_of_three (by omega) (by omega) hvalid
    exact .more hfirst (spells_more hl hh hb rfl
      (spells_last (by omega) (by omega) (by omega) (by omega)))
  · obtain ⟨low, high, hl, hh, hb, hfirst⟩ := first_of_four (n := n) (by omega) hbound
    exact .more hfirst (spells_more hl hh hb rfl
      (spells_more (by omega) (by omega) (by omega) rfl
        (spells_last (by omega) (by omega) (by omega) (by omega))))

theorem spells_one_inv {value : Nat} {low high : UInt8} {u : Bytes} {c : Char}
    (h : Spells (.within value 1 low high) u c) :
    ∃ b, u = [b] ∧ (low ≤ b ∧ b ≤ high) ∧ c = Char.ofNat (value * 64 + b.toNat % 64) := by
  cases h with
  | @last _ b _ hb hs =>
    rw [step_last hb (Nat.le_refl 1)] at hs
    cases hs
    exact ⟨b, rfl, hb, rfl⟩
  | @more _ _ b _ _ hs =>
    by_cases hb : low ≤ b ∧ b ≤ high
    · rw [step_last hb (Nat.le_refl 1)] at hs
      cases hs
    · rw [step_broken hb] at hs
      cases hs

theorem spells_more_inv {value owed : Nat} {low high : UInt8} {u : Bytes} {c : Char}
    (h : Spells (.within value (owed + 2) low high) u c) :
    ∃ b rest, u = b :: rest ∧ (low ≤ b ∧ b ≤ high) ∧
      Spells (.within (value * 64 + b.toNat % 64) (owed + 1) 0x80 0xbf) rest c := by
  have howed : ¬ owed + 2 ≤ 1 := by omega
  cases h with
  | last hb hs =>
    rw [step_more hb howed] at hs
    cases hs
  | @more _ _ b rest _ hs hu =>
    by_cases hb : low ≤ b ∧ b ≤ high
    · rw [step_more hb howed] at hs
      cases hs
      exact ⟨b, rest, rfl, hb, hu⟩
    · rw [step_broken hb] at hs
      cases hs

theorem encodeChar_of_two {b₀ b₁ : UInt8} {n : Nat} (h : 0x80 ≤ n) (hn : n ≤ 0x7ff)
    (h₀ : b₀.toNat = n / 64 + 192) (h₁ : b₁.toNat = n % 64 + 128) :
    [b₀, b₁] = String.utf8EncodeChar (Char.ofNat n) := by
  have hval : (Char.ofNat n).val.toNat = n := toNat_ofNat_of_valid (by simp [Nat.isValidChar]; omega)
  simp only [String.utf8EncodeChar, hval]
  rw [if_neg (by omega), if_pos hn, byte_eq (b := b₀) (by omega), byte_eq (b := b₁) (by omega)]

theorem encodeChar_of_three {b₀ b₁ b₂ : UInt8} {n : Nat} (h : 0x800 ≤ n) (hn : n ≤ 0xffff)
    (hv : n.isValidChar) (h₀ : b₀.toNat = n / 4096 + 224) (h₁ : b₁.toNat = n / 64 % 64 + 128)
    (h₂ : b₂.toNat = n % 64 + 128) :
    [b₀, b₁, b₂] = String.utf8EncodeChar (Char.ofNat n) := by
  simp only [String.utf8EncodeChar, toNat_ofNat_of_valid hv]
  rw [if_neg (by omega), if_neg (by omega), if_pos hn, byte_eq (b := b₀) (by omega),
    byte_eq (b := b₁) (by omega), byte_eq (b := b₂) (by omega)]

theorem encodeChar_of_four {b₀ b₁ b₂ b₃ : UInt8} {n : Nat} (h : 0x10000 ≤ n) (hn : n < 0x110000)
    (h₀ : b₀.toNat = n / 262144 + 240) (h₁ : b₁.toNat = n / 4096 % 64 + 128)
    (h₂ : b₂.toNat = n / 64 % 64 + 128) (h₃ : b₃.toNat = n % 64 + 128) :
    [b₀, b₁, b₂, b₃] = String.utf8EncodeChar (Char.ofNat n) := by
  have hval : (Char.ofNat n).val.toNat = n := toNat_ofNat_of_valid (by simp [Nat.isValidChar]; omega)
  simp only [String.utf8EncodeChar, hval]
  rw [if_neg (by omega), if_neg (by omega), if_neg (by omega), byte_eq (b := b₀) (by omega),
    byte_eq (b := b₁) (by omega), byte_eq (b := b₂) (by omega), byte_eq (b := b₃) (by omega)]

/-- Only the bytes of a character make it up. -/
theorem encodeChar_of_spells {u : Bytes} {c : Char} (h : Spells .start u c) :
    u = String.utf8EncodeChar c := by
  have h80 : UInt8.toNat 0x80 = 0x80 := rfl
  have hbf : UInt8.toNat 0xbf = 0xbf := rfl
  cases h with
  | @last _ b _ hb hs =>
    cases First.of_eq hs with
    | none hb' => exact absurd hb (not_lt.2 hb')
    | whole hb =>
      have hval : (Char.ofNat b.toNat).val.toNat = b.toNat :=
        toNat_ofNat_of_valid (by simp [Nat.isValidChar]; omega)
      rw [String.utf8EncodeChar, hval, if_pos (by omega), UInt8.ofNat_toNat]
  | @more _ q b rest _ hs hu =>
    cases First.of_eq hs with
    | leads _ hlead =>
      cases hlead with
      | two h₀ hv hl hh =>
        obtain ⟨b₁, rfl, ⟨hl₁, hh₁⟩, rfl⟩ := spells_one_inv hu
        rw [UInt8.le_iff_toNat_le] at hl₁ hh₁
        exact encodeChar_of_two (by omega) (by omega) (by omega) (by omega)
      | three h₀ hv hl hh h0 hd =>
        obtain ⟨b₁, u₁, rfl, ⟨hl₁, hh₁⟩, hu₁⟩ := spells_more_inv hu
        obtain ⟨b₂, rfl, ⟨hl₂, hh₂⟩, rfl⟩ := spells_one_inv hu₁
        rw [UInt8.le_iff_toNat_le] at hl₁ hh₁ hl₂ hh₂
        exact encodeChar_of_three (by omega) (by omega) (by simp [Nat.isValidChar]; omega)
          (by omega) (by omega) (by omega)
      | four h₀ hv hl hh h0 h4 =>
        obtain ⟨b₁, u₁, rfl, ⟨hl₁, hh₁⟩, hu₁⟩ := spells_more_inv hu
        obtain ⟨b₂, u₂, rfl, ⟨hl₂, hh₂⟩, hu₂⟩ := spells_more_inv hu₁
        obtain ⟨b₃, rfl, ⟨hl₃, hh₃⟩, rfl⟩ := spells_one_inv hu₂
        rw [UInt8.le_iff_toNat_le] at hl₁ hh₁ hl₂ hh₂ hl₃ hh₃
        exact encodeChar_of_four (by omega) (by omega) (by omega) (by omega) (by omega) (by omega)

end IGate.Utf8
