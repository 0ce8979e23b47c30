import IGate.Proofs.Text

/-! Upper case is final. What comes out of the tables does not go into them again, and blanks
neither come out of them nor go in. Both are read off the tables as progressions of numbers. -/

namespace IGate.Text

/-- The numbers `first`, `first + stride`, … up to `last`. -/
structure Progression where
  first : Nat
  last : Nat
  stride : Nat

namespace Progression

def single (n : Nat) : Progression := ⟨n, n, 1⟩

def has (p : Progression) (n : Nat) : Bool :=
  Nat.ble p.first n && Nat.ble n p.last && (n - p.first) % p.stride == 0

/-- Nothing is in both. Members are looked at only where the ends do not settle it. -/
def apart (p q : Progression) : Bool :=
  Nat.blt q.last p.first || Nat.blt p.last q.first ||
    (List.range (p.last - p.first + 1)).all fun k => !(p.has (p.first + k) && q.has (p.first + k))

variable {p q : Progression} {n : Nat}

theorem has_iff :
    p.has n = true ↔ p.first ≤ n ∧ n ≤ p.last ∧ (n - p.first) % p.stride = 0 := by
  simp [has, and_assoc]

@[simp] theorem has_single (n : Nat) : (single n).has n = true := by
  simp [has_iff, single]

theorem not_has_of_apart (h : p.apart q = true) (hp : p.has n = true) : q.has n = false := by
  have hin := has_iff.1 hp
  simp only [apart, Bool.or_eq_true, Nat.blt_eq, List.all_eq_true, List.mem_range] at h
  rcases h with (h | h) | h
  · exact Bool.eq_false_iff.2 fun hq => by have := has_iff.1 hq; omega
  · exact Bool.eq_false_iff.2 fun hq => by have := has_iff.1 hq; omega
  · have hn : p.first + (n - p.first) = n := by omega
    have hboth := h (n - p.first) (by omega)
    rw [hn, hp] at hboth
    simpa using hboth

end Progression

def mapped : List Progression :=
  upperExpansions.map (fun e => .single e.1) ++
    upperRuns.map fun r => ⟨r.first, r.last, r.stride⟩

def images : List Progression :=
  (upperExpansions.flatMap Prod.snd).map .single ++
    upperRuns.map fun r => ⟨r.image, r.image + (r.last - r.first), r.stride⟩

def blanks : List Progression :=
  [⟨0x9, 0xd, 1⟩, .single 0x20, .single 0x85, .single 0xa0, .single 0x1680, ⟨0x2000, 0x200a, 1⟩,
    .single 0x2028, .single 0x2029, .single 0x202f, .single 0x205f, .single 0x3000]

def Among (ps : List Progression) (n : Nat) : Prop := ∃ p ∈ ps, p.has n = true

theorem not_among_of_apart {ps qs : List Progression} {n : Nat}
    (h : (ps.all fun p => qs.all p.apart) = true) (hp : Among ps n) : ¬ Among qs n := by
  rintro ⟨q, hq, hqn⟩
  obtain ⟨p, hp, hpn⟩ := hp
  have hapart := List.all_eq_true.1 (List.all_eq_true.1 h p hp) q hq
  simp [Progression.not_has_of_apart hapart hpn] at hqn

theorem images_unmapped : (images.all fun p => mapped.all p.apart) = true := by decide +kernel

theorem images_unblank : (images.all fun p => blanks.all p.apart) = true := by decide +kernel

theorem mapped_unblank : (mapped.all fun p => blanks.all p.apart) = true := by decide +kernel

theorem isBlank_iff_among (c : Char) : isBlank c = true ↔ Among blanks c.toNat := by
  simp [isBlank, Among, blanks, Progression.has_iff, Progression.single, Nat.mod_one]
  omega

section
variable {n : Nat} {ns : List Nat}

theorem MapsTo.among_mapped (h : MapsTo n ns) : Among mapped n := by
  cases h with
  | expansion he =>
    exact ⟨.single n, List.mem_append_left _ (List.mem_map.2 ⟨_, he, rfl⟩), by simp⟩
  | run hr hin =>
    exact ⟨_, List.mem_append_right _ (List.mem_map.2 ⟨_, hr, rfl⟩), Progression.has_iff.2 hin⟩

theorem MapsTo.among_images (h : MapsTo n ns) : ∀ m ∈ ns, Among images m := by
  intro m hm
  cases h with
  | expansion he =>
    have hflat : m ∈ upperExpansions.flatMap Prod.snd := List.mem_flatMap.2 ⟨_, he, hm⟩
    exact ⟨.single m, List.mem_append_left _ (List.mem_map.2 ⟨m, hflat, rfl⟩), by simp⟩
  | @run r hr hin =>
    obtain rfl := List.mem_singleton.1 hm
    refine ⟨_, List.mem_append_right _ (List.mem_map.2 ⟨_, hr, rfl⟩), Progression.has_iff.2 ?_⟩
    refine ⟨Nat.le_add_right _ _, by simp only; omega, ?_⟩
    rw [Nat.add_sub_cancel_left]
    exact hin.2.2

theorem MapsTo.length_le (h : MapsTo n ns) : ns.length ≤ 3 := by
  have hexpansions : ∀ e ∈ upperExpansions, e.2.length ≤ 3 := by decide +kernel
  cases h with
  | expansion he => exact hexpansions _ he
  | run => simp

end

section
variable {c d : Char}

/-- A character of which the tables say something, or one that stays as it is. -/
theorem upperChar_of_unmapped (h : ¬ Among mapped c.toNat) : upperChar c = [c] := by
  obtain hc | ⟨ns, hmaps, -⟩ := upperChar_eq_or_mapsTo c
  · exact hc
  · exact absurd hmaps.among_mapped h

theorem eq_or_among_of_mem_upperChar (h : d ∈ upperChar c) :
    upperChar c = [c] ∧ d = c ∨ Among mapped c.toNat ∧ Among images d.toNat := by
  obtain hc | ⟨ns, hmaps, hc⟩ := upperChar_eq_or_mapsTo c
  · exact .inl ⟨hc, List.mem_singleton.1 (hc ▸ h)⟩
  · rw [hc] at h
    obtain ⟨n, hn, rfl⟩ := List.mem_map.1 h
    have hvalid := (hmaps.valid.2 n hn).1
    rw [Char.toNat_ofNat, if_pos hvalid]
    exact .inr ⟨hmaps.among_mapped, hmaps.among_images n hn⟩

/-- What has come out of upper case stays as it is. -/
theorem upperChar_of_mem_upperChar (h : d ∈ upperChar c) : upperChar d = [d] := by
  obtain ⟨hc, rfl⟩ | ⟨-, hd⟩ := eq_or_among_of_mem_upperChar h
  · exact hc
  · exact upperChar_of_unmapped (not_among_of_apart images_unmapped hd)

theorem isBlank_of_mem_upperChar (h : d ∈ upperChar c) : isBlank d = isBlank c := by
  obtain ⟨-, rfl⟩ | ⟨hc, hd⟩ := eq_or_among_of_mem_upperChar h
  · rfl
  · have hd' : ¬ isBlank d = true :=
      mt (isBlank_iff_among d).1 (not_among_of_apart images_unblank hd)
    have hc' : ¬ isBlank c = true :=
      mt (isBlank_iff_among c).1 (not_among_of_apart mapped_unblank hc)
    rw [Bool.eq_false_iff.2 hd', Bool.eq_false_iff.2 hc']

theorem upperChar_of_isBlank (h : isBlank c = true) : upperChar c = [c] :=
  upperChar_of_unmapped fun hc =>
    not_among_of_apart mapped_unblank hc ((isBlank_iff_among c).1 h)

theorem length_upperChar_le (c : Char) : (upperChar c).length ≤ 3 := by
  obtain hc | ⟨ns, hmaps, hc⟩ := upperChar_eq_or_mapsTo c
  · simp [hc]
  · rw [hc, List.length_map]
    exact hmaps.length_le

end

/-- A text that upper case leaves as it is, character by character. -/
def Settled (s : String) : Prop := ∀ c ∈ s.toList, upperChar c = [c]

theorem Settled.upper_eq {s : String} (h : Settled s) : upper s = s := by
  rw [← String.toList_inj, toList_upper, List.flatMap_congr h, List.flatMap_singleton']

theorem settled_upper (s : String) : Settled (upper s) := by
  intro d hd
  rw [toList_upper] at hd
  obtain ⟨c, -, hc⟩ := List.mem_flatMap.1 hd
  exact upperChar_of_mem_upperChar hc

@[simp] theorem upper_upper (s : String) : upper (upper s) = upper s := (settled_upper s).upper_eq

theorem Firm.upper {s : String} (h : Firm s) : Firm (upper s) := by
  rw [Firm, toList_upper]
  rcases List.eq_nil_or_concat s.toList with hs | ⟨before, c, hs⟩
  · simp [hs]
  · rw [List.concat_eq_append] at hs
    have hc : isBlank c = false := h c (by simp [hs])
    intro d hd
    rw [hs, List.flatMap_append, List.flatMap_singleton,
      List.getLast?_append_of_ne_nil _ (upperChar_ne_nil c)] at hd
    rw [isBlank_of_mem_upperChar (List.mem_of_mem_getLast? hd), hc]

/-- Blanks stay single in upper case: the first character that is none does not move back. -/
theorem exists_visible_take_upper {n : Nat} {cs : List Char}
    (h : ∃ c ∈ cs.take n, isBlank c = false) :
    ∃ d ∈ (cs.flatMap upperChar).take n, isBlank d = false := by
  induction cs generalizing n with
  | nil => simp at h
  | cons c cs ih =>
    cases n with
    | zero => simp at h
    | succ n =>
      cases hc : isBlank c with
      | true =>
        have hrest : ∃ c ∈ cs.take n, isBlank c = false := by simpa [hc] using h
        obtain ⟨d, hd, hblank⟩ := ih hrest
        exact ⟨d, by simp [upperChar_of_isBlank hc, hd], hblank⟩
      | false =>
        obtain ⟨d, ds, hupper⟩ := List.exists_cons_of_ne_nil (upperChar_ne_nil c)
        have hd : d ∈ upperChar c := by simp [hupper]
        exact ⟨d, by simp [hupper], (isBlank_of_mem_upperChar hd).trans hc⟩

end IGate.Text
