import IGate.Proofs.Utf8.Spelling

/-! What bytes read as. Characters stand for themselves, and each stretch that begins a character and
breaks off, or cannot begin one, reads as one U+FFFD. -/

namespace IGate.Utf8

/-- The bytes of some character begin like this. -/
def Begins (w : Bytes) : Prop := ∃ c, w <+: String.utf8EncodeChar c

/-- The characters that bytes read as. A broken stretch is as long as it can be. -/
inductive Lossy : Bytes → List Char → Prop
  | nil : Lossy [] []
  | char {bs cs} (c : Char) (h : Lossy bs cs) : Lossy (String.utf8EncodeChar c ++ bs) (c :: cs)
  | broken {w bs cs} (hw : Begins w ∨ w.length = 1) (hne : w ≠ [])
    (hn : ∀ c, ¬ String.utf8EncodeChar c <+: w ++ bs) (hm : ∀ b ∈ bs.head?, ¬ Begins (w ++ [b]))
    (h : Lossy bs cs) : Lossy (w ++ bs) (replacement :: cs)

theorem begins_iff {w : Bytes} : Begins w ↔ ∃ u c, Spells .start (w ++ u) c := by
  constructor
  · rintro ⟨c, u, h⟩
    exact ⟨u, c, h ▸ spells_encodeChar c⟩
  · rintro ⟨u, c, h⟩
    exact ⟨c, u, encodeChar_of_spells h⟩

theorem Begins.of_append {w t : Bytes} (h : Begins (w ++ t)) : Begins w := by
  obtain ⟨c, hc⟩ := h
  exact ⟨c, (List.prefix_append w t).trans hc⟩

theorem not_prefix_of_not_begins {w : Bytes} {b : UInt8} (hw : ∀ c, ¬ String.utf8EncodeChar c <+: w)
    (hb : ¬ Begins (w ++ [b])) (bs : Bytes) (c : Char) :
    ¬ String.utf8EncodeChar c <+: w ++ b :: bs := by
  intro hc
  have hsplit : w ++ [b] <+: w ++ b :: bs := ⟨bs, by simp⟩
  rcases List.prefix_or_prefix_of_prefix hc hsplit with h | h
  · rcases List.prefix_concat_iff.1 h with heq | hin
    · exact hb ⟨c, heq ▸ List.prefix_rfl⟩
    · exact hw c hin
  · exact hb ⟨c, h⟩

/-- Bytes that lead from the start into a character. -/
inductive Reached : Bytes → State → Prop
  | lead {b q} (h : step .start b = ([], q)) : Reached [b] q
  | more {w b q q'} (hw : Reached w q) (h : step q b = ([], q')) : Reached (w ++ [b]) q'

namespace Reached

variable {w u : Bytes} {q : State} {c : Char}

theorem ne_nil (h : Reached w q) : w ≠ [] := by
  cases h <;> simp

theorem spells (h : Reached w q) (hu : Spells q u c) : Spells .start (w ++ u) c := by
  induction h generalizing u with
  | lead hs => exact .more hs hu
  | more _ hs ih =>
    rw [List.append_assoc]
    exact ih (.more hs hu)

theorem of_spells (h : Reached w q) (hu : Spells .start (w ++ u) c) : Spells q u c := by
  induction h generalizing u with
  | lead hs => exact hu.of_more hs
  | more _ hs ih =>
    rw [List.append_assoc] at hu
    exact (ih hu).of_more hs

theorem exists_within (h : Reached w q) :
    ∃ value owed low high, q = .within value owed low high ∧ low ≤ high := by
  induction h with
  | lead hs =>
    cases First.of_eq hs with
    | leads hl => exact ⟨_, _, _, _, rfl, hl⟩
  | @more w b q q' _ hs ih =>
    obtain ⟨value, owed, low, high, rfl, -⟩ := ih
    by_cases hb : low ≤ b ∧ b ≤ high
    · by_cases ho : owed ≤ 1
      · exact nomatch (step_last hb ho).symm.trans hs
      · exact ⟨_, _, _, _, (congrArg Prod.snd (hs.symm.trans (step_more hb ho))), by decide⟩
    · exact nomatch (step_broken hb).symm.trans hs

theorem begins (h : Reached w q) : Begins w := by
  obtain ⟨value, owed, low, high, rfl, hle⟩ := h.exists_within
  obtain ⟨u, c, hu⟩ := Spells.exists_of_within value owed hle
  exact begins_iff.2 ⟨u, c, h.spells hu⟩

/-- Bytes that lead into a character do not contain one. -/
theorem not_prefix (h : Reached w q) (c : Char) : ¬ String.utf8EncodeChar c <+: w := by
  rintro ⟨t, rfl⟩
  obtain ⟨value, owed, low, high, rfl, hle⟩ := h.exists_within
  obtain ⟨u, c', hu⟩ := Spells.exists_of_within value owed hle
  have hwhole := h.spells hu
  rw [List.append_assoc] at hwhole
  have htail := ((spells_encodeChar c).eq_of_append hwhole).1
  exact hu.ne_nil (List.append_eq_nil_iff.1 htail).2

end Reached

/-- Bytes inside a character: it is completed, or it goes on, or it breaks off. -/
theorem lossy_of_reached {w : Bytes} {q : State} (hw : Reached w q) (bs : Bytes)
    (ih : ∀ rest : Bytes, rest.length < (w ++ bs).length → Lossy rest (read .start rest)) :
    Lossy (w ++ bs) (read q bs) := by
  induction bs generalizing w q with
  | nil =>
    obtain ⟨value, owed, low, high, rfl, -⟩ := hw.exists_within
    exact .broken (.inl hw.begins) hw.ne_nil (by simpa using hw.not_prefix) nofun .nil
  | cons b bs ihbs =>
    obtain ⟨value, owed, low, high, rfl, -⟩ := id hw.exists_within
    have hsplit : w ++ b :: bs = (w ++ [b]) ++ bs := by simp
    rw [read_cons]
    by_cases hb : low ≤ b ∧ b ≤ high
    · by_cases ho : owed ≤ 1
      · have hstep : step (.within value owed low high) b = _ := step_last hb ho
        have hwhole := encodeChar_of_spells (hw.spells (.last hb hstep))
        rw [hstep, hsplit, hwhole]
        exact .char _ (ih bs (by simp; omega))
      · have hstep : step (.within value owed low high) b = _ := step_more hb ho
        rw [hstep, hsplit, List.nil_append]
        exact ihbs (.more hw hstep) fun rest hrest => ih rest (by rwa [hsplit])
    · have hstep : step (.within value owed low high) b = _ := step_broken hb
      have hmax : ¬ Begins (w ++ [b]) := by
        rw [begins_iff]
        rintro ⟨u, c, hu⟩
        rw [List.append_assoc] at hu
        rcases (hw.of_spells hu).head with hends | ⟨q', hmore⟩
        · exact hb hends
        · exact nomatch hstep.symm.trans hmore
      have hnone := not_prefix_of_not_begins hw.not_prefix hmax bs
      have hread : (step .start b).1 ++ read (step .start b).2 bs = read .start (b :: bs) :=
        (read_cons ..).symm
      have hrest := ih (b :: bs) (by
        have := List.length_pos_iff.2 hw.ne_nil
        simp only [List.length_append]
        omega)
      rw [hstep, List.cons_append]
      refine .broken (.inl hw.begins) hw.ne_nil hnone ?_ (hread ▸ hrest)
      rintro b' ⟨⟩
      exact hmax

theorem not_begins_of_first {b : UInt8} (hb : 0x80 ≤ b.toNat) (h : first b = ([replacement], .start)) :
    ¬ Begins [b] := by
  rw [begins_iff]
  rintro ⟨u, c, hu⟩
  rcases hu.head with hends | ⟨q', hmore⟩
  · exact absurd hends (not_lt.2 hb)
  · exact nomatch h.symm.trans hmore

theorem lossy_read (bs : Bytes) : Lossy bs (read .start bs) := by
  induction hn : bs.length using Nat.strong_induction_on generalizing bs with
  | _ n ih =>
    subst hn
    cases bs with
    | nil => exact .nil
    | cons b bs =>
      rw [read_cons]
      generalize hf : step .start b = r
      cases First.of_eq hf with
      | whole hb =>
        have hwhole : [b] = String.utf8EncodeChar _ := encodeChar_of_spells (.last hb hf)
        rw [← List.singleton_append, hwhole]
        exact .char _ (ih _ (by simp) bs rfl)
      | leads =>
        rw [List.nil_append, ← List.singleton_append]
        exact lossy_of_reached (.lead hf) bs fun rest hrest => ih _ hrest rest rfl
      | none hb =>
        have hnone := not_begins_of_first hb hf
        have hempty : ∀ c, ¬ String.utf8EncodeChar c <+: [] := fun c hc =>
          (spells_encodeChar c).ne_nil (List.prefix_nil.1 hc)
        rw [← List.singleton_append]
        exact .broken (.inr rfl) (List.cons_ne_nil _ _) (not_prefix_of_not_begins hempty hnone bs)
          (fun b' _ h => hnone h.of_append) (ih _ (by simp) bs rfl)

/-! There is no other way to read them -/

/-- What begins a character and is none leads into it. -/
theorem exists_reached {w : Bytes} (hne : w ≠ []) (hw : Begins w)
    (hn : ∀ c, ¬ String.utf8EncodeChar c <+: w) : ∃ q, Reached w q := by
  induction w using List.reverseRecOn with
  | nil => exact absurd rfl hne
  | append_singleton w b ih =>
    obtain ⟨u, c, hu⟩ := begins_iff.1 hw
    have hstep : ∀ {q}, Spells q (b :: u) c → ∃ q', step q b = ([], q') := by
      intro q hspell
      cases hspell with
      | last => exact absurd (encodeChar_of_spells hu ▸ by simp) (hn c)
      | more hs => exact ⟨_, hs⟩
    by_cases hnil : w = []
    · subst hnil
      obtain ⟨q, hq⟩ := hstep hu
      exact ⟨q, .lead hq⟩
    · obtain ⟨q, hq⟩ := ih hnil hw.of_append fun c hc => hn c (hc.trans (List.prefix_append ..))
      rw [List.append_assoc] at hu
      obtain ⟨q', hq'⟩ := hstep (hq.of_spells hu)
      exact ⟨q', .more hq hq'⟩

theorem Reached.read_append {w : Bytes} {q : State} (h : Reached w q) (bs : Bytes) :
    read .start (w ++ bs) = read q bs := by
  induction h generalizing bs with
  | lead hs => rw [List.singleton_append, read_cons, hs, List.nil_append]
  | more _ hs ih => rw [List.append_assoc, ih, List.singleton_append, read_cons, hs, List.nil_append]

theorem read_broken {w bs : Bytes} (hw : Begins w ∨ w.length = 1) (hne : w ≠ [])
    (hn : ∀ c, ¬ String.utf8EncodeChar c <+: w ++ bs) (hm : ∀ b ∈ bs.head?, ¬ Begins (w ++ [b])) :
    read .start (w ++ bs) = replacement :: read .start bs := by
  by_cases hb : Begins w
  · obtain ⟨q, hq⟩ := exists_reached hne hb fun c hc => hn c (hc.trans (List.prefix_append ..))
    rw [hq.read_append]
    obtain ⟨value, owed, low, high, rfl, -⟩ := id hq.exists_within
    cases bs with
    | nil => rfl
    | cons b bs =>
      have hbroken : ¬ (low ≤ b ∧ b ≤ high) := by
        intro hrange
        refine hm b rfl ?_
        by_cases ho : owed ≤ 1
        · have hstep : step (.within value owed low high) b = _ := step_last hrange ho
          exact begins_iff.2 ⟨[], _, by simpa using hq.spells (.last hrange hstep)⟩
        · exact (hq.more (step_more hrange ho)).begins
      rw [read_cons, step_broken hbroken, read_cons]
      rfl
  · obtain ⟨b, rfl⟩ := List.length_eq_one_iff.1 (hw.resolve_left hb)
    rw [List.singleton_append, read_cons]
    generalize hf : step .start b = r
    cases First.of_eq hf with
    | whole hlow =>
      have hends : State.start.Ends b := hlow
      exact absurd (begins_iff.2 ⟨[], _, .last hends hf⟩) hb
    | leads => exact absurd (Reached.lead hf).begins hb
    | none => rfl

/-- The relation says all about the reading of bytes. -/
theorem lossy_iff {bs : Bytes} {cs : List Char} : Lossy bs cs ↔ read .start bs = cs := by
  refine ⟨fun h => ?_, fun h => h ▸ lossy_read bs⟩
  induction h with
  | nil => rfl
  | char c _ ih => rw [(spells_encodeChar c).read_append, ih]
  | broken hw hne hn hm _ ih => rw [read_broken hw hne hn hm, ih]

/-! Texts -/

theorem lossy_decodeLossy (bs : Bytes) : Lossy bs (decodeLossy bs).toList := by
  rw [decodeLossy, String.toList_ofList]
  exact lossy_read bs

theorem decodeLossy_of_lossy {bs : Bytes} {cs : List Char} (h : Lossy bs cs) :
    decodeLossy bs = String.ofList cs := by
  rw [decodeLossy, lossy_iff.1 h]

@[simp] theorem decodeLossy_encode (s : String) : decodeLossy (encode s) = s := by
  have hchars : ∀ cs : List Char, Lossy (cs.flatMap String.utf8EncodeChar) cs := by
    intro cs
    induction cs with
    | nil => exact .nil
    | cons c cs ih => exact .char c ih
  rw [encode, decodeLossy_of_lossy (hchars s.toList), String.ofList_toList]

/-- Nothing is lost of the bytes of a text, and something of all others. -/
theorem encode_decodeLossy_eq_iff {bs : Bytes} :
    encode (decodeLossy bs) = bs ↔ ∃ s, bs = encode s := by
  constructor
  · exact fun h => ⟨_, h.symm⟩
  · rintro ⟨s, rfl⟩
    rw [decodeLossy_encode]

/-! Bytes below 128 -/

/-- A byte below 128 is a character of its own, and is in no other. -/
theorem encodeChar_of_mem_ascii {b : UInt8} {c : Char} (hb : b.toNat < 0x80)
    (h : b ∈ String.utf8EncodeChar c) :
    String.utf8EncodeChar c = [b] ∧ c = Char.ofNat b.toNat := by
  have hval : c.val.toNat ≤ 127 := by
    by_contra hc
    exact absurd (le_of_mem_encodeChar hc b h) (by omega)
  have hone : String.utf8EncodeChar c = [UInt8.ofNat c.val.toNat] := by
    rw [String.utf8EncodeChar, if_pos hval]
  rw [hone, List.mem_singleton] at h
  subst h
  have hbyte : (UInt8.ofNat c.val.toNat).toNat = c.val.toNat := toNat_byte (by omega)
  refine ⟨hone, ?_⟩
  rw [hbyte]
  exact (Char.ofNat_toNat c).symm

theorem encodeChar_ascii {b : UInt8} (hb : b.toNat < 0x80) :
    String.utf8EncodeChar (Char.ofNat b.toNat) = [b] := by
  have hstep : step .start b = ([Char.ofNat b.toNat], .start) := by simp only [step, first, if_pos hb]
  exact (encodeChar_of_spells (.last (q := .start) hb hstep)).symm

theorem not_begins_ascii {w : Bytes} {b : UInt8} (hw : w ≠ []) (hb : b.toNat < 0x80) :
    ¬ Begins (w ++ [b]) := by
  rintro ⟨c, hc⟩
  have hone := (encodeChar_of_mem_ascii hb (hc.subset (by simp))).1
  have hlength := hc.length_le
  rw [hone, List.length_append] at hlength
  have := List.length_pos_iff.2 hw
  simp only [List.length_singleton] at hlength
  omega

namespace Lossy

variable {bs e : Bytes} {cs : List Char}

theorem eq_nil_iff (h : Lossy bs cs) : cs = [] ↔ bs = [] := by
  cases h with
  | nil => simp
  | char c => simp
  | broken _ hne => simp [hne]

theorem append_ascii (h : Lossy bs cs) (he : ∀ b ∈ e, b.toNat < 0x80) :
    Lossy (bs ++ e) (cs ++ e.map fun b => Char.ofNat b.toNat) := by
  induction h with
  | nil =>
    rw [List.nil_append, List.nil_append]
    induction e with
    | nil => exact .nil
    | cons b e ih =>
      obtain ⟨hb, he⟩ := List.forall_mem_cons.1 he
      have h := Lossy.char (Char.ofNat b.toNat) (ih he)
      rwa [encodeChar_ascii hb] at h
  | char c _ ih =>
    rw [List.append_assoc, List.cons_append]
    exact .char c ih
  | @broken w bs cs hw hne hn hm _ ih =>
    rw [List.append_assoc, List.cons_append]
    refine .broken hw hne (fun c hc => ?_) ?_ ih
    · rw [← List.append_assoc] at hc
      rcases List.prefix_or_prefix_of_prefix hc (List.prefix_append (w ++ bs) e) with h | ⟨t, ht⟩
      · exact hn c h
      · cases t with
        | nil => exact hn c (by simp [← ht])
        | cons b t =>
          rw [← ht, List.prefix_append_right_inj] at hc
          have hmore : Begins ((w ++ bs) ++ [b]) := ⟨c, t, by rw [← ht]; simp⟩
          exact not_begins_ascii (by simp [hne]) (he b (hc.subset (by simp))) hmore
    · cases bs with
      | nil => exact fun b hb => not_begins_ascii hne (he b (List.mem_of_mem_head? hb))
      | cons => exact hm

/-- The last character is such a byte only if the last byte is. -/
theorem getLast?_ascii (h : Lossy bs cs) {c : Char} (hc : cs.getLast? = some c)
    (hlow : c.toNat < 0x80) : bs.getLast? = some (UInt8.ofNat c.toNat) := by
  induction h with
  | nil => cases hc
  | @char bs cs c' h ih =>
    by_cases hnil : cs = []
    · obtain rfl := h.eq_nil_iff.1 hnil
      subst hnil
      obtain rfl : c' = c := by simpa using hc
      have hone : String.utf8EncodeChar c' = [UInt8.ofNat c'.toNat] := by
        rw [String.utf8EncodeChar]
        exact if_pos (Nat.le_of_lt_succ hlow)
      simp [hone]
    · have hbs : bs ≠ [] := fun hb => hnil (h.eq_nil_iff.2 hb)
      rw [List.getLast?_append_of_ne_nil _ hbs]
      rw [List.getLast?_cons_of_ne_nil hnil] at hc
      exact ih hc
  | @broken w bs cs hw hne hn hm h ih =>
    by_cases hnil : cs = []
    · subst hnil
      obtain rfl : replacement = c := by simpa using hc
      exact absurd hlow (by decide)
    · have hbs : bs ≠ [] := fun hb => hnil (h.eq_nil_iff.2 hb)
      rw [List.getLast?_append_of_ne_nil _ hbs]
      rw [List.getLast?_cons_of_ne_nil hnil] at hc
      exact ih hc

theorem head?_ascii (h : Lossy bs cs) {b : UInt8} (hb : b.toNat < 0x80) :
    cs.head? = some (Char.ofNat b.toNat) ↔ bs.head? = some b := by
  cases h with
  | nil => simp
  | @char bs cs c h =>
    rw [List.head?_cons, Option.some.injEq, List.head?_append_of_ne_nil _ (by simp)]
    constructor
    · rintro rfl
      rw [encodeChar_ascii hb]
      rfl
    · exact fun hhead => (encodeChar_of_mem_ascii hb (List.mem_of_mem_head? hhead)).2
  | @broken w bs cs hw hne hn hm h =>
    rw [List.head?_cons, Option.some.injEq, List.head?_append_of_ne_nil _ hne]
    constructor
    · intro heq
      have hval : replacement.val.toNat = b.toNat := by
        rw [heq]
        exact toNat_ofNat_of_valid (by simp [Nat.isValidChar]; omega)
      exact absurd hval (by simp [replacement]; omega)
    · intro hhead
      obtain ⟨t, rfl⟩ := List.head?_eq_some_iff.1 hhead
      exact absurd (by rw [encodeChar_ascii hb]; simp) (hn (Char.ofNat b.toNat))

theorem length_le (h : Lossy bs cs) :
    (cs.flatMap String.utf8EncodeChar).length ≤ 3 * bs.length := by
  induction h with
  | nil => simp
  | char c _ ih =>
    simp only [List.flatMap_cons, List.length_append]
    omega
  | @broken w bs cs _ hne _ _ _ ih =>
    have hthree : (String.utf8EncodeChar replacement).length = 3 := by decide
    have := List.length_pos_iff.2 hne
    simp only [List.flatMap_cons, List.length_append, hthree]
    omega

end Lossy

end IGate.Utf8
