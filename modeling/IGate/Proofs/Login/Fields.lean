import IGate.Login
import Mathlib

/-! The login line can be read back. Every word of it ends at a space, and the filter, which may
hold spaces itself, stands last. -/

namespace IGate

namespace Text

/-- What may follow a word: nothing, or a space before all else. -/
def Apart (s : String) : Prop := ∀ c ∈ s.toList.head?, c = ' '

theorem apart_append {s : String} (h : s.toList.head? = some ' ') (t : String) :
    Apart (s ++ t) := by
  intro c hc
  rw [String.toList_append, List.head?_append, h] at hc
  exact (Option.some.inj hc).symm

theorem word_ends_once {a b rest rest' : List Char} (ha : ' ' ∉ a) (hb : ' ' ∉ b)
    (hrest : ∀ c ∈ rest.head?, c = ' ') (hrest' : ∀ c ∈ rest'.head?, c = ' ')
    (h : a ++ rest = b ++ rest') : a = b ∧ rest = rest' := by
  induction a generalizing b with
  | nil =>
    cases b with
    | nil => exact ⟨rfl, h⟩
    | cons d b =>
      have hd : d = ' ' := hrest d (by rw [← List.nil_append rest, h]; rfl)
      exact absurd (hd ▸ List.mem_cons_self) hb
  | cons c a ih =>
    cases b with
    | nil =>
      have hc : c = ' ' := hrest' c (by rw [← List.nil_append rest', ← h]; rfl)
      exact absurd (hc ▸ List.mem_cons_self) ha
    | cons d b =>
      obtain ⟨rfl, htail⟩ := List.cons_eq_cons.1 h
      obtain ⟨rfl, hend⟩ :=
        ih (List.not_mem_of_not_mem_cons ha) (List.not_mem_of_not_mem_cons hb) htail
      exact ⟨rfl, hend⟩

/-- A word and what follows it can be told apart. -/
theorem word_unique {a b rest rest' : String} (ha : ' ' ∉ a.toList) (hb : ' ' ∉ b.toList)
    (hrest : Apart rest) (hrest' : Apart rest') (h : a ++ rest = b ++ rest') :
    a = b ∧ rest = rest' := by
  have hlists : a.toList ++ rest.toList = b.toList ++ rest'.toList := by
    rw [← String.toList_append, h, String.toList_append]
  obtain ⟨hword, hend⟩ := word_ends_once ha hb hrest hrest' hlists
  exact ⟨String.toList_inj.1 hword, String.toList_inj.1 hend⟩

end Text

namespace Login

open Text

/-- The filter that is asked for, without the blanks around it. A blank one is none. -/
def asked (filter : Option String) : Option String :=
  (filter.map trim).filter fun f => f ≠ ""

theorem filterPart_eq (filter : Option String) :
    filterPart filter = ((asked filter).map fun f => " filter " ++ f).getD "" := by
  cases filter with
  | none => rfl
  | some f => by_cases hf : trim f = "" <;> simp [filterPart, asked, Option.filter, hf]

theorem filterPart_inj {filter filter' : Option String} :
    filterPart filter = filterPart filter' ↔ asked filter = asked filter' := by
  refine ⟨fun h => ?_, fun h => by rw [filterPart_eq, filterPart_eq, h]⟩
  rw [filterPart_eq, filterPart_eq] at h
  cases hf : asked filter <;> cases hf' : asked filter' <;> simp_all [String.append_right_inj]

theorem apart_filterPart (filter : Option String) : Apart (filterPart filter) := by
  rw [filterPart_eq]
  cases asked filter with
  | none => exact nofun
  | some f => exact apart_append (by decide) f

structure Worded (l : Login) : Prop where
  callsign : ' ' ∉ l.credentials.callsign.toList
  passcode : ' ' ∉ l.credentials.passcode.toList
  clientName : ' ' ∉ l.clientName.toList
  version : ' ' ∉ l.version.toList

/-- The two lines are the same only for the same texts, blanks around the filter apart. -/
theorem line_unambiguous {l l' : Login} (h : l.Worded) (h' : l'.Worded) :
    l.line = l'.line ↔
      l.credentials.callsign = l'.credentials.callsign ∧
      l.credentials.passcode = l'.credentials.passcode ∧
      l.clientName = l'.clientName ∧ l.version = l'.version ∧
      asked l.filter = asked l'.filter := by
  constructor
  · intro hline
    simp only [line, String.append_assoc, String.append_right_inj] at hline
    obtain ⟨hcallsign, hline⟩ := word_unique h.callsign h'.callsign
      (apart_append (by decide) _) (apart_append (by decide) _) hline
    rw [String.append_right_inj] at hline
    obtain ⟨hpasscode, hline⟩ := word_unique h.passcode h'.passcode
      (apart_append (by decide) _) (apart_append (by decide) _) hline
    rw [String.append_right_inj] at hline
    obtain ⟨hname, hline⟩ := word_unique h.clientName h'.clientName
      (apart_append (by decide) _) (apart_append (by decide) _) hline
    rw [String.append_right_inj] at hline
    obtain ⟨hversion, hfilter⟩ := word_unique h.version h'.version
      (apart_filterPart _) (apart_filterPart _) hline
    exact ⟨hcallsign, hpasscode, hname, hversion, filterPart_inj.1 hfilter⟩
  · rintro ⟨hcallsign, hpasscode, hname, hversion, hfilter⟩
    rw [line, line, hcallsign, hpasscode, hname, hversion, filterPart_inj.2 hfilter]

/-- A login without a name and a version, whose filter reads like the rest of a line. -/
def bare (filter : String) : Login := ⟨⟨"N0CALL", "12345"⟩, "", "", some filter⟩

theorem line_unambiguous_bare :
    (bare " filter vers 1 pass\t").line = (bare "filter vers 1 pass").line ∧
      (bare "vers 1 pass").line ≠ (bare "filter vers 1 pass").line := by
  have hempty : ' ' ∉ "".toList := by decide
  have hbare (filter : String) : (bare filter).Worded :=
    ⟨(by decide : ' ' ∉ "N0CALL".toList), (by decide : ' ' ∉ "12345".toList), hempty, hempty⟩
  refine ⟨(line_unambiguous (hbare _) (hbare _)).2 (by decide), fun hline => ?_⟩
  obtain ⟨-, -, -, -, hfilter⟩ := (line_unambiguous (hbare _) (hbare _)).1 hline
  exact absurd hfilter (by decide)

example : (⟨⟨"N0CALL", "12345"⟩, "IGate", "1.0 filter m/50", none⟩ : Login).line =
    (⟨⟨"N0CALL", "12345"⟩, "IGate", "1.0", some "m/50"⟩ : Login).line := by decide

end Login

end IGate
