import IGate.Client.Step
import IGate.Proofs.Acceptance
import IGate.Proofs.Framing

/-! The login on the wire. Five texts of a configuration go into it, and nothing but the blanks
around some of them is taken away before: a line feed inside one of them ends the line there. -/

namespace IGate

open Text

namespace LineBuffer

theorem length_lines (stream : Bytes) : (lines stream).length = stream.count lineFeed := by
  unfold lines
  induction stream with
  | nil => rfl
  | cons b bs ih =>
    by_cases hb : b = lineFeed
    · simp [cut, hb, ih]
    · have hcount : (b :: bs).count lineFeed = bs.count lineFeed := List.count_cons_of_ne hb
      rw [hcount, ← ih]
      cases hcut : cut bs with
      | mk ls rest => cases ls <;> simp [cut, hb, hcut]

theorem unfinished_append_lineFeed (bytes : Bytes) : unfinished (bytes ++ [lineFeed]) = [] := by
  obtain ⟨-, hrest, hstream⟩ := cut_spec (bytes ++ [lineFeed])
  rcases List.eq_nil_or_concat (unfinished (bytes ++ [lineFeed])) with hnil | ⟨before, b, hb⟩
  · exact hnil
  · rw [List.concat_eq_append] at hb
    rw [hb, ← List.append_assoc] at hstream
    have hlast : b = lineFeed := List.singleton_inj.1 (List.append_inj' hstream rfl).2
    exact absurd (by rw [hb, hlast]; simp) hrest

theorem isLine_append_lineFeed_iff (body : Bytes) :
    IsLine (body ++ [lineFeed]) ↔ lineFeed ∉ body := by
  refine ⟨fun ⟨body', hbody, h⟩ => ?_, fun h => ⟨body, h, rfl⟩⟩
  rwa [List.append_cancel_right h]

end LineBuffer

namespace Login

def bytes (l : Login) : Bytes := Utf8.encode (l.line ++ Line.terminator)

theorem greeted_banner (c : Client) (w : Worker) (raw rest : Bytes) :
    (c.greeted w raw rest .banner).1 = c.wait w (.loggingIn rest c.settings.login.bytes) := rfl

theorem bytes_eq (l : Login) :
    l.bytes = (Utf8.encode l.line ++ Utf8.encode "\r") ++ [lineFeed] := by
  rw [bytes, Utf8.encode_append, List.append_assoc]
  rfl

theorem lineFeeds_filterPart (filter : Option String) :
    lineFeeds (filterPart filter) = lineFeeds (trim (filter.getD "")) := by
  cases filter with
  | none => rfl
  | some f =>
    by_cases hf : trim f = ""
    · simp [filterPart, hf]
    · have hword : lineFeeds " filter " = 0 := by decide
      simp [filterPart, hf, hword]

end Login

namespace ClientConfig

/-- The texts that go into the login, without the blanks that are taken away. -/
def spliced (config : ClientConfig) : List String :=
  [trimEnd (String.ofList (config.callsign.toList.take callsignLength)), config.passcode,
    trim config.clientName, config.version, trim (config.filter.getD "")]

def breaks (config : ClientConfig) : Nat := (config.spliced.map lineFeeds).sum

theorem lineFeeds_login (config : ClientConfig) :
    lineFeeds config.checked.login.line = config.breaks := by
  have huser : lineFeeds "user " = 0 := by decide
  have hpass : lineFeeds " pass " = 0 := by decide
  have hvers : lineFeeds " vers " = 0 := by decide
  have hblank : lineFeeds " " = 0 := by decide
  simp only [checked, Login.line, lineFeeds_append, Login.lineFeeds_filterPart,
    Credentials.normalCallsign_eq, lineFeeds_upper, huser, hpass, hvers, hblank, breaks, spliced,
    List.map_cons, List.map_nil, List.sum_cons, List.sum_nil]
  omega

theorem breaks_eq_zero_iff (config : ClientConfig) :
    config.breaks = 0 ↔ ∀ text ∈ config.spliced, '\n' ∉ text.toList := by
  simp [breaks, List.sum_eq_zero_iff, lineFeeds, List.count_eq_zero]

theorem count_lineFeed_before_last (config : ClientConfig) :
    (Utf8.encode config.checked.login.line ++ Utf8.encode "\r").count lineFeed =
      config.breaks := by
  have hreturn : (Utf8.encode "\r").count lineFeed = 0 := by decide
  rw [List.count_append, hreturn, Utf8.count_lineFeed_encode, lineFeeds_login, Nat.add_zero]

theorem length_lines_checked (config : ClientConfig) :
    (LineBuffer.lines config.checked.login.bytes).length = config.breaks + 1 := by
  rw [LineBuffer.length_lines, Login.bytes_eq, List.count_append, count_lineFeed_before_last]
  rfl

theorem isLine_checked_iff (config : ClientConfig) :
    IsLine config.checked.login.bytes ↔ ∀ text ∈ config.spliced, '\n' ∉ text.toList := by
  rw [Login.bytes_eq, LineBuffer.isLine_append_lineFeed_iff, ← List.count_eq_zero,
    count_lineFeed_before_last, breaks_eq_zero_iff]

/-- The server sees a line more than it should for each line feed in a text of the login, and so
the login is one line just when none of them holds any. -/
theorem login_lines {config : ClientConfig} {settings : Settings}
    (h : config.settings = .ok settings) :
    (LineBuffer.lines settings.login.bytes).length = config.breaks + 1 ∧
      LineBuffer.unfinished settings.login.bytes = [] ∧
      (IsLine settings.login.bytes ↔ ∀ text ∈ config.spliced, '\n' ∉ text.toList) := by
  obtain ⟨-, rfl⟩ := (config.settings_eq_ok_iff settings).1 h
  refine ⟨config.length_lines_checked, ?_, config.isLine_checked_iff⟩
  rw [Login.bytes_eq]
  exact LineBuffer.unfinished_append_lineFeed _

def filtered : ClientConfig :=
  { withDefaults "euro.aprs2.net" defaultServerPort "n0call" "12345" "1.0.0" with
    filter := some "m/50\n" }

theorem login_of_filtered :
    filtered.settings = .ok filtered.checked ∧ IsLine filtered.checked.login.bytes := by
  have hsettings : filtered.settings = .ok filtered.checked := by decide
  exact ⟨hsettings, (login_lines hsettings).2.2.2 (by decide)⟩

end ClientConfig

namespace GatewayConfig

def injected : GatewayConfig where
  station := ⟨"n0call", false⟩
  log := defaultLog
  server := ⟨"euro.aprs2.net", defaultServerPort, "12345", defaultClientName,
    some "m/50\nN0CALL>APRS:>hello"⟩
  localSide := ⟨defaultBindAddress, 8673, none⟩

theorem login_of_injected_is_no_line :
    injected.validate = .ok () ∧
      ∃ settings, (injected.client "1.0.0").settings = .ok settings ∧
        ¬ IsLine settings.login.bytes := by
  have hvalid : injected.validate = .ok () := by decide
  have hsettings : (injected.client "1.0.0").settings = .ok (injected.client "1.0.0").checked := by
    decide
  refine ⟨hvalid, _, hsettings, fun hline => ?_⟩
  have hfree := (ClientConfig.isLine_checked_iff _).1 hline
  exact absurd hfree (by decide)

end GatewayConfig

end IGate
