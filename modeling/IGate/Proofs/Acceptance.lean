import IGate.Client.State
import IGate.Config.Validate
import IGate.Proofs.Text

/-! A configuration is checked when it is read, and what a client needs of it is checked again when
the client is made. The first check looks for a character that is not blank in the whole callsign,
the second in what is left of it after the cut. -/

namespace IGate

open Text

namespace Credentials

theorem normalCallsign_eq (raw : String) :
    normalCallsign raw = upper (trimEnd (String.ofList (raw.toList.take callsignLength))) := by
  have hpadded : padded raw = raw.toList.take callsignLength ++
      List.replicate (callsignLength - raw.toList.length) ' ' := by
    simp [padded, List.take_append, List.take_replicate]
  have hblank : ∀ c ∈ List.replicate (callsignLength - raw.toList.length) ' ',
      isBlank c = true := by
    intro c hc
    rw [List.eq_of_mem_replicate hc]
    rfl
  simp only [normalCallsign, trimEnd, String.toList_ofList, hpadded, dropEnd_append hblank]

theorem normalCallsign_eq_empty_iff (raw : String) :
    normalCallsign raw = "" ↔ ∀ c ∈ raw.toList.take callsignLength, isBlank c = true := by
  rw [normalCallsign_eq, upper_eq_empty_iff, trimEnd_eq_empty_iff, String.toList_ofList]

end Credentials

namespace ClientConfig

/-- What a client cannot do without. -/
structure Usable (config : ClientConfig) : Prop where
  callsign : Credentials.normalCallsign config.callsign ≠ ""
  passcode : config.passcode ≠ ""
  server : trim config.server ≠ ""
  port : config.port ≠ 0
  clientName : trim config.clientName ≠ ""

def checked (config : ClientConfig) : Settings where
  address := config.address
  login := ⟨⟨Credentials.normalCallsign config.callsign, config.passcode⟩,
    trim config.clientName, config.version, config.filter⟩
  debug := config.debug
  readTimeout := config.readTimeout
  pollTimeout := config.pollTimeout

theorem settings_eq_ok_iff (config : ClientConfig) (settings : Settings) :
    config.settings = .ok settings ↔ config.Usable ∧ settings = config.checked := by
  refine ⟨fun h => ?_, fun ⟨hu, hs⟩ => ?_⟩
  · unfold ClientConfig.settings Credentials.new at h
    split_ifs at h with hcallsign hpasscode hserver hport hname
    exact ⟨⟨hcallsign, hpasscode, hserver, hport, hname⟩, (Except.ok.inj h).symm⟩
  · have hnew : Credentials.new config.callsign config.passcode =
        .ok config.checked.login.credentials := by
      simp only [Credentials.new, hu.callsign, hu.passcode, if_false]
      rfl
    unfold ClientConfig.settings
    simp only [hnew, hu.server, hu.port, hu.clientName, if_false, hs]
    rfl

end ClientConfig

theorem Client.new_eq_ok_iff (config : ClientConfig) (client : Client) :
    Client.new config = .ok client ↔
      config.Usable ∧ client = Client.initial config.checked config.queueCapacity := by
  have hsettings := config.settings_eq_ok_iff
  unfold Client.new
  split
  · next e he => simp_all
  · next settings hs =>
    obtain ⟨hu, rfl⟩ := (hsettings settings).1 hs
    simp [hu, eq_comm]

namespace GatewayConfig

/-- The faults that concern what a client is made from. -/
def clientFaults : List Fault :=
  [.emptyCallsign, .emptyServer, .zeroServerPort, .emptyPassword, .emptyClientName]

/-- The two checks agree on a configuration. -/
structure ChecksAgree (config : GatewayConfig) (version : String) : Prop where
  client_of_valid : config.validate = .ok () →
    ∃ client, Client.new (config.client version) = .ok client
  no_fault_of_client : (∃ client, Client.new (config.client version) = .ok client) →
    ∀ fault ∈ clientFaults, config.validate ≠ .error (.invalid fault)

/-- What the first check makes sure of, as far as a client is concerned. -/
structure Passed (config : GatewayConfig) : Prop where
  callsign : trim config.station.callsign ≠ ""
  server : trim config.server.server ≠ ""
  port : config.server.port ≠ 0
  password : config.server.password ≠ ""
  clientName : trim config.server.clientName ≠ ""

theorem validate_eq_ok_iff (config : GatewayConfig) :
    config.validate = .ok () ↔ config.fault? = none := by
  unfold validate
  split <;> simp_all

theorem validate_eq_invalid_iff (config : GatewayConfig) (fault : Fault) :
    config.validate = .error (.invalid fault) ↔ config.fault? = some fault := by
  unfold validate
  split <;> simp_all

theorem not_mem_clientFaults_of_badForward? {config : GatewayConfig} {fault : Fault}
    (h : config.badForward?.map .badForwardAddress = some fault) : fault ∉ clientFaults := by
  obtain ⟨address, -, rfl⟩ := Option.map_eq_some_iff.1 h
  simp [clientFaults]

theorem passed_iff (config : GatewayConfig) :
    config.Passed ↔ ∀ fault ∈ clientFaults, config.fault? ≠ some fault := by
  constructor
  · intro h fault hmem hfault
    simp only [fault?, if_neg h.callsign, if_neg h.server, if_neg h.port, if_neg h.password,
      if_neg h.clientName] at hfault
    split_ifs at hfault
    · cases hfault
      exact absurd hmem (by decide)
    · cases hfault
      exact absurd hmem (by decide)
    · exact not_mem_clientFaults_of_badForward? hfault hmem
  · intro h
    have hcallsign : trim config.station.callsign ≠ "" := fun hbad =>
      h .emptyCallsign (by decide) (by simp [fault?, hbad])
    have hserver : trim config.server.server ≠ "" := fun hbad =>
      h .emptyServer (by decide) (by simp [fault?, hcallsign, hbad])
    have hport : config.server.port ≠ 0 := fun hbad =>
      h .zeroServerPort (by decide) (by simp [fault?, hcallsign, hserver, hbad])
    have hpassword : config.server.password ≠ "" := fun hbad =>
      h .emptyPassword (by decide) (by simp [fault?, hcallsign, hserver, hport, hbad])
    have hname : trim config.server.clientName ≠ "" := fun hbad =>
      h .emptyClientName (by decide) (by simp [fault?, hcallsign, hserver, hport, hpassword, hbad])
    exact ⟨hcallsign, hserver, hport, hpassword, hname⟩

theorem passed_of_valid {config : GatewayConfig} (h : config.validate = .ok ()) :
    config.Passed := by
  rw [passed_iff, (validate_eq_ok_iff config).1 h]
  exact fun _ _ => nofun

/-- The part of a callsign that is kept may be blank when the whole is not. -/
theorem usable_iff_of_passed {config : GatewayConfig} (version : String) (h : config.Passed) :
    (config.client version).Usable ↔
      ∃ c ∈ config.station.callsign.toList.take callsignLength, isBlank c = false := by
  have hkept : Credentials.normalCallsign config.station.callsign ≠ "" ↔
      ∃ c ∈ config.station.callsign.toList.take callsignLength, isBlank c = false := by
    simp [Credentials.normalCallsign_eq_empty_iff]
  exact ⟨fun hu => hkept.1 hu.callsign,
    fun hc => ⟨hkept.2 hc, h.password, h.server, h.port, h.clientName⟩⟩

theorem passed_of_usable {config : GatewayConfig} {version : String}
    (h : (config.client version).Usable) : config.Passed where
  callsign := by
    intro hblank
    refine h.callsign ((Credentials.normalCallsign_eq_empty_iff _).2 fun c hc => ?_)
    exact trim_eq_empty_iff.1 hblank c (List.mem_of_mem_take hc)
  server := h.server
  port := h.port
  password := h.passcode
  clientName := h.clientName

/-- The checks agree on every configuration but one that is valid and whose callsign begins with
eight blanks or more: no client can be made from that. -/
theorem checksAgree_iff (config : GatewayConfig) (version : String) :
    config.ChecksAgree version ↔
      (config.validate = .ok () →
        ∃ c ∈ config.station.callsign.toList.take callsignLength, isBlank c = false) := by
  have hclient : (∃ client, Client.new (config.client version) = .ok client) ↔
      (config.client version).Usable := by
    simp only [Client.new_eq_ok_iff, exists_and_left, exists_eq, and_true]
  constructor
  · intro h hvalid
    have hpassed := passed_of_valid hvalid
    exact (usable_iff_of_passed version hpassed).1 (hclient.1 (h.client_of_valid hvalid))
  · intro hkept
    refine ⟨fun hvalid => ?_, fun hmade fault hmem hfault => ?_⟩
    · have hpassed := passed_of_valid hvalid
      exact hclient.2 ((usable_iff_of_passed version hpassed).2 (hkept hvalid))
    · have hpassed := passed_of_usable (hclient.1 hmade)
      have hfound := (validate_eq_invalid_iff config fault).1 hfault
      exact (passed_iff config).1 hpassed fault hmem hfound

def indented : GatewayConfig where
  station := ⟨"        n0call", false⟩
  log := defaultLog
  server := ⟨"euro.aprs2.net", defaultServerPort, "12345", defaultClientName, none⟩
  localSide := ⟨defaultBindAddress, 8673, none⟩

theorem checks_disagree_on_indented : ¬ indented.ChecksAgree "1.0.0" := by
  intro h
  have hvalid : indented.validate = .ok () := by decide
  have hrefused : Client.new (indented.client "1.0.0") = .error (.credentials .emptyCallsign) := by
    decide
  obtain ⟨client, hclient⟩ := h.client_of_valid hvalid
  cases hrefused.symm.trans hclient

end GatewayConfig

end IGate
