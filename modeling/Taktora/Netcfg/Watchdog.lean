import Taktora.Netcfg.Config

namespace Taktora.Netcfg

open Checked Outcome Esi Duration DeviceInstance List

variable {files : EsiFiles}

def DeviceInstance.requested (device : DeviceInstance) (ftti : Duration) : Duration :=
  device.smWatchdogTimeout.getD (ftti / 2)

/-- The device is attested, or the one device of its ESI file has outputs that all trigger the watchdog. -/
def DeviceInstance.Evidence (files : EsiFiles) (device : DeviceInstance) : Prop :=
  device.smWatchdogEnabled = some true ∨
    ∃ path esi, files path = .ok [esi] ∧ device.source = .esi path device.source.rx device.source.tx ∧
      (∃ sm ∈ esi.syncManagers, sm.direction = .output) ∧
      ∀ sm ∈ esi.syncManagers, sm.direction = .output → sm.watchdogTriggerEnable = true

def DeviceInstance.Guarded (files : EsiFiles) (ftti : Duration) (device : DeviceInstance) : Prop :=
  if device.source.rx = [] then device.smWatchdog = none
  else ∃ registers, device.smWatchdog = some registers ∧ 2 * registers.effectiveTimeoutNs ≤ ftti ∧
    1 ≤ registers.intervals ∧ device.Evidence files ∧
    (device.requested ftti ≤ registers.effectiveTimeoutNs ↔ device.requested ftti ≤ 6553500000)

/-- The times of the file fit the words they are converted to, up to the first device that is refused. -/
structure NetworkConfigDto.Convertible (files : EsiFiles) (dto : NetworkConfigDto) : Prop where
  ftti : dto.bus.fttiMs * 500 < 2 ^ 64
  timeouts : ∀ before device after, dto.devices = before ++ device :: after →
    (∀ d ∈ before, ∃ built, resolveDevice files (dto.bus.fttiMs * 500) d = .ok built) →
    ∀ resolved, device.resolve files = .ok resolved → resolved.device.source.rx ≠ [] →
      resolved.device.requestedUs (dto.bus.fttiMs * 500) < 2 ^ 32

theorem esiOutputWatchdogEnabled_iff {syncManagers : List SyncManager} :
    esiOutputWatchdogEnabled syncManagers = some true ↔ (∃ sm ∈ syncManagers, sm.direction = .output) ∧
      ∀ sm ∈ syncManagers, sm.direction = .output → sm.watchdogTriggerEnable = true := by
  unfold esiOutputWatchdogEnabled
  simp only
  split
  · rename_i none
    simp only [reduceCtorEq, false_iff, not_and]
    intro ⟨sm, member, output⟩
    rw [List.isEmpty_iff, filter_eq_nil_iff] at none
    exact absurd (by simp [output]) (none sm member)
  · rename_i some
    rw [List.isEmpty_iff, filter_eq_nil_iff] at some
    simp only [Option.some.injEq, all_eq_true, mem_filter, beq_iff_eq, and_imp]
    constructor
    · intro all
      refine ⟨?_, all⟩
      by_contra absent
      apply some
      intro sm member output
      exact absent ⟨sm, member, by simpa using output⟩
    · exact fun both => both.2

theorem smWatchdogIntervals_bounds (timeoutUs : Nat) : 1 ≤ smWatchdogIntervals timeoutUs ∧
      (timeoutUs ≤ 100 * smWatchdogIntervals timeoutUs ↔ timeoutUs ≤ 6553500) := by
  unfold smWatchdogIntervals
  simp only
  split
  · omega
  · split
    · omega
    · omega

structure Origin (files : EsiFiles) (dto : DeviceInstanceDto) (resolved : ResolvedDevice) : Prop where
  watchdog : resolved.device.smWatchdog = none
  timeout : resolved.device.smWatchdogTimeout = dto.smWatchdogTimeoutMs.map Duration.fromMillis
  enabled : resolved.esiOutputWatchdogEnabled = some true →
    ∃ path esi, files path = .ok [esi] ∧
      resolved.device.source = .esi path resolved.device.source.rx resolved.device.source.tx ∧
      esiOutputWatchdogEnabled esi.syncManagers = some true

variable {dto : DeviceInstanceDto} {resolved : ResolvedDevice}

theorem resolveSource_enabled {part : EsiPart} (resolved : resolveSource files dto = .ok part)
    (enabled : part.watchdogEnabled = some true) :
    ∃ path esi, files path = .ok [esi] ∧ part.source = .esi path part.source.rx part.source.tx ∧
      esiOutputWatchdogEnabled esi.syncManagers = some true := by
  unfold resolveSource at resolved
  split at resolved
  · obtain ⟨path, _, resolved⟩ := bind_ok resolved
    obtain ⟨devices, read, resolved⟩ := bind_ok resolved
    obtain ⟨esi, selected, resolved⟩ := bind_ok resolved
    obtain ⟨_, _, resolved⟩ := bind_ok resolved
    have single : devices = [esi] := by
      unfold selectEsiDevice at selected
      split at selected
      · cases selected
        rfl
      · cases selected
    simp only at resolved
    split at resolved
    · cases resolved
    · cases resolved
      exact ⟨path, esi, single ▸ read, rfl, enabled⟩
  · cases resolved
    cases enabled

theorem resolve_origin (done : dto.resolve files = .ok resolved) : Origin files dto resolved := by
  unfold DeviceInstanceDto.resolve at done
  split at done
  · cases done
  · obtain ⟨_, _, done⟩ := bind_ok done
    obtain ⟨_, source, done⟩ := bind_ok done
    cases done
    exact ⟨rfl, rfl, resolveSource_enabled source⟩

theorem evidence_of_checked
    (origin : Origin files dto resolved)
    (checked : checkWatchdogEnabled resolved.device resolved.esiOutputWatchdogEnabled = .ok ()) :
    resolved.device.Evidence files := by
  unfold checkWatchdogEnabled at checked
  split at checked
  · split at checked
    · cases checked
    · rename_i seen
      by_cases attested : resolved.device.smWatchdogEnabled = some true
      · exact Or.inl attested
      · have enabled : resolved.esiOutputWatchdogEnabled = some true := by simpa [attested] using seen
        obtain ⟨path, esi, read, source, trigger⟩ := origin.enabled enabled
        exact Or.inr ⟨path, esi, read, source, esiOutputWatchdogEnabled_iff.mp trigger⟩
  · split at checked
    · cases checked
    · rename_i seen
      exact Or.inl (by simpa using seen)

theorem expectFits_eq_ok {width n m : Nat} : expectFits width n = .ok m ↔ n < 2 ^ width ∧ m = n := by
  unfold expectFits
  split
  · rename_i fits
    simp [fits, eq_comm]
  · rename_i wide
    simp [wide]

theorem half_ftti (dto : BusConfigDto) : dto.toBusConfig.ftti.asMicros / 2 = dto.fttiMs * 500 := by
  simp only [BusConfigDto.toBusConfig, fromMillis, asMicros]
  omega

theorem fromMillis_half (ms : Nat) : fromMillis ms / 2 = 1000 * (ms * 500) := by
  have halves : ms * 1000000 / 2 = 1000 * (ms * 500) := by omega
  exact halves

theorem fromMillis_asMicros (ms : Nat) : fromMillis ms = 1000 * asMicros (fromMillis ms) := by
  have whole : ms * 1000000 = 1000 * (ms * 1000000 / 1000) := by omega
  exact whole

theorem requested_eq (origin : Origin files dto resolved) (fttiMs : Nat) :
    resolved.device.requested (fromMillis fttiMs) = 1000 * resolved.device.requestedUs (fttiMs * 500) := by
  have timeout := origin.timeout
  cases given : dto.smWatchdogTimeoutMs with
  | none =>
    rw [given, Option.map_none] at timeout
    have asked : resolved.device.requestedUs (fttiMs * 500) = fttiMs * 500 := by rw [requestedUs, timeout]
    rw [asked, requested, timeout, Option.getD_none, fromMillis_half]
  | some ms =>
    rw [given, Option.map_some] at timeout
    have asked : resolved.device.requestedUs (fttiMs * 500) = asMicros (fromMillis ms) := by
      rw [requestedUs, timeout]
    rw [asked, requested, timeout, Option.getD_some, ← fromMillis_asMicros]

theorem resolveDevice_guarded {device : DeviceInstance} {fttiMs : Nat}
    (done : resolveDevice files (fttiMs * 500) dto = .ok device) : device.Guarded files (fromMillis fttiMs) := by
  obtain ⟨resolved, first, done⟩ := bind_ok done
  have origin := resolve_origin (ofResult_eq_ok.mp first)
  unfold resolveAndValidateWatchdog at done
  split at done
  · rename_i inputs
    cases done
    rw [Guarded, if_pos (isEmpty_iff.mp inputs)]
    exact origin.watchdog
  · rename_i outputs
    obtain ⟨timeoutUs, fits, done⟩ := bind_ok done
    have timeout := (expectFits_eq_ok.mp (ofChecked_eq_ok.mp fits)).2
    simp only at done
    split at done
    · cases done
    · rename_i short
      obtain ⟨_, checked, done⟩ := bind_ok done
      cases done
      obtain ⟨some, _⟩ := smWatchdogIntervals_bounds timeoutUs
      have requested := requested_eq origin fttiMs
      rw [Guarded, if_neg (fun empty => outputs (isEmpty_iff.mpr empty))]
      simp only [SmWatchdogRegisters.effectiveTimeoutNs, defaultWatchdogDivider] at short
      refine ⟨_, rfl, ?_, some, evidence_of_checked origin (ofResult_eq_ok.mp checked), ?_⟩
      · simp only [SmWatchdogRegisters.effectiveTimeoutNs, defaultWatchdogDivider, fromMillis]
        omega
      · show resolved.device.requested _ ≤ _ ↔ resolved.device.requested _ ≤ _
        rw [requested, ← timeout]
        show 1000 * timeoutUs ≤ 40 * (2498 + 2) * smWatchdogIntervals timeoutUs ↔ 1000 * timeoutUs ≤ 6553500000
        omega

theorem resolveDevice_ne_panic {fttiHalfUs : Nat} {p : Panic}
    (fits : ∀ resolved, dto.resolve files = .ok resolved → resolved.device.source.rx ≠ [] →
      resolved.device.requestedUs fttiHalfUs < 2 ^ 32) :
    resolveDevice files fttiHalfUs dto ≠ .error (.panic p) := by
  refine bind_ne_error ofResult_ne_panic fun resolved first => ?_
  unfold resolveAndValidateWatchdog
  split
  · nofun
  · rename_i outputs
    have small := fits resolved (ofResult_eq_ok.mp first) fun empty => outputs (isEmpty_iff.mpr empty)
    rw [expectFits, if_pos small]
    refine bind_ne_error nofun fun _ _ => ?_
    dsimp only
    split
    · nofun
    · exact bind_ne_error ofResult_ne_panic nofun

theorem resolveDevice_panics {fttiHalfUs : Nat}
    (first : dto.resolve files = .ok resolved)
    (outputs : resolved.device.source.rx ≠ [])
    (wide : 2 ^ 32 ≤ resolved.device.requestedUs fttiHalfUs) :
    resolveDevice files fttiHalfUs dto = .error (.panic .unwrap) := by
  rw [resolveDevice, first]
  show resolveAndValidateWatchdog _ _ _ = _
  rw [resolveAndValidateWatchdog, if_neg (by simpa using outputs), expectFits, if_neg (Nat.not_lt.mpr wide)]
  rfl

theorem resolve_eq {dto : NetworkConfigDto} (fits : dto.bus.fttiMs * 500 < 2 ^ 64) : dto.resolve files =
    dto.devices.mapM (resolveDevice files (dto.bus.fttiMs * 500)) >>= fun devices =>
      .ok ⟨dto.schemaVersion, dto.bus.toBusConfig, devices, dto.channels⟩ := by
  simp only [NetworkConfigDto.resolve, half_ftti, expectFits, if_pos fits]
  rfl

/-- Resolution panics exactly if it reaches a time that does not fit its word. Whenever it returns, every output device
has a watchdog within FTTI/2 with its evidence. -/
theorem output_watchdogs_within_ftti (files : EsiFiles) (dto : NetworkConfigDto) :
    ((∀ p, dto.resolve files ≠ .error (.panic p)) ↔ dto.Convertible files) ∧
      ∀ config, dto.resolve files = .ok config → ∀ device ∈ config.devices, device.Guarded files config.bus.ftti := by
  refine ⟨⟨fun total => ?_, fun convertible p => ?_⟩, ?_⟩
  · have fits : dto.bus.fttiMs * 500 < 2 ^ 64 := by
      by_contra wide
      apply total .unwrap
      simp only [NetworkConfigDto.resolve, half_ftti, expectFits, if_neg wide]
      rfl
    refine ⟨fits, ?_⟩
    intro before device after split passed resolved first outputs
    by_contra wide
    apply total .unwrap
    have panics := resolveDevice_panics first outputs (Nat.not_lt.mp wide)
    rw [resolve_eq fits, mapM_eq_error.mpr ⟨before, device, after, split, passed, panics⟩]
    rfl
  · rw [resolve_eq convertible.ftti]
    refine bind_ne_error (fun failed => ?_) nofun
    obtain ⟨before, device, after, split, passed, failed⟩ := mapM_eq_error.mp failed
    exact resolveDevice_ne_panic (convertible.timeouts before device after split passed) failed
  · intro config done device member
    obtain ⟨_, half, done⟩ := bind_ok done
    have same := (expectFits_eq_ok.mp (ofChecked_eq_ok.mp half)).2
    rw [half_ftti] at same
    obtain ⟨_, each, done⟩ := bind_ok done
    cases done
    obtain ⟨_, _, resolved⟩ := exists_of_mapM each member
    exact resolveDevice_guarded (same ▸ resolved)

def outputs (fttiMs : Nat) (timeouts : List (Option Nat × Bool)) : NetworkConfigDto where
  schemaVersion := 1
  bus := ⟨1, false, 16, 1024, none, fttiMs⟩
  devices := timeouts.map fun (timeoutMs, attested) =>
    ⟨"valve", none, none, [⟨0x7000, 0, 16⟩], [], none, none, none, timeoutMs, some attested, []⟩
  channels := []

def noFiles : EsiFiles := fun path => .error (.io path)

theorem short_timeout_guarded : (outputs 100 [(none, false), (some 5000000, true)]).Convertible noFiles ∧
    ∃ config, (outputs 100 [(some 10, true), (none, true)]).resolve noFiles = .ok config ∧
      ∀ device ∈ config.devices, device.Guarded noFiles config.bus.ftti := by
  have refused := output_watchdogs_within_ftti noFiles (outputs 100 [(none, false), (some 5000000, true)])
  have guarded := output_watchdogs_within_ftti noFiles (outputs 100 [(some 10, true), (none, true)])
  exact ⟨refused.1.mp (fun p => nofun), _, rfl, guarded.2 _ rfl⟩

theorem long_times_not_guarded : (outputs 10000000 [(none, true)]).resolve noFiles = .error (.panic .unwrap) ∧
      (outputs 100 [(some 5000000, true)]).resolve noFiles = .error (.panic .unwrap) ∧
      ∃ config, (outputs 30000 [(some 10000, true)]).resolve noFiles = .ok config ∧
        ∃ device ∈ config.devices, device.requested config.bus.ftti = 10000000000 ∧
          device.smWatchdog.map (·.effectiveTimeoutNs) = some 6553500000 := by
  refine ⟨rfl, rfl, _, rfl, _, mem_cons_self, rfl, rfl⟩

end Taktora.Netcfg
