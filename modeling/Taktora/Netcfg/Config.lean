import Taktora.Esi.Device

namespace Taktora.Netcfg

open Checked Outcome Esi

abbrev Duration := Nat

def Duration.fromMillis (ms : Nat) : Duration := ms * 1000000

def Duration.asMicros (d : Duration) : Nat := d / 1000

structure SmWatchdogRegisters where
  divider : Nat
  intervals : Nat
deriving DecidableEq, Repr

def defaultWatchdogDivider : Nat := 2498

/-- The intervals of 100 µs that cover the timeout, at least 1 and at most what 16 bits hold. -/
def smWatchdogIntervals (timeoutUs : Nat) : Nat :=
  let ticks := (timeoutUs + 99) / 100
  if ticks < 1 then 1 else if ticks > 65535 then 65535 else ticks

def SmWatchdogRegisters.effectiveTimeoutNs (r : SmWatchdogRegisters) : Nat := 40 * (r.divider + 2) * r.intervals

structure PdoEntry where
  index : Nat
  bitOffset : Nat
  bitLength : Nat
deriving DecidableEq, Repr

inductive DeviceSource where
  | inline (rx tx : List PdoEntry)
  | esi (path : String) (rx tx : List PdoEntry)
deriving DecidableEq, Repr

namespace DeviceSource

def rx : DeviceSource → List PdoEntry
  | inline rx _ | esi _ rx _ => rx

def tx : DeviceSource → List PdoEntry
  | inline _ tx | esi _ _ tx => tx

end DeviceSource

inductive SdoType where
  | u8
  | u16
  | u32
  | i8
  | i16
  | i32
deriving DecidableEq, Repr

namespace SdoType

def name : SdoType → String
  | u8 => "u8"
  | u16 => "u16"
  | u32 => "u32"
  | i8 => "i8"
  | i16 => "i16"
  | i32 => "i32"

def least : SdoType → Int
  | u8 | u16 | u32 => 0
  | i8 => -2 ^ 7
  | i16 => -2 ^ 15
  | i32 => -2 ^ 31

def greatest : SdoType → Int
  | u8 => 2 ^ 8 - 1
  | u16 => 2 ^ 16 - 1
  | u32 => 2 ^ 32 - 1
  | i8 => 2 ^ 7 - 1
  | i16 => 2 ^ 15 - 1
  | i32 => 2 ^ 31 - 1

end SdoType

structure StartupSdo where
  index : Nat
  subindex : Nat
  ty : SdoType
  value : Int
deriving DecidableEq, Repr

inductive PdoDirection where
  | rx
  | tx
deriving DecidableEq, Repr

structure ChannelBinding where
  name : String
  device : String
  direction : PdoDirection
  bitOffset : Nat
  bitLength : Nat
  allowOverlap : Bool
deriving DecidableEq, Repr

structure BusConfig where
  cycleTime : Duration
  distributedClocks : Bool
  maxSubdevices : Nat
  maxPdiBytes : Nat
  defaultNic : Option String
  ftti : Duration
deriving DecidableEq, Repr

structure DeviceInstance where
  label : String
  source : DeviceSource
  identity : Option Identity
  stationAlias : Option Nat
  addressOverride : Option Nat
  smWatchdogTimeout : Option Duration
  smWatchdogEnabled : Option Bool
  smWatchdog : Option SmWatchdogRegisters
  startupSdos : List StartupSdo
  supportsCoe : Bool
deriving DecidableEq, Repr

structure NetworkConfig where
  schemaVersion : Nat
  bus : BusConfig
  devices : List DeviceInstance
  channels : List ChannelBinding
deriving DecidableEq, Repr

inductive NetcfgError where
  | io (path : String)
  | esi (path : String)
  | esiContradiction (label : String)
  | ambiguousEsiDevice (path : String) (count : Nat)
  | opModeNotFound (label requested : String) (available : List String)
  | opModeOnFlatDevice (label : String)
  | noDefaultMapping (label : String)
  | unknownAssignmentPdo (label : String) (index : Nat)
  | remoteEsiNotVendored (reference : String)
  | smWatchdogTimeoutTooLong (label : String) (effectiveUs boundUs : Nat)
  | smWatchdogDisabled (label : String)
  | smWatchdogNotAttested (label : String)
  | sdoValueOutOfRange (label : String) (index subindex : Nat) (ty : String) (value : Int)
deriving DecidableEq, Repr

abbrev EsiFiles := String → Except NetcfgError (List EsiDevice)

structure BusConfigDto where
  cycleTimeMs : Nat
  distributedClocks : Bool
  maxSubdevices : Nat
  maxPdiBytes : Nat
  defaultNic : Option String
  fttiMs : Nat
deriving DecidableEq, Repr

structure DeviceInstanceDto where
  label : String
  esi : Option String
  opMode : Option String
  rx : List PdoEntry
  tx : List PdoEntry
  identity : Option Identity
  stationAlias : Option Nat
  addressOverride : Option Nat
  smWatchdogTimeoutMs : Option Nat
  smWatchdogEnabled : Option Bool
  startupSdos : List StartupSdo
deriving DecidableEq, Repr

structure NetworkConfigDto where
  schemaVersion : Nat
  bus : BusConfigDto
  devices : List DeviceInstanceDto
  channels : List ChannelBinding
deriving DecidableEq, Repr

def BusConfigDto.toBusConfig (dto : BusConfigDto) : BusConfig where
  cycleTime := Duration.fromMillis dto.cycleTimeMs
  distributedClocks := dto.distributedClocks
  maxSubdevices := dto.maxSubdevices
  maxPdiBytes := dto.maxPdiBytes
  defaultNic := dto.defaultNic
  ftti := Duration.fromMillis dto.fttiMs

def convertStartupSdo (label : String) (sdo : StartupSdo) : Except NetcfgError StartupSdo :=
  if sdo.ty.least ≤ sdo.value ∧ sdo.value ≤ sdo.ty.greatest then .ok sdo
  else .error (.sdoValueOutOfRange label sdo.index sdo.subindex sdo.ty.name sdo.value)

def esiLocalPath (reference : String) : Except NetcfgError String :=
  if "http://".toList.isPrefixOf reference.toList || "https://".toList.isPrefixOf reference.toList then
    .error (.remoteEsiNotVendored reference)
  else if "file://".toList.isPrefixOf reference.toList then .ok (String.ofList (reference.toList.drop 7))
  else .ok reference

def esiOutputWatchdogEnabled (syncManagers : List SyncManager) : Option Bool :=
  let outputs := syncManagers.filter (·.direction == .output)
  if outputs.isEmpty then none else some (outputs.all SyncManager.watchdogTriggerEnable)

def mapResolveError (label : String) : ResolveError → NetcfgError
  | .noAlternativeMappings => .opModeOnFlatDevice label
  | .mappingNotFound requested available => .opModeNotFound label requested available
  | .noDefaultMapping => .noDefaultMapping label
  | .unknownAssignmentPdo index => .unknownAssignmentPdo label index

def toEntry (e : ResolvedPdoEntry) : PdoEntry := ⟨e.index, e.bitOffset, e.bitLength⟩

structure EsiPart where
  source : DeviceSource
  identity : Option Identity
  watchdogEnabled : Option Bool
  supportsCoe : Bool
deriving DecidableEq, Repr

def selectEsiDevice (path : String) : List EsiDevice → Except NetcfgError EsiDevice
  | [device] => .ok device
  | devices => .error (.ambiguousEsiDevice path devices.length)

variable (files : EsiFiles)

def resolveSource (dto : DeviceInstanceDto) : Except NetcfgError EsiPart :=
  match dto.esi with
  | some reference => do
    let path ← esiLocalPath reference
    let devices ← files path
    let device ← selectEsiDevice path devices
    let assignment ← (device.resolveAssignment dto.opMode).mapError (mapResolveError dto.label)
    let rx := assignment.rx.map toEntry
    let tx := assignment.tx.map toEntry
    if (!dto.rx.isEmpty || !dto.tx.isEmpty) && (dto.rx != rx || dto.tx != tx) then .error (.esiContradiction dto.label)
    else .ok ⟨.esi path rx tx, dto.identity.or (some device.identity), esiOutputWatchdogEnabled device.syncManagers,
      device.supportsCoe⟩
  | none => .ok ⟨.inline dto.rx dto.tx, dto.identity, none, true⟩

structure ResolvedDevice where
  device : DeviceInstance
  esiOutputWatchdogEnabled : Option Bool
deriving DecidableEq, Repr

def DeviceInstanceDto.resolve (dto : DeviceInstanceDto) : Except NetcfgError ResolvedDevice :=
  if dto.esi.isNone && dto.opMode.isSome then .error (.opModeOnFlatDevice dto.label)
  else do
    let startupSdos ← dto.startupSdos.mapM (convertStartupSdo dto.label)
    let part ← resolveSource files dto
    .ok ⟨{
      label := dto.label
      source := part.source
      identity := part.identity
      stationAlias := dto.stationAlias
      addressOverride := dto.addressOverride
      smWatchdogTimeout := dto.smWatchdogTimeoutMs.map Duration.fromMillis
      smWatchdogEnabled := dto.smWatchdogEnabled
      smWatchdog := none
      startupSdos := startupSdos
      supportsCoe := part.supportsCoe }, part.watchdogEnabled⟩

def expectFits (width n : Nat) : Except Panic Nat := if n < 2 ^ width then .ok n else .error .unwrap

variable (device : DeviceInstance) (fttiHalfUs : Nat)

def DeviceInstance.requestedUs : Nat :=
  match device.smWatchdogTimeout with
  | some d => Duration.asMicros d
  | none => fttiHalfUs

def checkWatchdogEnabled (esiEnabled : Option Bool) : Except NetcfgError Unit :=
  match device.source with
  | .esi _ _ _ =>
    if esiEnabled != some true && device.smWatchdogEnabled != some true then .error (.smWatchdogDisabled device.label)
    else .ok ()
  | .inline _ _ =>
    if device.smWatchdogEnabled != some true then .error (.smWatchdogNotAttested device.label) else .ok ()

def resolveAndValidateWatchdog (esiEnabled : Option Bool) : Outcome NetcfgError DeviceInstance :=
  if device.source.rx.isEmpty then .ok device
  else do
    let timeoutUs ← ofChecked (expectFits 32 (device.requestedUs fttiHalfUs))
    let registers : SmWatchdogRegisters := ⟨defaultWatchdogDivider, smWatchdogIntervals timeoutUs⟩
    let effectiveUs := registers.effectiveTimeoutNs / 1000
    if effectiveUs > fttiHalfUs then .error (.error (.smWatchdogTimeoutTooLong device.label effectiveUs fttiHalfUs))
    else do
      ofResult (checkWatchdogEnabled device esiEnabled)
      .ok { device with smWatchdog := some registers }

def resolveDevice (dto : DeviceInstanceDto) : Outcome NetcfgError DeviceInstance := do
  let resolved ← ofResult (dto.resolve files)
  resolveAndValidateWatchdog resolved.device fttiHalfUs resolved.esiOutputWatchdogEnabled

def NetworkConfigDto.resolve (dto : NetworkConfigDto) : Outcome NetcfgError NetworkConfig := do
  let bus := dto.bus.toBusConfig
  let fttiHalfUs ← ofChecked (expectFits 64 (bus.ftti.asMicros / 2))
  let devices ← dto.devices.mapM (resolveDevice files fttiHalfUs)
  .ok ⟨dto.schemaVersion, bus, devices, dto.channels⟩

end Taktora.Netcfg
