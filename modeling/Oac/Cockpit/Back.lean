import Oac.Buffer.Double
import Mathlib.Data.UInt

/-!
# The back side of the cockpit

The FCU and the EFIS panel in the memory of FSUIPC. `sync_down` reads their block into a
double buffer, the panels poll events from it and write their state there, and `sync_up`
writes the block back. The front side is given by what its getters return.
-/
namespace Oac.Cockpit
open Base

/-! ## Values -/

/-- An enumeration of C++ with its numbers. -/
class Enumeration (α : Type) where
  number : α → Nat

inductive AltitudeUnits where
  | feet | meters
instance : Enumeration AltitudeUnits := ⟨AltitudeUnits.ctorIdx⟩

inductive SpeedUnits where
  | knots | mach
instance : Enumeration SpeedUnits := ⟨SpeedUnits.ctorIdx⟩

inductive BinarySwitch where
  | switchedOff | switchedOn
instance : Enumeration BinarySwitch := ⟨BinarySwitch.ctorIdx⟩

inductive GuidanceDisplayMode where
  | hdgVs | trkFpa
instance : Enumeration GuidanceDisplayMode := ⟨GuidanceDisplayMode.ctorIdx⟩

inductive FcuManagementMode where
  | selected | managed
instance : Enumeration FcuManagementMode := ⟨FcuManagementMode.ctorIdx⟩

inductive FcuSwitch where
  | loc | athr | expe | appr | ap1 | ap2
instance : Enumeration FcuSwitch := ⟨FcuSwitch.ctorIdx⟩

inductive FcuKnob where
  | spd | hdg | alt | vs
instance : Enumeration FcuKnob := ⟨FcuKnob.ctorIdx⟩

inductive McpSwitch where
  | constraint | waypoint | vord | ndb | airport
instance : Enumeration McpSwitch := ⟨McpSwitch.ctorIdx⟩

inductive NdModeSwitch where
  | ils | vor | nav | arc | plan
instance : Enumeration NdModeSwitch := ⟨NdModeSwitch.ctorIdx⟩

inductive NdRangeSwitch where
  | rng10 | rng20 | rng40 | rng80 | rng160 | rng320
instance : Enumeration NdRangeSwitch := ⟨NdRangeSwitch.ctorIdx⟩

inductive NdNavModeSwitch where
  | adf | off | vor
instance : Enumeration NdNavModeSwitch := ⟨NdNavModeSwitch.ctorIdx⟩

inductive BarometricMode where
  | selected | standard
instance : Enumeration BarometricMode := ⟨BarometricMode.ctorIdx⟩

inductive BarometricFormat where
  | inHg | hPa
instance : Enumeration BarometricFormat := ⟨BarometricFormat.ctorIdx⟩

section
variable {α : Type} [Enumeration α]
def toByte (value : α) : UInt8 := .ofNat (Enumeration.number value)
def toDword (value : α) : UInt32 := .ofNat (Enumeration.number value)
end

/-- A `cockpit_back::event`. -/
structure Event (τ : Type) where
  type : τ
  value : UInt32
  deriving DecidableEq

inductive FcuEventType where
  | spdBtnPressed | guiModeBtnPressed | altUnitsBtnPressed | swPressed | knobPressed | knobPulled
  | spdValueChanged | machValueChanged | hdgValueChanged | trackValueChanged | altValueChanged | vsValueChanged
  | fpaValueChanged
  deriving DecidableEq

inductive EfisEventType where
  | fdBtnPressed | ilsBtnPressed | mcpSwPressed | baroModeSelected | baroFmtSelected
  | ndModeSelected | ndRangeSelected | ndNav1ModeSelected | ndNav2ModeSelected
  deriving DecidableEq

/-- What the getters of the FCU on the front side return. -/
structure FlightControlUnit where
  speedDisplayUnits : SpeedUnits
  guidanceDisplayMode : GuidanceDisplayMode
  altitudeDisplayUnits : AltitudeUnits
  switch : FcuSwitch → BinarySwitch
  speedMode : FcuManagementMode
  lateralMode : FcuManagementMode
  verticalMode : FcuManagementMode
  speedValue : UInt32
  machValue : UInt32
  headingValue : UInt32
  trackValue : UInt32
  targetAltitude : UInt32
  verticalSpeedValue : Int32
  fpaValue : UInt32

structure EfisControlPanel where
  barometricMode : BarometricMode
  barometricFormat : BarometricFormat
  ilsButton : BinarySwitch
  mcpSwitch : McpSwitch → BinarySwitch
  ndModeSwitch : NdModeSwitch
  ndRangeSwitch : NdRangeSwitch
  ndNav1ModeSwitch : NdNavModeSwitch
  ndNav2ModeSwitch : NdNavModeSwitch

structure CockpitFront where
  flightControlUnit : FlightControlUnit
  efisControlPanel : EfisControlPanel

/-! ## Events -/

abbrev Buffer := DoubleBuffer (ShiftedBuffer LinearBuffer)
abbrev BufferM := EStateM Exception Buffer

section
variable {α τ : Type} [Memory α]

def load (α : Type) [Memory α] (offset : Nat) : BufferM α := fun buff =>
  match RandomAccess.readAs α buff offset with
  | .ok v => .ok v buff
  | .error e => .error e buff

def store (t : α) (offset : Nat) : BufferM Unit := fun buff =>
  match RandomAccess.writeAs t offset buff with
  | .ok buff' => .ok () buff'
  | .error e => .error e buff

def modified (α : Type) [Memory α] (offset : Nat) : BufferM Bool := fun buff =>
  match buff.isModifiedAs α offset with
  | .ok v => .ok v buff
  | .error e => .error e buff

def importNullaryEvent (α : Type) [Memory α] [DecidableEq α] [Zero α] (offset : Nat) (evType : τ)
    (eventValue : UInt32) : BufferM (List (Event τ)) := do
  let push ← load α offset
  if push ≠ 0 then
    store (0 : α) offset
    pure [⟨evType, eventValue⟩]
  else pure []

/-- `value` is the conversion to a `DWORD`. -/
def importUnaryEvent (value : α → UInt32) (offset : Nat) (evType : τ) : BufferM (List (Event τ)) := do
  if ← modified α offset then
    let data ← load α offset
    pure [⟨evType, value data⟩]
  else pure []

end

/-- A line of `poll_events`. Nullary events have the data of a `BYTE`. -/
inductive Import (τ : Type) where
  | nullary (offset : Nat) (evType : τ) (eventValue : UInt32)
  | unaryByte (offset : Nat) (evType : τ)
  | unaryDword (offset : Nat) (evType : τ)
  deriving DecidableEq

section
variable {τ : Type}

def Import.run : Import τ → BufferM (List (Event τ))
  | .nullary offset evType eventValue => importNullaryEvent UInt8 offset evType eventValue
  | .unaryByte offset evType => importUnaryEvent UInt8.toUInt32 offset evType
  | .unaryDword offset evType => importUnaryEvent (fun data : UInt32 => data) offset evType

def pollEvents : List (Import τ) → BufferM (List (Event τ))
  | [] => pure []
  | line :: lines => do
    let first ← line.run
    let rest ← pollEvents lines
    pure (first ++ rest)

end

/-- What a setter writes, and where. -/
structure Setting where
  offset : Nat
  data : List UInt8

def Setting.byte {α : Type} [Enumeration α] (offset : Nat) (value : α) : Setting := ⟨offset, Memory.toMemory (toByte value)⟩
def Setting.dword (offset : Nat) (value : UInt32) : Setting := ⟨offset, Memory.toMemory value⟩

def Setting.run (s : Setting) : BufferM Unit := fun buff =>
  match RandomAccess.write s.data s.offset buff with
  | .ok buff' => .ok () buff'
  | .error e => .error e buff

namespace FlightControlUnitBack

/-- The lines of `poll_events`. -/
def events : List (Import FcuEventType) :=
  [.nullary 0x5620 .spdBtnPressed 0,
    .nullary 0x5621 .guiModeBtnPressed 0,
    .nullary 0x5622 .altUnitsBtnPressed 0,
    .nullary 0x5608 .swPressed (toDword FcuSwitch.loc),
    .nullary 0x560B .swPressed (toDword FcuSwitch.athr),
    .nullary 0x560C .swPressed (toDword FcuSwitch.expe),
    .nullary 0x560D .swPressed (toDword FcuSwitch.appr),
    .nullary 0x5609 .swPressed (toDword FcuSwitch.ap1),
    .nullary 0x560A .swPressed (toDword FcuSwitch.ap2),
    .nullary 0x5627 .knobPressed (toDword FcuKnob.spd),
    .nullary 0x5628 .knobPulled (toDword FcuKnob.spd),
    .nullary 0x5629 .knobPressed (toDword FcuKnob.hdg),
    .nullary 0x562A .knobPulled (toDword FcuKnob.hdg),
    .nullary 0x562B .knobPressed (toDword FcuKnob.alt),
    .nullary 0x562C .knobPulled (toDword FcuKnob.alt),
    .nullary 0x562D .knobPressed (toDword FcuKnob.vs),
    .nullary 0x562E .knobPulled (toDword FcuKnob.vs),
    .unaryDword 0x5638 .spdValueChanged,
    .unaryDword 0x563C .machValueChanged,
    .unaryDword 0x5640 .hdgValueChanged,
    .unaryDword 0x5644 .trackValueChanged,
    .unaryDword 0x5648 .altValueChanged,
    .unaryDword 0x564C .vsValueChanged,
    .unaryDword 0x5654 .fpaValueChanged]

def setSpeedDisplayUnits (units : SpeedUnits) : Setting := .byte 0x562F units
def setGuidanceDisplayMode (mode : GuidanceDisplayMode) : Setting := .byte 0x5630 mode
def setAltitudeDisplayUnits (units : AltitudeUnits) : Setting := .byte 0x5631 units

def setSwitch (sw : FcuSwitch) (value : BinarySwitch) : Setting :=
  match sw with
  | .loc => .byte 0x5614 value
  | .athr => .byte 0x5617 value
  | .expe => .byte 0x5618 value
  | .appr => .byte 0x5619 value
  | .ap1 => .byte 0x5615 value
  | .ap2 => .byte 0x5616 value

def setSpeedMode (mode : FcuManagementMode) : Setting := .byte 0x5632 mode
def setLateralMode (mode : FcuManagementMode) : Setting := .byte 0x5633 mode
def setVerticalMode (mode : FcuManagementMode) : Setting := .byte 0x5634 mode
def setSpeedValue (value : UInt32) : Setting := .dword 0x5638 value
def setMachValue (value : UInt32) : Setting := .dword 0x563C value
def setHeadingValue (value : UInt32) : Setting := .dword 0x5640 value
def setTrackValue (value : UInt32) : Setting := .dword 0x5644 value
def setTargetAltitude (value : UInt32) : Setting := .dword 0x5648 value
def setVerticalSpeedValue (value : Int32) : Setting := .dword 0x564C value.toUInt32
def setFpaValue (value : UInt32) : Setting := .dword 0x5650 value

end FlightControlUnitBack

namespace EfisControlPanelBack

/-- The lines of `poll_events`. -/
def events : List (Import EfisEventType) :=
  [.nullary 0x5601 .fdBtnPressed 0,
    .nullary 0x5602 .ilsBtnPressed 0,
    .nullary 0x5603 .mcpSwPressed (toDword McpSwitch.constraint),
    .nullary 0x5604 .mcpSwPressed (toDword McpSwitch.waypoint),
    .nullary 0x5605 .mcpSwPressed (toDword McpSwitch.vord),
    .nullary 0x5606 .mcpSwPressed (toDword McpSwitch.ndb),
    .nullary 0x5607 .mcpSwPressed (toDword McpSwitch.airport),
    .nullary 0x561A .baroFmtSelected (toDword BarometricFormat.inHg),
    .nullary 0x561B .baroFmtSelected (toDword BarometricFormat.hPa),
    .nullary 0x561D .baroModeSelected (toDword BarometricMode.selected),
    .nullary 0x561E .baroModeSelected (toDword BarometricMode.standard),
    .unaryByte 0x561F .baroModeSelected,
    .unaryByte 0x5623 .ndModeSelected,
    .unaryByte 0x5624 .ndRangeSelected,
    .unaryByte 0x5625 .ndNav1ModeSelected,
    .unaryByte 0x5626 .ndNav2ModeSelected]

def setBarometricMode (mode : BarometricMode) : Setting := .byte 0x561F mode
def setBarometricFormat (fmt : BarometricFormat) : Setting := .byte 0x561C fmt
def setIlsButton (btn : BinarySwitch) : Setting := .byte 0x560E btn

def setMcpSwitch (sw : McpSwitch) (value : BinarySwitch) : Setting :=
  match sw with
  | .constraint => .byte 0x560F value
  | .waypoint => .byte 0x5610 value
  | .vord => .byte 0x5611 value
  | .ndb => .byte 0x5612 value
  | .airport => .byte 0x5613 value

def setNdModeSwitch (mode : NdModeSwitch) : Setting := .byte 0x5623 mode
def setNdRangeSwitch (range : NdRangeSwitch) : Setting := .byte 0x5624 range
def setNdNav1ModeSwitch (value : NdNavModeSwitch) : Setting := .byte 0x5625 value
def setNdNav2ModeSwitch (value : NdNavModeSwitch) : Setting := .byte 0x5626 value

end EfisControlPanelBack

section
open FlightControlUnitBack EfisControlPanelBack

/-- The setters that `MapFCUUp` calls. -/
def mapFcuUp (front : FlightControlUnit) : List Setting :=
  [setSpeedDisplayUnits front.speedDisplayUnits,
    setGuidanceDisplayMode front.guidanceDisplayMode,
    setAltitudeDisplayUnits front.altitudeDisplayUnits,
    setSwitch .loc (front.switch .loc),
    setSwitch .athr (front.switch .athr),
    setSwitch .expe (front.switch .expe),
    setSwitch .appr (front.switch .appr),
    setSwitch .ap1 (front.switch .ap1),
    setSwitch .ap2 (front.switch .ap2),
    setSpeedMode front.speedMode,
    setLateralMode front.lateralMode,
    setVerticalMode front.verticalMode,
    setSpeedValue front.speedValue,
    setMachValue front.machValue,
    setHeadingValue front.headingValue,
    setTrackValue front.trackValue,
    setTargetAltitude front.targetAltitude,
    setVerticalSpeedValue front.verticalSpeedValue,
    setFpaValue front.fpaValue]

/-- The setters that `Mapefis_control_panelUp` calls. -/
def mapEfisControlPanelUp (front : EfisControlPanel) : List Setting :=
  [setBarometricMode front.barometricMode,
    setBarometricFormat front.barometricFormat,
    setIlsButton front.ilsButton,
    setMcpSwitch .constraint (front.mcpSwitch .constraint),
    setMcpSwitch .waypoint (front.mcpSwitch .waypoint),
    setMcpSwitch .vord (front.mcpSwitch .vord),
    setMcpSwitch .ndb (front.mcpSwitch .ndb),
    setMcpSwitch .airport (front.mcpSwitch .airport),
    setNdModeSwitch front.ndModeSwitch,
    setNdRangeSwitch front.ndRangeSwitch,
    setNdNav1ModeSwitch front.ndNav1ModeSwitch,
    setNdNav2ModeSwitch front.ndNav2ModeSwitch]

def mapUp (front : CockpitFront) : List Setting :=
  mapFcuUp front.flightControlUnit ++ mapEfisControlPanelUp front.efisControlPanel

end

/-! ## Synchronization -/

/-- The functions of FSUIPC, as `local_fsuipc` calls them. -/
class LocalFsuipc (φ : Type) where
  create : EStateM Exception φ Unit
  read : Nat → Nat → EStateM Exception φ (List UInt8)
  write : List UInt8 → Nat → EStateM Exception φ Unit

section
variable {φ α : Type} [LocalFsuipc φ]

/-- `local_fsuipc::copy`, in blocks of 1024 bytes. -/
def localFsuipcCopy (read : Nat → Nat → Except Exception (List UInt8)) (srcOffset dstOffset length : Nat) :
    EStateM Exception φ Unit :=
  if length = 0 then pure ()
  else
    let l := if 1024 < length then 1024 else length
    match read srcOffset l with
    | .error e => throw e
    | .ok tmp => do
      LocalFsuipc.write tmp dstOffset
      localFsuipcCopy read ((srcOffset + l) % 2 ^ 32) ((dstOffset + l) % 2 ^ 32) (length - l)
termination_by length
decreasing_by
  split <;> omega

/-- `fsuipc` says that there is a `_fsuipc`; what it reads and writes is `memory`. -/
structure FsuipcCockpitBack (φ : Type) where
  memory : φ
  fsuipc : Bool
  buffer : Option Buffer

namespace FsuipcCockpitBack

abbrev BackM (φ : Type) := EStateM Exception (FsuipcCockpitBack φ)

def initBuffer : BackM φ Unit :=
  modify fun b =>
    let shifted : ShiftedBuffer LinearBuffer := .create (.create 512) 0x5600
    { b with buffer := some (.create shifted shifted) }

def initFsuipc : BackM φ Unit := fun b =>
  match LocalFsuipc.create b.memory with
  | .ok () memory => .ok () { b with memory, fsuipc := true }
  | .error _ memory => .error .sync { b with memory }

/-- A function of the buffer. Without one a panel is not to be had. -/
def onBuffer (x : BufferM α) : BackM φ α := fun b =>
  match b.buffer with
  | none => .error .sync b
  | some buffer =>
    match x buffer with
    | .ok a buffer => .ok a { b with buffer := some buffer }
    | .error e buffer => .error e { b with buffer := some buffer }

/-- The block is copied into the buffer. There is one by then. -/
def copyDown : BackM φ Unit := fun b =>
  match b.buffer with
  | none => .error .sync b
  | some buffer =>
    match RandomAccess.copy LocalFsuipc.read 0x5600 0x5600 512 buffer b.memory with
    | .ok buffer memory => .ok () { b with memory, buffer := some buffer }
    | .error e memory => .error e { b with memory }

def copyUp : BackM φ Unit := fun b =>
  match b.buffer with
  | none => .error .sync b
  | some buffer =>
    match localFsuipcCopy (RandomAccess.read buffer) 0x5600 0x5600 512 b.memory with
    | .ok () memory => .ok () { b with memory }
    | .error e memory => .error e { b with memory }

/-- What `sync_down` does before it swaps the buffers. -/
def prepare : BackM φ Unit := do
  if !(← get).fsuipc then initFsuipc
  if (← get).buffer.isNone then
    initBuffer
    copyDown

def refresh : BackM φ Unit := do
  onBuffer (modify DoubleBuffer.swap)
  copyDown

def syncDown : BackM φ Unit := fun b =>
  match (do prepare; refresh) b with
  | .ok () b => .ok () b
  | .error _ b => .error .sync { b with fsuipc := false }

/-- What `sync_up` does before it copies the block. -/
def mark : BackM φ Unit := do
  if !(← get).fsuipc then initFsuipc
  onBuffer (store (1 : UInt8) 0x5600)

def syncUp : BackM φ Unit := do
  if (← get).buffer.isSome then
    mark
    copyUp

def set (settings : List Setting) : BackM φ Unit := settings.forM fun s => onBuffer s.run

/-- `Map`. The front side is told the events and then asked for its state. -/
def map (front : List (Event FcuEventType) → List (Event EfisEventType) → CockpitFront) :
    BackM φ (List (Event FcuEventType) × List (Event EfisEventType)) := do
  syncDown
  let fcuEvents ← onBuffer (pollEvents FlightControlUnitBack.events)
  let efisEvents ← onBuffer (pollEvents EfisControlPanelBack.events)
  set (mapUp (front fcuEvents efisEvents))
  syncUp
  pure (fcuEvents, efisEvents)

end FsuipcCockpitBack
end
end Oac.Cockpit
