import Oac.Base.Layout
import Oac.Base.Lockstep
import Oac.Base.Run
import Oac.Endian
import Oac.Fsuipc.Local

/-!
# The ModuleUser library, byte by byte

The functions of `module-user.c` over the memory that the library was given. Requests are
written one behind the other from the fifth byte of the view on, with a header of 16
bytes for a read and of 12 for a write; the simulator answers in the same memory, and
`FSUIPC_Process` walks over the records again to copy the answers out.
-/
namespace Oac.Fsuipc
open Base

/-- The window that FSUIPC has opened, and what it makes of a message: the result, and the
    memory of the view thereafter. -/
class Host (σ : Type) where
  findWindow : σ → Bool
  sendMessage : UInt32 → (Nat → UInt8) → σ → UInt32 × (Nat → UInt8) × σ

/-- The addresses that the linker has given to the globals and to the code. -/
class Image where
  version : UInt32
  fsVersion : UInt32
  code : UInt32
  notNull : version ≠ 0 ∧ fsVersion ≠ 0
  apart : version ≠ fsVersion

/-- The statics of the library. `next` is `m_pNext - m_pView`, and `view` is the memory at
    `m_pView`. -/
structure Library (σ : Type) where
  hWnd : Bool
  isOpen : Bool
  next : Nat
  max : UInt32
  view : Nat → UInt8
  version : UInt32
  fsVersion : UInt32
  host : σ

/-- How a function fails: with a result code, or by an access behind the end of the
    memory, after which nothing is known. -/
inductive Fault where
  | code (result : UInt32)
  | overrun
  deriving DecidableEq

/-- What `CopyMemory` has copied to a place of the process. -/
abbrev Copy := UInt32 × List UInt8

namespace Library
variable {σ : Type}

def errOpen : UInt32 := 1
def errNoFs : UInt32 := 2
def errView : UInt32 := 6
def errVersion : UInt32 := 7
def errWrongFs : UInt32 := 8

def maxSize : UInt32 := 0x7F00
def readId : UInt32 := 1
def writeId : UInt32 := 2
def messageSuccess : UInt32 := 1
def libVersion : UInt32 := 2001

/-- The dword in the view. -/
def dword (view : Nat → UInt8) (place : Nat) : UInt32 := ofMemory32 (region view place 4)

def readHeader (dwOffset dwSize pDest : UInt32) : List UInt8 :=
  toMemory32 readId ++ toMemory32 dwOffset ++ toMemory32 dwSize ++ toMemory32 pDest

def writeHeader (dwOffset dwSize : UInt32) : List UInt8 := toMemory32 writeId ++ toMemory32 dwOffset ++ toMemory32 dwSize

/-- `FSUIPC_Close`. -/
def close : EStateM Fault (Library σ) Unit := modify fun m => { m with hWnd := false, isOpen := false }

/-- A request is put behind the others. The room that is asked for is added up in 32 bits. -/
def append (dwSize : UInt32) (header data : List UInt8) : EStateM Fault (Library σ) Unit := fun m =>
  if !m.isOpen then .error (.code ModuleUser.errNotOpen) m
  else if m.max < UInt32.ofNat m.next + 8 + (dwSize + UInt32.ofNat header.length) then .error (.code ModuleUser.errSize) m
  else if m.max.toNat < m.next + header.length + dwSize.toNat then .error .overrun m
  else .ok () { m with view := patch m.view m.next (header ++ data), next := m.next + header.length + dwSize.toNat }

/-- `FSUIPC_ReadCommon`, with the memory at `pDest`. -/
def readCommon (fSpecial : Bool) (dwOffset dwSize pDest : UInt32) (dest : Nat → UInt8) : EStateM Fault (Library σ) Unit :=
  append dwSize (readHeader dwOffset dwSize pDest)
    (if fSpecial then region dest 0 dwSize.toNat else List.replicate dwSize.toNat 0)

/-- `FSUIPC_Read`. -/
def read (dwOffset dwSize pDest : UInt32) : EStateM Fault (Library σ) Unit := readCommon false dwOffset dwSize pDest fun _ => 0

/-- `FSUIPC_ReadSpecial`. -/
def readSpecial (dwOffset dwSize pDest : UInt32) (dest : Nat → UInt8) : EStateM Fault (Library σ) Unit :=
  readCommon true dwOffset dwSize pDest dest

/-- `FSUIPC_Write`, with the memory at `pSrce`. -/
def write (dwOffset dwSize : UInt32) (source : Nat → UInt8) : EStateM Fault (Library σ) Unit :=
  append dwSize (writeHeader dwOffset dwSize) (region source 0 dwSize.toNat)

variable [Image]

/-- A dword of the process whose first bytes are overwritten. -/
def overwritten (value : UInt32) (bytes : List UInt8) : UInt32 :=
  ofMemory32 ((bytes ++ (toMemory32 value).drop bytes.length).take 4)

/-- `CopyMemory`. Of the memory of the process only the globals are kept. -/
def copyMemory (m : Library σ) (copy : Copy) : Library σ :=
  { m with
    version := if copy.1 = Image.version then overwritten m.version copy.2 else m.version
    fsVersion := if copy.1 = Image.fsVersion then overwritten m.fsVersion copy.2 else m.fsVersion }

omit [Image] in
/-- The answer in the record of a read is copied to its place, if there is one. -/
def copied (view : Nat → UInt8) (place : Nat) : List Copy :=
  if dword view (place + 12) ≠ 0 ∧ dword view (place + 8) ≠ 0 then
    [(dword view (place + 12), region view (place + 16) (dword view (place + 8)).toNat)]
  else []

/-- The loop that walks over the records. A record has 12 bytes or more, so that the bytes
    of the memory are enough rounds to be at its end. -/
def decode : Nat → EStateM Fault (Library σ) (List Copy)
  | 0 => throw .overrun
  | rounds + 1 => do
    let m ← get
    if m.max.toNat < m.next + 4 then throw .overrun
    else if dword m.view m.next = 0 then pure []
    else if dword m.view m.next = readId then
      if m.max.toNat < m.next + 16 + (dword m.view (m.next + 8)).toNat then throw .overrun
      else
        let copies := copied m.view m.next
        set { copies.foldl copyMemory m with next := m.next + 16 + (dword m.view (m.next + 8)).toNat }
        let rest ← decode rounds
        pure (copies ++ rest)
    else if dword m.view m.next = writeId then
      set { m with next := m.next + 12 + (dword m.view (m.next + 8)).toNat }
      decode rounds
    else
      -- an unknown id is overwritten by a terminator
      set { m with view := patch m.view m.next (toMemory32 0) }
      pure []

/-- The answers are copied to their places, and the records are dropped. -/
def collect : EStateM Fault (Library σ) (List Copy) := do
  let copies ← decode (← get).max.toNat
  modify fun m => { m with next := 4 }
  pure copies

omit [Image] in
/-- A function of `FSUIPC_Open2` that fails closes the library. -/
def orClose {β : Type} (x : EStateM Fault (Library σ) β) : EStateM Fault (Library σ) β := fun m =>
  match x m with
  | .ok b m' => .ok b m'
  | .error fault m' => .error fault { m' with hWnd := false, isOpen := false }

/-- The requests of `FSUIPC_Open2`. -/
def greet : EStateM Fault (Library σ) Unit := do
  orClose (read 0x3304 4 Image.version)
  orClose (read 0x3308 4 Image.fsVersion)
  orClose (write 0x330a 2 fun a => (toMemory32 libVersion).getD a 0)

omit [Image] in
/-- The checks of `FSUIPC_Open2` on the answers. -/
def checkVersions (dwFSReq : UInt32) : EStateM Fault (Library σ) Unit := fun m =>
  if m.version < 0x19980005 ∨ m.fsVersion &&& 0xFFFF0000 ≠ 0xFADE0000 then .error (.code errVersion) m
  else
    let m := { m with fsVersion := m.fsVersion &&& 0xffff }
    if dwFSReq ≠ 0 ∧ dwFSReq ≠ m.fsVersion then .error (.code errWrongFs) m
    else .ok () m

/-- The memory as it is sent: with a terminator, and with the address of the code in front. -/
def message (m : Library σ) : Nat → UInt8 := patch (patch m.view m.next (toMemory32 0)) 0 (toMemory32 Image.code)

variable [Host σ]

/-- `FSUIPC_Process`. -/
def process : EStateM Fault (Library σ) (List Copy) := fun m =>
  if !m.isOpen then .error (.code ModuleUser.errNotOpen) m
  else if m.next ≤ 4 then .error (.code ModuleUser.errNoData) m
  else if m.max.toNat < m.next + 4 then .error .overrun m
  else
    let (result, view, host) := Host.sendMessage (UInt32.ofNat (m.next - 4)) (message m) m.host
    let m := { m with view, host, next := 4 }
    if result ≠ messageSuccess then .error (.code ModuleUser.errData) m
    else collect m

/-- `FSUIPC_Open2` from the first request on. -/
def connect (dwFSReq : UInt32) : EStateM Fault (Library σ) Unit := do
  greet
  let _ ← orClose process
  orClose (checkVersions dwFSReq)

/-- `FSUIPC_Open2`, with the memory at `pMem` unless it is null. -/
def open2 (dwFSReq : UInt32) (pMem : Option (Nat → UInt8)) (dwSize : UInt32) : EStateM Fault (Library σ) Unit := fun m =>
  if m.isOpen then .error (.code errOpen) m
  else
    match pMem with
    | none => .error (.code errView) m
    | some mem =>
      if dwSize < 32 then .error (.code errView) m
      else
        let m := { m with version := 0, fsVersion := 0, hWnd := Host.findWindow m.host }
        if !m.hWnd then .error (.code errNoFs) m
        else connect dwFSReq { m with max := min dwSize maxSize, isOpen := true, view := mem, next := 4 }

end Library

/-- The calls of the library. -/
inductive Call where
  | open2 (dwFSReq : UInt32) (pMem : Option (Nat → UInt8)) (dwSize : UInt32)
  | read (dwOffset dwSize pDest : UInt32)
  | readSpecial (dwOffset dwSize pDest : UInt32) (dest : Nat → UInt8)
  | write (dwOffset dwSize : UInt32) (source : Nat → UInt8)
  | process
  | close

variable {σ : Type} [Image] [Host σ]

def Call.run : Call → EStateM Fault (Library σ) (List Copy)
  | .open2 dwFSReq pMem dwSize => do
    Library.open2 dwFSReq pMem dwSize
    pure []
  | .read dwOffset dwSize pDest => do
    Library.read dwOffset dwSize pDest
    pure []
  | .readSpecial dwOffset dwSize pDest dest => do
    Library.readSpecial dwOffset dwSize pDest dest
    pure []
  | .write dwOffset dwSize source => do
    Library.write dwOffset dwSize source
    pure []
  | .process => Library.process
  | .close => do
    Library.close
    pure []

end Oac.Fsuipc
