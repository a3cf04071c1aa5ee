import Keyroost.Library.Slots
import Keyroost.Library.Sole
import Keyroost.Resolve.Device
import Keyroost.Resolve.IdentityCache

/-!
# Which reader each FIDO node owns

The matching of HID nodes to card readers: by the exact USB device, by the identity that both sides
report, and last by the vendor's only reader. Modelled from `keyroost-resolve/src/device.rs`,
`keyroost-resolve/src/identity.rs` and `keyroost-transport/src/lib.rs`.

The three steps are loops over the nodes, each with its own check of what is still free; a `Binding`
is the slots of the nodes and the claims on the readers, as the source keeps them in two vectors.
What each step looks for is a function of the node and the probes, and the turn of a loop is that
function with the checks around it.
-/

/-! ### Reader probes

What enumeration learns of a PC/SC reader and of the card in it. -/

namespace Keyroost.Transport

open Hid

structure ReaderProbe where
  readerName : RustStr
  isMolto2 : Bool
  serial : Option RustStr
  formerSerial : Option RustStr
  hasOath : Bool
  hasOpenpgp : Bool
  hasPiv : Bool
  hasFido : Bool
  hasOtp : Bool
  isProg : Bool
  progSerial : Option RustStr
  yubikeySerial : Option RustStr
  usbDevice : Option UsbDeviceKey
deriving DecidableEq, Repr

/-- A reader and the management serial read from the YubiKey in it. -/
structure YubiKeyCcid where
  readerName : RustStr
  usbDevice : Option UsbDeviceKey
  serial : Option RustStr
deriving DecidableEq, Repr

end Keyroost.Transport

/-! ### Which reader each FIDO node owns -/

namespace Keyroost.Resolve

open Hid Transport Slots Sole

def VID_YUBICO : UInt16 := 0x1050

def vendorName (vid : UInt16) : RustStr :=
  if vid = 0x1050 then "Yubico".toList
  else if vid = 0x20a0 then "Nitrokey".toList
  else if vid = 0x1209 then "SoloKeys".toList
  else if vid = 0x096e then "Feitian".toList
  else if vid = 0x311f then "TrustKey".toList
  else if vid = 0x2581 then "Kanokey".toList
  else if vid = 0x349e then "Token2".toList
  else if vid = 0x1e0d then "OpenSK".toList
  else "Security key".toList

/-- The identities reported, by HID path and by reader name. -/
structure Identities where
  hid : List (Path × CanonicalId)
  reader : List (RustStr × CanonicalId)
deriving DecidableEq, Repr

/-- How a node came to own its reader, in the order the steps are tried: by the USB device of both,
by the identity that both report, and last by being the only ones of their vendor. -/
inductive MatchStep where
  | topology
  | identity
  | vendor
deriving DecidableEq, Repr

structure MatchOptions where
  skipTopology : Bool
  skipVendorFallback : Bool
deriving DecidableEq, Repr

/-- `MatchOptions::default`. -/
def MatchOptions.shipped : MatchOptions := { skipTopology := false, skipVendorFallback := false }

/-! ### Guesses -/

def isYubicoReader (c : YubiKeyCcid) : Bool :=
  c.serial.isSome || RustStr.containsStr (RustStr.toAsciiLowercase c.readerName) "yubikey".toList

/-- The node's own evidence rules out guessing that a reader with this key is its own. -/
def topologyRulesOutGuess (node reader : Option UsbDeviceKey) : Bool :=
  match node with
  | none => false
  | some (.winNode _) => reader.isSome
  | some (.busAddr _ _) => true

def readerByTopology (probes : List ReaderProbe) (hid : HidDevice) : Option ReaderProbe :=
  (probes.filter fun p => !p.isMolto2).find? fun p => sameUsbDevice p.usbDevice hid.usbDevice

/-- The readers that the vendor guess may take for a Yubico key. -/
def ykReaders (probes : List ReaderProbe) : List YubiKeyCcid :=
  (probes.filter fun p => !p.isMolto2).map fun p =>
    { readerName := p.readerName, usbDevice := p.usbDevice, serial := p.yubikeySerial }

def readerKey (probes : List ReaderProbe) (yk : List YubiKeyCcid) (name : RustStr) :
    Option UsbDeviceKey :=
  (((probes.find? fun p => decide (p.readerName = name)).map (·.usbDevice)).or
    ((yk.find? fun c => decide (c.readerName = name)).map (·.usbDevice))).join

def readerByVendor (probes : List ReaderProbe) (yk : List YubiKeyCcid) (hid : HidDevice) :
    Option RustStr :=
  if hid.vendorId = VID_YUBICO then (sole (yk.filter isYubicoReader)).map (·.readerName)
  else
    let vt := RustStr.toAsciiLowercase (vendorName hid.vendorId)
    sole (((probes.filter fun p => !p.isMolto2).map (·.readerName)).filter fun r =>
      RustStr.containsStr (RustStr.toAsciiLowercase r) vt)

/-! ### Readers bound so far -/

/-- By reader name, the key of the node that claimed it. -/
abbrev Claimed : Type := List (RustStr × Option UsbDeviceKey)

def readerIsBindable (claimed : Claimed) (reader : RustStr) (hid : HidDevice) : Bool :=
  match claimed.lookup reader with
  | none => true
  | some key => sameUsbDevice key hid.usbDevice

/-- The results so far, in the order of the nodes, and the readers they claim. -/
structure Binding (β : Type) where
  bound : List (Option β)
  claimed : Claimed
deriving DecidableEq, Repr

namespace Binding

def unbound (β : Type) (hids : List HidDevice) : Binding β :=
  { bound := List.replicate hids.length none, claimed := [] }

def bind {β : Type} (st : Binding β) (i : Nat) (hid : HidDevice) (reader : RustStr) (b : β) :
    Binding β :=
  { bound := st.bound.set i (some b), claimed := (reader, hid.usbDevice) :: st.claimed }

/-- The rest of a turn of a step, once it has chosen a reader or continued. -/
def take (st : Binding (RustStr × MatchStep)) (i : Nat) (hid : HidDevice) (step : MatchStep) :
    Option RustStr → Binding (RustStr × MatchStep)
  | none => st
  | some reader => st.bind i hid reader (reader, step)

end Binding

/-- One turn of step 1: the reader at the node's exact USB device. -/
def topologyTurn (probes : List ReaderProbe) (st : Binding RustStr) (i : Nat)
    (hid : HidDevice) : Binding RustStr :=
  match readerByTopology probes hid with
  | none => st
  | some p =>
      if readerIsBindable st.claimed p.readerName hid then
        st.bind i hid p.readerName p.readerName
      else st

/-- Step 1 alone: every reader goes to the node at its exact USB device. -/
def topologyBound (hids : List HidDevice) (probes : List ReaderProbe) : List (Option RustStr) :=
  (turns (topologyTurn probes) (Binding.unbound RustStr hids) hids).bound

section Choices

variable (hids : List HidDevice) (probes : List ReaderProbe) (yk : List YubiKeyCcid)
  (ids : Identities)

/-- Step 2 for one node: the only reader that reported the node's identity, which no other
unbound node reports. -/
def identityChoice (st : Binding (RustStr × MatchStep)) (i : Nat) (hid : HidDevice) :
    Option RustStr :=
  if (slot st.bound i).isSome then none
  else
    match ids.hid.lookup hid.path with
    | none => none
    | some id =>
        let twins := (hids.zipIdx.filter fun e =>
          (slot st.bound e.2).isNone && decide (ids.hid.lookup e.1.path = some id)).length
        let owners := probes.filter fun p =>
          !p.isMolto2 && decide (ids.reader.lookup p.readerName = some id)
        match sole owners with
        | none => none
        | some owner =>
            if twins ≠ 1 ∨ (hid.usbDevice.isSome ∧ owner.usbDevice.isSome) then none
            else if readerIsBindable st.claimed owner.readerName hid then some owner.readerName
            else none

/-- Both sides answered and their identities differ. -/
def identitiesDiffer (hid : HidDevice) (name : RustStr) : Bool :=
  match ids.hid.lookup hid.path, ids.reader.lookup name with
  | some a, some b => decide (a ≠ b)
  | _, _ => false

/-- Step 3 for one node: the vendor's only reader, where nothing speaks against it and no
other unbound node guesses it. -/
def vendorChoice (st : Binding (RustStr × MatchStep)) (i : Nat) (hid : HidDevice) :
    Option RustStr :=
  if (slot st.bound i).isSome then none
  else
    match (readerByVendor probes yk hid).filter fun n => readerIsBindable st.claimed n hid with
    | none => none
    | some name =>
        let guessedKey := readerKey probes yk name
        if topologyRulesOutGuess hid.usbDevice guessedKey then none
        else if identitiesDiffer ids hid name then none
        else if hids.zipIdx.any fun e =>
            decide (e.2 ≠ i) && (slot st.bound e.2).isNone &&
              !topologyRulesOutGuess e.1.usbDevice guessedKey &&
              decide (readerByVendor probes yk e.1 = some name) then none
        else some name

end Choices

/-- The reader of each node, with the step that bound it. Each step is a loop over all nodes before
the next one begins, so a later step cannot take a reader from an earlier one. -/
def bindReaders (hids : List HidDevice) (probes : List ReaderProbe) (yk : List YubiKeyCcid)
    (ids : Identities) (opts : MatchOptions) : List (Option (RustStr × MatchStep)) :=
  let st : Binding (RustStr × MatchStep) := Binding.unbound _ hids
  let st := if opts.skipTopology then st
    else turns (fun st i hid =>
      st.take i hid .topology (slot (topologyBound hids probes) i)) st hids
  let st := turns (fun st i hid =>
    st.take i hid .identity (identityChoice hids probes ids st i hid)) st hids
  let st := if opts.skipVendorFallback then st
    else turns (fun st i hid =>
      st.take i hid .vendor (vendorChoice hids probes yk ids st i hid)) st hids
  st.bound

end Keyroost.Resolve

/-! ### Serials of FIDO nodes

A node's serial is the one its USB descriptor carries, else the one its own identity read
gave, else for a YubiKey the one read from the card reader that is its own. -/

namespace Keyroost.Resolve

open Hid Transport Sole

def needsCcidSerial (d : HidDevice) : Bool :=
  d.serialNumber.isNone && decide (d.vendorId = VID_YUBICO)

/-- The serial of the YubiKey reader at the node's exact USB device. -/
def ccidSerialByTopology (d : HidDevice) (readers : List YubiKeyCcid) : Option RustStr :=
  if needsCcidSerial d then
    ((readers.filter (·.serial.isSome)).find? fun r =>
      sameUsbDevice r.usbDevice d.usbDevice).bind (·.serial)
  else none

/-- The serial of the only reader that answered, unless the node's own evidence rules it
out. -/
def ccidSerialGuess (d : HidDevice) (readers : List YubiKeyCcid) : Option RustStr :=
  if needsCcidSerial d then
    match sole (readers.filter (·.serial.isSome)) with
    | some only => if topologyRulesOutGuess d.usbDevice only.usbDevice then none else only.serial
    | none => none
  else none

def ccidSerialsAttributed (devices : List HidDevice) (readers : List YubiKeyCcid)
    (allowGuess : Bool) : List (Option RustStr) :=
  let taken := devices.filterMap fun d => ccidSerialByTopology d readers
  let claimants := ((devices.filter fun d => (ccidSerialByTopology d readers).isNone).filter
    fun d => (ccidSerialGuess d readers).isSome).length
  devices.map fun d =>
    match ccidSerialByTopology d readers with
    | some serial => some serial
    | none => (ccidSerialGuess d readers).bind fun guess =>
        let contended := decide (1 < claimants) || taken.contains guess
        if allowGuess && !contended then some guess else none

namespace CanonicalId

/-- The identity as the serial of a row, for the vendors whose rows use it so. -/
def rowSerial (id : CanonicalId) : Option RustStr :=
  match id.scheme with
  | .yubicoSerial | .token2Fido => some id.value
  | .solo2Uuid | .token2Otp => none

end CanonicalId

def identitySerial (ids : Identities) (h : HidDevice) : Option RustStr :=
  (ids.hid.lookup h.path).bind CanonicalId.rowSerial

def nodeSerials (nodes : List HidDevice) (yk : List YubiKeyCcid) (ids : Identities)
    (opts : MatchOptions) : List (Option RustStr) :=
  (nodes.zip (ccidSerialsAttributed nodes yk (!opts.skipVendorFallback))).map fun e =>
    (e.1.serialNumber.or (identitySerial ids e.1)).or e.2

/-- The node's serial came from its own identity report. -/
def serialFromIdentity (ids : Identities) (h : HidDevice) : Bool :=
  h.serialNumber.isNone && (identitySerial ids h).isSome

/-- The serials that occur more than once. -/
def duplicated (serials : List RustStr) : List RustStr :=
  serials.filter fun s => decide (1 < serials.count s)

end Keyroost.Resolve
