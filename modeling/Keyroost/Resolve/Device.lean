import Keyroost.Keyring.Ring
import Keyroost.Library.RustStr
import Mathlib.Data.List.Sort

/-!
# Device rows

One physical key as a scan reports it (`keyroost-resolve/src/device.rs`), with how it is named. The
nodes, the reader and the serials of a row are as the scan found them; two nodes are on one USB
device only if both report where they are (`sameUsbDevice`).

Rows are listed by serial, those without one last (`listOrder`), and all passes over rows that give
names or numbers go in that order.
-/

/-! ### HID interfaces

What the backend reports about a connected HID interface. -/

namespace Keyroost.Hid

/-- Where an interface is opened, as text. -/
abbrev Path : Type := RustStr

def HID_USAGE_PAGE_FIDO : UInt16 := 0xF1D0

/-- Which physical USB device a HID node or a reader belongs to. -/
inductive UsbDeviceKey where
  | busAddr (bus addr : UInt8)
  | winNode (instanceId : RustStr)
deriving DecidableEq, Repr

/-- A missing key is never evidence. -/
def sameUsbDevice (a b : Option UsbDeviceKey) : Bool := a.isSome && decide (a = b)

structure HidDevice where
  path : Path
  vendorId : UInt16
  productId : UInt16
  productName : RustStr
  usagePage : UInt16
  usage : UInt16
  serialNumber : Option RustStr
  usbDevice : Option UsbDeviceKey
deriving DecidableEq, Repr

def HidDevice.isFido (h : HidDevice) : Bool := decide (h.usagePage = HID_USAGE_PAGE_FIDO)

theorem sameUsbDevice_iff {a b : Option UsbDeviceKey} :
    sameUsbDevice a b = true ↔ ∃ key, a = some key ∧ b = some key := by
  rw [sameUsbDevice, Bool.and_eq_true, decide_eq_true_iff]
  constructor
  · rintro ⟨hsome, hab⟩
    obtain ⟨key, hkey⟩ := Option.isSome_iff_exists.mp hsome
    exact ⟨key, hkey, hab.symm.trans hkey⟩
  · rintro ⟨key, ha, hb⟩
    rw [ha, hb]
    exact ⟨rfl, rfl⟩

end Keyroost.Hid

/-! ### Device rows -/

namespace Keyroost.Resolve

open Hid Keyring

inductive DeviceKind where
  | key
  | token
  | progToken
deriving DecidableEq, Repr

abbrev DeviceId : Type := RustStr

/-- Where the name a row shows lives. -/
inductive NameSource where
  | key
  | computer
deriving DecidableEq, Repr

/-- What a scan learned about a name stored on the key itself. That none is stored, that the key can
store none and that nobody could look are three different things. -/
inductive KeyLabel where
  | notRead
  | readFailed
  | unsupported
  | absent
  | present (text : RustStr)
  | unreadable
deriving DecidableEq, Repr

/-- Text that fails the rules for names is never shown. -/
def KeyLabel.fromText (text : RustStr) : KeyLabel :=
  match validateName text with
  | .ok () => .present text
  | .error _ => .unreadable

structure Naming where
  plain : Option RustStr
  source : Option NameSource
  selectable : Bool
  onKey : KeyLabel
  missingOnKey : Option RustStr
deriving DecidableEq, Repr

/-- `Naming::default`. -/
def Naming.unnamed : Naming :=
  { plain := none, source := none, selectable := false, onKey := .notRead, missingOnKey := none }

structure Device where
  id : DeviceId
  name : Option RustStr
  serial : RustStr
  kind : DeviceKind
  hidPath : Option Path
  reader : Option RustStr
  hidSerial : Option RustStr
  formerSerial : Option RustStr
  naming : Naming
deriving DecidableEq, Repr

/-- The order of `list`: by serial, without regard to case, rows without one last, and
then by id. -/
def Device.cmpList (x y : Device) : Ordering :=
  (compare x.serial.isEmpty y.serial.isEmpty).then
    ((compare (RustStr.toAsciiLowercase x.serial) (RustStr.toAsciiLowercase y.serial)).then
      (compare x.id y.id))

def listBefore (devices : List Device) (a b : Nat) : Bool :=
  match devices[a]?, devices[b]? with
  | some x, some y => (x.cmpList y).isLE
  | _, _ => true

def listOrder (devices : List Device) : List Nat :=
  (List.range devices.length).insertionSort fun a b => listBefore devices a b = true

theorem mem_listOrder {devices : List Device} {i : Nat} :
    i ∈ listOrder devices ↔ i < devices.length := by
  rw [listOrder, (List.perm_insertionSort _ _).mem_iff, List.mem_range]

end Keyroost.Resolve
