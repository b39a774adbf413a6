import Observatory.Number.Integer
/-!
# Status words

The state of a device, announced to its peers as one word. Each part of a device owns the bits
under a mask and leaves the others alone.
-/

namespace Observatory

/-- The state word of a device. -/
structure DeviceStatus where
  bits : UInt32 := 0
  deriving DecidableEq

namespace DeviceStatus

def errorMask : UInt32 := 0x00ff0000

/-- The bit of a device that cannot be used yet. -/
def notReady : UInt32 := 0x00040000

def moveMask : UInt32 := 3

def moving : UInt32 := 1

/-- Replaces the bits under a mask and keeps all others. -/
def update (s : DeviceStatus) (mask bits : UInt32) : DeviceStatus :=
  ⟨(s.bits &&& ~~~mask) ||| (bits &&& mask)⟩

def masked (s : DeviceStatus) (mask : UInt32) : UInt32 := s.bits &&& mask

def hasError (s : DeviceStatus) : Bool := s.masked errorMask != 0

def isReady (s : DeviceStatus) : Bool := s.masked notReady == 0

/-- Eight hexadecimal digits. -/
def text (s : DeviceStatus) : String := String.ofList (Number.hexText 8 s.bits.toNat)

end DeviceStatus

end Observatory
