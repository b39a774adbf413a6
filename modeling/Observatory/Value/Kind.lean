import Observatory.ParseError
/-!
# Kinds of values

A value is a scalar of one of nine base types, a selection, a bounded double, a rectangle or a
series. The kind and the flags of a value are announced to peers as one type word.

* `ofCode_code` — the type word of a kind that can be announced gives the kind back.
-/

namespace Observatory

/-- The types a single cell can hold. -/
inductive Base where
  | string
  | integer
  | time
  | double
  | float
  | bool
  | long
  /-- Right ascension and declination. -/
  | radec
  /-- Altitude and azimuth. -/
  | altaz
  deriving Repr, DecidableEq

namespace Base

/-- The number of a base type in a type word. Seven stands for selections. -/
def code : Base → UInt32
  | string => 1
  | integer => 2
  | time => 3
  | double => 4
  | float => 5
  | bool => 6
  | long => 8
  | radec => 9
  | altaz => 10

def all : List Base := [string, integer, time, double, float, bool, long, radec, altaz]

def ofCode? (c : UInt32) : Option Base := all.find? fun b => b.code == c

def name : Base → String
  | string => "string"
  | integer => "integer"
  | time => "time"
  | double => "double"
  | float => "float"
  | bool => "bool"
  | long => "long"
  | radec => "radec"
  | altaz => "altaz"

def ofName? (name : String) : Option Base := all.find? fun b => b.name == name

/-- Written as exactly one token, and therefore fit for a series. -/
def isSingleToken : Base → Bool
  | radec => false
  | altaz => false
  | _ => true

theorem ofCode?_code (b : Base) : ofCode? b.code = some b := by
  cases b <;> rfl

end Base

/-- The shape of a value, fixed when it is created. -/
inductive Kind where
  | scalar (base : Base)
  | selection
  | bounded
  | rectangle (base : Base)
  | series (base : Base)
  deriving Repr, DecidableEq

namespace Kind

/-- The type word of a kind, without flags. -/
def code : Kind → UInt32
  | scalar base => base.code
  | selection => 7
  | bounded => 0x100 ||| Base.double.code
  | rectangle base => 0x200 ||| base.code
  | series base => 0x400 ||| base.code

def name : Kind → String
  | scalar base => base.name
  | selection => "selection"
  | bounded => "minmax"
  | rectangle _ => "rectangle"
  | series _ => "array"

/-- The base types a peer may announce a rectangle of. -/
def isRectangleBase : Base → Bool
  | .integer => true
  | .double => true
  | _ => false

/-- The kind in a type word; its flags are passed over. -/
def ofCode (word : UInt32) : Except ParseError Kind :=
  let kindBits := word &&& 0xfff
  let unknown : Except ParseError Kind := .error (.unknownType kindBits)
  let base := Base.ofCode? (word &&& 0xff)
  match (word &&& 0xf00).toNat, base with
  | 0, some b => .ok (scalar b)
  | 0, none => if word &&& 0xff = 7 then .ok selection else unknown
  | 0x100, some .double => .ok bounded
  | 0x200, some b => if isRectangleBase b then .ok (rectangle b) else unknown
  | 0x400, some b => if b.isSingleToken then .ok (series b) else unknown
  | _, _ => unknown

/-- The kinds a peer can announce. -/
def isAnnounceable : Kind → Bool
  | rectangle base => isRectangleBase base
  | series base => base.isSingleToken
  | _ => true

theorem ofCode_code {k : Kind} (h : k.isAnnounceable = true) : ofCode k.code = .ok k := by
  cases k with
  | scalar b => cases b <;> rfl
  | selection => rfl
  | bounded => rfl
  | rectangle b => cases b <;> first | rfl | simp [isAnnounceable, isRectangleBase] at h
  | series b => cases b <;> first | rfl | simp [isAnnounceable, Base.isSingleToken] at h

end Kind

/-! ## Flags -/

/-- How front ends should show a value. -/
inductive DisplayHint where
  | plain
  | rightAscension
  | declination
  | degrees
  | distance
  | percent
  | hexadecimal
  | byteSize
  | interval
  deriving Repr, DecidableEq

namespace DisplayHint

def all : List DisplayHint :=
  [plain, rightAscension, declination, degrees, distance, percent, hexadecimal, byteSize, interval]

def index : DisplayHint → UInt32
  | plain => 0
  | rightAscension => 1
  | declination => 2
  | degrees => 3
  | distance => 4
  | percent => 5
  | hexadecimal => 6
  | byteSize => 7
  | interval => 8

/-- The hint of a number; an unknown number is no hint. -/
def ofIndex (i : UInt32) : DisplayHint := (all.find? fun h => h.index == i).getD plain

def name : DisplayHint → String
  | plain => "plain"
  | rightAscension => "ra"
  | declination => "dec"
  | degrees => "degrees"
  | distance => "distance"
  | percent => "percent"
  | hexadecimal => "hex"
  | byteSize => "bytes"
  | interval => "interval"

def ofName? (name : String) : Option DisplayHint := all.find? fun h => h.name == name

theorem ofIndex_index (h : DisplayHint) : ofIndex h.index = h := by
  cases h <;> rfl

end DisplayHint

/-- What a type word says beside the kind. -/
structure Flags where
  /-- Peers may change the value with a set request. -/
  writable : Bool := false
  /-- Recorded in image headers. -/
  fits : Bool := false
  hint : DisplayHint := .plain
  deriving Repr, DecidableEq

namespace Flags

def bits (f : Flags) : UInt32 :=
  f.hint.index <<< 16 ||| (if f.writable then 0x02000000 else 0) |||
    (if f.fits then 0x01000000 else 0)

def ofBits (word : UInt32) : Flags :=
  ⟨word &&& 0x02000000 != 0, word &&& 0x01000000 != 0,
    .ofIndex ((word &&& 0x00ff0000) >>> 16)⟩

theorem ofBits_bits (f : Flags) : ofBits f.bits = f := by
  obtain ⟨writable, fits, hint⟩ := f
  cases writable <;> cases fits <;> cases hint <;> rfl

end Flags

end Observatory
