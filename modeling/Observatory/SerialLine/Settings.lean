/-!
# Settings of a serial line
-/

namespace Observatory.SerialLine

/-- The check bit of a character. -/
inductive Parity where
  | none
  | odd
  | even
  deriving Repr, DecidableEq

structure Settings where
  path : String
  baud : Nat := 9600
  dataBits : Nat := 8
  parity : Parity := .none
  deriving DecidableEq

namespace Settings

inductive Fault where
  | unsupportedBaud (rate : Nat)
  | unsupportedDataBits (bits : Nat)
  deriving DecidableEq

namespace Fault

def message : Fault → String
  | unsupportedBaud rate => s!"unsupported baud rate {rate}"
  | unsupportedDataBits bits => s!"unsupported data bits {bits}"

end Fault

def baudRates : List Nat := [2400, 4800, 9600, 19200, 38400, 57600, 115200]

def check (s : Settings) : Except Fault Unit :=
  if !baudRates.contains s.baud then .error (.unsupportedBaud s.baud)
  else if s.dataBits = 7 || s.dataBits = 8 then .ok ()
  else .error (.unsupportedDataBits s.dataBits)

end Settings

end Observatory.SerialLine
