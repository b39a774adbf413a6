import Observatory.Number.Integer
import Observatory.Text.Utf8
/-!
# What shell commands print

The characters that the printing commands of a shell write with a backslash, and the formats of
the command that fills arguments in.
-/

namespace Observatory.Rehearsal.Shell

/-! ## Characters behind a backslash -/

def octalDigit? (c : Char) : Option Nat :=
  if '0' ≤ c ∧ c ≤ '7' then some (c.toNat - '0'.toNat) else none

/-- The byte that at most so many octal digits stand for, and what follows them. -/
def readOctal : Nat → Nat → List Char → UInt8 × List Char
  | width + 1, n, c :: rest =>
    match octalDigit? c with
    | some d => readOctal width (8 * n + d) rest
    | none => (n.toUInt8, c :: rest)
  | _, n, cs => (n.toUInt8, cs)

def charBytes (c : Char) : Bytes := Text.Utf8.encode c.toString

/-- The byte that a letter behind a backslash stands for. -/
def letterByte? (c : Char) : Option UInt8 :=
  [('n', 10), ('t', 9), ('r', 13), ('a', 7), ('b', 8), ('f', 12), ('v', 11), ('\\', 92)].lookup c

/-- What a backslash in front of a text stands for, and what follows. -/
def escape : List Char → Bytes × List Char
  | [] => ([92], [])
  | c :: rest =>
    match letterByte? c with
    | some b => ([b], rest)
    | none =>
      if (octalDigit? c).isSome then
        let (b, rest) := readOctal 3 0 (c :: rest)
        ([b], rest)
      else (92 :: charBytes c, rest)

/-- The text of an argument of the echo command, and whether it says that nothing may follow. An
octal number may start with an extra zero. -/
def echoed : Nat → List Char → Bytes × Bool
  | 0, _ | _, [] => ([], false)
  | fuel + 1, c :: rest =>
    let next (b : Bytes) (rest : List Char) : Bytes × Bool :=
      let (more, stopped) := echoed fuel rest
      (b ++ more, stopped)
    match c, rest with
    | '\\', 'c' :: _ => ([], true)
    | '\\', '0' :: rest =>
      let (b, rest) := readOctal 3 0 rest
      next [b] rest
    | '\\', rest => next (escape rest).1 (escape rest).2
    | c, rest => next (charBytes c) rest

def echo (args : List String) : Bytes :=
  let (ended, args) := if args.head? = some "-n" then (false, args.tail) else (true, args)
  let text := " ".intercalate args
  let (bytes, stopped) := echoed text.length text.toList
  if ended && !stopped then bytes ++ [10] else bytes

/-! ## Formats -/

structure Slot where
  flags : List Char
  width : Nat
  /-- The most bytes of a text, or the least digits of a number. -/
  places : Option Nat
  letter : Char

/-- Reads what stands behind a percent sign. -/
def slot? (cs : List Char) : Option (Slot × List Char) :=
  let (flags, rest) := cs.span ['-', '+', ' ', '0', '#'].contains
  let (width, rest) := rest.span Char.isDigit
  let (places, rest) := match rest with
    | '.' :: rest => (some (rest.takeWhile Char.isDigit), rest.dropWhile Char.isDigit)
    | rest => (none, rest)
  let number (ds : List Char) : Nat := (Number.readNat ds).getD 0
  match rest with
  | [] => none
  | letter :: rest => some (⟨flags, number width, places.map number, letter⟩, rest)

def digit? (base : Nat) (c : Char) : Option Nat :=
  let n := if c.isDigit then c.toNat - '0'.toNat else c.toLower.toNat - 'a'.toNat + 10
  if c.isAlphanum && n < base then some n else none

/-- The number at the start of a text, and what follows it. -/
def leadingNat (cs : List Char) : Option (Nat × List Char) :=
  let inBase (base : Nat) (cs : List Char) : Option (Nat × List Char) :=
    let (ds, rest) := cs.span fun c => (digit? base c).isSome
    if ds.isEmpty then none
    else some (ds.foldl (fun n c => base * n + (digit? base c).getD 0) 0, rest)
  match cs with
  | '0' :: x :: rest =>
    if x = 'x' || x = 'X' then (inBase 16 rest).orElse fun _ => some (0, x :: rest)
    else inBase 8 cs
  | cs => inBase 10 cs

/-- The number that an argument stands for, and what is wrong with it. -/
def numberOf (arg : String) : Int × Option String :=
  let judge (n : Int) (rest : List Char) : Int × Option String :=
    (n, if rest.isEmpty then none else some s!"{arg}: not completely converted")
  match arg.toList with
  | [] => (0, none)
  | '"' :: cs | '\'' :: cs => ((cs.head?.map fun c => (c.toNat : Int)).getD 0, none)
  | '-' :: cs =>
    match leadingNat cs with
    | some (n, rest) => judge (-n) rest
    | none => (0, some s!"{arg}: expected numeric value")
  | cs =>
    match leadingNat (if cs.head? = some '+' then cs.tail else cs) with
    | some (n, rest) => judge n rest
    | none => (0, some s!"{arg}: expected numeric value")

namespace Slot

def pad (s : Slot) (text : Bytes) : Bytes :=
  let missing := List.replicate (s.width - text.length) 32
  if s.flags.contains '-' then text ++ missing else missing ++ text

/-- The digits of a number behind its sign, in their width. -/
def padDigits (s : Slot) (sign digits : List Char) : Bytes :=
  let digits := Number.padZeros (s.places.getD 1) digits
  let zeros := s.flags.contains '0' && !s.flags.contains '-' && s.places.isNone
  let digits := if zeros then Number.padZeros (s.width - sign.length) digits else digits
  s.pad (Text.Utf8.encode (String.ofList (sign ++ digits)))

def sign (s : Slot) (n : Int) : List Char :=
  if n < 0 then ['-'] else if s.flags.contains '+' then ['+']
  else if s.flags.contains ' ' then [' '] else []

/-- The text of an argument, and what is wrong with the argument. -/
def fillIn (s : Slot) (arg : String) : Option (Bytes × Option String) :=
  let (n, fault) := numberOf arg
  let limit (text : Bytes) : Bytes := (s.places.map text.take).getD text
  let inBase (base : Nat) : List Char := Nat.toDigits base n.toNat
  match s.letter with
  | 's' => some (s.pad (limit (Text.Utf8.encode arg)), none)
  | 'b' => some (s.pad (limit (echoed arg.length arg.toList).1), none)
  | 'c' => some (s.pad ((Text.Utf8.encode arg ++ [0]).take 1), none)
  | 'd' | 'i' | 'u' => some (s.padDigits (s.sign n) (Number.natText n.natAbs), fault)
  | 'x' => some (s.padDigits [] (inBase 16), fault)
  | 'X' => some (s.padDigits [] ((inBase 16).map Char.toUpper), fault)
  | 'o' => some (s.padDigits [] (inBase 8), fault)
  | _ => none

end Slot

/-- What was filled in, what was wrong, and the arguments that are left. -/
structure Filled where
  bytes : Bytes := []
  faults : List String := []
  /-- The format itself is wrong; what was filled in ends there. -/
  invalid : Bool := false
  left : List String

/-- Fills arguments into a format once. -/
def fillOnce : Nat → List Char → List String → Filled
  | 0, _, args | _, [], args => { left := args }
  | fuel + 1, c :: rest, args =>
    let next (b : Bytes) (fault : Option String) (rest : List Char) (args : List String) : Filled :=
      let more := fillOnce fuel rest args
      { more with bytes := b ++ more.bytes, faults := fault.toList ++ more.faults }
    match c, rest with
    | '\\', rest => next (escape rest).1 none (escape rest).2 args
    | '%', '%' :: rest => next [37] none rest args
    | '%', rest =>
      match slot? rest with
      | none => next [37] none rest args
      | some (slot, after) =>
        match slot.fillIn (args.headD "") with
        | some (b, fault) => next b fault after args.tail
        | none =>
          let directive := String.ofList (rest.take (rest.length - after.length))
          { faults := [s!"%{directive}: invalid directive"], invalid := true, left := args }
    | c, rest => next (charBytes c) none rest args

/-- Fills arguments into a format, again and again as long as arguments are left. -/
def fill : Nat → String → List String → Filled
  | 0, _, args => { left := args }
  | fuel + 1, format, args =>
    let once := fillOnce (format.length + 1) format.toList args
    if once.invalid || once.left.isEmpty || once.left.length == args.length then once
    else
      let more := fill fuel format once.left
      { more with bytes := once.bytes ++ more.bytes, faults := once.faults ++ more.faults }

end Observatory.Rehearsal.Shell
