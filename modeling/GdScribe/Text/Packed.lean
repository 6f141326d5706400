/-!
# Packed texts

The long text of a class reference is kept as a row of digits. Each bit of its letters is foreseen from the
letters before it, and the digits only say where the text differs from what was foreseen.

* `Setting`: where a letter stands in the entries of a class.
* `Foresight`: the letters so far, and what is known of them.
* `Digits`: the digits that are left, and the range of what they stand for.
* `unpack`: the text.
-/

namespace GdScribe.Packed

def curve : Array Int :=
  #[1, 2, 3, 6, 10, 16, 27, 45, 73, 120, 194, 310, 488, 747, 1101, 1546, 2047, 2549, 2994, 3348, 3607,
    3785, 3901, 3975, 4022, 4050, 4068, 4079, 4085, 4089, 4092, 4093, 4094]

def probability (x : Int) : Nat :=
  if x < -2047 then 0
  else if 2047 < x then 4095
  else
    let i := (x / 128 + 16).toNat
    ((curve[i]! * (128 - x % 128) + curve[i + 1]! * (x % 128) + 64) / 128).toNat

def evidence : Array Int := Id.run do
  let mut weights := #[]
  for i in [0:4095] do
    let x := (i : Int) - 2047
    for _ in [weights.size:probability x + 1] do
      weights := weights.push x
  return weights.push 2047

def mix (sum letter : UInt32) : UInt32 := (sum + letter) * 0x2F0B4C47

def sumOf (start : UInt32) (letters : ByteArray) : UInt32 := letters.foldl (fun sum l => mix sum l.toUInt32) start

/-- Where a letter stands: in a word of a name, beside a letter of the name before, or in a type. -/
structure Setting where
  table : UInt32 := 0
  inType : Bool := false
  word : UInt32 := 0
  part : UInt32 := 0
  stem : UInt32 := 0
  last : UInt32 := 0
  name : ByteArray := .empty
  before : ByteArray := .empty
  start : Nat := 0
  beside : Option Nat := some 0

namespace Setting

/-- The letter of the name before that the next letter stands beside. -/
def model (s : Setting) : UInt32 :=
  if s.inType then 1
  else match s.beside with
    | some i => if i < s.before.size then (s.before.get! i).toUInt32 else 0
    | none => 2

def kind (s : Setting) : UInt32 := if s.inType then s.table + 5 else s.table

/-- Goes on to the next word of the name before. -/
def turn (s : Setting) : Setting :=
  let rest := s.before.extract s.start s.before.size
  let next := min (s.start + (rest.toList.takeWhile (· != 95)).length + 1) s.before.size
  { s with start := next, beside := some next }

def add (s : Setting) (letter : UInt8) : Setting :=
  let c := Char.ofNat letter.toNat
  let sum := mix s.part letter.toUInt32
  let t : Setting := match c with
    | ' ' | '\n' =>
      { table := if c = '\n' then 0 else s.table, last := if s.inType then s.part else s.last,
        before := if s.inType then s.before else s.name }
    | ':' => { s with inType := true, before := s.name, stem := s.word, part := 0 }
    | _ =>
      if s.inType then { s with part := sum }
      else if c = ',' && s.part == 0 then
        let t := s.turn
        let shared := s.before.extract s.start t.start
        { t with name := s.name ++ shared, stem := sumOf 0 shared }
      else if c = '_' then { s.turn with name := s.name.push letter, stem := sum, part := 0 }
      else
        let same := s.model == letter.toUInt32
        { s with name := s.name.push letter, part := sum, beside := if same then s.beside.map (· + 1) else none }
  { t with
    word := if c.isAlphanum then mix s.word letter.toUInt32 else 0
    table := match c with
      | '.' => 1
      | ')' => 2
      | '=' => 3
      | '|' => if s.inType then t.table else 4
      | _ => t.table }

end Setting

/-- The letters so far, and what is known of them. -/
structure Foresight where
  letters : ByteArray := .empty
  setting : Setting := {}
  slots : Array UInt32 := Array.replicate 0x1000000 0x200000
  trust : Array Int := Array.replicate 6528 4000
  places : Array Nat := Array.replicate 0x10000 0
  like : Nat := 0
  shared : Nat := 0
  entries : Array Nat := Array.replicate 0x10000 0
  entry : Nat := 0

namespace Foresight

def back (f : Foresight) (n : Nat) : UInt32 :=
  if n ≤ f.letters.size then (f.letters.get! (f.letters.size - n)).toUInt32 else 0

/-- The letter that stands after the last letters elsewhere. -/
def expected (f : Foresight) : UInt32 := if 0 < f.shared then (f.letters.get! f.like).toUInt32 else 0

/-- The contexts of the next letter. -/
def contexts (f : Foresight) : Array UInt32 :=
  let s := f.setting
  let model := s.model
  let following := if 0 < f.entry then (f.letters.get! f.entry).toUInt32 else 0
  #[[1, f.back 1], [2, f.back 1, f.back 2, f.back 3], [3, f.back 1, f.back 2, f.back 3, f.back 4], [4, s.word],
    if s.inType then [5, s.part, s.last, s.stem] else [6, model, f.back 1, s.table, f.back 2],
    [7, s.part, s.kind], [8, s.part, s.stem, model], [9, s.kind], [10, if s.part = 0 then 0 else 1, model],
    [11, f.expected, model], [12, following, s.word, model]].map (·.foldl mix 0)

def slot (bits context : UInt32) : Nat :=
  let h := (context + bits * 0x9E3779B1) * 0xC2B2AE35
  (((h ^^^ (h >>> 15)) * 0x2C1B3C6D) >>> 8).toNat

def meet (bit : Bool) (slot : UInt32) : UInt32 :=
  let p := slot >>> 6
  let n := slot &&& 63
  let p := if bit then p + (65535 - p) * 2 / (2 * n + 3) else p - p * 2 / (2 * n + 3)
  p * 64 + (if n < 10 then n + 1 else n)

/-- Whether the letter that stands after the last letters elsewhere has these bits. -/
def fits (f : Foresight) (bits value : Nat) : Bool :=
  0 < f.shared && (f.expected.toNat + 128) / (2 * value) == bits

/-- How many of the last letters, at most 32, stand before a place as well. -/
def sharedAt (f : Foresight) (place : Nat) : Nat :=
  ((List.range 32).takeWhile fun n =>
    n < place && (f.letters.get! (place - 1 - n)).toUInt32 == f.back (n + 1)).length

def add (f : Foresight) (letter : UInt8) : Foresight :=
  let goesOn := 0 < f.shared && f.expected == letter.toUInt32
  let size := f.letters.size + 1
  let f :=
    if letter = 32 || letter = 10 then
      let key := (sumOf f.setting.table f.setting.name).toNat / 65536
      { f with entry := f.entries[key]!, entries := f.entries.set! key size }
    else { f with entry := if 0 < f.entry && f.letters.get! f.entry == letter then f.entry + 1 else 0 }
  let f := { f with letters := f.letters.push letter, setting := f.setting.add letter }
  let key := ([f.back 1, f.back 2, f.back 3, f.back 4, f.back 5].foldl mix 0).toNat / 65536
  let place := f.places[key]!
  let f := { f with places := f.places.set! key size }
  if goesOn then { f with like := f.like + 1, shared := f.shared + 1 }
  else { f with like := place, shared := f.sharedAt place }

end Foresight

/-- The digits that are left, and the range of the number that was begun with them. -/
structure Digits where
  left : List Char
  low : Nat := 0
  high : Nat := 0
  value : Nat := 0

namespace Digits

def valueOf (c : Char) : Nat :=
  let n := c.toNat
  if n < 35 then 0 else if n < 92 then n - 34 else if n < 123 then n - 35 else n / 2 + 26

/-- Goes on with digits as long as the range leaves no choice for the first one, at most `n` times. -/
def settle : Nat → Digits → Digits
  | 0, d => d
  | n + 1, d =>
    if d.low / 90 ^ 8 = d.high / 90 ^ 8 then
      let rest (m : Nat) := m % 90 ^ 8 * 90
      settle n
        { left := d.left.drop 1, low := rest d.low, high := rest d.high + 89,
          value := rest d.value + (d.left.head?.map valueOf).getD 0 }
    else d

def bit (d : Digits) (p : Nat) : Bool × Digits :=
  let middle := d.low + (d.high - d.low) / 4096 * min (max p 1) 4094
  if d.value ≤ middle then (true, settle 9 { d with high := middle })
  else (false, settle 9 { d with low := middle + 1 })

end Digits

def readLetter (start : Foresight × Digits) : Foresight × Digits := Id.run do
  let (f, d) := start
  let contexts := f.contexts
  let kind := f.setting.kind.toNat
  let mut f := f
  let mut d := d
  let mut bits := 1
  for i in [0:7] do
    let slots := contexts.map (Foresight.slot bits.toUInt32)
    let value := Nat.pow 2 (6 - i)
    let alike := if f.fits bits value then f.shared else 0
    let expected := if 0 < alike then f.expected.toNat else 0
    let sign : Int := if expected / value % 2 = 0 then -64 else 64
    let weights := (slots.map fun k => evidence[f.slots[k]!.toNat / 1024]!).push (sign * min alike 32)
    let rows := [(f.back 1).toNat, 128 + min alike 15 + 16 * kind, 288 + bits, 416 + expected]
    let mut sum := 0
    for row in rows do
      for k in [0:12] do
        sum := sum + f.trust[row * 12 + k]! * weights[k]!
    let p := probability (sum / 65536)
    let (bit, rest) := d.bit p
    d := rest
    let off := ((if bit then 4096 else 0) - (p : Int)) * 2
    for row in rows do
      for k in [0:12] do
        f := { f with trust := f.trust.modify (row * 12 + k) (· + (weights[k]! * off + 8192) / 16384) }
    for k in slots do
      f := { f with slots := f.slots.modify k (Foresight.meet bit) }
    bits := 2 * bits + bit.toNat
  return (f.add (bits - 128).toUInt8, d)

/-- The text of so many letters that digits stand for. Line ends between digits do not count, and a letter after a
percent sign is a capital. -/
def unpack (length : Nat) (digits : String) : String :=
  let start := Digits.settle 9 { left := digits.toList.filter (· != '\n') }
  let letters := String.fromUTF8! (length.repeat readLetter ({}, start)).1.letters
  (letters.foldl (fun (text, capital) c =>
    if c = '%' then (text, true) else (text.push (if capital then c.toUpper else c), false)) ("", false)).1

end GdScribe.Packed
