import GdScribe.Pattern.Basic

/-!
# Written patterns

How patterns are written: most characters stand for themselves, a backslash gives the next
character a meaning or takes it away, `[...]` is a set, `*`, `+`, `?` and `{...}` repeat what
stands before them, `|` divides alternatives, and parentheses make groups of several kinds.

* `Fault`: why a text is no pattern.
* `Matcher`: a pattern with the number of its groups and their names.
* `Matcher.ofText`: reads a pattern.
-/

namespace GdScribe.Pattern

/-- Why a text is no pattern, or none that can be used with a template. -/
inductive Fault where
  | badEscape
  | unclosedSet
  | badRange
  | nothingToRepeat
  | repeatedTwice
  | badBounds
  | tooOften
  | unclosedGroup
  | unopenedGroup
  | badName
  | nameTwice
  | unknownGroup
  | openGroup
  | badOptions
  | lateOptions
  | unknownForm
  | severalWidths
  | tooManyBranches
  | unknownName (name : String)
  deriving DecidableEq, Repr, Inhabited

/-- A character of a written pattern, and whether a backslash stands before it. -/
structure Mark where
  char : Char
  escaped : Bool := false
  deriving DecidableEq, Repr, Inhabited

namespace Mark

def text (m : Mark) : String :=
  if m.escaped then "\\" ++ String.singleton m.char else String.singleton m.char

def is (m : Mark) (c : Char) : Bool := !m.escaped && m.char == c

/-- The marks of a text, unless it ends in a backslash that stands alone. -/
def ofChars? : List Char → Option (List Mark)
  | [] => some []
  | ['\\'] => none
  | '\\' :: c :: rest => (ofChars? rest).map (⟨c, true⟩ :: ·)
  | c :: rest => (ofChars? rest).map (⟨c, false⟩ :: ·)

end Mark

/-- A pattern that is being read. -/
structure Reading where
  marks : List Mark
  widths : Array (Option Width) := #[]
  names : List (String × Nat) := []
  /-- Inside a pattern that is looked for behind: the number of its first group. -/
  behindFrom : Option Nat := none
  /-- The groups that were asked for by number before it was known whether they are there. -/
  asked : List Nat := []
  options : Options := {}
  late : Option Fault := none
  deriving Inhabited

abbrev NotationM := EStateM Fault Reading

def peek : NotationM (Option Mark) := return (← get).marks.head?

def skip : NotationM Unit := modify fun r => { r with marks := r.marks.tail }

def next : NotationM (Option Mark) := do
  let m ← peek
  skip
  return m

def nextIs (c : Char) : NotationM Bool := return (← peek).any (·.is c)

def accept (c : Char) : NotationM Bool := do
  let found ← nextIs c
  if found then skip
  return found

def takeChars (n : Nat) (p : Char → Bool) : NotationM (List Char) := do
  let r ← get
  let taken := (r.marks.take n).takeWhile fun m => !m.escaped && p m.char
  set { r with marks := r.marks.drop taken.length }
  return taken.map (·.char)

def takeAll (p : Char → Bool) : NotationM (List Char) := do
  takeChars (← get).marks.length p

/-- The text up to a character, which is taken too; it must not be empty. -/
def textUpTo (c : Char) : NotationM String := do
  let r ← get
  let taken := r.marks.takeWhile fun m => !m.is c
  if taken.isEmpty || taken.length == r.marks.length then throw .badName
  set { r with marks := r.marks.drop (taken.length + 1) }
  return String.join (taken.map Mark.text)

def numberIn (base : Nat) (digits : List Char) : Nat :=
  digits.foldl (fun n d => base * n + CharSet.digitValue d.toLower) 0

def isOctal (c : Char) : Bool := '0' ≤ c && c ≤ '7'
def isHexadecimal (c : Char) : Bool := c.isDigit || ('a' ≤ c.toLower && c.toLower ≤ 'f')

/-- The number of a group that is not written as a name: decimal digits of any script, which single
underscores may divide, with a sign and blanks around it. -/
def groupNumber? (text : String) : Option Nat :=
  let (minus, digits) := match (Text.strip text).toList with
    | '+' :: ds => (false, ds)
    | '-' :: ds => (true, ds)
    | ds => (false, ds)
  let parts := digits.splitOn '_'
  if parts.all fun part => !part.isEmpty && part.all CharClass.isDecimal then
    let n := parts.flatten.foldl (fun n d => 10 * n + CharClass.decimalValue d) 0
    if minus && n ≠ 0 then none else some n
  else none

def groupCount : NotationM Nat := return (← get).widths.size

def groupWidth? (number : Nat) : NotationM (Option Width) := do
  if number = 0 then return none else return ((← get).widths[number - 1]?).join

/-- Checks a reference to a group from inside a pattern that is looked for behind: the group has to
have ended before that pattern. -/
def checkBehind (number : Nat) : NotationM Unit := do
  if let some first := (← get).behindFrom then
    if (← groupWidth? number).isNone then throw .openGroup
    if first ≤ number then throw .openGroup

/-- What a part of a row is, as far as it matters for repeating it. -/
inductive PartKind where
  | anchor
  | rows
  | other
  deriving DecidableEq, Repr, Inhabited

structure Part where
  pattern : Pattern
  width : Width := {}
  kind : PartKind := .other
  deriving Inhabited

namespace Part

def chars (o : Options) (members : List Member) (negated : Bool) : Part :=
  ⟨.char ⟨members, negated, o.ignoreCase, o.ascii⟩, .one, .other⟩

def code (o : Options) (n : Nat) : Part := chars o [.run n n] false

def anchor (a : Anchor) : Part := ⟨.place a, {}, .anchor⟩

def joined (parts : List Part) : Pattern × Width :=
  parts.foldl (fun (p, w) part => (.both part.pattern p, part.width.add w)) (.nothing, {})

end Part

def reference (o : Options) (number : Nat) : NotationM Part := do
  let some width ← groupWidth? number
    | throw (if number ≤ (← groupCount) then .openGroup else .unknownGroup)
  checkBehind number
  return ⟨.again number o, width, .other⟩

def plainEscapes : List (Char × Nat) :=
  [('a', 7), ('f', 12), ('n', 10), ('r', 13), ('t', 9), ('v', 11), ('\\', 92)]

def kindEscape? (c : Char) : Option Member :=
  match c with
  | 'd' => some (.kind .digit false)
  | 'D' => some (.kind .digit true)
  | 's' => some (.kind .blank false)
  | 'S' => some (.kind .blank true)
  | 'w' => some (.kind .word false)
  | 'W' => some (.kind .word true)
  | _ => none

def hexCode (digits : Nat) : NotationM Nat := do
  let ds ← takeChars digits isHexadecimal
  let n := numberIn 16 ds
  if ds.length = digits && n ≤ 0x10FFFF then return n else throw .badEscape

/-- The code point that a backslash and a character write, with digits after them where they are
needed. Names of characters are not known. -/
def codeEscape (c : Char) : NotationM Nat := do
  match plainEscapes.lookup c with
  | some n => return n
  | none =>
    if c = 'x' then hexCode 2
    else if c = 'u' then hexCode 4
    else if c = 'U' then hexCode 8
    else if c.isAlphanum then throw .badEscape
    else return c.toNat

def maxOctal : Nat := 255

def octalCode (digits : List Char) : NotationM Nat :=
  let n := numberIn 8 digits
  if n ≤ maxOctal then return n else throw .badEscape

/-- What a backslash and a digit other than zero stand for: a character if three octal digits
follow, and otherwise a group. -/
def digitEscape (o : Options) (c : Char) : NotationM Part := do
  let second ← takeChars 1 Char.isDigit
  let third ← if (c :: second).all isOctal && !second.isEmpty then takeChars 1 isOctal else pure []
  if third.isEmpty then reference o (numberIn 10 (c :: second))
  else return Part.code o (← octalCode (c :: second ++ third))

def escape (o : Options) (c : Char) : NotationM Part := do
  match kindEscape? c with
  | some m => return Part.chars o [m] false
  | none =>
    match c with
    | 'A' => return Part.anchor .textStart
    | 'Z' => return Part.anchor .textEnd
    | 'b' => return Part.anchor (.wordEdge o.ascii false)
    | 'B' => return Part.anchor (.wordEdge o.ascii true)
    | '0' => return Part.code o (numberIn 8 (← takeChars 2 isOctal))
    | c => if c.isDigit then digitEscape o c else return Part.code o (← codeEscape c)

def setEscape (c : Char) : NotationM Member := do
  match kindEscape? c with
  | some m => return m
  | none =>
    let n ← if c = 'b' then pure 8
      else if isOctal c then do octalCode (c :: (← takeChars 2 isOctal))
      else codeEscape c
    return .run n n

def setMember (m : Mark) : NotationM Member :=
  if m.escaped then setEscape m.char else return .run m.char.toNat m.char.toNat

/-- The members of a set up to its end, after those that were read before; a bracket at the start
is a member. The number bounds the members. -/
def setMembers : Nat → List Member → NotationM (List Member)
  | 0, _ => throw .unclosedSet
  | n + 1, done => do
    let some m ← next | throw .unclosedSet
    if m.is ']' && !done.isEmpty then return done
    let first ← setMember m
    if ← accept '-' then
      let some m ← next | throw .unclosedSet
      if m.is ']' then return .run '-'.toNat '-'.toNat :: first :: done
      match first, ← setMember m with
      | .run a _, .run b _ => if b < a then throw .badRange else setMembers n (.run a b :: done)
      | _, _ => throw .badRange
    else setMembers n (first :: done)

def charSet (o : Options) : NotationM Part := do
  let negated ← accept '^'
  let members ← setMembers ((← get).marks.length + 1) []
  return Part.chars o members.reverse negated

def maxRows : Nat := 4294967295

/-- The bounds after an opening brace; if there are none, nothing is taken. -/
def bounds? : NotationM (Option (Nat × Option Nat)) := do
  let start ← get
  if ← nextIs '\x7d' then return none
  let least ← takeAll Char.isDigit
  let most ← if ← accept ',' then takeAll Char.isDigit else pure least
  if !(← accept '\x7d') then
    set start
    return none
  let low := numberIn 10 least
  let high := if most.isEmpty then none else some (numberIn 10 most)
  if maxRows ≤ low || high.any (maxRows ≤ ·) then throw .tooOften
  if high.any (· < low) then throw .badBounds
  return some (low, high)

def manner : NotationM Manner := do
  if ← accept '?' then return .least
  else if ← accept '+' then return .firm
  else return .most

def repeatLast (least : Nat) (most : Option Nat) (parts : List Part) : NotationM (List Part) := do
  match parts with
  | [] => throw .nothingToRepeat
  | part :: rest =>
    if part.kind = .anchor then throw .nothingToRepeat
    if part.kind = .rows then throw .repeatedTwice
    return ⟨.rows part.pattern least most (← manner), part.width.rows least most, .rows⟩ :: rest

def optionLetters : List Char := ['i', 'L', 'm', 's', 'x', 'a', 't', 'u']

def classLetters : List Char := ['a', 'L', 'u']

def Options.turned (o : Options) (on off : List Char) : Options :=
  let now := fun (c : Char) (before : Bool) => (before || on.contains c) && !off.contains c
  { ignoreCase := now 'i' o.ignoreCase
    lines := now 'm' o.lines
    anyChar := now 's' o.anyChar
    spaced := now 'x' o.spaced
    ascii := if on.contains 'u' then false else now 'a' o.ascii }

/-- Letters of options up to a mark that is none, which is taken too. -/
def letters : Nat → Char → List Char → NotationM (List Char × Char)
  | 0, _, _ => throw .badOptions
  | n + 1, c, done => do
    let done := c :: done
    let some m ← next | throw .badOptions
    if m.escaped then throw .badOptions
    if optionLetters.contains m.char then letters n m.char done else return (done, m.char)

def checkOn (on : List Char) : NotationM Unit := do
  if on.contains 'L' || (on.filter classLetters.contains).eraseDups.length > 1 then
    throw .badOptions

/-- The options that start with a letter or a minus: those for the whole pattern, or those to be
turned on and off for a group. -/
def optionGroup (first : Char) : NotationM (List Char × Option (List Char)) := do
  let n := (← get).marks.length + 1
  let (on, stop) ← if first = '-' then pure ([], '-') else letters n first []
  checkOn on
  if stop = ')' then return (on, none)
  if on.contains 't' then throw .badOptions
  if stop = ':' then return (on, some [])
  if stop ≠ '-' then throw .badOptions
  let some m ← next | throw .badOptions
  if m.escaped || !optionLetters.contains m.char then throw .badOptions
  let (off, stop) ← letters n m.char []
  if stop ≠ ':' || off.any (fun c => classLetters.contains c || c = 't' || on.contains c) then
    throw .badOptions
  return (on, some off)

def openGroup (name : Option String) : NotationM Nat := do
  let r ← get
  let number := r.widths.size + 1
  let names ← match name with
    | none => pure r.names
    | some name =>
      if (r.names.lookup name).isSome then throw .nameTwice
      pure ((name, number) :: r.names)
  set { r with widths := r.widths.push none, names := names }
  return number

def closeGroup (number : Nat) (w : Width) : NotationM Unit :=
  modify fun r => { r with widths := r.widths.set! (number - 1) (some w) }

def endGroup : NotationM Unit := do
  if !(← accept ')') then throw .unclosedGroup

def nameUpTo (c : Char) : NotationM String := do
  let name ← textUpTo c
  if Text.isIdentifier name then return name else throw .badName

def numberOf (name : String) : NotationM Nat := do
  let some number := (← get).names.lookup name | throw .unknownGroup
  return number

def choiceGroup : NotationM Nat := do
  let name ← textUpTo ')'
  let number ← if Text.isIdentifier name then numberOf name
    else match groupNumber? name with
      | none | some 0 => throw .badName
      | some number => do
        modify fun r => { r with asked := number :: r.asked }
        pure number
  checkBehind number
  return number

def behindPart (p : Pattern) (w : Width) (wanted : Bool) : NotationM Part := do
  match w.fixed? with
  | some width =>
    if maxRows < width then modify fun r => { r with late := some .severalWidths }
    return ⟨.behind width p wanted, {}, .other⟩
  | none =>
    modify fun r => { r with late := some .severalWidths }
    return ⟨.behind 0 p wanted, {}, .other⟩

def skipThrough (c : Char) : NotationM Bool := do
  let r ← get
  let passed := r.marks.takeWhile fun m => !m.is c
  set { r with marks := r.marks.drop (passed.length + 1) }
  return passed.length < r.marks.length

mutual

/-- Reads alternatives up to the end of a group; `top` tells whether they are the whole pattern.
The number bounds the depth. -/
def alternatives : Nat → Options → Bool → NotationM (Pattern × Width)
  | 0, _, _ => throw .unclosedGroup
  | n + 1, o, top => do
    let (p, w) ← row n o top []
    if ← accept '|' then
      let global := (← get).options
      let o := if top then global else o
      let (q, v) ← moreAlternatives n o
      return (.either p q, w.either v)
    else return (p, w)

def moreAlternatives : Nat → Options → NotationM (Pattern × Width)
  | 0, _ => throw .unclosedGroup
  | n + 1, o => do
    let (p, w) ← row n o false []
    if ← accept '|' then
      let (q, v) ← moreAlternatives n o
      return (.either p q, w.either v)
    else return (p, w)

/-- Reads a row after the parts that were read before, the last one first; `first` tells whether
it is the first row of the whole pattern. -/
def row : Nat → Options → Bool → List Part → NotationM (Pattern × Width)
  | 0, _, _, _ => throw .unclosedGroup
  | n + 1, o, first, parts => do
    match ← peek with
    | none => return Part.joined parts
    | some m =>
      if m.is '|' || m.is ')' then return Part.joined parts
      skip
      if m.escaped then row n o first ((← escape o m.char) :: parts)
      else if o.spaced && " \t\n\r\x0b\x0c".toList.contains m.char then row n o first parts
      else if o.spaced && m.char = '#' then
        let _ ← skipThrough '\n'
        row n o first parts
      else match m.char with
        | '[' => row n o first ((← charSet o) :: parts)
        | '.' =>
          let members := if o.anyChar then [] else [Member.run 10 10]
          row n o first (Part.chars { o with ignoreCase := false } members true :: parts)
        | '^' => row n o first (Part.anchor (if o.lines then .lineStart else .textStart) :: parts)
        | '$' => row n o first (Part.anchor (if o.lines then .lineEnd else .lastEnd) :: parts)
        | '*' => row n o first (← repeatLast 0 none parts)
        | '+' => row n o first (← repeatLast 1 none parts)
        | '?' => row n o first (← repeatLast 0 (some 1) parts)
        | '\x7b' =>
          match ← bounds? with
          | some (least, most) => row n o first (← repeatLast least most parts)
          | none => row n o first (Part.code o '\x7b'.toNat :: parts)
        | '(' =>
          if ← accept '?' then special n o first parts
          else row n o first ((← capture n o none) :: parts)
        | c => row n o first (Part.code o c.toNat :: parts)

def capture : Nat → Options → Option String → NotationM Part
  | 0, _, _ => throw .unclosedGroup
  | n + 1, o, name => do
    let number ← openGroup name
    let (p, w) ← alternatives n o false
    endGroup
    closeGroup number w
    return ⟨.group number p, w, .other⟩

def enclosed : Nat → Options → NotationM (Pattern × Width)
  | 0, _ => throw .unclosedGroup
  | n + 1, o => do
    let r ← alternatives n o false
    endGroup
    return r

/-- Reads a group of a special form, after its question mark, and the row after it. -/
def special : Nat → Options → Bool → List Part → NotationM (Pattern × Width)
  | 0, _, _, _ => throw .unclosedGroup
  | n + 1, o, first, parts => do
    let some m ← next | throw .unclosedGroup
    if m.escaped then throw .unknownForm
    match m.char with
    | 'P' =>
      if ← accept '<' then row n o first ((← capture n o (some (← nameUpTo '>'))) :: parts)
      else if ← accept '=' then
        row n o first ((← reference o (← numberOf (← nameUpTo ')'))) :: parts)
      else throw .unknownForm
    | '#' =>
      if !(← skipThrough ')') then throw .unclosedGroup
      row n o first parts
    | ':' =>
      let (p, w) ← enclosed n o
      row n o first (⟨p, w, .other⟩ :: parts)
    | '>' =>
      let (p, w) ← enclosed n o
      row n o first (⟨.alone p, w, .other⟩ :: parts)
    | '=' => row n o first (⟨.ahead (← enclosed n o).1 true, {}, .other⟩ :: parts)
    | '!' => row n o first (⟨.ahead (← enclosed n o).1 false, {}, .other⟩ :: parts)
    | '<' => row n o first ((← lookBehind n o) :: parts)
    | '(' => row n o first ((← choice n o) :: parts)
    | c =>
      if c ≠ '-' && !optionLetters.contains c then throw .unknownForm
      match ← optionGroup c with
      | (on, none) =>
        if !first || !parts.isEmpty then throw .lateOptions
        modify fun r => { r with options := r.options.turned on [] }
        let o := (← get).options
        row n o first parts
      | (on, some off) =>
        let (p, w) ← enclosed n (o.turned on off)
        row n o first (⟨p, w, .other⟩ :: parts)

def lookBehind : Nat → Options → NotationM Part
  | 0, _ => throw .unclosedGroup
  | n + 1, o => do
    let some m ← next | throw .unclosedGroup
    if !(m.is '=' || m.is '!') then throw .unknownForm
    let before := (← get).behindFrom
    let inner := before.getD ((← groupCount) + 1)
    modify fun r => { r with behindFrom := some inner }
    let (p, w) ← alternatives n o false
    modify fun r => { r with behindFrom := before }
    endGroup
    behindPart p w (m.is '=')

def choice : Nat → Options → NotationM Part
  | 0, _ => throw .unclosedGroup
  | n + 1, o => do
    let number ← choiceGroup
    let (p, w) ← row n o false []
    let (q, v) ← if ← accept '|' then row n o false [] else pure (.nothing, {})
    if ← nextIs '|' then throw .tooManyBranches
    endGroup
    return ⟨.ifNoted number p q, w.either v, .other⟩

end

/-- A pattern with the number of its groups and their names. -/
structure Matcher where
  pattern : Pattern
  groups : Nat
  names : List (String × Nat)
  deriving DecidableEq, Repr, Inhabited

def whole : NotationM Matcher := do
  let r ← get
  let (p, _) ← alternatives (4 * r.marks.length + 4) r.options true
  let r ← get
  if !r.marks.isEmpty then throw .unopenedGroup
  if r.asked.any (r.widths.size < ·) then throw .unknownGroup
  if let some f := r.late then throw f
  return ⟨p, r.widths.size, r.names⟩

def Matcher.ofText (text : String) : Except Fault Matcher :=
  match Mark.ofChars? text.toList with
  | none => .error .badEscape
  | some marks =>
    match whole { marks := marks } with
    | .ok m _ => .ok m
    | .error f _ => .error f

end GdScribe.Pattern
