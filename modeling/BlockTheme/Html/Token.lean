import BlockTheme.Html.Reference
import BlockTheme.Text.Case
import BlockTheme.Text.Quoted

/-!
# Tokens of HTML

A tolerant reader of HTML. It takes tags apart as people write them, passes over comments and
declarations, and takes what makes no sense as text. Two things are refused (`Rejection`): marked
sections with a strange keyword, and references whose number has too many digits to be computed.

A construct that the text ends in the middle of is held back: `tokens` reads as far as it can
without such a construct, and then once more from there with the end of the text in sight.
-/
namespace BlockTheme.Html

open Text (isBlank startsWith dropStart?)

/-- A piece of an HTML text. Comments and declarations leave none. -/
inductive Token where
  | text (content : List Char)
  /-- Text in a section of its own, which is shown wherever it stands. -/
  | section (content : List Char)
  /-- A start tag; `closed` if it ends in a slash. -/
  | start (name : List Char) (attributes : List (List Char × List Char)) (closed : Bool)
  | stop (name : List Char)
  deriving DecidableEq, Repr

/-- Why a text is not read to its end. -/
inductive Rejection where
  /-- A marked section begins without a keyword; the text from there on. -/
  | noKeyword (near : List Char)
  /-- A marked section has a keyword that is none. -/
  | unknownKeyword (word : List Char)
  /-- The number of a reference has too many digits; how many. -/
  | longNumber (digits : Nat)
  deriving DecidableEq, Repr

/-- How a refusal of the markup is told, given what the reader says about it. -/
def refusal (cause : String) : String :=
  "The markup you provided was rejected by the parser. Trying a different parser or a different "
    ++ "encoding may help.\n\nOriginal exception(s) from parser:\n AssertionError: " ++ cause

def Rejection.message : Rejection → String
  | .noKeyword near => refusal ("expected name token at " ++ Text.quoted (String.ofList near))
  | .unknownKeyword word =>
    refusal ("unknown status keyword " ++ Text.quoted (String.ofList word) ++ " in marked section")
  -- the number is refused before the reader can say anything about the markup
  | .longNumber digits => Text.tooManyDigits digits

/-- Whether it is a number that is refused, and not the markup. -/
def Rejection.isOfNumber : Rejection → Bool
  | .longNumber _ => true
  | .noKeyword _ | .unknownKeyword _ => false

/-- What a construct at the front of a text turned out to be. -/
inductive Construct where
  /-- It is complete; its tokens, the element whose content is raw text from here on, and the rest
  of the text. -/
  | complete (found : List Token) (raw : Option (List Char)) (rest : List Char)
  | incomplete
  | rejected (why : Rejection)

/-- The text after the first occurrence of a character. -/
def after? (c : Char) : List Char → Option (List Char)
  | [] => none
  | d :: r => if d = c then some r else after? c r

/-- The text before and after the first place where `stop?` finds an end. -/
def untilStop? (stop? : List Char → Option (List Char)) :
    List Char → Option (List Char × List Char)
  | [] => none
  | c :: r =>
    match stop? (c :: r) with
    | some rest => some ([], rest)
    | none => (untilStop? stop? r).map fun (before, rest) => (c :: before, rest)

def skipBlanks (s : List Char) : List Char := s.dropWhile isBlank

/-- A letter of the alphabet, as tags begin with. -/
def isLetter (c : Char) : Bool := c.isAlpha

/-! ## Attributes -/

def isQuote (c : Char) : Bool := c.toNat = 34 || c.toNat = 39

/-- The characters after which an attribute may begin. -/
def separates (c : Char) : Bool := isBlank c || c = '/' || isQuote c

/-- Passes over blanks, and over slashes that do not end the tag. Gives the last character before
the rest too. -/
def skipSeparators (last : Char) : List Char → Char × List Char
  | [] => (last, [])
  | c :: r =>
    if isBlank c || (c = '/' && !startsWith (· == '>') r) then skipSeparators c r
    else (last, c :: r)

/-- The value of an attribute after its name: the value, the last character of what was read, and
the rest. -/
def readValue (last : Char) (s : List Char) : List Char × Char × List Char :=
  let (equals, r) := (skipBlanks s).span (· == '=')
  let (gap, r) := r.span isBlank
  let bare (start : List Char) :=
    let (value, rest) := r.span fun c => c != '>' && !isBlank c
    (start ++ value, '=', rest)
  if equals.isEmpty then ([], last, s)
  else
    match r with
    | [] => bare []
    | c :: inner =>
      if isQuote c then
        match untilStop? (dropStart? [c]) inner with
        | some (value, rest) => (value, c, rest)
        | none =>
          -- a quote that is never closed opens no value: blanks before it are an empty one, and of
          -- several equals signs the last one begins the value
          if !gap.isEmpty then ([], ' ', r)
          else if 1 < equals.length then bare ['=']
          else ([], last, s)
      else bare []

/-- Attributes up to the end of the tag, with their values as they are written, and the text from
there on. -/
def readAttributes :
    Nat → Char → List Char → List (List Char × List Char) × List Char
  | 0, _, s => ([], s)
  | fuel + 1, last, s =>
    -- one unit of fuel goes for each attribute
    let (last, s) := skipSeparators last s
    match s with
    | [] => ([], [])
    | c :: r =>
      if separates last && c != '>' && c != '/' then
        let (name, r) := r.span fun d => !isBlank d && d != '/' && d != '=' && d != '>'
        let (value, last, r) := readValue ((c :: name).getLastD c) r
        let (more, rest) := readAttributes fuel last r
        ((Text.lower (c :: name), value) :: more, rest)
      else ([], c :: r)

/-! ## Tags -/

/-- The characters of the name of a tag after the first one. -/
def isTagChar (c : Char) : Bool :=
  c != '\t' && c != '\n' && c != '\r' && c.toNat != 12 && c != ' ' && c != '/' && c != '>'
    && c.toNat != 0

/-- The elements whose content is raw text. -/
def rawElements : List (List Char) := ["script".toList, "style".toList]

/-- The name of a start tag after its opening bracket, its attributes as they are written, and the
text from the end of the tag on. -/
def readHead (s : List Char) :
    List Char × List (List Char × List Char) × List Char :=
  let (name, r) := s.span isTagChar
  (name, readAttributes r.length (name.getLastD ' ') r)

/-- A start tag, after its opening bracket. -/
def readStart (s : List Char) : Construct :=
  let (name, written, r) := readHead s
  let attributes := written.map fun (key, value) => (key, unescape value)
  let name := Text.lower name
  match r with
  | '>' :: rest =>
    .complete [.start name attributes false]
      (if rawElements.contains name then some name else none) rest
  | '/' :: '>' :: rest => .complete [.start name attributes true] none rest
  | [] => .incomplete
  | c :: rest =>
    if c = '=' || c = '/' || isLetter c then .incomplete
    -- it neither ends nor can go on, so what was read of it is text
    else .complete [.text ('<' :: s.take (s.length - (c :: rest).length))] none (c :: rest)

/-- The characters of the name in a plain end tag after the first one. -/
def isPlainNameChar (c : Char) : Bool :=
  c.isAlphanum || c = '-' || c = '.' || c = ':' || c = '_'

/-- A plain end tag after its opening bracket and slash: blanks, a name, blanks and the closing
bracket. -/
def readPlainEnd? (s : List Char) : Option (List Char × List Char) :=
  match skipBlanks s with
  | [] => none
  | c :: r =>
    if isLetter c then
      let (name, r) := r.span isPlainNameChar
      match skipBlanks r with
      | '>' :: rest => some (Text.lower (c :: name), rest)
      | _ => none
    else none

/-- An end tag, after its opening bracket and slash. -/
def readEnd (s : List Char) : Construct :=
  match after? '>' s with
  | none => .incomplete
  | some afterBracket =>
    match readPlainEnd? s with
    | some (name, rest) => .complete [.stop name] none rest
    | none =>
      -- what follows the name is passed over, and without a name it is a comment
      if startsWith isLetter s then
        .complete [.stop (Text.lower (s.takeWhile isTagChar))] none afterBracket
      else .complete [] none afterBracket

/-! ## Comments and declarations -/

/-- A construct without tokens that ends where a text was found. -/
def passOver : Option (List Char) → Construct
  | some rest => .complete [] none rest
  | none => .incomplete

def commentEnd? (s : List Char) : Option (List Char) :=
  (dropStart? ['-', '-'] s).bind fun r => dropStart? ['>'] (skipBlanks r)

/-- The end of a marked section with a keyword of its own. -/
def sectionEnd? (s : List Char) : Option (List Char) :=
  (dropStart? [']'] s).bind fun r =>
    (dropStart? [']'] (skipBlanks r)).bind fun r => dropStart? ['>'] (skipBlanks r)

def conditionEnd? (s : List Char) : Option (List Char) :=
  (dropStart? [']'] s).bind fun r => dropStart? ['>'] (skipBlanks r)

/-- The characters of a keyword after the first one. -/
def isKeywordChar (c : Char) : Bool := c.isAlphanum || c = '-' || c = '_' || c = '.'

/-- How much of a text a refusal shows. -/
def nearLength : Nat := 20

def lowerAscii (s : List Char) : List Char := s.map Char.toLower

/-- The content of a marked section: text if it begins with `CDATA[`, hidden otherwise. -/
def sectionTokens (content : List Char) : List Token :=
  if lowerAscii (content.take 6) = "cdata[".toList then [.section (content.drop 6)] else []

/-- A marked section, after `<![`. -/
def readSection (s : List Char) : Construct :=
  match s with
  | [] => .incomplete
  | c :: r =>
    if !isLetter c then .rejected (.noKeyword (('<' :: '!' :: '[' :: s).take nearLength))
    else
      let keyword := c :: r.takeWhile isKeywordChar
      let blanks := (s.drop keyword.length).takeWhile isBlank
      let finish (stop? : List Char → Option (List Char)) :=
        match untilStop? stop? s with
        | some (content, rest) => Construct.complete (sectionTokens content) none rest
        | none => .incomplete
      -- the keyword may go on
      if keyword.length + blanks.length = s.length then .incomplete
      else if ["temp", "cdata", "ignore", "include", "rcdata"].contains
          (String.ofList (lowerAscii keyword)) then finish sectionEnd?
      else if ["if", "else", "endif"].contains (String.ofList (lowerAscii keyword)) then
        finish conditionEnd?
      else .rejected (.unknownKeyword (keyword ++ blanks))

/-- A construct that begins with `<!`, after that. -/
def readDeclaration (s : List Char) : Construct :=
  match s with
  | '-' :: '-' :: r => passOver ((untilStop? commentEnd? r).map (·.2))
  | '[' :: r => readSection r
  | s =>
    if lowerAscii (s.take 7) = "doctype".toList then passOver (after? '>' (s.drop 7))
    else passOver (after? '>' s)

/-! ## Text -/

/-- One step of reading. -/
inductive Step where
  /-- Tokens, the element whose content is raw text from here on, and the rest of the text. -/
  | more (found : List Token) (raw : Option (List Char)) (rest : List Char)
  /-- Nothing more can be told without what follows. -/
  | held (found : List Token) (rest : List Char)
  | rejected (why : Rejection)

/-- What an incomplete construct is when the text does end there. -/
def giveUp (s : List Char) : Step :=
  let inner := s.drop 1
  -- text up to the next closing bracket, or else up to the next opening one, or else one character
  let size :=
    if inner.contains '>' then 2 + (inner.takeWhile (· != '>')).length
    else if inner.contains '<' then 1 + (inner.takeWhile (· != '<')).length
    else 1
  .more [.text (s.take size)] none (s.drop size)

/-- A construct as a step; an incomplete one is held back unless the end is in sight. -/
def Construct.step (final : Bool) (s : List Char) : Construct → Step
  | .complete found raw rest => .more found raw rest
  | .incomplete => if final then giveUp s else .held [] s
  | .rejected why => .rejected why

def readBracket (final : Bool) (r : List Char) : Step :=
  let s := '<' :: r
  match r with
  | [] => .held [] s
  | '/' :: r => (readEnd r).step final s
  | '?' :: r => (passOver (after? '>' r)).step final s
  | '!' :: r => (readDeclaration r).step final s
  | c :: _ =>
    if isLetter c then (readStart r).step final s else .more [.text ['<']] none r

/-- A numeric reference after its `&#`: whether it is hexadecimal, its digits and the rest. -/
def readNumber? (s : List Char) : Option (Bool × List Char × List Char) :=
  let isHex (c : Char) : Bool := (Text.hexDigit? c).isSome
  let (digits, rest) := s.span Char.isDigit
  if !digits.isEmpty then
    -- what ends the digits may not be a hexadecimal one
    if rest.isEmpty || startsWith isHex rest then none else some (false, digits, rest)
  else
    match s with
    | x :: s =>
      let (digits, rest) := s.span isHex
      if (x = 'x' || x = 'X') && !digits.isEmpty && !rest.isEmpty then some (true, digits, rest)
      else none
    | [] => none

/-- The characters of the name of a reference after the first one. -/
def isReferenceChar (c : Char) : Bool := c.isAlphanum || c = '-' || c = '.'

/-- A named reference after its ampersand: its name and the rest. -/
def readName? (s : List Char) : Option (List Char × List Char) :=
  if !startsWith isLetter s then none
  else
    let (name, rest) := s.span isReferenceChar
    if !rest.isEmpty then some (name, rest)
    else
      -- the text ends with the name, which goes back to before its last hyphen or point
      let tail := (name.reverse.takeWhile Char.isAlphanum).length
      let kept := name.length - tail
      if kept = 0 then none else some (name.take (kept - 1), name.drop (kept - 1))

def readReference (final : Bool) (r : List Char) : Step :=
  let s := '&' :: r
  match r with
  | [] => .held [] s
  | '#' :: inner =>
    match readNumber? inner with
    | some (hexadecimal, digits, rest) =>
      .more [.text (numberedText hexadecimal digits)] none (semicolon? rest).2
    | none => if inner.contains ';' then .held [.text ['&', '#']] inner else .held [] s
  | c :: more =>
    match readName? r with
    | some (name, rest) => .more [.text (namedText name)] none (semicolon? rest).2
    | none =>
      if isLetter c then
        if final && more.isEmpty then .held [] r else .held [] s
      else .more [.text ['&']] none r

/-- The end tag of an element with raw text. -/
def rawEnd? (name : List Char) (s : List Char) : Option (List Char) :=
  (dropStart? ['<', '/'] s).bind fun r =>
    (readPlainEnd? r).bind fun (found, rest) => if found = name then some rest else none

def readStep (final : Bool) (s : List Char) : Step :=
  match s with
  | [] => .held [] []
  | c :: r =>
    if c = '<' then readBracket final r
    else if c = '&' then readReference final r
    else
      let (content, rest) := s.span fun c => c != '<' && c != '&'
      .more [.text content] none rest

/-- The number of digits in the first reference that has too many of them, in the construct that a
text begins with. -/
def longNumber? (s : List Char) : Option Nat :=
  match s with
  | '&' :: '#' :: r =>
    (readNumber? r).bind fun (hexadecimal, digits, _) => tooLong? hexadecimal digits
  | '<' :: c :: r =>
    if isLetter c then
      match readStart (c :: r) with
      -- the values of a tag are only looked into when its end was found
      | .complete .. => (readHead (c :: r)).2.1.findSome? fun (_, value) => longNumberIn? value
      | _ => none
    else none
  | _ => none

/-- Where reading stopped: the rest of the text, unless it is lost in an element with raw text. -/
inductive Stop where
  | held (rest : List Char)
  | lost

/-- Reads as far as possible. -/
def readOn (final : Bool) :
    Nat → Option (List Char) → List Char → Except Rejection (List Token × Stop)
  | 0, _, s => .ok ([], .held s)
  | _ + 1, none, [] => .ok ([], .held [])
  | fuel + 1, some name, s =>
    match untilStop? (rawEnd? name) s with
    -- raw text that is never closed is lost
    | none => .ok ([], .lost)
    | some (content, rest) =>
      (readOn final fuel none rest).map fun (found, stop) =>
        (.text content :: .stop name :: found, stop)
  | fuel + 1, none, s =>
    match readStep final s with
    | .held found rest => .ok (found, .held rest)
    | .rejected why => .error why
    | .more found raw rest =>
      match longNumber? s with
      | some digits => .error (.longNumber digits)
      | none => (readOn final fuel raw rest).map fun (more, stop) => (found ++ more, stop)

def tokens (s : List Char) : Except Rejection (List Token) := do
  let (found, stop) ← readOn false (2 * s.length + 1) none s
  match stop with
  | .lost => return found
  | .held s =>
    -- the end of the text is in sight now
    let (more, stop) ← readOn true (2 * s.length + 1) none s
    match stop with
    | .lost => return found ++ more
    | .held [] => return found ++ more
    | .held rest => return found ++ more ++ [.text rest]

end BlockTheme.Html
