import Etymology.Document.Value

namespace Etymology

namespace Json

inductive Blank where
  | space
  | tab
  | lineFeed
  | carriageReturn
deriving DecidableEq

def Blank.char : Blank → Char
  | .space => ' '
  | .tab => '\t'
  | .lineFeed => '\n'
  | .carriageReturn => '\r'

/-- What may stand between the parts of a text. -/
abbrev Gap := List Blank

def Gap.chars (g : Gap) : List Char :=
  g.map Blank.char

/-- The characters that a letter behind a backslash may stand for. -/
inductive Escape where
  | quote
  | backslash
  | slash
  | backspace
  | formFeed
  | lineFeed
  | carriageReturn
  | tab
deriving DecidableEq

def Escape.letter : Escape → Char
  | .quote => '"'
  | .backslash => '\\'
  | .slash => '/'
  | .backspace => 'b'
  | .formFeed => 'f'
  | .lineFeed => 'n'
  | .carriageReturn => 'r'
  | .tab => 't'

def Escape.char : Escape → Char
  | .quote => '"'
  | .backslash => '\\'
  | .slash => '/'
  | .backspace => '\x08'
  | .formFeed => '\x0c'
  | .lineFeed => '\n'
  | .carriageReturn => '\r'
  | .tab => '\t'

def hexDigit? (c : Char) : Option Nat :=
  if c.isDigit then some (c.toNat - '0'.toNat)
  else if 'a' ≤ c ∧ c ≤ 'f' then some (c.toNat - 'a'.toNat + 10)
  else if 'A' ≤ c ∧ c ≤ 'F' then some (c.toNat - 'A'.toNat + 10)
  else none

/-- The number that digits spell in a base. -/
def numeral (base : Nat) (ds : List Char) : Nat :=
  ds.foldl (fun n d => base * n + (hexDigit? d).getD 0) 0

/-- Four hexadecimal digits. -/
structure Code where
  digits : List Char
  four : digits.length = 4
  hexadecimal : (digits.all fun c => (hexDigit? c).isSome) = true

def Code.number (u : Code) : Nat :=
  numeral 16 u.digits

def Code.chars (u : Code) : List Char :=
  '\\' :: 'u' :: u.digits

/-- One character of a string as it is spelled: as it is, behind a backslash, by its code, or by the two
halves of a code that is too large for four digits. -/
inductive Piece where
  | raw (c : Char) (legal : 0x20 ≤ c.toNat ∧ c ≠ '"' ∧ c ≠ '\\')
  | escaped (e : Escape)
  | code (u : Code) (isSingle : u.number.isValidChar)
  | pair (high low : Code) (isHigh : 0xD800 ≤ high.number ∧ high.number < 0xDC00)
    (isLow : 0xDC00 ≤ low.number ∧ low.number < 0xE000)

namespace Piece

def chars : Piece → List Char
  | .raw c _ => [c]
  | .escaped e => ['\\', e.letter]
  | .code u _ => u.chars
  | .pair high low _ _ => high.chars ++ low.chars

def char : Piece → Char
  | .raw c _ => c
  | .escaped e => e.char
  | .code u _ => Char.ofNat u.number
  | .pair high low _ _ => Char.ofNat (0x10000 + (high.number - 0xD800) * 0x400 + (low.number - 0xDC00))

end Piece

/-- A string between its quotes. -/
abbrev Pieces := List Piece

def Pieces.chars (ps : Pieces) : List Char :=
  ps.flatMap Piece.chars

def Pieces.text (ps : Pieces) : String :=
  String.ofList (ps.map Piece.char)

/-- A text without quotes, backslashes and control characters stands for itself. -/
def Pieces.plain (s : String)
    (legal : (s.toList.all fun c => decide (0x20 ≤ c.toNat ∧ c ≠ '"' ∧ c ≠ '\\')) = true) : Pieces :=
  s.toList.pmap Piece.raw fun c member => of_decide_eq_true (List.all_eq_true.mp legal c member)

structure Digits where
  chars : List Char
  nonempty : chars ≠ []
  decimal : chars.all Char.isDigit = true

structure Exponent where
  isCapital : Bool
  /-- Whether there is a sign, and whether it is a minus. -/
  sign : Option Bool
  digits : Digits

def Exponent.chars (e : Exponent) : List Char :=
  (if e.isCapital then 'E' else 'e') ::
    ((match e.sign with | none => [] | some isMinus => [if isMinus then '-' else '+']) ++ e.digits.chars)

def Exponent.value (e : Exponent) : Int :=
  let n : Int := numeral 10 e.digits.chars
  if e.sign = some true then -n else n

structure Number where
  isNegative : Bool
  whole : Digits
  /-- Nothing stands behind a zero at the start. -/
  canonical : whole.chars.head? = some '0' → whole.chars = ['0']
  fraction : Option Digits
  exponent : Option Exponent

namespace Number

def signChars (n : Number) : List Char :=
  if n.isNegative then ['-'] else []

def fractionDigits (n : Number) : List Char :=
  match n.fraction with
  | none => []
  | some ds => ds.chars

def fractionChars (n : Number) : List Char :=
  match n.fraction with
  | none => []
  | some ds => '.' :: ds.chars

def exponentChars (n : Number) : List Char :=
  match n.exponent with
  | none => []
  | some e => e.chars

def chars (n : Number) : List Char :=
  n.signChars ++ (n.whole.chars ++ (n.fractionChars ++ n.exponentChars))

/-- A number with neither a fraction nor an exponent is an integer, any other the float that is nearest to it. -/
def value (n : Number) : Scalar :=
  match n.fraction, n.exponent with
  | none, none =>
    let m : Int := numeral 10 n.whole.chars
    .int (if n.isNegative then -m else m)
  | _, exponent =>
    .float (Decimal.nearestBits n.isNegative (numeral 10 (n.whole.chars ++ n.fractionDigits))
      ((exponent.map Exponent.value).getD 0 - n.fractionDigits.length))

end Number

/-- The name of a member of an object, with the blanks before and behind it. -/
structure Key where
  before : Gap
  name : Pieces
  after : Gap

def Key.chars (k : Key) : List Char :=
  k.before.chars ++ ('"' :: (k.name.chars ++ '"' :: (k.after.chars ++ [':'])))

end Json

mutual

/-- A value as it is spelled, without the blanks around it. -/
inductive Json where
  | null
  | bool (b : Bool)
  | number (n : Json.Number)
  | string (ps : Json.Pieces)
  | emptyArray (inside : Json.Gap)
  | array (items : Json.Items)
  | emptyObject (inside : Json.Gap)
  | object (members : Json.Members)

inductive Json.Items where
  | last (before : Json.Gap) (item : Json) (after : Json.Gap)
  | more (before : Json.Gap) (item : Json) (after : Json.Gap) (items : Json.Items)

inductive Json.Members where
  | last (key : Json.Key) (before : Json.Gap) (value : Json) (after : Json.Gap)
  | more (key : Json.Key) (before : Json.Gap) (value : Json) (after : Json.Gap) (members : Json.Members)

end

namespace Json

mutual

def chars : Json → List Char
  | .null => "null".toList
  | .bool b => if b then "true".toList else "false".toList
  | .number n => n.chars
  | .string ps => '"' :: (ps.chars ++ ['"'])
  | .emptyArray inside => '[' :: (inside.chars ++ [']'])
  | .array items => '[' :: (items.chars ++ [']'])
  | .emptyObject inside => '\x7b' :: (inside.chars ++ ['\x7d'])
  | .object members => '\x7b' :: (members.chars ++ ['\x7d'])

def Items.chars : Items → List Char
  | .last before item after => before.chars ++ (item.chars ++ after.chars)
  | .more before item after items => before.chars ++ (item.chars ++ (after.chars ++ ',' :: items.chars))

def Members.chars : Members → List Char
  | .last key before value after => key.chars ++ (before.chars ++ (value.chars ++ after.chars))
  | .more key before value after members =>
    key.chars ++ (before.chars ++ (value.chars ++ (after.chars ++ ',' :: members.chars)))

end

mutual

/-- What is spelled. Of members with one name the last one counts. -/
def value : Json → Value
  | .null => .null
  | .bool b => .scalar (.bool b)
  | .number n => .scalar n.value
  | .string ps => .text ps.text
  | .emptyArray _ => .list []
  | .array items => .list items.values
  | .emptyObject _ => .mapping []
  | .object members => .mapping (Entries.ofList members.entries)

def Items.values : Items → List Value
  | .last _ item _ => [item.value]
  | .more _ item _ items => item.value :: items.values

def Members.entries : Members → Entries
  | .last key _ value _ => [(.text key.name.text, value.value)]
  | .more key _ value _ members => (.text key.name.text, value.value) :: members.entries

end

/-- A whole text. -/
structure Spelling where
  before : Gap
  root : Json
  after : Gap

def Spelling.chars (t : Spelling) : List Char :=
  t.before.chars ++ (t.root.chars ++ t.after.chars)

def Spelling.text (t : Spelling) : String :=
  String.ofList t.chars

/-- The same text with a line feed behind it. -/
def Spelling.fed (t : Spelling) : Spelling :=
  { t with after := t.after ++ [.lineFeed] }

theorem Spelling.text_fed (t : Spelling) : t.fed.text = t.text ++ "\n" := by
  apply String.toList_injective
  rw [String.toList_append, text, text, String.toList_ofList, String.toList_ofList]
  simp [fed, chars, Gap.chars, Blank.char]

/-- A mapping stands between braces. -/
theorem chars_of_mapping {j : Json} {es : Entries} (mapping : j.value = .mapping es) :
    ∃ inside, j.chars = '\x7b' :: (inside ++ ['\x7d']) := by
  cases j with
  | emptyObject inside => exact ⟨_, rfl⟩
  | object members => exact ⟨_, rfl⟩
  | _ => cases mapping

end Json

end Etymology
