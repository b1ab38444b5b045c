/-! The tokens of a JSON text, found by a machine that takes one character at a time. A word or number
ends where a delimiter, a blank or a string begins, so it is judged as a whole once it is complete.
Escapes in strings may spell halves of surrogate pairs; a string with a half that has no partner is
well formed but is no text. -/

namespace BusManagement.Json

inductive Token where
  | openObject
  | closeObject
  | openArray
  | closeArray
  | colon
  | comma
  | null
  | bool (value : Bool)
  /-- A number, with its value if it is written without sign, fraction and exponent. -/
  | number (value : Option Nat)
  /-- A string, with its text unless a surrogate half in it has no partner. -/
  | string (text : Option String)
  deriving DecidableEq

namespace Token

def isBlank (c : Char) : Bool := c = ' ' || c = '\t' || c = '\n' || c = '\r'

def delimiter? : Char → Option Token
  | '\x7b' => some openObject
  | '\x7d' => some closeObject
  | '[' => some openArray
  | ']' => some closeArray
  | ':' => some colon
  | ',' => some comma
  | _ => none

def digits? (cs : List Char) : Option Nat :=
  if cs ≠ [] ∧ cs.all Char.isDigit then some (cs.foldl (fun n c => n * 10 + (c.toNat - 48)) 0) else none

/-- An integer part: digits without a needless zero in front. -/
def integer? (cs : List Char) : Option Nat :=
  if cs.head? = some '0' ∧ cs ≠ ['0'] then none else digits? cs

def exponent? : List Char → Option Nat
  | '+' :: cs | '-' :: cs => digits? cs
  | cs => digits? cs

/-- Cuts a list in front of its first character of a kind. The second half is without that character,
and is nothing if there is none. -/
def cutAt (p : Char → Bool) (cs : List Char) : List Char × Option (List Char) :=
  (cs.takeWhile (!p ·), (cs.dropWhile (!p ·)).tail?)

/-- A number: a sign, an integer part, a fraction and an exponent, of which only the integer part must
be there. -/
def number? (cs : List Char) : Option Token :=
  let negative := cs.head? = some '-'
  let (mantissa, exponent) := cutAt (fun c => c = 'e' || c = 'E') (if negative then cs.tail else cs)
  let (whole, fraction) := cutAt (· = '.') mantissa
  match integer? whole with
  | none => none
  | some n =>
    if fraction.all (fun ds => (digits? ds).isSome) && exponent.all (fun ds => (exponent? ds).isSome) then
      some (number (if negative || fraction.isSome || exponent.isSome then none else some n))
    else none

def ofWord? (cs : List Char) : Option Token :=
  if cs = "null".toList then some null
  else if cs = "true".toList then some (bool true)
  else if cs = "false".toList then some (bool false)
  else number? cs

def hexDigit? (c : Char) : Option Nat :=
  if '0' ≤ c ∧ c ≤ '9' then some (c.toNat - 48)
  else if 'a' ≤ c ∧ c ≤ 'f' then some (c.toNat - 87)
  else if 'A' ≤ c ∧ c ≤ 'F' then some (c.toNat - 55)
  else none

def escaped? : Char → Option Char
  | '"' => some '"'
  | '\\' => some '\\'
  | '/' => some '/'
  | 'b' => some '\x08'
  | 'f' => some '\x0c'
  | 'n' => some '\n'
  | 'r' => some '\r'
  | 't' => some '\t'
  | _ => none

/-- The text that a run of code points and surrogate halves spells. -/
def spell? : List Nat → Option (List Char)
  | [] => some []
  | high :: low :: rest =>
    if 0xd800 ≤ high ∧ high < 0xdc00 then
      if 0xdc00 ≤ low ∧ low < 0xe000 then
        (spell? rest).map (Char.ofNat (0x10000 + (high - 0xd800) * 0x400 + (low - 0xdc00)) :: ·)
      else none
    else if 0xdc00 ≤ high ∧ high < 0xe000 then none
    else (spell? (low :: rest)).map (Char.ofNat high :: ·)
  | [last] => if 0xd800 ≤ last ∧ last < 0xe000 then none else some [Char.ofNat last]

end Token

/-- Where the machine stands between two characters. What it collects is kept newest first. -/
inductive Scanner.Mode where
  | between
  | word (letters : List Char)
  | string (units : List Nat)
  | escape (units : List Nat)
  /-- Within the four digits of an escape, of which so many are missing. -/
  | digits (units : List Nat) (value missing : Nat)

structure Scanner where
  /-- The tokens found so far, newest first. -/
  found : List Token
  mode : Scanner.Mode

namespace Scanner

def stepBetween (found : List Token) (c : Char) : Scanner :=
  if Token.isBlank c then ⟨found, .between⟩
  else if c = '"' then ⟨found, .string []⟩
  else match Token.delimiter? c with
    | some t => ⟨t :: found, .between⟩
    | none => ⟨found, .word [c]⟩

def endsWord (c : Char) : Bool := Token.isBlank c || c = '"' || (Token.delimiter? c).isSome

def step (s : Scanner) (c : Char) : Option Scanner :=
  match s.mode with
  | .between => some (stepBetween s.found c)
  | .word letters =>
    if endsWord c then (Token.ofWord? letters.reverse).map fun t => stepBetween (t :: s.found) c
    else some ⟨s.found, .word (c :: letters)⟩
  | .string units =>
    if c = '"' then some ⟨.string ((Token.spell? units.reverse).map String.ofList) :: s.found, .between⟩
    else if c = '\\' then some ⟨s.found, .escape units⟩
    else if c < ' ' then none
    else some ⟨s.found, .string (c.toNat :: units)⟩
  | .escape units =>
    if c = 'u' then some ⟨s.found, .digits units 0 4⟩
    else (Token.escaped? c).map fun e => ⟨s.found, .string (e.toNat :: units)⟩
  | .digits units value missing =>
    (Token.hexDigit? c).map fun d =>
      let value := value * 16 + d
      if missing ≤ 1 then ⟨s.found, .string (value :: units)⟩
      else ⟨s.found, .digits units value (missing - 1)⟩

def finish (s : Scanner) : Option (List Token) :=
  match s.mode with
  | .between => some s.found.reverse
  | .word letters => (Token.ofWord? letters.reverse).map fun t => (t :: s.found).reverse
  | _ => none

end Scanner

/-- The tokens of a text, if it consists of tokens and blanks. -/
def tokens? (text : String) : Option (List Token) :=
  (text.toList.foldlM Scanner.step ⟨[], .between⟩).bind Scanner.finish

end BusManagement.Json
