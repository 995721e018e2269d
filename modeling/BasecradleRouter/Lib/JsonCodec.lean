/-
# JSON text, read and written

`read` is `json.loads` of a `str`: one pass over the characters, with the containers that are open
on a stack of `Frame`s, within what the interpreter has room for (`Limits`).  It stops at the first
thing that is wrong: a `JSONDecodeError`, a container that lies too deep, or an integer of too many
digits.  `loads` is the reader of an interpreter without limits, in Lean's own strings, where a
surrogate that is escaped alone is U+FFFD.

`dumps` is `json.dumps` with `separators=(",", ":")`, for a choice of how a character is escaped.
-/
import BasecradleRouter.Lib.Checked
import BasecradleRouter.Lib.Json
import BasecradleRouter.Lib.JsonString
import BasecradleRouter.Lib.PyText
import Mathlib.Data.List.Nodup

namespace BasecradleRouter.Lib

/-- `sys.get_int_max_str_digits()` -/
@[irreducible] def maxStrDigits : ℕ := 4300

/-- What stops the interpreter in a text. -/
inductive LoadFault
  /-- `RecursionError` -/
  | recursion
  /-- `ValueError` -/
  | digits
  deriving DecidableEq, Repr

/-- What `json.loads` raises. -/
inductive LoadError
  /-- `JSONDecodeError` -/
  | decode
  | fault (fault : LoadFault)
  deriving DecidableEq, Repr

namespace JsonCodec

open JsonString

/-! ## 1. Strings -/

/-- What a text is made of. -/
class Coded (β : Type) where
  /-- the character, a surrogate as U+FFFD -/
  view : β → Char
  point : β → ℕ

instance : Coded Char := ⟨fun c => c, Char.toNat⟩

@[simp] theorem view_char (c : Char) : Coded.view c = c := rfl

instance : Coded CodePoint := ⟨fun c => charOf c, Fin.val⟩

/-- What strings are made of. -/
class Spelled (σ : Type) (α : outParam Type) where
  letters : σ → List α
  /-- the string of these code points -/
  spell : List ℕ → σ

instance : Spelled String Char := ⟨String.toList, fun points => String.ofList (points.map charOf)⟩

instance : Spelled PyText CodePoint := ⟨id, List.map (Fin.ofNat 0x110000)⟩

/-- What a string holds in its text: a character, or a code unit that is escaped. -/
inductive Piece
  | point (n : ℕ)
  | unit (n : ℕ)

/-- The code points of a string; a pair of surrogates is one, if both are escaped. -/
def join : List Piece → List ℕ
  | [] => []
  | .point n :: pieces => n :: join pieces
  | [.unit n] => [n]
  | .unit n :: .point m :: pieces => n :: m :: join pieces
  | .unit n :: .unit m :: pieces =>
    if high n && low m then paired n m :: join pieces else n :: join (.unit m :: pieces)

/-- What stands behind a backslash, and for which character. -/
def unescapes : List (Char × Char) := ('/', '/') :: shortEscapes.map Prod.swap

/-- The value of a hexadecimal digit. -/
def hexValue (c : Char) : Option ℕ :=
  if c.isDigit then some (c.toNat - '0'.toNat)
  else if 'a' ≤ c ∧ c ≤ 'f' then some (c.toNat - 'a'.toNat + 10)
  else if 'A' ≤ c ∧ c ≤ 'F' then some (c.toNat - 'A'.toNat + 10)
  else none

/-! ## 2. Numbers and literals -/

/-- What the interpreter has room for. -/
structure Limits where
  /-- so many containers within each other -/
  nests : ℕ → Bool
  /-- an integer of so many digits -/
  reads : ℕ → Bool

/-- Room for anything. -/
def Limits.none : Limits := ⟨fun _ => true, fun _ => true⟩

/-- An interpreter's, with room for so many containers within each other. -/
def Limits.within (nesting : ℕ) : Limits := ⟨(· ≤ nesting), (· ≤ maxStrDigits)⟩

/-- `([eE][-+]?[0-9]+)?` -/
def isExponent (text : List Char) : Bool :=
  match text with
  | [] => true
  | e :: '-' :: digits => (e == 'e' || e == 'E') && !digits.isEmpty && digits.all Char.isDigit
  | e :: '+' :: digits => (e == 'e' || e == 'E') && !digits.isEmpty && digits.all Char.isDigit
  | e :: digits => (e == 'e' || e == 'E') && !digits.isEmpty && digits.all Char.isDigit

/-- `(\.[0-9]+)?([eE][-+]?[0-9]+)?` -/
def isFraction (text : List Char) : Bool :=
  match text with
  | '.' :: digits =>
    !(digits.takeWhile Char.isDigit).isEmpty && isExponent (digits.dropWhile Char.isDigit)
  | text => isExponent text

/-- What a run of digits comes to. -/
def natOf (digits : List Char) : ℕ := digits.foldl (fun n c => 10 * n + (c.toNat - '0'.toNat)) 0

section

variable {σ : Type}

/-- A number, without its sign. -/
def unsigned (sign : ℤ) (word text : List Char) : Option (Json σ) :=
  let digits := text.takeWhile Char.isDigit
  let rest := text.dropWhile Char.isDigit
  if digits.isEmpty || (digits.head? == some '0' && digits.length != 1) then none
  else if rest.isEmpty then some (.int (sign * natOf digits))
  else if isFraction rest then some (.float (String.ofList word))
  else none

/-- `NUMBER_RE` -/
def number (word : List Char) : Option (Json σ) :=
  match word with
  | '-' :: text => unsigned (-1) word text
  | text => unsigned 1 word text

/-- A value that is no string and no container. -/
def atom (word : List Char) : Option (Json σ) :=
  match String.ofList word with
  | "null" => some .null
  | "true" => some (.bool true)
  | "false" => some (.bool false)
  | "NaN" => some (.float "NaN")
  | "Infinity" => some (.float "Infinity")
  | "-Infinity" => some (.float "-Infinity")
  | _ => number word

end

/-- Whether what follows an integer makes it a float. -/
def startsFraction : List Char → Bool
  | '.' :: c :: _ => c.isDigit
  | e :: '-' :: c :: _ => (e == 'e' || e == 'E') && c.isDigit
  | e :: '+' :: c :: _ => (e == 'e' || e == 'E') && c.isDigit
  | e :: c :: _ => (e == 'e' || e == 'E') && c.isDigit
  | _ => false

/-- How many digits are read as an integer where a word begins, whatever follows them. -/
def leadingDigits (word : List Char) : ℕ :=
  let text := if word.head? == some '-' then word.tail else word
  let run := text.takeWhile Char.isDigit
  let digits := if run.head? == some '0' then ['0'] else run
  if startsFraction (text.drop digits.length) then 0 else digits.length

/-! ## 3. Containers -/

section

variable {σ : Type}

/-- A container being read, or the key of an object's next value. -/
inductive Frame (σ : Type)
  | arr (items : List (Json σ))
  | obj (fields : Fields σ)
  | member (key : σ)

/-- What may come next. -/
inductive Expecting
  | value
  | valueOrEnd
  | key
  | keyOrEnd
  | colon
  | commaOrEnd
  deriving DecidableEq

/-- Where a reader stands: within containers, the innermost first, or behind the value. -/
inductive State (σ : Type)
  | reading (open_ : List (Frame σ)) (expecting : Expecting)
  | done (v : Json σ)

/-- How many containers are open. -/
def depth : List (Frame σ) → ℕ
  | [] => 0
  | .member _ :: open_ => depth open_
  | _ :: open_ => depth open_ + 1

/-- `d[key] = v` -/
def setField [DecidableEq σ] (fields : Fields σ) (key : σ) (v : Json σ) : Fields σ :=
  match fields with
  | [] => [(key, v)]
  | (k, w) :: fields => if k = key then (k, v) :: fields else (k, w) :: setField fields key v

variable [DecidableEq σ] (limits : Limits)

/-- A value has been read. -/
def give (v : Json σ) : List (Frame σ) → Except LoadError (State σ)
  | [] => .ok (.done v)
  | .arr items :: open_ => .ok (.reading (.arr (items ++ [v]) :: open_) .commaOrEnd)
  | .member key :: .obj fields :: open_ =>
    .ok (.reading (.obj (setField fields key v) :: open_) .commaOrEnd)
  | _ => .error .decode

/-- A string is a value, or an object's next key. -/
def string (s : σ) : State σ → Except LoadError (State σ)
  | .reading open_ .key => .ok (.reading (.member s :: open_) .colon)
  | .reading open_ .keyOrEnd => .ok (.reading (.member s :: open_) .colon)
  | .reading open_ .value => give (.str s) open_
  | .reading open_ .valueOrEnd => give (.str s) open_
  | _ => .error .decode

/-- The value of a word. -/
def spelled (text : List Char) : Except LoadError (Json σ) :=
  if limits.reads (leadingDigits text) then
    match atom text with
    | some v => .ok v
    | none => .error .decode
  else .error (.fault .digits)

def word (text : List Char) : State σ → Except LoadError (State σ)
  | .reading open_ .value => spelled limits text >>= (give · open_)
  | .reading open_ .valueOrEnd => spelled limits text >>= (give · open_)
  | _ => .error .decode

/-- A container begins. -/
def begin (frame : Frame σ) (expecting : Expecting) (open_ : List (Frame σ)) :
    Except LoadError (State σ) :=
  if limits.nests (depth open_ + 1) then .ok (.reading (frame :: open_) expecting)
  else .error (.fault .recursion)

/-- One of `{`, `}`, `[`, `]`, `,` and `:`. -/
def mark (c : Char) : State σ → Except LoadError (State σ)
  | .reading open_ .value =>
    if c = '[' then begin limits (.arr []) .valueOrEnd open_
    else if c = '{' then begin limits (.obj []) .keyOrEnd open_
    else .error .decode
  | .reading open_ .valueOrEnd =>
    if c = '[' then begin limits (.arr []) .valueOrEnd open_
    else if c = '{' then begin limits (.obj []) .keyOrEnd open_
    else
      match open_ with
      | .arr items :: outer => if c = ']' then give (.arr items) outer else .error .decode
      | _ => .error .decode
  | .reading (.obj fields :: outer) .keyOrEnd =>
    if c = '}' then give (.obj fields) outer else .error .decode
  | .reading open_ .colon => if c = ':' then .ok (.reading open_ .value) else .error .decode
  | .reading (.arr items :: outer) .commaOrEnd =>
    if c = ',' then .ok (.reading (.arr items :: outer) .value)
    else if c = ']' then give (.arr items) outer
    else .error .decode
  | .reading (.obj fields :: outer) .commaOrEnd =>
    if c = ',' then .ok (.reading (.obj fields :: outer) .key)
    else if c = '}' then give (.obj fields) outer
    else .error .decode
  | _ => .error .decode

end

/-! ## 4. The reader -/

/-- `[ \t\n\r]` -/
def isWhite (c : Char) : Bool := c == ' ' || c == '\t' || c == '\n' || c == '\r'

def isMark (c : Char) : Bool := ['{', '}', '[', ']', ',', ':'].contains c

/-- Within which text a character stands; what was read of it is kept in reverse. -/
inductive Within
  | nothing
  | word (text : List Char)
  | string (pieces : List Piece)
  | escape (pieces : List Piece)
  | hex (pieces : List Piece) (digits : ℕ) (n : ℕ)

section

variable {β σ α : Type} [Coded β] [Spelled σ α] [DecidableEq σ] (limits : Limits)

open Coded Spelled

/-- The reader, one character at a time. -/
def scan : Within → State σ → List β → Except LoadError (State σ)
  | .nothing, st, [] => .ok st
  | .word text, st, [] => word limits text.reverse st
  | _, _, [] => .error .decode
  | .nothing, st, c :: cs =>
    if isWhite (view c) then scan .nothing st cs
    else if isMark (view c) then mark limits (view c) st >>= fun st => scan .nothing st cs
    else if view c = '"' then scan (.string []) st cs
    else scan (.word [view c]) st cs
  | .word text, st, c :: cs =>
    if isWhite (view c) then word limits text.reverse st >>= fun st => scan .nothing st cs
    else if isMark (view c) then
      word limits text.reverse st >>= mark limits (view c) >>= fun st => scan .nothing st cs
    else if view c = '"' then word limits text.reverse st >>= fun st => scan (.string []) st cs
    else scan (.word (view c :: text)) st cs
  | .string pieces, st, c :: cs =>
    if view c = '"' then
      string (spell (join pieces.reverse)) st >>= fun st => scan .nothing st cs
    else if view c = '\\' then scan (.escape pieces) st cs
    else if (view c).toNat < 0x20 then .error .decode
    else scan (.string (.point (point c) :: pieces)) st cs
  | .escape pieces, st, c :: cs =>
    if view c = 'u' then scan (.hex pieces 0 0) st cs
    else
      match unescapes.lookup (view c) with
      | some d => scan (.string (.point d.toNat :: pieces)) st cs
      | none => .error .decode
  | .hex pieces digits n, st, c :: cs =>
    match hexValue (view c) with
    | some d =>
      if digits = 3 then scan (.string (.unit (16 * n + d) :: pieces)) st cs
      else scan (.hex pieces (digits + 1) (16 * n + d)) st cs
    | none => .error .decode

/-- The one value of a text that was read to its end. -/
def State.result : State σ → Except LoadError (Json σ)
  | .done v => .ok v
  | .reading _ _ => .error .decode

/-- `json.loads(text)` -/
def read (text : List β) : Except LoadError (Json σ) :=
  scan limits .nothing (.reading [] .value) text >>= State.result

end

/-- `json.loads(text)`, of an interpreter without limits -/
def loads (text : List Char) : Option Json := (read .none text).toOption

/-! ## 5. The writer -/

section

variable {σ α : Type} [Spelled σ α] (enc : α → List Char)

/-- A string in quotes. -/
def quoted (s : σ) : List Char := '"' :: ((Spelled.letters s).flatMap enc ++ ['"'])

mutual

/-- `json.dumps(v, separators=(",", ":"))` -/
def dumps : Json σ → List Char
  | .null => "null".toList
  | .bool b => if b then "true".toList else "false".toList
  | .int i => (toString i).toList
  | .float text => text.toList
  | .str s => quoted enc s
  | .arr items => '[' :: (dumpsItems items ++ [']'])
  | .obj fields => '{' :: (dumpsFields fields ++ ['}'])

def dumpsItems : List (Json σ) → List Char
  | [] => []
  | [v] => dumps v
  | v :: items => dumps v ++ ',' :: dumpsItems items

def dumpsFields : List (σ × Json σ) → List Char
  | [] => []
  | [(key, v)] => quoted enc key ++ ':' :: dumps v
  | (key, v) :: fields => quoted enc key ++ ':' :: dumps v ++ ',' :: dumpsFields fields

end

end

example : loads "[1, -0.5e3, \"b\\u00e9\", null]".toList =
    some (.arr [.int 1, .float "-0.5e3", .str "bé", .null]) := by
  rfl

end JsonCodec

end BasecradleRouter.Lib
