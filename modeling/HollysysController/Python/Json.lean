import HollysysController.Python.Values

/-! # JSON texts

`json.loads` as a reader that takes a text character by character, with the open arrays and
objects on a stack, and `json.dumps` with an indent of two. What is written is read back. -/

namespace Python.Json

inductive JsonError where
  /-- A `JSONDecodeError`, or the `ValueError` of an integer with too many digits. -/
  | value
  | recursion
  deriving DecidableEq, Repr

/-! ## The reader -/

/-- A numeral, with the last digit of each part first. -/
structure Numeral where
  negative : Bool := false
  whole : List Char := []
  fraction : List Char := []
  negativePower : Bool := false
  power : List Char := []

inductive NumeralPlace where
  | minus | zero | whole | point | fraction | exponent | sign | power
  deriving DecidableEq, Repr

/-- A place in a string. `high` says that an escape has just written the first half of a
surrogate pair. -/
inductive TextPlace where
  | plain (high : Bool)
  | escape (high : Bool)
  | hex (high : Bool) (left : Nat) (unit : Nat)

/-- An open array with its items, the last one first, or an open object with the key that waits
for its value. -/
inductive Frame where
  | list (items : List Value)
  | dict (entries : List (Text × Value)) (key : Text)

inductive Place where
  | value
  /-- After the bracket that opens an array. -/
  | item
  /-- After the brace that opens an object. -/
  | firstKey
  | key
  | colon
  | after
  | text (asKey : Bool) (read : Text) (place : TextPlace)
  | numeral (n : Numeral) (place : NumeralPlace)
  | word (rest : List Char) (v : Value)
  | done (v : Value)

structure Reader where
  stack : List Frame := []
  place : Place := .value

def isBlank (c : Char) : Bool := c == ' ' || c == '\t' || c == '\n' || c == '\r'

/-- `d[key] = v`. -/
def setEntry (entries : List (Text × Value)) (key : Text) (v : Value) : List (Text × Value) :=
  if entries.any (·.1 = key) then entries.map fun e => if e.1 = key then (key, v) else e
  else entries ++ [(key, v)]

/-- The value is complete. -/
def give (v : Value) : List Frame → Reader
  | [] => { stack := [], place := .done v }
  | .list items :: rest => { stack := .list (v :: items) :: rest, place := .after }
  | .dict entries key :: rest =>
    { stack := .dict (setEntry entries key v) key :: rest, place := .after }

/-- The character opens an array or an object. The interpreter has `frames` calls for them. -/
def openFrame (frames : Nat) (stack : List Frame) (f : Frame) (p : Place) :
    Except JsonError Reader :=
  if frames ≤ stack.length then .error .recursion else .ok { stack := f :: stack, place := p }

/-- The words of JSON, and of Python's numbers. -/
def words : List (Char × List Char × Value) :=
  [('n', ['u', 'l', 'l'], .none), ('t', ['r', 'u', 'e'], .bool true),
   ('f', ['a', 'l', 's', 'e'], .bool false), ('N', ['a', 'N'], .float .nan),
   ('I', ['n', 'f', 'i', 'n', 'i', 't', 'y'], .float (.inf false))]

def beginValue (frames : Nat) (stack : List Frame) (c : Char) : Except JsonError Reader :=
  if c = '"' then .ok { stack, place := .text false [] (.plain false) }
  else if c = '\x7b' then openFrame frames stack (.dict [] []) .firstKey
  else if c = '[' then openFrame frames stack (.list []) .item
  else if c = '-' then .ok { stack, place := .numeral { negative := true } .minus }
  else if c = '0' then .ok { stack, place := .numeral { whole := [c] } .zero }
  else if c.isDigit then .ok { stack, place := .numeral { whole := [c] } .whole }
  else match words.find? (·.1 = c) with
    | some (_, rest, v) => .ok { stack, place := .word rest v }
    | none => .error .value

/-- After a value: the array or object goes on, or ends. -/
def stepAfter (stack : List Frame) (c : Char) : Except JsonError Reader :=
  match stack with
  | .list items :: rest =>
    if c = ',' then .ok { stack, place := .value }
    else if c = ']' then .ok (give (.list items.reverse) rest)
    else .error .value
  | .dict entries _ :: rest =>
    if c = ',' then .ok { stack, place := .key }
    else if c = '\x7d' then .ok (give (.dict entries) rest)
    else .error .value
  | [] => .error .value

/-- The character after a backslash, except for `u`. -/
def unescape (c : Char) : Option Char :=
  if c = '"' ∨ c = '\\' ∨ c = '/' then some c
  else if c = 'b' then some '\x08'
  else if c = 'f' then some '\x0c'
  else if c = 'n' then some '\n'
  else if c = 'r' then some '\r'
  else if c = 't' then some '\t'
  else none

def hexValue (c : Char) : Option Nat :=
  if c.isDigit then some (c.toNat - 48)
  else if 'a' ≤ c ∧ c ≤ 'f' then some (c.toNat - 87)
  else if 'A' ≤ c ∧ c ≤ 'F' then some (c.toNat - 55)
  else none

/-- An escape with four digits writes a unit of UTF-16. The second half of a pair joins the
first one when that was escaped just before. -/
def addUnit (high : Bool) (read : Text) (n : Nat) : Text × Bool :=
  if 0xDC00 ≤ n ∧ n < 0xE000 then
    match high, read with
    | true, .surrogate h :: read =>
      (.char (Char.ofNat (0x10000 + h.val * 0x400 + (n - 0xDC00))) :: read, false)
    | _, _ => (.surrogate (Fin.ofNat 2048 (n - 0xD800)) :: read, false)
  else if 0xD800 ≤ n ∧ n < 0xDC00 then (.surrogate (Fin.ofNat 2048 (n - 0xD800)) :: read, true)
  else (.char (Char.ofNat n) :: read, false)

/-- The end of a string. -/
def endText (stack : List Frame) (asKey : Bool) (read : Text) : Reader :=
  if asKey then
    match stack with
    | .dict entries _ :: rest => { stack := .dict entries read.reverse :: rest, place := .colon }
    | _ => { stack, place := .colon }
  else give (.str read.reverse) stack

def stepText (stack : List Frame) (asKey : Bool) (read : Text) (place : TextPlace)
    (c : CodePoint) : Except JsonError Reader :=
  match place with
  | .plain high =>
    if c = .char '"' then .ok (endText stack asKey read)
    else if c = .char '\\' then .ok { stack, place := .text asKey read (.escape high) }
    else match c with
      | .char d =>
        -- strings are strict: a control character is escaped
        if d.toNat < 32 then .error .value
        else .ok { stack, place := .text asKey (c :: read) (.plain false) }
      | .surrogate _ => .ok { stack, place := .text asKey (c :: read) (.plain false) }
  | .escape high =>
    match c with
    | .surrogate _ => .error .value
    | .char d =>
      if d = 'u' then .ok { stack, place := .text asKey read (.hex high 4 0) }
      else match unescape d with
        | some d => .ok { stack, place := .text asKey (.char d :: read) (.plain false) }
        | none => .error .value
  | .hex high left unit =>
    match c with
    | .surrogate _ => .error .value
    | .char d => match hexValue d with
      | none => .error .value
      | some digit =>
        if left = 1 then
          let added := addUnit high read (unit * 16 + digit)
          .ok { stack, place := .text asKey added.1 (.plain added.2) }
        else .ok { stack, place := .text asKey read (.hex high (left - 1) (unit * 16 + digit)) }

/-- The numeral goes on, unless it is complete. -/
def numeralNext (n : Numeral) (place : NumeralPlace) (c : Char) :
    Option (Numeral × NumeralPlace) :=
  match place with
  | .minus =>
    if c = '0' then some ({ n with whole := [c] }, .zero)
    else if c.isDigit then some ({ n with whole := [c] }, .whole)
    else none
  | .zero =>
    if c = '.' then some (n, .point)
    else if c = 'e' ∨ c = 'E' then some (n, .exponent)
    else none
  | .whole =>
    if c.isDigit then some ({ n with whole := c :: n.whole }, .whole)
    else if c = '.' then some (n, .point)
    else if c = 'e' ∨ c = 'E' then some (n, .exponent)
    else none
  | .point => if c.isDigit then some ({ n with fraction := [c] }, .fraction) else none
  | .fraction =>
    if c.isDigit then some ({ n with fraction := c :: n.fraction }, .fraction)
    else if c = 'e' ∨ c = 'E' then some (n, .exponent)
    else none
  | .exponent =>
    if c = '+' then some (n, .sign)
    else if c = '-' then some ({ n with negativePower := true }, .sign)
    else if c.isDigit then some ({ n with power := [c] }, .power)
    else none
  | .sign => if c.isDigit then some ({ n with power := [c] }, .power) else none
  | .power => if c.isDigit then some ({ n with power := c :: n.power }, .power) else none

/-- The number that the digits of the numeral write, without its sign. -/
def Numeral.wholeValue (n : Numeral) : Nat := Nat.ofDigitChars 10 n.whole.reverse 0

/-- The float that is next to the numeral. -/
def Numeral.float (n : Numeral) : Double :=
  let mantissa : Rat := Nat.ofDigitChars 10 (n.whole.reverse ++ n.fraction.reverse) 0
  let power : Int := Nat.ofDigitChars 10 n.power.reverse 0
  let exponent : Int := (if n.negativePower then -power else power) - n.fraction.length
  Double.round ((if n.negative then -mantissa else mantissa) * 10 ^ exponent)

/-- The value of a numeral that ends here. -/
def Numeral.value (n : Numeral) : NumeralPlace → Except JsonError Value
  | .zero | .whole =>
    -- `int` reads 4300 digits
    if 4300 < n.whole.length then .error .value
    else .ok (.int (if n.negative then -(n.wholeValue : Int) else n.wholeValue))
  | .fraction | .power => .ok (.float n.float)
  | .minus | .point | .exponent | .sign => .error .value

/-- A character between tokens. -/
def stepBetween (frames : Nat) (r : Reader) (c : Char) : Except JsonError Reader :=
  if isBlank c then .ok r
  else match r.place with
    | .value => beginValue frames r.stack c
    | .item =>
      if c = ']' then stepAfter r.stack c else beginValue frames r.stack c
    | .firstKey =>
      if c = '\x7d' then stepAfter r.stack c
      else if c = '"' then .ok { r with place := .text true [] (.plain false) }
      else .error .value
    | .key =>
      if c = '"' then .ok { r with place := .text true [] (.plain false) } else .error .value
    | .colon => if c = ':' then .ok { r with place := .value } else .error .value
    | .after => stepAfter r.stack c
    | .text _ _ _ | .numeral _ _ | .word _ _ | .done _ => .error .value

def step (frames : Nat) (r : Reader) (c : CodePoint) : Except JsonError Reader :=
  match r.place with
  | .text asKey read place => stepText r.stack asKey read place c
  | .numeral n place =>
    match c with
    | .surrogate _ => .error .value
    | .char d => match numeralNext n place d with
      | some (n, place) => .ok { r with place := .numeral n place }
      | none =>
        if place = .minus ∧ d = 'I' then
          .ok { r with place := .word ['n', 'f', 'i', 'n', 'i', 't', 'y'] (.float (.inf true)) }
        else do
          let v ← n.value place
          stepBetween frames (give v r.stack) d
  | .word rest v =>
    match rest with
    | [] => .error .value
    | expected :: rest =>
      if c = .char expected then
        .ok (if rest = [] then give v r.stack else { r with place := .word rest v })
      else .error .value
  | _ => match c with
    | .surrogate _ => .error .value
    | .char d => stepBetween frames r d

def run (frames : Nat) : Reader → Text → Except JsonError Reader
  | r, [] => .ok r
  | r, c :: text => do
    let r ← step frames r c
    run frames r text

/-- The value of a text that ends here. -/
def finish (r : Reader) : Except JsonError Value :=
  match r.place, r.stack with
  | .done v, _ => .ok v
  | .numeral n place, [] => n.value place
  | _, _ => .error .value

/-- `json.loads(text)`. -/
def loads (frames : Nat) (text : Text) : Except JsonError Value :=
  run frames {} text >>= finish

/-! ## Writing -/

def hexDigit (n : Nat) : Char := if n < 10 then Char.ofNat (48 + n) else Char.ofNat (87 + n)

/-- The escapes of `ensure_ascii=False`. -/
def escape : CodePoint → Text
  | .surrogate n => [.surrogate n]
  | .char c =>
    if c = '"' then codePoints "\\\""
    else if c = '\\' then codePoints "\\\\"
    else if c = '\n' then codePoints "\\n"
    else if c = '\r' then codePoints "\\r"
    else if c = '\t' then codePoints "\\t"
    else if c = '\x08' then codePoints "\\b"
    else if c = '\x0c' then codePoints "\\f"
    else if c.toNat < 32 then
      codePoints "\\u00" ++
        [CodePoint.char (hexDigit (c.toNat / 16)), .char (hexDigit (c.toNat % 16))]
    else [.char c]

def quoted (s : Text) : Text := .char '"' :: s.flatMap escape ++ [CodePoint.char '"']

/-- A line break with two spaces a level. -/
def newLine (level : Nat) : Text := .char '\n' :: List.replicate (2 * level) (.char ' ')

def intText (n : Int) : Text :=
  (if n < 0 then [CodePoint.char '-'] else []) ++ (Nat.toDigits 10 n.natAbs).map .char

mutual
/-- The text of a value, with `repr` for floats. -/
def write (repr : Double → Text) (level : Nat) : Value → Text
  | .none => codePoints "null"
  | .bool true => codePoints "true"
  | .bool false => codePoints "false"
  | .int n => intText n
  | .float x => repr x
  | .str s => quoted s
  | .list [] => codePoints "[]"
  | .list (v :: items) =>
    .char '[' :: newLine (level + 1) ++ write repr (level + 1) v ++
      writeItems repr (level + 1) items ++ newLine level ++ [CodePoint.char ']']
  | .dict [] => codePoints "\x7b\x7d"
  | .dict ((key, v) :: entries) =>
    .char '\x7b' :: newLine (level + 1) ++ quoted key ++ codePoints ": " ++
      write repr (level + 1) v ++ writeEntries repr (level + 1) entries ++ newLine level ++
      [.char '\x7d']

def writeItems (repr : Double → Text) (level : Nat) : List Value → Text
  | [] => []
  | v :: items =>
    .char ',' :: newLine level ++ write repr level v ++ writeItems repr level items

def writeEntries (repr : Double → Text) (level : Nat) : List (Text × Value) → Text
  | [] => []
  | (key, v) :: entries =>
    .char ',' :: newLine level ++ quoted key ++ codePoints ": " ++ write repr level v ++
      writeEntries repr level entries
end

mutual
/-- The integers have a text: at most 4300 digits. -/
def Written : Value → Bool
  | .int n => (Nat.toDigits 10 n.natAbs).length ≤ 4300
  | .list items => WrittenItems items
  | .dict entries => WrittenEntries entries
  | _ => true

def WrittenItems : List Value → Bool
  | [] => true
  | v :: items => Written v && WrittenItems items

def WrittenEntries : List (Text × Value) → Bool
  | [] => true
  | (_, v) :: entries => Written v && WrittenEntries entries
end

/-- `json.dumps(value, ensure_ascii=False, indent=2)`. -/
def dumps (repr : Double → Text) (v : Value) : Except PyError Text :=
  if Written v then .ok (write repr 0 v) else .error .value

/-! ## What can be read back -/

mutual
/-- No float, and no key twice. -/
def Regular : Value → Prop
  | .float _ => False
  | .list items => RegularItems items
  | .dict entries => (entries.map (·.1)).Nodup ∧ RegularEntries entries
  | _ => True

def RegularItems : List Value → Prop
  | [] => True
  | v :: items => Regular v ∧ RegularItems items

def RegularEntries : List (Text × Value) → Prop
  | [] => True
  | (_, v) :: entries => Regular v ∧ RegularEntries entries
end

mutual
/-- The arrays and objects around the innermost value. -/
def depth : Value → Nat
  | .list items => depthItems items + 1
  | .dict entries => depthEntries entries + 1
  | _ => 0

def depthItems : List Value → Nat
  | [] => 0
  | v :: items => max (depth v) (depthItems items)

def depthEntries : List (Text × Value) → Nat
  | [] => 0
  | (_, v) :: entries => max (depth v) (depthEntries entries)
end

/-! ## Runs -/

section Runs

variable {frames : Nat} {r r' : Reader} {s t : Text} {stack : List Frame} {p : Place} {c : Char}

theorem run_append (frames : Nat) (r : Reader) (s t : Text) :
    run frames r (s ++ t) = run frames r s >>= fun r => run frames r t := by
  induction s generalizing r with
  | nil => rfl
  | cons c s ih =>
    simp only [List.cons_append, run, bind, Except.bind]
    cases step frames r c with
    | error e => rfl
    | ok r => exact ih r

theorem run_of (h : run frames r s = .ok r') (t : Text) :
    run frames r (s ++ t) = run frames r' t := by
  rw [run_append, h]
  rfl

theorem run_of_step {x : CodePoint} (h : step frames r x = .ok r') (t : Text) :
    run frames r (x :: t) = run frames r' t := by
  rw [run, h]
  rfl

/-- A place between tokens. -/
def Place.between : Place → Bool
  | .text _ _ _ | .numeral _ _ | .word _ _ => false
  | _ => true

theorem step_between (h : r.place.between = true) :
    step frames r (.char c) = stepBetween frames r c := by
  unfold step
  cases hplace : r.place <;> simp_all [Place.between]

theorem run_blanks (h : r.place.between = true)
    (hs : ∀ x ∈ s, ∃ c, x = .char c ∧ isBlank c = true) : run frames r s = .ok r := by
  induction s with
  | nil => rfl
  | cons x s ih =>
    obtain ⟨c, rfl, hblank⟩ := hs x List.mem_cons_self
    have hstep : step frames r (.char c) = .ok r := by
      rw [step_between h, stepBetween, if_pos hblank]
    rw [run_of_step hstep]
    exact ih fun x hx => hs x (List.mem_cons_of_mem _ hx)

theorem run_newLine (h : r.place.between = true) (level : Nat) :
    run frames r (newLine level) = .ok r := by
  refine run_blanks h fun x hx => ?_
  rcases List.mem_cons.mp hx with rfl | hx
  · exact ⟨'\n', rfl, by decide⟩
  · exact ⟨' ', List.eq_of_mem_replicate hx, by decide⟩

/-- A place where a value begins. -/
def Place.starts (p : Place) : Prop := p = .value ∨ p = .item

theorem step_start (h : p.starts) (hblank : isBlank c = false) (hclose : c ≠ ']') :
    step frames { stack, place := p } (.char c) = beginValue frames stack c := by
  rcases h with rfl | rfl <;> simp [step, stepBetween, hblank, hclose]

/-! ## Strings -/

theorem hexValue_hexDigit {n : Nat} (h : n < 16) : hexValue (hexDigit n) = some n := by
  have hall : ∀ n : Fin 16, hexValue (hexDigit n.val) = some n.val := by decide
  exact hall ⟨n, h⟩

/-- A character of a string is read as it was written. -/
theorem run_escape (asKey : Bool) (read : Text) (x : CodePoint) :
    run frames { stack, place := .text asKey read (.plain false) } (escape x) =
      .ok { stack, place := .text asKey (x :: read) (.plain false) } := by
  cases x with
  | surrogate n => rfl
  | char c =>
    by_cases hquote : c = '"'
    · subst hquote
      rfl
    by_cases hslash : c = '\\'
    · subst hslash
      rfl
    by_cases hline : c = '\n'
    · subst hline
      rfl
    by_cases hreturn : c = '\r'
    · subst hreturn
      rfl
    by_cases htab : c = '\t'
    · subst htab
      rfl
    by_cases hback : c = '\x08'
    · subst hback
      rfl
    by_cases hfeed : c = '\x0c'
    · subst hfeed
      rfl
    by_cases hcontrol : c.toNat < 32
    · have hescape : escape (.char c) = codePoints "\\u00" ++
          [CodePoint.char (hexDigit (c.toNat / 16)), .char (hexDigit (c.toNat % 16))] := by
        simp [escape, hquote, hslash, hline, hreturn, htab, hback, hfeed, hcontrol]
      have hhigh : hexValue (hexDigit (c.toNat / 16)) = some (c.toNat / 16) :=
        hexValue_hexDigit (by omega)
      have hlow : hexValue (hexDigit (c.toNat % 16)) = some (c.toNat % 16) :=
        hexValue_hexDigit (by omega)
      have hunit : (c.toNat / 16) * 16 + c.toNat % 16 = c.toNat := by omega
      have hstart : run frames { stack, place := .text asKey read (.plain false) }
          (codePoints "\\u00") = .ok { stack, place := .text asKey read (.hex false 2 0) } := rfl
      rw [hescape, run_of hstart]
      have hadd : addUnit false read c.toNat = (.char c :: read, false) := by
        unfold addUnit
        rw [if_neg (by omega), if_neg (by omega), Char.ofNat_toNat]
      simp [run, step, stepText, hhigh, hlow, hunit, hadd, bind, Except.bind]
    · have hescape : escape (.char c) = [.char c] := by
        simp [escape, hquote, hslash, hline, hreturn, htab, hback, hfeed, hcontrol]
      rw [hescape]
      simp [run, step, stepText, hquote, hslash, hcontrol, bind, Except.bind]

theorem run_escapes (asKey : Bool) (read s : Text) :
    run frames { stack, place := .text asKey read (.plain false) } (s.flatMap escape) =
      .ok { stack, place := .text asKey (s.reverse ++ read) (.plain false) } := by
  induction s generalizing read with
  | nil => rfl
  | cons x s ih =>
    rw [List.flatMap_cons, run_of (run_escape asKey read x), ih]
    simp

theorem run_text (asKey : Bool) (s : Text) :
    run frames { stack, place := .text asKey [] (.plain false) }
      (s.flatMap escape ++ [CodePoint.char '"']) = .ok (endText stack asKey s.reverse) := by
  rw [run_of (run_escapes asKey [] s), List.append_nil]
  rfl

theorem run_quoted (h : p.starts) (s : Text) :
    run frames { stack, place := p } (quoted s) = .ok (give (.str s) stack) := by
  have hstep : step frames { stack, place := p } (.char '"') =
      .ok { stack, place := .text false [] (.plain false) } :=
    (step_start h (by decide) (by decide)).trans rfl
  rw [quoted, List.cons_append, run_of_step hstep, run_text]
  simp [endText]

theorem run_key (h : p = .firstKey ∨ p = .key) (entries : List (Text × Value)) (key s : Text) :
    run frames { stack := .dict entries key :: stack, place := p } (quoted s) =
      .ok { stack := .dict entries s :: stack, place := .colon } := by
  have hstep : step frames { stack := .dict entries key :: stack, place := p } (.char '"') =
      .ok { stack := .dict entries key :: stack, place := .text true [] (.plain false) } := by
    rcases h with rfl | rfl <;> rfl
  rw [quoted, List.cons_append, run_of_step hstep, run_text]
  simp [endText]

/-! ## Numbers -/

theorem toDigits_head {n : Nat} (h : 0 < n) :
    ∃ c digits, Nat.toDigits 10 n = c :: digits ∧ c ≠ '0' := by
  induction n using Nat.strongRecOn with
  | _ n ih =>
    by_cases hsmall : n < 10
    · refine ⟨n.digitChar, [], Nat.toDigits_of_lt_base hsmall, ?_⟩
      have hall : ∀ d : Fin 10, 0 < d.val → d.val.digitChar ≠ '0' := by decide
      exact hall ⟨n, hsmall⟩ h
    · obtain ⟨c, digits, hdigits, hc⟩ := ih (n / 10) (by omega) (by omega)
      rw [Nat.toDigits_of_base_le (by decide) (by omega), hdigits]
      exact ⟨c, digits ++ [(n % 10).digitChar], rfl, hc⟩

/-- The digits of a numeral are read to its end. -/
theorem run_digits (n : Numeral) (digits : List Char) (h : ∀ c ∈ digits, c.isDigit = true) :
    run frames { stack, place := .numeral n .whole } (digits.map .char) =
      .ok { stack, place := .numeral { n with whole := digits.reverse ++ n.whole } .whole } := by
  induction digits generalizing n with
  | nil => rfl
  | cons c digits ih =>
    have hstep : step frames { stack, place := .numeral n .whole } (.char c) =
        .ok { stack, place := .numeral { n with whole := c :: n.whole } .whole } := by
      simp [step, numeralNext, h c List.mem_cons_self]
    rw [List.map_cons, run_of_step hstep, ih _ fun c hc => h c (List.mem_cons_of_mem _ hc)]
    simp

/-- What follows a value in a text. -/
def EndsNumeral (c : Char) : Prop := c = ',' ∨ c = '\n'

theorem step_endsNumeral (hc : EndsNumeral c) (n : Numeral) {place : NumeralPlace} {v : Value}
    (hplace : place = .zero ∨ place = .whole) (hv : n.value place = .ok v) :
    step frames { stack, place := .numeral n place } (.char c) =
      step frames (give v stack) (.char c) := by
  have hbetween : (give v stack).place.between = true := by
    cases stack with
    | nil => rfl
    | cons frame stack => cases frame <;> rfl
  have hnext : numeralNext n place c = none := by
    rcases hc with rfl | rfl <;> rcases hplace with rfl | rfl <;> rfl
  have hminus : ¬ (place = .minus ∧ c = 'I') := by
    rintro ⟨rfl, -⟩
    rcases hplace with h | h <;> cases h
  rw [step_between hbetween]
  simp only [step, hnext, if_neg hminus, hv, bind, Except.bind]

theorem isDigit_starts (h : c.isDigit = true) :
    isBlank c = false ∧ c ≠ ']' ∧ c ≠ '"' ∧ c ≠ '\x7b' ∧ c ≠ '[' ∧ c ≠ '-' := by
  refine ⟨?_, ?_, ?_, ?_, ?_, ?_⟩
  · rw [← Bool.not_eq_true]
    intro hblank
    simp only [isBlank, Bool.or_eq_true, beq_iff_eq] at hblank
    rcases hblank with ((rfl | rfl) | rfl) | rfl <;> revert h <;> decide
  all_goals
    rintro rfl
    revert h
    decide

/-- An integer is read to the end of its digits. -/
theorem run_intText (frames : Nat) (h : p.starts) {n : Int} (hn : (Nat.toDigits 10 n.natAbs).length ≤ 4300) :
    ∃ numeral place, (place = .zero ∨ place = .whole) ∧
      numeral.value place = .ok (.int n) ∧
      run frames { stack, place := p } (intText n) =
        .ok { stack, place := .numeral numeral place } := by
  rcases Nat.eq_zero_or_pos n.natAbs with hzero | hpos
  · obtain rfl : n = 0 := by omega
    refine ⟨{ whole := ['0'] }, .zero, .inl rfl, rfl, ?_⟩
    have hstep : step frames { stack, place := p } (.char '0') =
        .ok { stack, place := .numeral { whole := ['0'] } .zero } :=
      (step_start h (by decide) (by decide)).trans rfl
    exact run_of_step hstep []
  obtain ⟨first, digits, hdigits, hfirst⟩ := toDigits_head hpos
  have hall : ∀ c ∈ first :: digits, c.isDigit = true := fun c hc =>
    Nat.isDigit_of_mem_toDigits (by decide) (by decide) (hdigits ▸ hc)
  have hfirstDigit := hall first List.mem_cons_self
  have hrest : ∀ c ∈ digits, c.isDigit = true := fun c hc => hall c (List.mem_cons_of_mem _ hc)
  have hvalue : ∀ negative : Bool,
      (Numeral.value { negative, whole := digits.reverse ++ [first] } .whole) =
        .ok (.int (if negative then -(n.natAbs : Int) else n.natAbs)) := by
    intro negative
    have hlength : ¬ 4300 < (digits.reverse ++ [first]).length := by
      rw [hdigits, List.length_cons] at hn
      simp only [List.length_append, List.length_reverse, List.length_cons, List.length_nil]
      omega
    have hwhole : Nat.ofDigitChars 10 (digits.reverse ++ [first]).reverse 0 = n.natAbs := by
      rw [List.reverse_append, List.reverse_reverse, List.reverse_singleton,
        List.singleton_append, ← hdigits]
      exact Nat.ofDigitChars_ten_toDigits
    simp only [Numeral.value, if_neg hlength, Numeral.wholeValue, hwhole]
  by_cases hnegative : n < 0
  · have habs : -(n.natAbs : Int) = n := by omega
    refine ⟨_, .whole, .inr rfl, (hvalue true).trans (by rw [if_pos rfl, habs]), ?_⟩
    have hminus : step frames { stack, place := p } (.char '-') =
        .ok { stack, place := .numeral { negative := true } .minus } :=
      (step_start h (by decide) (by decide)).trans rfl
    have hstep : step frames { stack, place := .numeral { negative := true } .minus }
        (.char first) =
        .ok { stack, place := .numeral { negative := true, whole := [first] } .whole } := by
      simp [step, numeralNext, hfirst, hfirstDigit]
    rw [intText, if_pos hnegative, List.singleton_append, hdigits, List.map_cons,
      run_of_step hminus, run_of_step hstep, run_digits _ _ hrest]
  · have habs : (n.natAbs : Int) = n := by omega
    refine ⟨_, .whole, .inr rfl, (hvalue false).trans (by rw [if_neg (by simp), habs]), ?_⟩
    obtain ⟨hblank, hclose, hquote, hbrace, hbracket, hminus⟩ := isDigit_starts hfirstDigit
    have hstep : step frames { stack, place := p } (.char first) =
        .ok { stack, place := .numeral { whole := [first] } .whole } := by
      rw [step_start h hblank hclose]
      simp [beginValue, hquote, hbrace, hbracket, hminus, hfirst, hfirstDigit]
    rw [intText, if_neg hnegative, List.nil_append, hdigits, List.map_cons, run_of_step hstep,
      run_digits _ _ hrest]

/-! ## What was written is read back -/

/-- The value has been read: it is given to the stack, or it is an integer that ends with the
next character. -/
def Ended (v : Value) (stack : List Frame) (r : Reader) : Prop :=
  r = give v stack ∨ ∃ n place, (place = .zero ∨ place = .whole) ∧
    Numeral.value n place = .ok v ∧ r = { stack, place := .numeral n place }

theorem Ended.run {v : Value} (h : Ended v stack r) (hc : EndsNumeral c) (t : Text) :
    run frames r (.char c :: t) = run frames (give v stack) (.char c :: t) := by
  rcases h with rfl | ⟨n, place, hplace, hvalue, rfl⟩
  · rfl
  · rw [Json.run, Json.run, step_endsNumeral hc n hplace hvalue]

theorem Ended.finish {v : Value} (h : Ended v [] r) : finish r = .ok v := by
  rcases h with rfl | ⟨n, place, -, hvalue, rfl⟩
  · rfl
  · exact hvalue

/-- The text begins with a character that ends a numeral. -/
def Breaks (t : Text) : Prop := ∃ c rest, EndsNumeral c ∧ t = .char c :: rest

theorem Breaks.run {v : Value} (ht : Breaks t) (h : Ended v stack r) :
    Json.run frames r t = Json.run frames (give v stack) t := by
  obtain ⟨c, rest, hc, rfl⟩ := ht
  exact h.run hc rest

theorem newLine_breaks (level : Nat) (t : Text) : Breaks (newLine level ++ t) :=
  ⟨'\n', _, .inr rfl, rfl⟩

theorem writeItems_breaks (repr : Double → Text) (level : Nat) (items : List Value)
    (ht : Breaks t) : Breaks (writeItems repr level items ++ t) := by
  cases items with
  | nil => exact ht
  | cons v items => exact ⟨',', _, .inl rfl, rfl⟩

theorem writeEntries_breaks (repr : Double → Text) (level : Nat)
    (entries : List (Text × Value)) (ht : Breaks t) :
    Breaks (writeEntries repr level entries ++ t) := by
  cases entries with
  | nil => exact ht
  | cons e entries => exact ⟨',', _, .inl rfl, rfl⟩

/-- The word of a constant. -/
theorem run_word (h : p.starts) {v : Value} {rest : List Char} (hc : (c, rest, v) ∈ words)
    (hrest : rest ≠ []) :
    run frames { stack, place := p } (.char c :: rest.map .char) = .ok (give v stack) := by
  have hword : ∀ rest : List Char, rest ≠ [] →
      run frames { stack, place := .word rest v } (rest.map .char) = .ok (give v stack) := by
    intro rest
    induction rest with
    | nil => simp
    | cons d rest ih =>
      intro _
      by_cases hnil : rest = []
      · subst hnil
        simp [run, step, bind, Except.bind]
      · have hstep : step frames { stack, place := .word (d :: rest) v } (.char d) =
            .ok { stack, place := .word rest v } := by
          simp [step, hnil]
        rw [List.map_cons, run_of_step hstep, ih hnil]
  have hstart : step frames { stack, place := p } (.char c) =
      .ok { stack, place := .word rest v } := by
    simp only [words, List.mem_cons, List.not_mem_nil, or_false, Prod.mk.injEq] at hc
    rcases hc with ⟨rfl, rfl, rfl⟩ | ⟨rfl, rfl, rfl⟩ | ⟨rfl, rfl, rfl⟩ | ⟨rfl, rfl, rfl⟩ |
      ⟨rfl, rfl, rfl⟩ <;> exact (step_start h (by decide) (by decide)).trans rfl
  rw [run_of_step hstart, hword rest hrest]

theorem openFrame_ok {f : Frame} (h : stack.length < frames) :
    openFrame frames stack f p = .ok { stack := f :: stack, place := p } :=
  if_neg (by omega)

theorem setEntry_new {entries : List (Text × Value)} {key : Text} {v : Value}
    (h : key ∉ entries.map (·.1)) : setEntry entries key v = entries ++ [(key, v)] := by
  refine if_neg ?_
  simp only [List.any_eq_true, decide_eq_true_eq]
  rintro ⟨e, he, rfl⟩
  exact h (List.mem_map_of_mem he)

mutual
/-- A value is read back from its text. -/
theorem run_write (repr : Double → Text) : ∀ (v : Value) (stack : List Frame) (p : Place)
    (level : Nat), p.starts → Regular v → Written v = true → stack.length + depth v ≤ frames →
    ∃ r, run frames { stack, place := p } (write repr level v) = .ok r ∧ Ended v stack r
  | .none, _, _, _, hp, _, _, _ =>
    ⟨_, run_word hp (show ('n', ['u', 'l', 'l'], .none) ∈ words by simp [words]) (by simp),
      .inl rfl⟩
  | .bool true, _, _, _, hp, _, _, _ =>
    ⟨_, run_word hp (show ('t', ['r', 'u', 'e'], .bool true) ∈ words by simp [words])
      (by simp), .inl rfl⟩
  | .bool false, _, _, _, hp, _, _, _ =>
    ⟨_, run_word hp (show ('f', ['a', 'l', 's', 'e'], .bool false) ∈ words by simp [words])
      (by simp), .inl rfl⟩
  | .int n, _, _, _, hp, _, hwritten, _ => by
    obtain ⟨numeral, place, hplace, hvalue, hrun⟩ :=
      run_intText frames hp (of_decide_eq_true hwritten)
    exact ⟨_, hrun, .inr ⟨numeral, place, hplace, hvalue, rfl⟩⟩
  | .float _, _, _, _, _, hregular, _, _ => hregular.elim
  | .str s, _, _, _, hp, _, _, _ => ⟨_, run_quoted hp s, .inl rfl⟩
  | .list [], stack, p, _, hp, _, _, hdepth => by
    refine ⟨_, ?_, .inl rfl⟩
    have hopen : step frames { stack, place := p } (.char '[') =
        .ok { stack := .list [] :: stack, place := .item } := by
      refine (step_start hp (by decide) (by decide)).trans (openFrame_ok ?_)
      simp only [depth, depthItems] at hdepth
      omega
    exact run_of_step hopen _
  | .list (v :: items), stack, p, level, hp, hregular, hwritten, hdepth => by
    refine ⟨_, ?_, .inl rfl⟩
    simp only [Regular, RegularItems] at hregular
    simp only [Written, WrittenItems, Bool.and_eq_true] at hwritten
    simp only [depth, depthItems] at hdepth
    have hopen : step frames { stack, place := p } (.char '[') =
        .ok { stack := .list [] :: stack, place := .item } :=
      (step_start hp (by decide) (by decide)).trans (openFrame_ok (by omega))
    obtain ⟨r, hrun, hended⟩ := run_write repr v (.list [] :: stack) .item (level + 1)
      (.inr rfl) hregular.1 hwritten.1
      (by rw [List.length_cons]; omega)
    simp only [write, List.append_assoc, List.cons_append]
    rw [run_of_step hopen, run_of (run_newLine rfl _), run_of hrun,
      (writeItems_breaks repr _ items (newLine_breaks _ _)).run hended]
    exact run_items repr items stack (level + 1) level [v] hregular.2 hwritten.2 (by omega)
  | .dict [], stack, p, _, hp, _, _, hdepth => by
    refine ⟨_, ?_, .inl rfl⟩
    have hopen : step frames { stack, place := p } (.char '\x7b') =
        .ok { stack := .dict [] [] :: stack, place := .firstKey } := by
      refine (step_start hp (by decide) (by decide)).trans (openFrame_ok ?_)
      simp only [depth, depthEntries] at hdepth
      omega
    exact run_of_step hopen _
  | .dict ((key, v) :: entries), stack, p, level, hp, hregular, hwritten, hdepth => by
    refine ⟨_, ?_, .inl rfl⟩
    simp only [Regular, RegularEntries] at hregular
    simp only [Written, WrittenEntries, Bool.and_eq_true] at hwritten
    simp only [depth, depthEntries] at hdepth
    have hopen : step frames { stack, place := p } (.char '\x7b') =
        .ok { stack := .dict [] [] :: stack, place := .firstKey } :=
      (step_start hp (by decide) (by decide)).trans (openFrame_ok (by omega))
    obtain ⟨r, hrun, hended⟩ := run_write repr v (.dict [] key :: stack) .value (level + 1)
      (.inl rfl) hregular.2.1 hwritten.1
      (by rw [List.length_cons]; omega)
    have hcolon : run frames { stack := .dict [] key :: stack, place := .colon }
        (codePoints ": ") = .ok { stack := .dict [] key :: stack, place := .value } := rfl
    simp only [write, List.append_assoc, List.cons_append]
    rw [run_of_step hopen, run_of (run_newLine rfl _), run_of (run_key (.inl rfl) _ _ key),
      run_of hcolon, run_of hrun,
      (writeEntries_breaks repr _ entries (newLine_breaks _ _)).run hended]
    exact run_entries repr entries stack (level + 1) level [(key, v)] key hregular.1 hregular.2.2
      hwritten.2 (by omega)

theorem run_items (repr : Double → Text) : ∀ (items : List Value) (stack : List Frame)
    (level outer : Nat) (read : List Value), RegularItems items → WrittenItems items = true →
    stack.length + 1 + depthItems items ≤ frames →
    run frames { stack := .list read :: stack, place := .after }
        (writeItems repr level items ++ (newLine outer ++ [CodePoint.char ']'])) =
      .ok (give (.list (read.reverse ++ items)) stack)
  | [], stack, level, outer, read, _, _, _ => by
    rw [writeItems, List.nil_append, run_of (run_newLine rfl _), List.append_nil]
    rfl
  | v :: items, stack, level, outer, read, hregular, hwritten, hdepth => by
    simp only [RegularItems] at hregular
    simp only [WrittenItems, Bool.and_eq_true] at hwritten
    simp only [depthItems] at hdepth
    have hcomma : step frames { stack := .list read :: stack, place := .after } (.char ',') =
        .ok { stack := .list read :: stack, place := .value } := rfl
    obtain ⟨r, hrun, hended⟩ := run_write repr v (.list read :: stack) .value level
      (.inl rfl) hregular.1 hwritten.1
      (by rw [List.length_cons]; omega)
    simp only [writeItems, List.append_assoc, List.cons_append]
    rw [run_of_step hcomma, run_of (run_newLine rfl _), run_of hrun,
      (writeItems_breaks repr _ items (newLine_breaks _ _)).run hended]
    have hrest := run_items repr items stack level outer (v :: read) hregular.2
      hwritten.2 (by omega)
    rwa [List.reverse_cons, List.append_assoc] at hrest

theorem run_entries (repr : Double → Text) : ∀ (entries : List (Text × Value))
    (stack : List Frame) (level outer : Nat) (read : List (Text × Value)) (last : Text),
    ((read ++ entries).map (·.1)).Nodup → RegularEntries entries →
    WrittenEntries entries = true → stack.length + 1 + depthEntries entries ≤ frames →
    run frames { stack := .dict read last :: stack, place := .after }
        (writeEntries repr level entries ++ (newLine outer ++ [CodePoint.char '\x7d'])) =
      .ok (give (.dict (read ++ entries)) stack)
  | [], stack, level, outer, read, last, _, _, _, _ => by
    rw [writeEntries, List.nil_append, run_of (run_newLine rfl _), List.append_nil]
    rfl
  | (key, v) :: entries, stack, level, outer, read, last, hkeys, hregular, hwritten, hdepth => by
    simp only [RegularEntries] at hregular
    simp only [WrittenEntries, Bool.and_eq_true] at hwritten
    simp only [depthEntries] at hdepth
    have hcomma : step frames { stack := .dict read last :: stack, place := .after }
        (.char ',') = .ok { stack := .dict read last :: stack, place := .key } := rfl
    have hcolon : run frames { stack := .dict read key :: stack, place := .colon }
        (codePoints ": ") = .ok { stack := .dict read key :: stack, place := .value } := rfl
    obtain ⟨r, hrun, hended⟩ := run_write repr v (.dict read key :: stack) .value level
      (.inl rfl) hregular.1 hwritten.1
      (by rw [List.length_cons]; omega)
    have hnew : key ∉ read.map (·.1) := by
      intro hmem
      rw [List.map_append, List.nodup_append] at hkeys
      exact hkeys.2.2 key hmem key List.mem_cons_self rfl
    simp only [writeEntries, List.append_assoc, List.cons_append]
    rw [run_of_step hcomma, run_of (run_newLine rfl _), run_of (run_key (.inr rfl) _ _ key),
      run_of hcolon, run_of hrun,
      (writeEntries_breaks repr _ entries (newLine_breaks _ _)).run hended]
    simp only [give, setEntry_new hnew]
    have hrest := run_entries repr entries stack level outer (read ++ [(key, v)]) key
      (by rwa [List.append_assoc]) hregular.2 hwritten.2 (by omega)
    rwa [List.append_assoc] at hrest
end

/-- **`loads` inverts `dumps`.** -/
theorem loads_dumps {repr : Double → Text} {v : Value} {text : Text} (hregular : Regular v)
    (hdepth : depth v ≤ frames) (h : dumps repr v = .ok text) : loads frames text = .ok v := by
  unfold dumps at h
  split at h
  case isFalse => cases h
  case isTrue hwritten =>
    obtain rfl := Except.ok.inj h
    obtain ⟨r, hrun, hended⟩ : ∃ r, run frames {} (write repr 0 v) = .ok r ∧ Ended v [] r :=
      run_write repr v [] .value 0 (.inl rfl) hregular hwritten (by simpa using hdepth)
    rw [loads, hrun]
    exact hended.finish

end Runs

end Python.Json
