import HollysysController.Python.Doubles
import HollysysController.Python.Regex

/-! # Python values

What `json.loads` can give: numbers of any size, the floats that are no number, and texts
with lone surrogates. -/

namespace Python

/-- The exceptions of the conversions. -/
inductive PyError where
  | type | value | overflow | unicodeEncode
  deriving DecidableEq, Repr

def NumberError.raised : NumberError → PyError
  | .overflow => .overflow
  | .value => .value

/-! ## Texts -/

/-- A code point of a text. An escape in a JSON text can write half of a surrogate pair. -/
inductive CodePoint where
  | char (c : Char)
  | surrogate (n : Fin 2048)
  deriving DecidableEq

abbrev Text := List CodePoint

def CodePoint.isSpace : CodePoint → Bool
  | .char c => Python.isSpace c
  | .surrogate _ => false

def codePoints (s : String) : Text := s.toList.map .char

theorem codePoints_injective : Function.Injective codePoints := by
  intro a b h
  have hinj : Function.Injective (List.map CodePoint.char) :=
    List.map_injective_iff.mpr fun c d h => CodePoint.char.inj h
  exact String.toList_injective (hinj h)

/-- The code points of a literal. -/
theorem codePoints_of {s : String} {l : List Char} (h : s = String.ofList l) :
    codePoints s = l.map .char := by
  rw [h, codePoints, String.toList_ofList]

/-- An ASCII character of a string is one of its bytes. -/
theorem byte_of_mem {c : Char} {s : String} (hascii : c.utf8Size = 1)
    (h : CodePoint.char c ∈ codePoints s) : c.val.toUInt8 ∈ s.toByteArray.data.toList := by
  have hmem : c ∈ s.toList := by simpa [codePoints] using h
  rw [← String.utf8Encode_toList, List.utf8Encode, List.data_toByteArray, List.mem_flatMap]
  refine ⟨c, hmem, ?_⟩
  rw [String.utf8EncodeChar_eq_singleton hascii]
  exact List.mem_singleton_self _

/-- The characters of a text that has an encoding. -/
def encode : Text → Option (List Char)
  | [] => some []
  | .char c :: rest => (encode rest).map (c :: ·)
  | .surrogate _ :: _ => none

theorem encode_map (s : List Char) : encode (s.map .char) = some s := by
  induction s with
  | nil => rfl
  | cons c s ih => simp [encode, ih]

theorem encode_eq_some {t : Text} {s : List Char} : encode t = some s ↔ t = s.map .char := by
  constructor
  · intro h
    induction t generalizing s with
    | nil =>
      cases h
      rfl
    | cons c t ih =>
      cases c with
      | surrogate n => cases h
      | char c =>
        obtain ⟨rest, hrest, rfl⟩ := Option.map_eq_some_iff.mp h
        rw [List.map_cons, ← ih hrest]
  · rintro rfl
    exact encode_map s

/-! ## Numbers in texts -/

/-- The decimal digits: those of ASCII are fixed, the rest is Unicode's table. -/
structure Decimals where
  digit : Char → Option (Fin 10)
  ascii : ∀ c, c.toNat < 128 → (digit c).isSome = c.isDigit

/-- The whitespace around a number. The four separators of ASCII are none here. -/
def numberSpace (c : Char) : Bool := isSpace c && !(28 ≤ c.toNat && c.toNat ≤ 31)

/-- A text without its sign. -/
def unsigned : List Char → List Char
  | '-' :: rest | '+' :: rest => rest
  | text => text

def trimmedNumber (text : List Char) : List Char :=
  ((text.dropWhile numberSpace).reverse.dropWhile numberSpace).reverse

namespace Decimals

variable (D : Decimals)

/-- The text spells an integer: digits in groups that single underscores part, at most 4300 of
them, after a sign and between whitespace. -/
def Spells (text : List Char) : Prop :=
  let body := unsigned (trimmedNumber text)
  (∀ group ∈ body.splitOn '_', group ≠ [] ∧ ∀ c ∈ group, (D.digit c).isSome = true) ∧
    (body.filter (· != '_')).length ≤ 4300

instance (text : List Char) : Decidable (D.Spells text) := by
  haveI : ∀ group : List Char, Decidable (∀ c ∈ group, (D.digit c).isSome = true) :=
    fun group => List.decidableBAll _ group
  unfold Spells
  infer_instance

/-- The number that digits write. -/
def digits (text : List Char) : Nat :=
  (text.filterMap D.digit).foldl (fun n d => 10 * n + d.val) 0

/-- `int(text)`. -/
def intOfText (text : List Char) : Except PyError Int :=
  if D.Spells text then
    let core := trimmedNumber text
    let n : Int := D.digits (unsigned core)
    .ok (if core.head? = some '-' then -n else n)
  else .error .value

end Decimals

/-! ## Values -/

inductive Value where
  | none
  | bool (b : Bool)
  | int (n : Int)
  | float (x : Double)
  | str (s : Text)
  | list (items : List Value)
  | dict (entries : List (Text × Value))

namespace Value

/-- `d.get(key)`. -/
def get (entries : List (Text × Value)) (key : String) : Option Value :=
  (entries.find? fun entry => entry.1 = codePoints key).map (·.2)

/-- The entries of a dictionary, when the value is one. -/
def asDict : Value → Option (List (Text × Value))
  | dict entries => some entries
  | _ => Option.none

/-- `bool(value)`. -/
def truthy : Value → Bool
  | none => false
  | bool b => b
  | int n => n != 0
  | float x => x != .fin 0
  | str s => !s.isEmpty
  | list items => !items.isEmpty
  | dict entries => !entries.isEmpty

/-- The value as an integer, when `isinstance(value, int)`. A Boolean is one. -/
def asInt : Value → Option Int
  | bool b => some (if b then 1 else 0)
  | int n => some n
  | _ => Option.none

/-- `int(value)`. -/
def toInt (D : Decimals) : Value → Except PyError Int
  | bool b => .ok (if b then 1 else 0)
  | int n => .ok n
  | float x => x.toInt.mapError NumberError.raised
  | str s => match encode s with
    | some text => D.intOfText text
    | Option.none => .error .value
  | none | list _ | dict _ => .error .type

/-- The value can be counted: a number, or a text that spells an integer. -/
def Countable (D : Decimals) : Value → Prop
  | bool _ | int _ => True
  | float x => ∃ q, x = .fin q
  | str s => ∃ text, s = text.map .char ∧ D.Spells text
  | none | list _ | dict _ => False

theorem toInt_ok_iff {D : Decimals} {v : Value} : (∃ n, v.toInt D = .ok n) ↔ v.Countable D := by
  cases v with
  | none => simp [toInt, Countable]
  | bool b => simp [toInt, Countable]
  | int n => simp [toInt, Countable]
  | list items => simp [toInt, Countable]
  | dict entries => simp [toInt, Countable]
  | float x =>
    cases x with
    | nan => simp [toInt, Countable, Double.toInt, Except.mapError]
    | inf negative => simp [toInt, Countable, Double.toInt, Except.mapError]
    | fin q => simp [toInt, Countable, Double.toInt, Except.mapError]
  | str s =>
    simp only [toInt, Countable]
    cases hs : encode s with
    | none =>
      constructor
      · rintro ⟨n, hn⟩
        cases hn
      · rintro ⟨text, rfl, -⟩
        rw [encode_map] at hs
        cases hs
    | some text =>
      obtain rfl := encode_eq_some.mp hs
      have hinj : Function.Injective (List.map CodePoint.char) :=
        List.map_injective_iff.mpr fun c d h => CodePoint.char.inj h
      constructor
      · rintro ⟨n, hn⟩
        simp only [Decimals.intOfText] at hn
        split at hn
        next hspells => exact ⟨text, rfl, hspells⟩
        next => cases hn
      · rintro ⟨text', htext, hspells⟩
        obtain rfl := hinj htext
        simp only [Decimals.intOfText]
        rw [if_pos hspells]
        exact ⟨_, rfl⟩

/-- `float(value)` of a value that `isinstance(value, (int, float))` and `value >= 0` let
through, none for other values. -/
def counted : Value → Option (Except PyError Double)
  | float x => if x = .nan ∨ x.lt (.fin 0) then Option.none else some (.ok x)
  | v => match v.asInt with
    | some n => if 0 ≤ n then some ((Double.ofInt n).mapError NumberError.raised) else Option.none
    | Option.none => Option.none

end Value

end Python
