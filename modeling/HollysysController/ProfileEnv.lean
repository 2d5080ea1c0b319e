import HollysysController.HumanBlock
import HollysysController.SupervisorServer

/-! # Profile environments

The `.env` file of a profile. The Controller and the start script each have a reader of
their own, both over the words of `shlex`. -/

namespace HollysysController.Profiles

open Python WorkerSupervisor

/-! ## Texts -/

/-- The line ends of a file that is opened as a text. -/
def universalNewlines : List Char → List Char
  | '\r' :: '\n' :: s => '\n' :: universalNewlines s
  | '\r' :: s => '\n' :: universalNewlines s
  | c :: s => c :: universalNewlines s
  | [] => []

/-- `read_text(encoding="utf-8")`, none for a `UnicodeDecodeError`. -/
def decodeText (bytes : List UInt8) : Option (List Char) :=
  (ByteArray.mk bytes.toArray).utf8Decode?.map fun chars => universalNewlines chars.toList

theorem universalNewlines_free {s : List Char} (h : '\r' ∉ s) : universalNewlines s = s := by
  induction s using universalNewlines.induct with
  | case1 s => simp at h
  | case2 s => simp at h
  | case3 c s _ _ ih =>
    rw [List.mem_cons, not_or] at h
    rw [universalNewlines, ih h.2]
    · exact fun t hc => (h.1 hc.symm).elim
    · exact fun hc => (h.1 hc.symm).elim
  | case4 => rfl

theorem decodeText_encodeUtf8 {text : List Char} (h : '\r' ∉ text) :
    decodeText (encodeUtf8 text) = some text := by
  have hbytes : ByteArray.mk (encodeUtf8 text).toArray = text.utf8Encode := by
    apply ByteArray.ext
    simp [List.utf8Encode, encodeUtf8]
  rw [decodeText, hbytes, List.utf8Decode?_utf8Encode, Option.map_some]
  simp [universalNewlines_free h]

/-! ## `shlex` -/

/-- Where `shlex` stands in a text, in its POSIX mode. -/
inductive LexState where
  | blank
  | word
  | quote (mark : Char)
  /-- After a backslash, in a word or in a quotation. -/
  | escape (mark : Option Char)
  deriving DecidableEq, Repr

def isLexBlank (c : Char) : Bool := c == ' ' || c == '\t' || c == '\r' || c == '\n'

def isLexQuote (c : Char) : Bool := c == '\x27' || c == '"'

/-- The token so far, unless nothing was read for it. -/
def emitted (token : List Char) (quoted : Bool) : List (List Char) :=
  if token = [] ∧ quoted = false then [] else [token]

/-- The state after a character that begins or goes on with a word. -/
def lexed (c : Char) : LexState :=
  if isLexQuote c then .quote c else if c = '\\' then .escape none else .word

/-- The tokens of a text. In a quotation a backslash stays, unless it escapes the mark or
itself. -/
def lex : LexState → List Char → Bool → List Char → Except PyError (List (List Char))
  | .blank, token, quoted, [] | .word, token, quoted, [] => .ok (emitted token quoted)
  | .quote _, _, _, [] | .escape _, _, _, [] => .error .value
  | .blank, token, quoted, c :: s =>
    if isLexBlank c then return emitted token quoted ++ (← lex .blank [] false s)
    else lex (lexed c) (if lexed c = .word then [c] else token) quoted s
  | .word, token, quoted, c :: s =>
    if isLexBlank c then return emitted token quoted ++ (← lex .blank [] false s)
    else lex (lexed c) (if lexed c = .word then token ++ [c] else token) quoted s
  | .quote mark, token, _, c :: s =>
    if c = mark then lex .word token true s
    else if c = '\\' ∧ mark = '"' then lex (.escape (some mark)) token true s
    else lex (.quote mark) (token ++ [c]) true s
  | .escape none, token, quoted, c :: s => lex .word (token ++ [c]) quoted s
  | .escape (some mark), token, quoted, c :: s =>
    lex (.quote mark) (token ++ (if c = '\\' ∨ c = mark then [c] else ['\\', c])) quoted s

/-- `shlex.split(text, comments=False, posix=True)`. -/
def shlexSplit (text : List Char) : Except PyError (List (List Char)) := lex .blank [] false text

/-! ## Lines -/

abbrev Env := List (List Char × List Char)

/-- `values.get(key, "")`: of two lines with one key the later counts. -/
def Env.get (values : Env) (key : String) : List Char :=
  ((values.reverse.find? (·.1 = key.toList)).map (·.2)).getD []

/-- The key of a line and what stands after the sign, none for a line that sets nothing. -/
def envLine (raw : List Char) : Option (List Char × List Char) :=
  let line := Python.strip raw
  if line.head? = some '#' ∨ !line.contains '=' then none
  else some (Python.strip (line.takeWhile (· != '=')), (line.dropWhile (· != '=')).drop 1)

def envLines (text : List Char) : Env := (text.splitOnP isLineBreak).filterMap envLine

/-- A value of one word is the word. -/
def oneWord (value : List Char) : List (List Char) → List Char
  | [part] => part
  | _ => value

/-- `_dotenv_value` of the Controller. -/
def dotenvValue (raw : List Char) : List Char :=
  let value := Python.strip raw
  if value = [] then []
  else match shlexSplit value with
    | .error _ => value
    | .ok parts => oneWord value parts

/-- `read_profile_env` of the Controller, of the text of the file. -/
def readProfileEnv (text : List Char) : Env :=
  ((envLines text).filter (·.1 ≠ [])).map fun line => (line.1, dotenvValue line.2)

/-- A value as the start script reads it. A quotation that is not closed ends the script. -/
def strictValue (raw : List Char) : Except PyError (List Char) :=
  (shlexSplit (Python.strip raw)).map (oneWord (Python.strip raw))

/-- `dotenv_values` of the start script. -/
def dotenvValues (text : List Char) : Except PyError Env :=
  (envLines text).mapM fun line => do pure (line.1, ← strictValue line.2)

example : dotenvValue " \"a \\\"b\\\"\"".toList = "a \"b\"".toList := by decide +kernel

example : strictValue "it\x27s".toList = .error .value := by decide +kernel

/-! ## The two readers agree -/

theorem strictValue_ok {raw v : List Char} (h : strictValue raw = .ok v) : v = dotenvValue raw := by
  unfold strictValue at h
  unfold dotenvValue
  cases hsplit : shlexSplit (Python.strip raw) with
  | error e =>
    rw [hsplit] at h
    cases h
  | ok parts =>
    rw [hsplit] at h
    obtain rfl : oneWord (Python.strip raw) parts = v := Except.ok.inj h
    by_cases hempty : Python.strip raw = []
    · rw [hempty] at hsplit ⊢
      obtain rfl : [] = parts := Except.ok.inj hsplit
      rfl
    · rw [if_neg hempty, hsplit]

theorem dotenvValues_eq {text : List Char} {values : Env} (h : dotenvValues text = .ok values) :
    values = (envLines text).map fun line => (line.1, dotenvValue line.2) := by
  unfold dotenvValues at h
  generalize envLines text = lines at h
  induction lines generalizing values with
  | nil =>
    cases h
    rfl
  | cons line lines ih =>
    rw [List.mapM_cons] at h
    cases hvalue : strictValue line.2 with
    | error e =>
      rw [hvalue] at h
      cases h
    | ok v =>
      cases hrest : lines.mapM fun line => do pure (line.1, ← strictValue line.2) with
      | error e =>
        rw [hvalue, hrest] at h
        cases h
      | ok rest =>
        rw [hvalue, hrest] at h
        obtain rfl := Except.ok.inj h
        rw [List.map_cons, ih hrest, strictValue_ok hvalue]

/-- The lines without a key do not count for a key. -/
theorem find_keyed (lines : Env) {key : List Char} (hkey : key ≠ []) :
    (lines.filter (·.1 ≠ [])).find? (·.1 = key) = lines.find? (·.1 = key) := by
  rw [List.find?_filter]
  congr 1
  funext line
  by_cases hline : line.1 = key <;> simp [hline, hkey]

/-- What the start script reads, the Controller reads. -/
theorem dotenvValues_get {text : List Char} {values : Env} (h : dotenvValues text = .ok values)
    {key : String} (hkey : key ≠ "") : (readProfileEnv text).get key = values.get key := by
  have hnonempty : key.toList ≠ [] := fun h => hkey (String.toList_injective h)
  rw [dotenvValues_eq h, Env.get, Env.get, readProfileEnv, ← List.map_reverse, ← List.map_reverse,
    ← List.filter_reverse, List.find?_map, List.find?_map]
  simp only [Function.comp_def]
  rw [find_keyed _ hnonempty]

end HollysysController.Profiles
