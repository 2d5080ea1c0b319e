import HollysysController.Python.Json
import HollysysController.Python.Paths
import HollysysController.Python.Search

/-! # URLs

What `urllib.parse` makes of a text: the parts of a URL, the host and the port of its network
location, and percent encoding in both directions. -/

namespace Python

/-! ## Bytes of a text -/

/-- `text.encode("utf-8")`. -/
def utf8 (s : List Char) : List UInt8 := s.flatMap String.utf8EncodeChar

def isContinuation (b : UInt8) : Bool := 0x80 ≤ b && b ≤ 0xBF

/-- A second byte that can follow the first one. -/
def isSecond (first second : UInt8) : Bool :=
  if first = 0xE0 then 0xA0 ≤ second && second ≤ 0xBF
  else if first = 0xED then 0x80 ≤ second && second ≤ 0x9F
  else if first = 0xF0 then 0x90 ≤ second && second ≤ 0xBF
  else if first = 0xF4 then 0x80 ≤ second && second ≤ 0x8F
  else 0xC2 ≤ first && first ≤ 0xF3 && isContinuation second

/-- How many bytes one replacement character stands for, where no character begins: as many as
could have begun one. -/
def illFormed : List UInt8 → Nat
  | first :: second :: rest =>
    if isSecond first second then if rest.head?.any isContinuation then 3 else 2 else 1
  | _ => 1

def decodeReplaceFrom : Nat → List UInt8 → List Char
  | _, [] | 0, _ => []
  | n + 1, b :: bytes =>
    match (b :: bytes).toByteArray.utf8DecodeChar? 0 with
    | some c => c :: decodeReplaceFrom n ((b :: bytes).drop c.utf8Size)
    | none => '\uFFFD' :: decodeReplaceFrom n ((b :: bytes).drop (illFormed (b :: bytes)))

/-- `bytes.decode("utf-8", "replace")`. -/
def decodeReplace (bytes : List UInt8) : List Char := decodeReplaceFrom bytes.length bytes

theorem decodeReplaceFrom_utf8 (s : List Char) {n : Nat} (hn : s.length ≤ n) :
    decodeReplaceFrom n (utf8 s) = s := by
  induction s generalizing n with
  | nil => cases n <;> rfl
  | cons c s ih =>
    cases n with
    | zero => cases hn
    | succ n =>
      have hlen := String.length_utf8EncodeChar c
      have hread : (utf8 (c :: s)).toByteArray.utf8DecodeChar? 0 = some c := by
        rw [utf8, List.flatMap_cons, List.toByteArray_append]
        exact ByteArray.utf8DecodeChar?_utf8EncodeChar_append
      have hdrop : (utf8 (c :: s)).drop c.utf8Size = utf8 s := by
        rw [utf8, List.flatMap_cons, List.drop_append_of_le_length hlen.ge, ← hlen,
          List.drop_length, List.nil_append, utf8]
      cases hbytes : utf8 (c :: s) with
      | nil =>
        have hpos := c.utf8Size_pos
        have hnone := congrArg List.length hbytes
        rw [utf8, List.flatMap_cons, List.length_append, hlen, List.length_nil] at hnone
        omega
      | cons b bytes =>
        rw [hbytes] at hread hdrop
        rw [decodeReplaceFrom, hread]
        show c :: decodeReplaceFrom n ((b :: bytes).drop c.utf8Size) = _
        rw [hdrop, ih (Nat.le_of_succ_le_succ hn)]

theorem length_le_utf8 (s : List Char) : s.length ≤ (utf8 s).length := by
  induction s with
  | nil => exact Nat.le_refl 0
  | cons c s ih =>
    have hpos := c.utf8Size_pos
    have hlen := String.length_utf8EncodeChar c
    rw [utf8] at ih ⊢
    rw [List.flatMap_cons, List.length_append, List.length_cons]
    omega

@[simp] theorem decodeReplace_utf8 (s : List Char) : decodeReplace (utf8 s) = s :=
  decodeReplaceFrom_utf8 s (length_le_utf8 s)

/-! ## Percent encoding -/

/-- The characters that `quote(…, safe="")` leaves as they are. -/
def isUnreserved (c : Char) : Bool :=
  c.isAlphanum || c == '_' || c == '.' || c == '-' || c == '~'

def upperHex (n : Nat) : Char := if n < 10 then Char.ofNat (48 + n) else Char.ofNat (55 + n)

def percent (b : UInt8) : List Char := ['%', upperHex (b.toNat / 16), upperHex (b.toNat % 16)]

def quoteChar (c : Char) : List Char :=
  if isUnreserved c then [c] else (String.utf8EncodeChar c).flatMap percent

/-- `quote(text, safe="")`. -/
def quote (s : List Char) : List Char := s.flatMap quoteChar

/-- `unquote_to_bytes` of an ASCII text. -/
def percentBytes : List Char → List UInt8
  | '%' :: high :: low :: rest =>
    match Json.hexValue high, Json.hexValue low with
    | some h, some l => UInt8.ofNat (16 * h + l) :: percentBytes rest
    | _, _ => 37 :: percentBytes (high :: low :: rest)
  | c :: t => c.val.toUInt8 :: percentBytes t
  | [] => []

def isAsciiChar (c : Char) : Bool := decide (c.toNat < 128)

/-- The runs of ASCII are decoded, and what lies between them is left. -/
def unquoteFrom (run : List Char) : List Char → List Char
  | [] => decodeReplace (percentBytes run)
  | c :: t =>
    if isAsciiChar c then unquoteFrom (run ++ [c]) t
    else decodeReplace (percentBytes run) ++ c :: unquoteFrom [] t

/-- `unquote(text)`. -/
def unquote (s : List Char) : List Char := if '%' ∈ s then unquoteFrom [] s else s

theorem hexValue_upperHex {n : Nat} (h : n < 16) : Json.hexValue (upperHex n) = some n := by
  have hall : ∀ n < 16, Json.hexValue (upperHex n) = some n := by decide
  exact hall n h

theorem isUnreserved_upperHex {n : Nat} (h : n < 16) : isUnreserved (upperHex n) = true := by
  have hall : ∀ n < 16, isUnreserved (upperHex n) = true := by decide
  exact hall n h

theorem isAsciiChar_of_isUnreserved {c : Char} (h : isUnreserved c = true) :
    isAsciiChar c = true := by
  simp only [isUnreserved, Bool.or_eq_true, beq_iff_eq] at h
  simp only [isAsciiChar, decide_eq_true_eq]
  rcases h with (((halnum | rfl) | rfl) | rfl) | rfl
  · have hrange := toNat_alphanum halnum
    omega
  all_goals decide

theorem utf8EncodeChar_of_isAsciiChar {c : Char} (h : isAsciiChar c = true) :
    String.utf8EncodeChar c = [c.val.toUInt8] := by
  apply String.utf8EncodeChar_eq_singleton
  rw [Char.utf8Size_eq_one_iff, UInt32.le_iff_toNat_le]
  simp only [isAsciiChar, decide_eq_true_eq] at h
  exact Nat.le_of_lt_succ h

theorem percentBytes_percent (b : UInt8) (t : List Char) :
    percentBytes (percent b ++ t) = b :: percentBytes t := by
  have hb := b.toNat_lt
  simp only [percent, List.cons_append, List.nil_append, percentBytes,
    hexValue_upperHex (show b.toNat / 16 < 16 by omega),
    hexValue_upperHex (show b.toNat % 16 < 16 by omega)]
  rw [Nat.div_add_mod, UInt8.ofNat_toNat]

theorem percentBytes_flatMap (bytes : List UInt8) (t : List Char) :
    percentBytes (bytes.flatMap percent ++ t) = bytes ++ percentBytes t := by
  induction bytes with
  | nil => rfl
  | cons b bytes ih =>
    rw [List.flatMap_cons, List.append_assoc, percentBytes_percent, ih, List.cons_append]

theorem percentBytes_cons {c : Char} (h : c ≠ '%') (t : List Char) :
    percentBytes (c :: t) = c.val.toUInt8 :: percentBytes t := by
  rw [percentBytes]
  intro _ _ _ hc
  exact absurd hc h

theorem percentBytes_quote (s : List Char) : percentBytes (quote s) = utf8 s := by
  induction s with
  | nil => rfl
  | cons c s ih =>
    rw [quote, utf8, List.flatMap_cons, List.flatMap_cons, ← quote, ← utf8, ← ih, quoteChar]
    split
    next h =>
      have hne : c ≠ '%' := by
        rintro rfl
        exact absurd h (by decide)
      rw [utf8EncodeChar_of_isAsciiChar (isAsciiChar_of_isUnreserved h)]
      exact percentBytes_cons hne (quote s)
    next => exact percentBytes_flatMap _ _

/-- A quoted text is free of every character with a meaning in a URL, the percent sign apart. -/
theorem mem_quote {s : List Char} {c : Char} (h : c ∈ quote s) :
    isUnreserved c = true ∨ c = '%' := by
  obtain ⟨d, -, hd⟩ := List.mem_flatMap.mp h
  rw [quoteChar] at hd
  split at hd
  next hfree =>
    obtain rfl := List.mem_singleton.mp hd
    exact .inl hfree
  next =>
    obtain ⟨b, -, hb⟩ := List.mem_flatMap.mp hd
    have hlt := b.toNat_lt
    simp only [percent, List.mem_cons, List.not_mem_nil, or_false] at hb
    rcases hb with rfl | rfl | rfl
    · exact .inr rfl
    · exact .inl (isUnreserved_upperHex (by omega))
    · exact .inl (isUnreserved_upperHex (by omega))

theorem isAsciiChar_quote {s : List Char} {c : Char} (h : c ∈ quote s) : isAsciiChar c = true := by
  rcases mem_quote h with hfree | rfl
  · exact isAsciiChar_of_isUnreserved hfree
  · rfl

theorem unquoteFrom_ascii {s : List Char} (h : ∀ c ∈ s, isAsciiChar c = true)
    (run : List Char) : unquoteFrom run s = decodeReplace (percentBytes (run ++ s)) := by
  induction s generalizing run with
  | nil => rw [unquoteFrom, List.append_nil]
  | cons c s ih =>
    rw [unquoteFrom, if_pos (h c List.mem_cons_self),
      ih (fun d hd => h d (List.mem_cons_of_mem c hd)), List.append_assoc, List.singleton_append]

/-- A text without a percent sign has been quoted as it is. -/
theorem quote_eq_self {s : List Char} (h : '%' ∉ quote s) : quote s = s := by
  induction s with
  | nil => rfl
  | cons c s ih =>
    rw [quote, List.flatMap_cons, ← quote, List.mem_append, not_or] at h
    have hfree : isUnreserved c = true := by
      by_contra hne
      have hbytes : String.utf8EncodeChar c ≠ [] := by
        intro hnil
        have := congrArg List.length hnil
        rw [String.length_utf8EncodeChar, List.length_nil] at this
        exact absurd this c.utf8Size_pos.ne'
      obtain ⟨b, bytes, hb⟩ := List.exists_cons_of_ne_nil hbytes
      refine h.1 ?_
      rw [quoteChar, if_neg hne, hb, List.flatMap_cons]
      exact List.mem_append_left _ List.mem_cons_self
    rw [quote, List.flatMap_cons, ← quote, ih h.2, quoteChar, if_pos hfree, List.singleton_append]

/-- **What was quoted is read back.** -/
@[simp] theorem unquote_quote (s : List Char) : unquote (quote s) = s := by
  rw [unquote]
  split
  next =>
    rw [unquoteFrom_ascii (fun c hc => isAsciiChar_quote hc), List.nil_append, percentBytes_quote,
      decodeReplace_utf8]
  next h => exact quote_eq_self h

theorem quote_injective : Function.Injective quote := fun s t h => by
  rw [← unquote_quote s, h, unquote_quote]

/-! ## The parts of a URL -/

/-- The text after the first such character, if there is one. -/
def after (c : Char) (s : List Char) : List Char := (s.dropWhile (· ≠ c)).drop 1

/-- Lower case: that of ASCII is fixed, the rest is Unicode's table. -/
structure LowerCase where
  lower : List Char → List Char
  ascii : ∀ s, (∀ c ∈ s, isAsciiChar c = true) → lower s = s.map Char.toLower

/-- The checks of `urlsplit` on a network location: the address in brackets, and the normal form
of characters outside ASCII. -/
structure HostChecks where
  bracketed : List Char → Bool
  normal : List Char → Bool

structure Url where
  scheme : List Char
  netloc : List Char
  path : List Char
  query : List Char
  fragment : List Char
  deriving DecidableEq, Repr

namespace Url

def splitScheme (url : List Char) : List Char × List Char :=
  let scheme := url.takeWhile (· ≠ ':')
  if scheme.length < url.length ∧ scheme.head?.any Char.isAlpha = true ∧
      scheme.all (fun c => c.isAlphanum || c == '+' || c == '-' || c == '.') = true then
    (scheme.map Char.toLower, url.drop (scheme.length + 1))
  else ([], url)

/-- The schemes with parameters behind a semicolon. -/
def paramSchemes : List String :=
  ["", "ftp", "hdl", "prospero", "http", "https", "shttp", "rtsp", "rtsps", "sip", "sips", "mms",
    "sftp", "tel"]

/-- The path without the parameters of its last segment. -/
def dropParams (path : List Char) : List Char :=
  match findFrom [';'] path ((rfind ['/'] path).getD 0) with
  | some n => path.take n
  | none => path

/-- `urlparse(text)`. -/
def parse (checks : HostChecks) (text : List Char) : Except PyError Url :=
  let cleaned := (text.dropWhile (·.toNat ≤ 32)).filter fun c => c ≠ '\t' ∧ c ≠ '\r' ∧ c ≠ '\n'
  let (scheme, rest) := splitScheme cleaned
  let located := ['/', '/'].isPrefixOf rest
  let inHost := fun c => c ≠ '/' ∧ c ≠ '?' ∧ c ≠ '#'
  let netloc := if located then (rest.drop 2).takeWhile inHost else []
  let rest := if located then (rest.drop 2).dropWhile inHost else rest
  let opens := netloc.contains '['
  let closes := netloc.contains ']'
  if opens ≠ closes || (opens && !checks.bracketed netloc) ||
      (!netloc.all isAsciiChar && !checks.normal netloc) then .error .value
  else
    let fragment := after '#' rest
    let rest := rest.takeWhile (· ≠ '#')
    let path := rest.takeWhile (· ≠ '?')
    .ok {
      scheme, netloc, fragment
      query := after '?' rest
      path := if paramSchemes.contains (String.ofList scheme) then dropParams path else path }

variable (u : Url)

/-- The part of the network location before the last `@`. -/
def userinfo : Option (List Char) :=
  if '@' ∈ u.netloc then some ((u.netloc.reverse.dropWhile (· ≠ '@')).drop 1).reverse else none

/-- `parsed.username or ""`. -/
def username : List Char := ((u.userinfo.getD []).takeWhile (· ≠ ':'))

/-- `parsed.password or ""`. -/
def password : List Char := after ':' (u.userinfo.getD [])

/-- The host and the text of the port. -/
def hostinfo : List Char × List Char :=
  let info := (u.netloc.reverse.takeWhile (· ≠ '@')).reverse
  if '[' ∈ info then
    let bracketed := after '[' info
    (bracketed.takeWhile (· ≠ ']'), after ':' (after ']' bracketed))
  else (info.takeWhile (· ≠ ':'), after ':' info)

/-- `parsed.hostname`. The zone of an address keeps its case. -/
def hostname (lower : List Char → List Char) : Option (List Char) :=
  match u.hostinfo.1 with
  | [] => none
  | host => some (lower (host.takeWhile (· ≠ '%')) ++ host.dropWhile (· ≠ '%'))

/-- `parsed.port`. -/
def port : Except PyError (Option Nat) :=
  match u.hostinfo.2 with
  | [] => .ok none
  | text =>
    let n := text.foldl (fun n c => 10 * n + (c.toNat - 48)) 0
    if text.all Char.isDigit && text.length ≤ 4300 && n ≤ 65535 then .ok (some n)
    else .error .value

end Url

end Python
