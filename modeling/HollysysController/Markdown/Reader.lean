import HollysysController.Python.Values

/-! # Markdown lines

What a reader of Markdown takes for structure in a text: code delimiters, tags, emphasis, links
with their destinations, and line breaks. A text written into a message is harmless when the
reader finds the same marks around it, whatever it says. -/

namespace Markdown

open Python (CodePoint Text)

inductive Mark where
  | lineBreak | code | tag | emphasis | bracket | closing | destination | linkEnd
  /-- A backslash in a destination that takes the next character. -/
  | escape
  /-- A destination that ends before its parenthesis: there is no link. -/
  | broken
  deriving DecidableEq, Repr

inductive Mode where
  | text
  /-- After a backslash. -/
  | escaped
  | code
  /-- After a closing bracket. -/
  | closed
  /-- In a destination, within this many parentheses. -/
  | destination (depth : Nat)
  | destinationEscaped (depth : Nat)
  deriving DecidableEq, Repr

/-! ## Characters -/

/-- The ends of a line, as `str.splitlines` has them. -/
def isLineBreak : CodePoint → Bool
  | .char c =>
    let n := c.toNat
    (10 ≤ n && n ≤ 13) || (28 ≤ n && n ≤ 30) || n == 133 || n == 8232 || n == 8233
  | .surrogate _ => false

/-- The punctuation of ASCII: what a backslash escapes. -/
def isPunctuation : CodePoint → Bool
  | .char c =>
    let n := c.toNat
    (33 ≤ n && n ≤ 47) || (58 ≤ n && n ≤ 64) || (91 ≤ n && n ≤ 96) || (123 ≤ n && n ≤ 126)
  | .surrogate _ => false

/-- A space or a control character of ASCII. -/
def isGap : CodePoint → Bool
  | .char c => decide (c.toNat ≤ 32) || c.toNat == 127
  | .surrogate _ => false

/-! ## The reader -/

/-- A character of plain text. -/
def textStep (c : CodePoint) : List Mark × Mode :=
  if isLineBreak c then ([.lineBreak], .text)
  else if c = .char '\\' then ([], .escaped)
  else if c = .char '\x60' then ([.code], .code)
  else if c = .char '<' then ([.tag], .text)
  else if c = .char '*' ∨ c = .char '_' then ([.emphasis], .text)
  else if c = .char '[' then ([.bracket], .text)
  else if c = .char ']' then ([.closing], .closed)
  else ([], .text)

/-- A character of a destination. -/
def destinationStep (depth : Nat) (c : CodePoint) : List Mark × Mode :=
  if isLineBreak c then ([.lineBreak], .text)
  else if isGap c then ([.broken], .text)
  else if c = .char '\\' then ([], .destinationEscaped depth)
  else if c = .char '\x60' then ([.code], .destination depth)
  else if c = .char '<' then ([.tag], .destination depth)
  else if c = .char '(' then ([], .destination (depth + 1))
  else if c = .char ')' then
    match depth with
    | 0 => ([.linkEnd], .text)
    | depth + 1 => ([], .destination depth)
  else ([], .destination depth)

def step : Mode → CodePoint → List Mark × Mode
  | .text, c => textStep c
  | .escaped, c => if isPunctuation c then ([], .text) else textStep c
  | .code, c =>
    if isLineBreak c then ([.lineBreak], .code)
    else if c = .char '\x60' then ([.code], .text)
    else ([], .code)
  | .closed, c => if c = .char '(' then ([.destination], .destination 0) else textStep c
  | .destination depth, c => destinationStep depth c
  | .destinationEscaped depth, c =>
    if isPunctuation c then ([.escape], .destination depth) else destinationStep depth c

/-- The marks of a text, and where the reader stands after it. -/
def scan (m : Mode) : Text → List Mark × Mode
  | [] => ([], m)
  | c :: rest => ((step m c).1 ++ (scan (step m c).2 rest).1, (scan (step m c).2 rest).2)

theorem scan_append (m : Mode) (s t : Text) :
    scan m (s ++ t) =
      ((scan m s).1 ++ (scan (scan m s).2 t).1, (scan (scan m s).2 t).2) := by
  induction s generalizing m with
  | nil => rfl
  | cons c s ih => simp only [List.cons_append, scan, ih, List.append_assoc]

theorem scan_append_of {m m' : Mode} {marks : List Mark} {s : Text} (h : scan m s = (marks, m'))
    (t : Text) : scan m (s ++ t) = (marks ++ (scan m' t).1, (scan m' t).2) := by
  rw [scan_append, h]

/-- The text has these marks wherever it is written as plain text. -/
def Contributes (marks : List Mark) (out : Text) : Prop :=
  ∀ before after, (scan .text before).2 = .text →
    scan .text (before ++ out ++ after) =
      ((scan .text before).1 ++ marks ++ (scan .text after).1, (scan .text after).2)

theorem contributes_iff {marks : List Mark} {out : Text} :
    Contributes marks out ↔ scan .text out = (marks, .text) := by
  constructor
  · intro h
    have hout := h [] [] rfl
    simpa [scan] using hout
  · intro h before after hbefore
    rw [List.append_assoc, scan_append, hbefore, scan_append_of h, List.append_assoc]

theorem Contributes.append {marks marks' : List Mark} {s t : Text} (hs : Contributes marks s)
    (ht : Contributes marks' t) : Contributes (marks ++ marks') (s ++ t) := by
  rw [contributes_iff] at *
  rw [scan_append_of hs, ht]

theorem contributes_nil : Contributes [] [] := contributes_iff.mpr rfl

/-- A text that is written character by character. -/
theorem contributes_flatMap {f : CodePoint → Text} {s : Text}
    (h : ∀ c ∈ s, Contributes [] (f c)) : Contributes [] (s.flatMap f) := by
  induction s with
  | nil => exact contributes_nil
  | cons c s ih =>
    rw [List.flatMap_cons]
    exact (h c List.mem_cons_self).append (ih fun c hc => h c (List.mem_cons_of_mem _ hc))

/-- Code without a delimiter and a line break. -/
theorem scan_code {s : Text} (h : ∀ c ∈ s, isLineBreak c = false ∧ c ≠ .char '\x60') :
    scan .code s = ([], .code) := by
  induction s with
  | nil => rfl
  | cons c s ih =>
    obtain ⟨hbreak, htick⟩ := h c List.mem_cons_self
    have hstep : step .code c = ([], .code) := by simp [step, hbreak, htick]
    rw [scan, hstep, ih fun c hc => h c (List.mem_cons_of_mem _ hc)]
    rfl

end Markdown
