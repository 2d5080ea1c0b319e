import HollysysController.Markdown.Reader

/-! # Messages

The encoders that put the texts of workers, titles and evidence URLs into a Markdown message,
and what the reader of the message finds of them. -/

namespace HollysysController

open Python (CodePoint Text PyError codePoints)
open Markdown

/-! ## Texts -/

def stripText (s : Text) : Text :=
  ((s.dropWhile CodePoint.isSpace).reverse.dropWhile CodePoint.isSpace).reverse

/-- `_WHITESPACE.sub(" ", ..)`, after whitespace or not. -/
def collapse : Bool → Text → Text
  | _, [] => []
  | spaced, c :: rest =>
    if c.isSpace then
      if spaced then collapse true rest else .char ' ' :: collapse true rest
    else c :: collapse false rest

/-- `text.replace(c, new)`. -/
def replaceChar (c : Char) (new : Text) (s : Text) : Text :=
  s.flatMap fun x => if x = .char c then new else [x]

/-- `html.escape(text, quote=False)`. -/
def htmlEscape (s : Text) : Text :=
  replaceChar '>' (codePoints "&gt;")
    (replaceChar '<' (codePoints "&lt;") (replaceChar '&' (codePoints "&amp;") s))

/-! ## Encoders -/

/-- A text on one line. -/
def normalizedText (value : Text) : Text := stripText (collapse false value)

/-- The characters that a backslash escapes, after the backslash itself. -/
def escapedTokens : List Char := ['\x60', '*', '_', '[', ']']

def escapeTokens (s : Text) : Text :=
  escapedTokens.foldl (fun s token => replaceChar token [.char '\\', .char token] s)
    (replaceChar '\\' (codePoints "\\\\") (htmlEscape s))

/-- `escape_markdown`. -/
def escapeMarkdown (value : Text) (limit : Option Nat) : Text :=
  let normalized := normalizedText value
  let clipped := match limit with
    | some n => normalized.take n
    | none => normalized
  let escaped := escapeTokens clipped
  if escaped = [] then codePoints "无" else escaped

/-- `inline_code`. -/
def inlineCode (value : Text) : Text :=
  let normalized := replaceChar '\x60' (codePoints "ˋ") (normalizedText value)
  .char '\x60' :: (if normalized = [] then codePoints "unknown" else normalized) ++
    [CodePoint.char '\x60']

/-! ## URLs -/

/-- The checks of `urlsplit` on a host: the address in brackets, and the normal form of
characters outside ASCII. -/
structure UrlChecks where
  bracketed : Text → Bool
  normal : Text → Bool

def isSchemeChar : CodePoint → Bool
  | .char c => c.isAlphanum || c == '+' || c == '-' || c == '.'
  | .surrogate _ => false

def isAsciiLetter : CodePoint → Bool
  | .char c => c.isAlpha
  | .surrogate _ => false

def isAscii : CodePoint → Bool
  | .char c => decide (c.toNat < 128)
  | .surrogate _ => false

def lowerAscii : CodePoint → CodePoint
  | .char c => .char c.toLower
  | .surrogate n => .surrogate n

/-- `url.lstrip(..)` of C0 control characters and spaces. -/
def isC0OrSpace : CodePoint → Bool
  | .char c => decide (c.toNat ≤ 32)
  | .surrogate _ => false

/-- The scheme, and what follows its colon. -/
def splitScheme (url : Text) : Text × Text :=
  let scheme := url.takeWhile (· ≠ .char ':')
  if scheme.length < url.length ∧ scheme.head?.any isAsciiLetter = true ∧
      scheme.all isSchemeChar = true then
    (scheme.map lowerAscii, url.drop (scheme.length + 1))
  else ([], url)

/-- `urlsplit`: the scheme and the host. -/
def urlsplit (N : UrlChecks) (url : Text) : Except PyError (Text × Text) :=
  let cleaned := (url.dropWhile isC0OrSpace).filter fun c =>
    c ≠ .char '\t' ∧ c ≠ .char '\r' ∧ c ≠ .char '\n'
  let (scheme, rest) := splitScheme cleaned
  if codePoints "//" <+: rest then
    let netloc := (rest.drop 2).takeWhile fun c => c ≠ .char '/' ∧ c ≠ .char '?' ∧ c ≠ .char '#'
    let opens := netloc.contains (.char '[')
    let closes := netloc.contains (.char ']')
    if opens ≠ closes then .error .value
    else if opens && !N.bracketed netloc then .error .value
    else if !netloc.all isAscii && !N.normal netloc then .error .value
    else .ok (scheme, netloc)
  else .ok (scheme, [])

/-- The URL as it stands in the destination. -/
def safeUrl (url : Text) : Text :=
  replaceChar ')' (codePoints "%29") (replaceChar ' ' (codePoints "%20") url)

/-- `parsed.scheme in {"http", "https"}` with a host. -/
def linkable (parsed : Text × Text) : Bool :=
  (parsed.1 == codePoints "http" || parsed.1 == codePoints "https") && parsed.2 != []

/-- `markdown_link`. -/
def markdownLink (N : UrlChecks) (label url : Text) : Except PyError Text := do
  let rawUrl := stripText url
  let parsed ← urlsplit N rawUrl
  if linkable parsed then
    .ok (codePoints "[" ++ escapeMarkdown label none ++ codePoints "](" ++ safeUrl rawUrl ++
      codePoints ")")
  else .ok (escapeMarkdown label none)

/-! ## The law -/

/-- The URL is rendered as a link. -/
def isLink (N : UrlChecks) (url : Text) : Bool :=
  match urlsplit N (stripText url) with
  | .ok parsed => linkable parsed
  | .error _ => false

/-- The marks of a link. -/
def linkMarks : List Mark := [.bracket, .closing, .destination, .linkEnd]

/-- Untrusted texts leave the marks of the message as they are, beside the delimiters that the
encoders themselves write. -/
structure RenderingLaw (N : UrlChecks) (value label url : Text) (limit : Option Nat) : Prop where
  escaped : Contributes [] (escapeMarkdown value limit)
  coded : Contributes [.code, .code] (inlineCode value)
  linked : ∀ out, markdownLink N label url = .ok out →
    Contributes (if isLink N url then linkMarks else []) out

/-- A character that a destination cannot hold: the end of a line, a control character, a
parenthesis that opens, the delimiter of code, the start of a tag. -/
def breaksDestination (c : CodePoint) : Bool :=
  isLineBreak c || (isGap c && c != .char ' ') || c == .char '(' || c == .char '\x60' ||
    c == .char '<'

/-- No backslash stands at the end, before punctuation or before a space. -/
def escapesNothing : Text → Bool
  | [] => true
  | c :: rest =>
    (c != .char '\\' || rest.head?.any fun next => !isPunctuation next && next != .char ' ') &&
      escapesNothing rest

/-- A URL whose characters mean nothing in a destination. -/
def plainUrl (url : Text) : Bool := url.all (!breaksDestination ·) && escapesNothing url

/-! ## Lines -/

section Lines

variable {c : CodePoint} {s : Text}

theorem isLineBreak_isSpace (h : isLineBreak c = true) : c.isSpace = true := by
  cases c with
  | surrogate n => cases h
  | char c =>
    simp only [isLineBreak, Bool.or_eq_true, Bool.and_eq_true, decide_eq_true_eq, beq_iff_eq] at h
    simp only [CodePoint.isSpace, Python.isSpace, Bool.or_eq_true, Bool.and_eq_true,
      decide_eq_true_eq, beq_iff_eq]
    omega

theorem mem_collapse {spaced : Bool} (h : c ∈ collapse spaced s) :
    c = .char ' ' ∨ c.isSpace = false := by
  induction s generalizing spaced with
  | nil => cases h
  | cons first s ih =>
    unfold collapse at h
    split at h
    · split at h
      · exact ih h
      · rcases List.mem_cons.mp h with rfl | h
        · exact .inl rfl
        · exact ih h
    · next hspace =>
      rcases List.mem_cons.mp h with rfl | h
      · exact .inr (Bool.not_eq_true _ ▸ hspace)
      · exact ih h

theorem mem_stripText (h : c ∈ stripText s) : c ∈ s := by
  unfold stripText at h
  have hback := (List.dropWhile_sublist _).subset (List.mem_reverse.mp h)
  exact (List.dropWhile_sublist _).subset (List.mem_reverse.mp hback)

/-- A normalized text is one line. -/
theorem normalizedText_line (h : c ∈ normalizedText s) : isLineBreak c = false := by
  rw [← Bool.not_eq_true]
  intro hbreak
  rcases mem_collapse (mem_stripText h) with rfl | hspace
  · exact absurd hbreak (by decide)
  · rw [isLineBreak_isSpace hbreak] at hspace
    cases hspace

end Lines

/-! ## Escapes -/

section Escapes

variable {c : CodePoint} {s : Text}

theorem replaceChar_append (x : Char) (new s t : Text) :
    replaceChar x new (s ++ t) = replaceChar x new s ++ replaceChar x new t :=
  List.flatMap_append

theorem escapeTokens_append (s t : Text) :
    escapeTokens (s ++ t) = escapeTokens s ++ escapeTokens t := by
  simp only [escapeTokens, escapedTokens, htmlEscape, List.foldl_cons, List.foldl_nil,
    replaceChar_append]

/-- The text is escaped character by character. -/
theorem escapeTokens_flatMap (s : Text) : escapeTokens s = s.flatMap fun c => escapeTokens [c] := by
  induction s with
  | nil => rfl
  | cons c s ih =>
    rw [List.flatMap_cons, ← ih, ← escapeTokens_append]
    rfl

/-- A character as it is written has no marks. -/
theorem escapeTokens_char (h : isLineBreak c = false) : Contributes [] (escapeTokens [c]) := by
  rw [contributes_iff]
  by_cases hamp : c = .char '&'
  · subst hamp
    decide
  by_cases hless : c = .char '<'
  · subst hless
    decide
  by_cases hmore : c = .char '>'
  · subst hmore
    decide
  by_cases hslash : c = .char '\\'
  · subst hslash
    decide
  by_cases htick : c = .char '\x60'
  · subst htick
    decide
  by_cases hstar : c = .char '*'
  · subst hstar
    decide
  by_cases hunder : c = .char '_'
  · subst hunder
    decide
  by_cases hopen : c = .char '['
  · subst hopen
    decide
  by_cases hclose : c = .char ']'
  · subst hclose
    decide
  have hsame : escapeTokens [c] = [c] := by
    simp [escapeTokens, escapedTokens, htmlEscape, replaceChar, hamp, hless, hmore, hslash, htick,
      hstar, hunder, hopen, hclose]
  rw [hsame]
  simp [scan, step, textStep, h, hless, hslash, htick, hstar, hunder, hopen, hclose]

theorem escapeMarkdown_contributes (value : Text) (limit : Option Nat) :
    Contributes [] (escapeMarkdown value limit) := by
  unfold escapeMarkdown
  extract_lets normalized clipped escaped
  split
  · exact contributes_iff.mpr (by decide)
  · have hclipped : ∀ c ∈ clipped, isLineBreak c = false := by
      intro c hc
      cases limit with
      | none => exact normalizedText_line hc
      | some n => exact normalizedText_line (List.mem_of_mem_take hc)
    rw [show escaped = clipped.flatMap fun c => escapeTokens [c] from escapeTokens_flatMap clipped]
    exact contributes_flatMap fun c hc => escapeTokens_char (hclipped c hc)

theorem inlineCode_contributes (value : Text) : Contributes [.code, .code] (inlineCode value) := by
  rw [contributes_iff]
  unfold inlineCode
  extract_lets normalized
  have hcontent : ∀ c ∈ (if normalized = [] then codePoints "unknown" else normalized),
      isLineBreak c = false ∧ c ≠ .char '\x60' := by
    split
    · decide
    · intro c hc
      obtain ⟨x, hx, hc⟩ := List.mem_flatMap.mp hc
      split at hc
      · rw [show c = .char 'ˋ' by simpa [codePoints] using hc]
        decide
      · next htick =>
        rw [List.mem_singleton.mp hc]
        exact ⟨normalizedText_line hx, htick⟩
  rw [List.cons_append, scan, scan_append]
  simp only [show step .text (.char '\x60') = ([.code], .code) by decide, scan_code hcontent]
  decide

end Escapes

/-! ## Destinations -/

section Destinations

variable {c : CodePoint} {url : Text} {depth : Nat}

/-- A character of the URL as it stands in the destination. -/
theorem safeUrl_cons (c : CodePoint) (url : Text) : safeUrl (c :: url) =
    (if c = .char ' ' then codePoints "%20" else if c = .char ')' then codePoints "%29" else [c]) ++
      safeUrl url := by
  by_cases hspace : c = .char ' '
  · subst hspace
    simp [safeUrl, replaceChar, codePoints]
  · by_cases hclose : c = .char ')'
    · subst hclose
      simp [safeUrl, replaceChar, codePoints]
    · simp [safeUrl, replaceChar, hspace, hclose]

theorem scan_percent (depth : Nat) (rest : Text) (d : Char) (h : d = '0' ∨ d = '9') :
    scan (.destination depth) (.char '%' :: .char '2' :: .char d :: rest) =
      scan (.destination depth) rest := by
  rcases h with rfl | rfl <;> rfl

/-- A plain character stays in the destination. -/
theorem destinationStep_plain (h : breaksDestination c = false) (hspace : c ≠ .char ' ')
    (hclose : c ≠ .char ')') (hslash : c ≠ .char '\\') :
    destinationStep depth c = ([], .destination depth) := by
  simp only [breaksDestination, Bool.or_eq_false_iff, Bool.and_eq_false_iff, bne_eq_false_iff_eq,
    beq_eq_false_iff_ne, ne_eq] at h
  obtain ⟨⟨⟨⟨hbreak, hgap⟩, hopen⟩, htick⟩, htag⟩ := h
  have hgap : isGap c = false := hgap.resolve_right hspace
  simp [destinationStep, hbreak, hgap, hopen, htick, htag, hclose, hslash]

/-- A character that breaks a destination leaves a mark of its own, or opens a parenthesis. -/
theorem destinationStep_breaks (h : breaksDestination c = true) (hspace : c ≠ .char ' ')
    (depth : Nat) :
    destinationStep depth c = ([], .destination (depth + 1)) ∨
    ∃ mark m, destinationStep depth c = ([mark], m) ∧ mark ≠ .linkEnd := by
  unfold destinationStep
  by_cases hbreak : isLineBreak c = true
  · exact .inr ⟨_, _, if_pos hbreak, by decide⟩
  rw [if_neg hbreak]
  by_cases hgap : isGap c = true
  · exact .inr ⟨_, _, if_pos hgap, by decide⟩
  rw [if_neg hgap]
  have hcases : c = .char '(' ∨ c = .char '\x60' ∨ c = .char '<' := by
    simpa [breaksDestination, hbreak, hgap, or_assoc] using h
  rcases hcases with rfl | rfl | rfl
  · exact .inl (by simp)
  · exact .inr ⟨.code, .destination depth, by simp, by decide⟩
  · exact .inr ⟨.tag, .destination depth, by simp, by decide⟩

/-- The destination ends with its link, without a mark before. -/
def EndsLink (m : Mode) (url : Text) : Prop :=
  scan m (safeUrl url ++ codePoints ")") = ([.linkEnd], .text)

theorem endsLink_nil : EndsLink (.destination depth) [] ↔ depth = 0 := by
  cases depth with
  | zero => exact ⟨fun _ => rfl, fun _ => rfl⟩
  | succ depth =>
    constructor
    · intro h
      have hmarks : ([] : List Mark) = [.linkEnd] := congrArg Prod.fst h
      cases hmarks
    · intro h
      cases h

theorem endsLink_slash_nil : ¬ EndsLink (.destinationEscaped depth) [] := by
  intro h
  have hmarks : ([.escape] : List Mark) = [.linkEnd] := congrArg Prod.fst h
  cases hmarks

/-- A mark of its own before the end is one too many. -/
theorem not_endsLink {m m' : Mode} {mark : Mark} (hstep : step m c = ([mark], m'))
    (hmark : mark ≠ .linkEnd) (rest : Text) : scan m (c :: rest) ≠ ([.linkEnd], .text) := by
  intro h
  rw [scan, hstep] at h
  have hmarks : mark :: (scan m' rest).1 = [.linkEnd] := congrArg Prod.fst h
  exact hmark (List.cons.inj hmarks).1

theorem endsLink_percent (h : c = .char ' ' ∨ c = .char ')') :
    EndsLink (.destination depth) (c :: url) ↔ EndsLink (.destination depth) url := by
  unfold EndsLink
  rcases h with rfl | rfl
  · rw [safeUrl_cons, if_pos rfl]
    exact Iff.of_eq (congrArg (· = _) (scan_percent depth _ '0' (.inl rfl)))
  · rw [safeUrl_cons, if_neg (by decide), if_pos rfl]
    exact Iff.of_eq (congrArg (· = _) (scan_percent depth _ '9' (.inr rfl)))

/-- What follows a backslash: an escape, or the text as it is. -/
theorem endsLink_slash (h : c ≠ .char ' ') (hclose : c ≠ .char ')') :
    EndsLink (.destinationEscaped depth) (c :: url) ↔
      isPunctuation c = false ∧ EndsLink (.destination depth) (c :: url) := by
  unfold EndsLink
  rw [safeUrl_cons, if_neg h, if_neg hclose, List.singleton_append, List.cons_append]
  cases hpunctuation : isPunctuation c with
  | true =>
    have hstep : step (.destinationEscaped depth) c = ([.escape], .destination depth) :=
      if_pos hpunctuation
    exact ⟨fun h => absurd h (not_endsLink hstep (by decide) _), fun h => by cases h.1⟩
  | false =>
    have hstep : step (.destinationEscaped depth) c = step (.destination depth) c :=
      if_neg (by simp [hpunctuation])
    rw [scan, scan, hstep]
    exact ⟨fun h => ⟨rfl, h⟩, fun h => h.2⟩

theorem not_endsLink_escaped (h : c = .char ' ' ∨ c = .char ')') :
    ¬ EndsLink (.destinationEscaped depth) (c :: url) := by
  unfold EndsLink
  have hstep : step (.destinationEscaped depth) (.char '%') = ([.escape], .destination depth) := rfl
  rcases h with rfl | rfl
  · rw [safeUrl_cons, if_pos rfl]
    exact not_endsLink hstep (by decide) _
  · rw [safeUrl_cons, if_neg (by decide), if_pos rfl]
    exact not_endsLink hstep (by decide) _

/-- **The link ends where it should exactly for a plain URL.** -/
theorem endsLink_iff :
    EndsLink (.destination depth) url ↔ depth = 0 ∧ plainUrl url = true := by
  induction url generalizing depth with
  | nil =>
    rw [endsLink_nil]
    simp [plainUrl, escapesNothing]
  | cons c url ih =>
    by_cases hpercent : c = .char ' ' ∨ c = .char ')'
    · rw [endsLink_percent hpercent, ih]
      rcases hpercent with rfl | rfl <;>
        simp [plainUrl, escapesNothing, breaksDestination, isLineBreak, isGap]
    rw [not_or] at hpercent
    obtain ⟨hspace, hclose⟩ := hpercent
    have hwritten : EndsLink (.destination depth) (c :: url) ↔
        scan (.destination depth) (c :: (safeUrl url ++ codePoints ")")) = ([.linkEnd], .text) := by
      unfold EndsLink
      rw [safeUrl_cons, if_neg hspace, if_neg hclose, List.singleton_append, List.cons_append]
    by_cases hbreaks : breaksDestination c = true
    · have hnot : plainUrl (c :: url) = false := by simp [plainUrl, hbreaks]
      rw [hnot]
      simp only [Bool.false_eq_true, and_false, iff_false]
      rw [hwritten]
      rcases destinationStep_breaks hbreaks hspace depth with hstep | ⟨mark, m, hstep, hmark⟩
      · -- the parenthesis that the URL opens is not closed
        intro h
        rw [scan, show step (.destination depth) c = _ from hstep] at h
        have hrest : EndsLink (.destination (depth + 1)) url := h
        exact absurd (ih.mp hrest).1 (by omega)
      · exact not_endsLink (show step (.destination depth) c = _ from hstep) hmark _
    · rw [Bool.not_eq_true] at hbreaks
      by_cases hslash : c = .char '\\'
      · subst hslash
        have hescaped : EndsLink (.destination depth) (.char '\\' :: url) ↔
            EndsLink (.destinationEscaped depth) url := hwritten
        rw [hescaped]
        cases url with
        | nil =>
          have hnot : plainUrl [.char '\\'] = false := by decide
          simp [hnot, endsLink_slash_nil]
        | cons next url =>
          by_cases hnext : next = .char ' ' ∨ next = .char ')'
          · have hnot : plainUrl (.char '\\' :: next :: url) = false := by
              rcases hnext with rfl | rfl <;> simp [plainUrl, escapesNothing, isPunctuation]
            simp [hnot, not_endsLink_escaped hnext]
          · rw [not_or] at hnext
            rw [endsLink_slash hnext.1 hnext.2, ih]
            simp only [plainUrl, escapesNothing, hbreaks, List.all_cons, List.head?_cons,
              Option.any_some, Bool.not_false, Bool.true_and, Bool.and_eq_true, Bool.or_eq_true,
              Bool.not_eq_true', bne_iff_ne, ne_eq, not_true_eq_false, false_or, hnext.1,
              not_false_eq_true, and_true]
            tauto
      · have hstep : step (.destination depth) c = ([], .destination depth) :=
          destinationStep_plain hbreaks hspace hclose hslash
        rw [hwritten, scan, hstep]
        have hrest : ([] ++ (scan (.destination depth) (safeUrl url ++ codePoints ")")).1,
            (scan (.destination depth) (safeUrl url ++ codePoints ")")).2) =
              (([.linkEnd], .text) : List Mark × Mode) ↔ EndsLink (.destination depth) url := Iff.rfl
        rw [hrest, ih]
        simp [plainUrl, escapesNothing, hbreaks, hslash]

end Destinations

/-! ## Links -/

section Links

variable {N : UrlChecks} {label url out : Text}

/-- The reader of a link comes to its destination, and sees the link if that ends. -/
theorem link_contributes_iff :
    Contributes linkMarks (codePoints "[" ++ escapeMarkdown label none ++ codePoints "](" ++
      safeUrl url ++ codePoints ")") ↔ plainUrl url = true := by
  have hlabel : scan .text (codePoints "[" ++ escapeMarkdown label none ++ codePoints "](") =
      ([.bracket, .closing, .destination], .destination 0) := by
    have hescaped := contributes_iff.mp (escapeMarkdown_contributes label none)
    rw [List.append_assoc, scan_append]
    simp only [show scan .text (codePoints "[") = ([.bracket], .text) by rfl]
    rw [scan_append_of hescaped]
    rfl
  have hends : plainUrl url = true ↔ EndsLink (.destination 0) url := by
    rw [endsLink_iff]
    simp
  rw [contributes_iff, hends, List.append_assoc _ (safeUrl url), scan_append_of hlabel]
  unfold EndsLink linkMarks
  constructor
  · intro h
    have hmarks := congrArg Prod.fst h
    have hmode := congrArg Prod.snd h
    simp only [List.cons_append, List.nil_append, List.cons.injEq, true_and] at hmarks
    exact Prod.ext hmarks hmode
  · intro h
    rw [h]
    rfl

theorem markdownLink_contributes (h : markdownLink N label url = .ok out) :
    Contributes (if isLink N url then linkMarks else []) out ↔
      (isLink N url = true → plainUrl (stripText url) = true) := by
  unfold markdownLink at h
  unfold isLink
  cases hsplit : urlsplit N (stripText url) with
  | error e =>
    simp only [hsplit, bind, Except.bind] at h
    cases h
  | ok parsed =>
    simp only [hsplit, bind, Except.bind] at h
    dsimp only
    by_cases hlinkable : linkable parsed = true
    · rw [if_pos hlinkable] at h
      rw [← Except.ok.inj h, if_pos hlinkable, link_contributes_iff]
      exact ⟨fun hplain _ => hplain, fun hplain => hplain hlinkable⟩
    · rw [if_neg hlinkable] at h
      rw [← Except.ok.inj h, if_neg hlinkable]
      exact ⟨fun _ hlink => absurd hlink hlinkable,
        fun _ => escapeMarkdown_contributes label none⟩

/-- A URL that is a link is written. -/
theorem markdownLink_of_isLink (h : isLink N url = true) (label : Text) :
    ∃ out, markdownLink N label url = .ok out := by
  unfold isLink at h
  unfold markdownLink
  cases hsplit : urlsplit N (stripText url) with
  | error e =>
    rw [hsplit] at h
    cases h
  | ok parsed =>
    rw [hsplit] at h
    simp only [hsplit, bind, Except.bind, h, if_true]
    exact ⟨_, rfl⟩

/-- **Messages are free of injections exactly as far as the URLs of links are plain.** -/
theorem renderingLaw_iff (N : UrlChecks) (value label url : Text) (limit : Option Nat) :
    RenderingLaw N value label url limit ↔
      (isLink N url = true → plainUrl (stripText url) = true) := by
  constructor
  · intro h hlink
    obtain ⟨out, hout⟩ := markdownLink_of_isLink hlink label
    exact (markdownLink_contributes hout).mp (h.linked out hout) hlink
  · intro h
    exact ⟨escapeMarkdown_contributes value limit, inlineCode_contributes value,
      fun out hout => (markdownLink_contributes hout).mpr h⟩

/-- The host is in ASCII and has no brackets. -/
def plainHosts : UrlChecks where
  bracketed _ := false
  normal _ := false

/-- A line break inside the evidence URL of a worker comes into the message. -/
theorem brokenUrl_injects :
    markdownLink plainHosts (codePoints "MR") (codePoints "https://git/a\nb") =
      .ok (codePoints "[MR](https://git/a\nb)") ∧
    ¬ RenderingLaw plainHosts [] (codePoints "MR") (codePoints "https://git/a\nb") none := by
  have hout : markdownLink plainHosts (codePoints "MR") (codePoints "https://git/a\nb") =
      .ok (codePoints "[MR](https://git/a\nb)") := by rfl
  have hlink : isLink plainHosts (codePoints "https://git/a\nb") = true := by decide +kernel
  refine ⟨hout, fun h => ?_⟩
  have hmarks := contributes_iff.mp (h.linked _ hout)
  rw [if_pos hlink] at hmarks
  exact absurd hmarks (by decide +kernel)

end Links

/-! ## Whole messages -/

/-- `FIELD_TEMPLATE`. -/
def fieldLine (field : Text × Text) : Text :=
  codePoints "**" ++ field.1 ++ codePoints "：** " ++ field.2

/-- `LIST_ITEM_TEMPLATE`. -/
def listItem (value : Text) : Text := codePoints "- " ++ value

def joinedLines (lines : List Text) : Text := (lines.intersperse (codePoints "\n")).flatten

/-- `SECTION_TEMPLATE`. -/
def sectionText (label : Text) (items : List Text) : Text :=
  codePoints "**" ++ label ++ codePoints "：**\n" ++ joinedLines items

/-- A section after the lines of the body. One without a value is left out. -/
def addSection (body : List Text) (part : Text × List Text) : List Text :=
  let items := (part.2.filter (· ≠ [])).map listItem
  if items = [] then body
  else (if body = [] then [] else body ++ [[]]) ++ [sectionText part.1 items]

/-- `render_message`. -/
def renderMessage (mention icon title : Text) (fields : List (Text × Text))
    (sections : List (Text × List Text)) : Text :=
  let body := sections.foldl addSection ((fields.filter (·.2 ≠ [])).map fieldLine)
  mention ++ codePoints "**" ++ icon ++ codePoints " " ++ escapeMarkdown title none ++
    codePoints "**\n\n" ++ joinedLines body

/-- Two texts with the same marks: only what they say differs. -/
def SameMarks (s t : Text) : Prop := ∃ marks, Contributes marks s ∧ Contributes marks t

/-- A value of a message beside another: both are there, with the same marks. -/
def SameValue (s t : Text) : Prop := SameMarks s t ∧ (s = [] ↔ t = [])

section SameMarks

variable {s s' t t' : Text} {lines lines' : List Text}

theorem SameMarks.append (hs : SameMarks s s') (ht : SameMarks t t') :
    SameMarks (s ++ t) (s' ++ t') := by
  obtain ⟨marks, hs, hs'⟩ := hs
  obtain ⟨marks', ht, ht'⟩ := ht
  exact ⟨marks ++ marks', hs.append ht, hs'.append ht'⟩

theorem sameMarks_of_scan (h : (scan .text s).2 = .text) : SameMarks s s :=
  ⟨(scan .text s).1, contributes_iff.mpr (Prod.ext rfl h), contributes_iff.mpr (Prod.ext rfl h)⟩

theorem joinedLines_sameMarks (h : List.Forall₂ SameMarks lines lines') :
    SameMarks (joinedLines lines) (joinedLines lines') := by
  induction h with
  | nil => exact sameMarks_of_scan rfl
  | cons hfirst hrest ih =>
    cases hrest with
    | nil => simpa [joinedLines] using hfirst
    | cons hsecond hrest =>
      simp only [joinedLines, List.intersperse_cons_cons, List.flatten_cons] at ih ⊢
      exact hfirst.append ((sameMarks_of_scan rfl).append ih)

/-- The values that are there, as lines of one form. -/
theorem filter_sameMarks {α : Type} {value : α → Text} {line : α → Text} {xs ys : List α}
    (h : List.Forall₂ (fun x y => SameMarks (line x) (line y) ∧ (value x = [] ↔ value y = []))
      xs ys) :
    List.Forall₂ SameMarks ((xs.filter (value · ≠ [])).map line)
      ((ys.filter (value · ≠ [])).map line) := by
  induction h with
  | nil => exact .nil
  | @cons x y xs ys hfirst hrest ih =>
    obtain ⟨hline, hempty⟩ := hfirst
    by_cases hx : value x = []
    · rw [List.filter_cons_of_neg (by simp [hx]), List.filter_cons_of_neg (by simp [hempty.mp hx])]
      exact ih
    · rw [List.filter_cons_of_pos (by simp [hx]),
        List.filter_cons_of_pos (by simpa using fun hy => hx (hempty.mpr hy))]
      exact .cons hline ih

theorem map_sameMarks {α : Type} {line : α → Text} {xs ys : List α}
    (h : List.Forall₂ (fun x y => SameMarks (line x) (line y)) xs ys) :
    List.Forall₂ SameMarks (xs.map line) (ys.map line) :=
  List.forall₂_map_left_iff.mpr (List.forall₂_map_right_iff.mpr h)

theorem forall₂_nil_iff {α β : Type} {R : α → β → Prop} {xs : List α} {ys : List β}
    (h : List.Forall₂ R xs ys) : xs = [] ↔ ys = [] := by
  cases h <;> simp

theorem fieldLine_sameMarks {label : Text} (hlabel : SameMarks label label)
    (h : SameMarks s t) : SameMarks (fieldLine (label, s)) (fieldLine (label, t)) :=
  (((sameMarks_of_scan (by decide)).append hlabel).append (sameMarks_of_scan (by decide))).append h

theorem sectionText_sameMarks {label : Text} (hlabel : SameMarks label label)
    (h : List.Forall₂ SameMarks lines lines') :
    SameMarks (sectionText label lines) (sectionText label lines') :=
  (((sameMarks_of_scan (by decide)).append hlabel).append (sameMarks_of_scan (by decide))).append
    (joinedLines_sameMarks h)

theorem addSection_sameMarks {label : Text} {values values' : List Text}
    (hbody : List.Forall₂ SameMarks lines lines') (hlabel : SameMarks label label)
    (hvalues : List.Forall₂ SameValue values values') :
    List.Forall₂ SameMarks (addSection lines (label, values)) (addSection lines' (label, values')) := by
  have hitems : List.Forall₂ SameMarks ((values.filter (· ≠ [])).map listItem)
      ((values'.filter (· ≠ [])).map listItem) := by
    refine filter_sameMarks (hvalues.imp fun x y h => ⟨?_, h.2⟩)
    exact (sameMarks_of_scan (by decide)).append h.1
  unfold addSection
  dsimp only
  by_cases hempty : (values.filter (· ≠ [])).map listItem = []
  · rw [if_pos hempty, if_pos ((forall₂_nil_iff hitems).mp hempty)]
    exact hbody
  · rw [if_neg hempty, if_neg fun h => hempty ((forall₂_nil_iff hitems).mpr h)]
    refine List.rel_append ?_ (.cons (sectionText_sameMarks hlabel hitems) .nil)
    by_cases hlines : lines = []
    · rw [if_pos hlines, if_pos ((forall₂_nil_iff hbody).mp hlines)]
      exact .nil
    · rw [if_neg hlines, if_neg fun h => hlines ((forall₂_nil_iff hbody).mpr h)]
      exact List.rel_append hbody (.cons (sameMarks_of_scan rfl) .nil)

/-- **Untrusted values change what a message says, not its marks.** -/
theorem renderMessage_sameMarks {mention icon : Text} (title title' : Text)
    {fields fields' : List (Text × Text)} {sections sections' : List (Text × List Text)}
    (hmention : SameMarks mention mention) (hicon : SameMarks icon icon)
    (hfields : List.Forall₂ (fun f g => f.1 = g.1 ∧ SameMarks f.1 f.1 ∧ SameValue f.2 g.2)
      fields fields')
    (hsections : List.Forall₂ (fun f g => f.1 = g.1 ∧ SameMarks f.1 f.1 ∧
      List.Forall₂ SameValue f.2 g.2) sections sections') :
    SameMarks (renderMessage mention icon title fields sections)
      (renderMessage mention icon title' fields' sections') := by
  have hbody : List.Forall₂ SameMarks ((fields.filter (·.2 ≠ [])).map fieldLine)
      ((fields'.filter (·.2 ≠ [])).map fieldLine) := by
    refine filter_sameMarks (hfields.imp fun f g h => ⟨?_, h.2.2.2⟩)
    obtain ⟨label, value⟩ := f
    obtain ⟨label', value'⟩ := g
    obtain ⟨rfl, hlabel, hvalue, -⟩ := h
    exact fieldLine_sameMarks hlabel hvalue
  have hlines : List.Forall₂ SameMarks
      (sections.foldl addSection ((fields.filter (·.2 ≠ [])).map fieldLine))
      (sections'.foldl addSection ((fields'.filter (·.2 ≠ [])).map fieldLine)) := by
    generalize (fields.filter (·.2 ≠ [])).map fieldLine = body at hbody
    generalize (fields'.filter (·.2 ≠ [])).map fieldLine = body' at hbody
    induction hsections generalizing body body' with
    | nil => exact hbody
    | @cons f g sections sections' hfirst hrest ih =>
      obtain ⟨label, values⟩ := f
      obtain ⟨label', values'⟩ := g
      obtain ⟨rfl, hlabel, hvalues⟩ := hfirst
      exact ih _ _ (addSection_sameMarks hbody hlabel hvalues)
  have htitle : SameMarks (escapeMarkdown title none) (escapeMarkdown title' none) :=
    ⟨[], escapeMarkdown_contributes title none, escapeMarkdown_contributes title' none⟩
  unfold renderMessage
  dsimp only
  refine SameMarks.append ?_ (joinedLines_sameMarks hlines)
  refine SameMarks.append ?_ (sameMarks_of_scan (by decide))
  refine SameMarks.append ?_ htitle
  refine SameMarks.append ?_ (sameMarks_of_scan (by decide))
  exact (hmention.append (sameMarks_of_scan (by decide))).append hicon

theorem escapeMarkdown_sameValue (value value' : Text) (limit : Option Nat) :
    SameValue (escapeMarkdown value limit) (escapeMarkdown value' limit) := by
  have hfilled : ∀ v, escapeMarkdown v limit ≠ [] := by
    intro v
    unfold escapeMarkdown
    extract_lets normalized clipped escaped
    split
    · decide
    · next h => exact h
  exact ⟨⟨[], escapeMarkdown_contributes value limit, escapeMarkdown_contributes value' limit⟩,
    iff_of_false (hfilled value) (hfilled value')⟩

theorem inlineCode_sameValue (value value' : Text) :
    SameValue (inlineCode value) (inlineCode value') :=
  ⟨⟨[.code, .code], inlineCode_contributes value, inlineCode_contributes value'⟩,
    iff_of_false (List.cons_ne_nil _ _) (List.cons_ne_nil _ _)⟩

end SameMarks

end HollysysController
