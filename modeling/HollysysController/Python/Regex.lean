import Mathlib.Data.List.Basic

/-! # Python regular expressions

The part of `re` that line patterns are written in: classes, greedy repetition with
backtracking, alternatives of words, `^` and `$` at lines, `\b`, and one group. A match is
built from its end, so that the text and the group of a match need no positions. -/

namespace Python

/-! ## Characters -/

/-- `str.isspace`, and `\s`. -/
def isSpace (c : Char) : Bool :=
  let n := c.toNat
  (9 ≤ n && n ≤ 13) || (28 ≤ n && n ≤ 32) || n == 133 || n == 160 || n == 5760 ||
    (8192 ≤ n && n ≤ 8202) || n == 8232 || n == 8233 || n == 8239 || n == 8287 || n == 12288

def strip (s : List Char) : List Char :=
  ((s.dropWhile isSpace).reverse.dropWhile isSpace).reverse

/-- The characters of `\w`: the ASCII ones are fixed, whitespace and the CJK commas are
none, and the rest is Unicode's table of letters and digits. -/
structure Words where
  word : Char → Bool
  ascii : ∀ c, c.toNat < 128 → word c = (c.isAlphanum || c == '_')
  space : ∀ c, isSpace c = true → word c = false
  fullwidthComma : word '，' = false
  ideographicComma : word '、' = false

namespace Words

variable (W : Words)

/-- Whether a neighbour is a word character; the ends of the text are none. -/
def at? : Option Char → Bool
  | none => false
  | some c => W.word c

@[simp] theorem at?_none : W.at? none = false := rfl
@[simp] theorem at?_some (c : Char) : W.at? (some c) = W.word c := rfl

theorem digit {c : Char} (h : c.isDigit = true) : W.word c = true := by
  have hrange : c.toNat < 128 := by
    simp only [Char.isDigit, Bool.and_eq_true, decide_eq_true_eq] at h
    have h9 : c.val ≤ 57 := h.2
    have : c.val.toNat ≤ 57 := by simpa using UInt32.le_iff_toNat_le.mp h9
    show c.val.toNat < 128
    omega
  rw [W.ascii c hrange]
  simp [Char.isAlphanum, h]

end Words

/-! ## Patterns -/

inductive Item where
  | one (p : Char → Bool)
  /-- `[…]{min,}`, greedy. -/
  | many (min : Nat) (p : Char → Bool)
  /-- `(?:…|…)` of words, the earlier first. -/
  | words (ws : List (List Char))
  | lineStart
  | lineEnd
  | boundary
  /-- The brackets of the group. -/
  | opened
  | closed

/-- The characters of a text, one after the other. -/
def literal (s : String) : List Item := s.toList.map fun c => .one (· == c)

/-- A match: what it consumed, and what of it lies in the group. -/
structure Caught where
  text : List Char := []
  group : List Char := []
  inside : Bool := false
  deriving DecidableEq

def Caught.cons (x : Char) (m : Caught) : Caught :=
  { m with text := x :: m.text, group := if m.inside then x :: m.group else m.group }

@[simp] theorem Caught.cons_text (x : Char) (m : Caught) : (m.cons x).text = x :: m.text := rfl

/-- As many characters as there are, fewer when the rest then does not match. -/
def greedy (p : Char → Bool) (rest : Option Char → List Char → Option Caught) :
    Nat → Option Char → List Char → Option Caught
  | min, prev, [] => if min = 0 then rest prev [] else none
  | min, prev, x :: t =>
    match (if p x then (greedy p rest (min - 1) (some x) t).map (·.cons x) else none) with
    | some m => some m
    | none => if min = 0 then rest prev (x :: t) else none

def spelled (rest : Option Char → List Char → Option Caught) :
    List Char → Option Char → List Char → Option Caught
  | [], prev, t => rest prev t
  | _ :: _, _, [] => none
  | c :: w, _, x :: t => if c = x then (spelled rest w (some x) t).map (·.cons x) else none

/-- The match at a place, with the character before it. -/
def matchAt (W : Words) : List Item → Option Char → List Char → Option Caught
  | [], _, _ => some {}
  | .one _ :: _, _, [] => none
  | .one p :: rest, _, x :: t => if p x then (matchAt W rest (some x) t).map (·.cons x) else none
  | .many min p :: rest, prev, t => greedy p (matchAt W rest) min prev t
  | .words ws :: rest, prev, t => ws.findSome? fun w => spelled (matchAt W rest) w prev t
  | .lineStart :: rest, prev, t =>
    if prev = none ∨ prev = some '\n' then matchAt W rest prev t else none
  | .lineEnd :: rest, prev, t =>
    if t.head? = none ∨ t.head? = some '\n' then matchAt W rest prev t else none
  | .boundary :: rest, prev, t =>
    if W.at? prev ≠ W.at? t.head? then matchAt W rest prev t else none
  | .opened :: rest, prev, t => (matchAt W rest prev t).map ({ · with inside := false })
  | .closed :: rest, prev, t => (matchAt W rest prev t).map ({ · with inside := true })

section

variable {W : Words} {rest : List Item} {prev : Option Char}

theorem matchAt_one {p : Char → Bool} {x : Char} {t : List Char} (hx : p x = true) :
    matchAt W (.one p :: rest) prev (x :: t) =
      (matchAt W rest (some x) t).map (·.cons x) := by
  rw [matchAt, if_pos hx]

theorem matchAt_many {p : Char → Bool} {min : Nat} {t : List Char} :
    matchAt W (.many min p :: rest) prev t = greedy p (matchAt W rest) min prev t := rfl

theorem matchAt_boundary {t : List Char} (h : W.at? prev ≠ W.at? t.head?) :
    matchAt W (.boundary :: rest) prev t = matchAt W rest prev t := by
  rw [matchAt, if_pos h]

end

structure Found where
  start : Nat
  caught : Caught
  deriving DecidableEq

/-- The matches from a place on. The first `skip` characters belong to the last match.
No pattern here matches the empty text, so none is looked for at the end. -/
def scan (W : Words) (items : List Item) : Nat → Nat → Option Char → List Char → List Found
  | _, _, _, [] => []
  | skip + 1, pos, _, x :: t => scan W items skip (pos + 1) (some x) t
  | 0, pos, prev, x :: t =>
    match matchAt W items prev (x :: t) with
    | some m => ⟨pos, m⟩ :: scan W items (m.text.length - 1) (pos + 1) (some x) t
    | none => scan W items 0 (pos + 1) (some x) t

def finditer (W : Words) (items : List Item) (text : List Char) : List Found :=
  scan W items 0 0 none text

/-- The text without the matches, from a place on. -/
def removeFrom (W : Words) (items : List Item) : Nat → Option Char → List Char → List Char
  | _, _, [] => []
  | skip + 1, _, x :: t => removeFrom W items skip (some x) t
  | 0, prev, x :: t =>
    match matchAt W items prev (x :: t) with
    | some m => removeFrom W items (m.text.length - 1) (some x) t
    | none => x :: removeFrom W items 0 (some x) t

/-- `re.sub(…, "", text)`. -/
def remove (W : Words) (items : List Item) (text : List Char) : List Char :=
  removeFrom W items 0 none text

/-! ## Repetition -/

/-- The character before a place, after some more. -/
def before (prev : Option Char) (ds : List Char) : Option Char :=
  ds.foldl (fun _ c => some c) prev

@[simp] theorem before_nil (prev : Option Char) : before prev [] = prev := rfl
@[simp] theorem before_cons (prev : Option Char) (d : Char) (ds : List Char) :
    before prev (d :: ds) = before (some d) ds := rfl

theorem before_append (prev : Option Char) (ds es : List Char) :
    before prev (ds ++ es) = before (before prev ds) es := by
  simp [before]

theorem before_all {p : Char → Prop} {ds : List Char} {prev : Option Char}
    (hds : ∀ d ∈ ds, p d) (hne : ds ≠ []) : ∃ d, before prev ds = some d ∧ p d := by
  induction ds generalizing prev with
  | nil => exact absurd rfl hne
  | cons d ds ih =>
    by_cases h : ds = []
    · subst h
      exact ⟨d, rfl, hds d (by simp)⟩
    · exact ih (fun e he => hds e (by simp [he])) h

/-- A match with more characters in front. -/
def Caught.append (ds : List Char) (m : Caught) : Caught := ds.foldr Caught.cons m

@[simp] theorem Caught.append_text (ds : List Char) (m : Caught) :
    (m.append ds).text = ds ++ m.text := by
  induction ds with
  | nil => rfl
  | cons d ds ih => simpa [append] using ih

theorem greedy_some {p : Char → Bool} {rest : Option Char → List Char → Option Caught}
    {min : Nat} {prev : Option Char} {t : List Char} {m : Caught}
    (h : greedy p rest min prev t = some m) :
    ∃ ds u m', t = ds ++ u ∧ (∀ d ∈ ds, p d = true) ∧ min ≤ ds.length ∧
      rest (before prev ds) u = some m' ∧ m = m'.append ds := by
  induction t generalizing min prev m with
  | nil =>
    rw [greedy] at h
    split at h
    next h0 => exact ⟨[], [], m, rfl, by simp, by omega, h, rfl⟩
    next => cases h
  | cons x t ih =>
    rw [greedy] at h
    split at h
    next m₁ hm =>
      obtain rfl := Option.some.inj h
      split at hm
      next hx =>
        obtain ⟨m₂, hm₂, rfl⟩ := Option.map_eq_some_iff.mp hm
        obtain ⟨ds, u, m', rfl, hds, hmin, hrest, rfl⟩ := ih hm₂
        refine ⟨x :: ds, u, m', rfl, ?_, ?_, hrest, rfl⟩
        · simpa [hx] using hds
        · simp only [List.length_cons]
          omega
      next => cases hm
    next =>
      split at h
      next h0 => exact ⟨[], x :: t, m, rfl, by simp, by omega, h, rfl⟩
      next => cases h

/-- What the class does not stop at is taken whole, when the rest matches after it. -/
theorem greedy_whole {p : Char → Bool} {rest : Option Char → List Char → Option Caught}
    {min : Nat} {prev : Option Char} {ds u : List Char} {m : Caught}
    (hds : ∀ d ∈ ds, p d = true) (hu : ∀ c, u.head? = some c → p c = false)
    (hmin : min ≤ ds.length) (hrest : rest (before prev ds) u = some m) :
    greedy p rest min prev (ds ++ u) = some (m.append ds) := by
  induction ds generalizing min prev with
  | nil =>
    obtain rfl : min = 0 := by simpa using hmin
    cases u with
    | nil => simpa [greedy, Caught.append] using hrest
    | cons x t => simpa [greedy, Caught.append, hu x rfl] using hrest
  | cons d ds ih =>
    have hin : greedy p rest (min - 1) (some d) (ds ++ u) = some (m.append ds) := by
      refine ih (fun e he => hds e (by simp [he])) ?_ hrest
      simp only [List.length_cons] at hmin
      omega
    rw [List.cons_append, greedy]
    simp [hds d (by simp), hin, Caught.append]

/-! ## Skipping what was matched -/

theorem scan_skip (W : Words) (items : List Item) (pos : Nat) (prev : Option Char)
    (ds u : List Char) :
    scan W items ds.length pos prev (ds ++ u) =
      scan W items 0 (pos + ds.length) (before prev ds) u := by
  induction ds generalizing pos prev with
  | nil => rfl
  | cons d ds ih =>
    show scan W items ds.length (pos + 1) (some d) (ds ++ u) = _
    rw [ih, List.length_cons, before_cons, Nat.add_right_comm, Nat.add_assoc]

theorem removeFrom_skip (W : Words) (items : List Item) (prev : Option Char) (ds u : List Char) :
    removeFrom W items ds.length prev (ds ++ u) = removeFrom W items 0 (before prev ds) u := by
  induction ds generalizing prev with
  | nil => rfl
  | cons d ds ih => exact ih (some d)

theorem scan_none {W : Words} {items : List Item} {pos : Nat} {prev : Option Char} {x : Char}
    {t : List Char} (h : matchAt W items prev (x :: t) = none) :
    scan W items 0 pos prev (x :: t) = scan W items 0 (pos + 1) (some x) t := by
  rw [scan, h]

/-- After a match the search goes on behind it. -/
theorem scan_match {W : Words} {items : List Item} {pos : Nat} {prev : Option Char}
    {ds u : List Char} {m : Caught} (hne : ds ≠ []) (h : matchAt W items prev (ds ++ u) = some m)
    (htext : m.text = ds) :
    scan W items 0 pos prev (ds ++ u) =
      ⟨pos, m⟩ :: scan W items 0 (pos + ds.length) (before prev ds) u := by
  cases ds with
  | nil => exact absurd rfl hne
  | cons d ds =>
    rw [List.cons_append] at h ⊢
    rw [scan, h]
    simp only [htext, List.length_cons, Nat.add_sub_cancel, scan_skip, before_cons,
      Nat.add_right_comm, Nat.add_assoc]

theorem removeFrom_none {W : Words} {items : List Item} {prev : Option Char} {x : Char}
    {t : List Char} (h : matchAt W items prev (x :: t) = none) :
    removeFrom W items 0 prev (x :: t) = x :: removeFrom W items 0 (some x) t := by
  rw [removeFrom, h]

theorem removeFrom_match {W : Words} {items : List Item} {prev : Option Char} {ds u : List Char}
    {m : Caught} (hne : ds ≠ []) (h : matchAt W items prev (ds ++ u) = some m)
    (htext : m.text = ds) :
    removeFrom W items 0 prev (ds ++ u) = removeFrom W items 0 (before prev ds) u := by
  cases ds with
  | nil => exact absurd rfl hne
  | cons d ds =>
    rw [List.cons_append] at h ⊢
    rw [removeFrom, h]
    simp only [htext, List.length_cons, Nat.add_sub_cancel, removeFrom_skip, before_cons]

/-- A text begins with a run of the class, which may be empty. -/
theorem exists_run (p : Char → Bool) (t : List Char) :
    ∃ ds u, t = ds ++ u ∧ (∀ d ∈ ds, p d = true) ∧ ∀ c, u.head? = some c → p c = false := by
  induction t with
  | nil => exact ⟨[], [], rfl, nofun, nofun⟩
  | cons x t ih =>
    by_cases hx : p x
    · obtain ⟨ds, u, rfl, hds, hu⟩ := ih
      exact ⟨x :: ds, u, rfl, by simpa [hx] using hds, hu⟩
    · exact ⟨[], x :: t, rfl, nofun, by simpa using hx⟩

/-- `re.sub("[…]+", "", text)` keeps the characters outside the class. -/
theorem remove_class (W : Words) (p : Char → Bool) (text : List Char) :
    remove W [.many 1 p] text = text.filter fun c => !p c := by
  have hfrom : ∀ n (t : List Char) prev, t.length ≤ n →
      removeFrom W [.many 1 p] 0 prev t = t.filter fun c => !p c := by
    intro n
    induction n with
    | zero =>
      intro t prev hlen
      obtain rfl : t = [] := List.length_eq_zero_iff.mp (by omega)
      rfl
    | succ n ih =>
      intro t prev hlen
      cases hm : matchAt W [.many 1 p] prev t with
      | none =>
        cases t with
        | nil => rfl
        | cons x t =>
          have hx : p x = false := by
            by_contra hx
            obtain ⟨ds, u, hrun, hds, hu⟩ := exists_run p (x :: t)
            have hne : 1 ≤ ds.length := by
              cases ds with
              | nil => exact absurd (hu x (by rw [← List.nil_append u, ← hrun]; rfl)) hx
              | cons d ds => simp
            have hmatch : greedy p (matchAt W []) 1 prev (ds ++ u) = some (.append ds {}) :=
              greedy_whole hds hu hne rfl
            rw [matchAt, hrun, hmatch] at hm
            cases hm
          rw [removeFrom_none hm, ih t _ (by simpa using hlen)]
          simp [hx]
      | some m =>
        obtain ⟨ds, u, m', rfl, hds, hmin, hrest, rfl⟩ := greedy_some hm
        obtain rfl : m' = {} := by simpa [matchAt, eq_comm] using hrest
        have hne : ds ≠ [] := List.ne_nil_of_length_pos hmin
        rw [removeFrom_match hne hm (by simp), ih u _ (by simp at hlen; omega),
          List.filter_append, List.filter_eq_nil_iff (l := ds) |>.mpr (by simpa using hds),
          List.nil_append]
  exact hfrom text.length text none (Nat.le_refl _)

/-! ## Lines -/

section

variable {W : Words} {items : List Item}

theorem matchAt_lineStart {prev : Option Char} {t : List Char}
    (h : prev = none ∨ prev = some '\n') :
    matchAt W (.lineStart :: items) prev t = matchAt W items prev t := by
  rw [matchAt, if_pos h]

theorem matchAt_midLine (hitems : items.head? = some .lineStart) {c : Char} {t : List Char}
    (h : c ≠ '\n') : matchAt W items (some c) t = none := by
  obtain ⟨rest, rfl⟩ := List.head?_eq_some_iff.mp hitems
  rw [matchAt, if_neg (by simp [h])]

/-- A pattern that starts at a line finds nothing in the rest of one. -/
theorem scan_midLine (hitems : items.head? = some .lineStart) {pos : Nat} {c : Char}
    {l rest : List Char} (hc : c ≠ '\n') (hl : ∀ d ∈ l, d ≠ '\n') :
    scan W items 0 pos (some c) (l ++ '\n' :: rest) =
      scan W items 0 (pos + l.length + 1) (some '\n') rest := by
  induction l generalizing pos c with
  | nil => exact scan_none (matchAt_midLine hitems hc)
  | cons d l ih =>
    rw [List.cons_append, scan_none (matchAt_midLine hitems hc),
      ih (hl d (by simp)) (fun e he => hl e (by simp [he])), List.length_cons]
    congr 1
    omega

/-- Nor in a whole line, when it does not match at the start. -/
theorem scan_line (hitems : items.head? = some .lineStart) {pos : Nat} {prev : Option Char}
    {c : Char} {l rest : List Char} (hnone : matchAt W items prev (c :: l ++ '\n' :: rest) = none)
    (hl : ∀ d ∈ c :: l, d ≠ '\n') :
    scan W items 0 pos prev (c :: l ++ '\n' :: rest) =
      scan W items 0 (pos + (c :: l).length + 1) (some '\n') rest := by
  rw [List.cons_append] at hnone ⊢
  rw [scan_none hnone, scan_midLine hitems (hl c (by simp)) (fun d hd => hl d (by simp [hd])),
    List.length_cons]
  congr 1
  omega

theorem matchAt_literal (s : List Char) {prev : Option Char} {t : List Char} :
    matchAt W (s.map (fun c => Item.one (· == c)) ++ items) prev (s ++ t) =
      (matchAt W items (before prev s) t).map (·.append s) := by
  induction s generalizing prev with
  | nil => simp [Caught.append]
  | cons c s ih =>
    rw [List.map_cons, List.cons_append, List.cons_append,
      matchAt_one (p := fun x => x == c) (beq_self_eq_true c), ih, Option.map_map]
    rfl

end

theorem Caught.append_inside {ds : List Char} {m : Caught} (h : m.inside = true) :
    m.append ds = { m with text := ds ++ m.text, group := ds ++ m.group } := by
  induction ds with
  | nil => rfl
  | cons d ds ih =>
    show (m.append ds).cons d = _
    rw [ih, Caught.cons, h]
    rfl

theorem Caught.append_outside {ds : List Char} {m : Caught} (h : m.inside = false) :
    m.append ds = { m with text := ds ++ m.text } := by
  induction ds with
  | nil => rfl
  | cons d ds ih =>
    show (m.append ds).cons d = _
    rw [ih, Caught.cons, h]
    rfl

end Python
