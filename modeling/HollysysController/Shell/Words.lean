import Mathlib.Data.List.DropRight
import Mathlib.Data.List.Infix

/-! # Words and patterns of a shell

The words that a script passes on, the patterns that it matches them with, and the fields that
an unquoted expansion is split into. -/

namespace Shell

/-- An argument, the value of a variable, or an output. -/
abbrev Word := List Char

def word (s : String) : Word := s.toList

/-! ## Patterns -/

inductive Piece where
  | char (c : Char)
  /-- `?`. -/
  | one
  /-- `*`. -/
  | any
  deriving DecidableEq, Repr

abbrev Pattern := List Piece

/-- What stands in quotes matches itself. -/
def quoted (w : Word) : Pattern := w.map .char

/-- A pattern as it is written outside of quotes. -/
def pattern (s : String) : Pattern :=
  s.toList.map fun c => if c = '*' then .any else if c = '?' then .one else .char c

def Pattern.matches : Pattern → Word → Bool
  | [], w => w.isEmpty
  | .char _ :: _, [] => false
  | .char c :: p, x :: w => c == x && Pattern.matches p w
  | .one :: _, [] => false
  | .one :: p, _ :: w => Pattern.matches p w
  | .any :: p, w => w.tails.any fun t => Pattern.matches p t

/-- One of the patterns of a `case` matches. -/
def matchesAny (ps : List Pattern) (w : Word) : Bool := ps.any fun p => Pattern.matches p w

theorem matches_nil {w : Word} : Pattern.matches [] w = true ↔ w = [] := by
  simp [Pattern.matches]

theorem matches_any {p : Pattern} {w : Word} :
    Pattern.matches (.any :: p) w = true ↔ ∃ t, t <:+ w ∧ Pattern.matches p t = true := by
  simp [Pattern.matches]

/-- A pattern that begins with what stands in quotes. -/
theorem matches_quoted {u : Word} {p : Pattern} {w : Word} :
    Pattern.matches (quoted u ++ p) w = true ↔ ∃ t, w = u ++ t ∧ Pattern.matches p t = true := by
  induction u generalizing w with
  | nil => simp [quoted]
  | cons c u ih =>
    cases w with
    | nil => simp [quoted, Pattern.matches]
    | cons x w =>
      have hcons : quoted (c :: u) ++ p = .char c :: (quoted u ++ p) := rfl
      simp only [hcons, Pattern.matches, Bool.and_eq_true, beq_iff_eq, ih, List.cons_append,
        List.cons.injEq]
      constructor
      · rintro ⟨rfl, t, rfl, ht⟩
        exact ⟨t, ⟨rfl, rfl⟩, ht⟩
      · rintro ⟨t, ⟨rfl, rfl⟩, ht⟩
        exact ⟨rfl, t, rfl, ht⟩

/-- `u*`: the words that begin with `u`. -/
theorem matches_quoted_any {u w : Word} :
    Pattern.matches (quoted u ++ [Piece.any]) w = true ↔ u <+: w := by
  rw [matches_quoted]
  constructor
  · rintro ⟨t, rfl, -⟩
    exact List.prefix_append u t
  · rintro ⟨t, rfl⟩
    exact ⟨t, rfl, matches_any.mpr ⟨[], List.nil_suffix, matches_nil.mpr rfl⟩⟩

/-! ## Expansions -/

/-- What a command substitution gives of an output. -/
def substituted (output : Word) : Word := output.rdropWhile (· == '\n')

/-- The fields of an unquoted expansion when the separator is the line break. -/
def lineFields (w : Word) : List Word := (w.splitOn '\n').filter fun field => !field.isEmpty

/-- The fields of an unquoted expansion when the separator is no white space. It ends a field. -/
def fields (separator : Char) (w : Word) : List Word :=
  match (w.splitOn separator).getLast? with
  | some [] => (w.splitOn separator).dropLast
  | _ => w.splitOn separator

/-- `${parameter#literal}`. -/
def dropPrefix (u w : Word) : Word := if u.isPrefixOf w then w.drop u.length else w

/-- `${parameter%literal}`. -/
def dropSuffix (u w : Word) : Word := if u.isSuffixOf w then w.take (w.length - u.length) else w

def isBlank (c : Char) : Bool := c == ' ' || c == '\t'

/-- `awk '{print $2}'`. -/
def secondFields (output : Word) : Word :=
  (fields '\n' output).flatMap fun line =>
    ((line.splitOnP isBlank).filter fun field => !field.isEmpty).getD 1 [] ++ ['\n']

end Shell
