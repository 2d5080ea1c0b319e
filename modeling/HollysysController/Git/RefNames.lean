import HollysysController.Python.Paths

/-! # Names of branches

What `git check-ref-format --branch` takes as the name of a branch, and a kind of names that it
always takes. -/

namespace Git

/-- The characters that no name has: controls, the space, and those with a meaning in revisions
and patterns. -/
def isForbidden (c : Char) : Bool :=
  c.toNat < 32 || c.toNat == 127 || c == ' ' || c == '~' || c == '^' || c == ':' || c == '?' ||
    c == '*' || c == '[' || c == '\\'

/-- The rules for a name with a slash. -/
structure BranchName (name : List Char) : Prop where
  parts : ∀ part ∈ name.splitOn '/', part ≠ [] ∧ part.head? ≠ some '.' ∧ ¬ ".lock".toList <:+ part
  levels : '/' ∈ name
  noDots : ¬ ['.', '.'] <:+: name
  allowed : ∀ c ∈ name, isForbidden c = false
  lastDot : name.getLast? ≠ some '.'
  noReflog : ¬ ['@', '\x7b'] <:+: name
  noOption : name.head? ≠ some '-'

/-- Letters, digits and dashes. -/
def isPlain (c : Char) : Bool := c.isAlphanum || c == '-'

theorem toNat_plain {c : Char} (h : isPlain c = true) : 45 ≤ c.toNat ∧ c.toNat ≤ 122 := by
  simp only [isPlain, Bool.or_eq_true, beq_iff_eq] at h
  rcases h with halnum | rfl
  · have hrange := Python.toNat_alphanum halnum
    omega
  · decide

theorem isForbidden_plain {c : Char} (h : isPlain c = true) : isForbidden c = false := by
  have hrange := toNat_plain h
  simp only [isForbidden, Bool.or_eq_false_iff, decide_eq_false_iff_not, beq_eq_false_iff_ne]
  refine ⟨⟨⟨⟨⟨⟨⟨⟨⟨?_, ?_⟩, ?_⟩, ?_⟩, ?_⟩, ?_⟩, ?_⟩, ?_⟩, ?_⟩, ?_⟩
  · omega
  · omega
  all_goals
    rintro rfl
    exact absurd h (by decide)

variable {parts : List (List Char)}

theorem mem_plain (hparts : ∀ part ∈ parts, ∀ c ∈ part, isPlain c = true) {c : Char}
    (h : c ∈ ['/'].intercalate parts) : isPlain c = true ∨ c = '/' := by
  rcases Python.mem_intercalate h with rfl | ⟨part, hpart, hc⟩
  · exact .inr rfl
  · exact .inl (hparts part hpart c hc)

/-- Parts of plain characters are a name. -/
theorem branchName_plain (hlevels : 2 ≤ parts.length)
    (hparts : ∀ part ∈ parts, part ≠ [] ∧ ∀ c ∈ part, isPlain c = true)
    (hhead : (['/'].intercalate parts).head? ≠ some '-') :
    BranchName (['/'].intercalate parts) := by
  have hne : parts ≠ [] := by
    rintro rfl
    cases hlevels
  have hmem : ∀ c ∈ ['/'].intercalate parts, isPlain c = true ∨ c = '/' := fun c hc =>
    mem_plain (fun part hpart => (hparts part hpart).2) hc
  have hfree : ∀ c, isPlain c = false → c ≠ '/' → c ∉ ['/'].intercalate parts := by
    intro c hplain hslash hc
    rcases hmem c hc with h | h
    · rw [hplain] at h
      cases h
    · exact hslash h
  have hsplit : (['/'].intercalate parts).splitOn '/' = parts := by
    apply List.splitOn_intercalate _ _ hne
    intro part hpart hslash
    exact absurd ((hparts part hpart).2 '/' hslash) (by decide)
  refine ⟨?_, ?_, ?_, ?_, ?_, ?_, hhead⟩
  · intro part hpart
    rw [hsplit] at hpart
    obtain ⟨hpartne, hchars⟩ := hparts part hpart
    refine ⟨hpartne, ?_, ?_⟩
    · intro hdot
      exact absurd (hchars '.' (List.mem_of_head? hdot)) (by decide)
    · intro hlock
      exact absurd (hchars '.' (hlock.subset (by simp))) (by decide)
  · obtain ⟨first, rest, rfl⟩ := List.exists_cons_of_ne_nil hne
    have hrest : rest ≠ [] := by
      rintro rfl
      simp at hlevels
    rw [List.intercalate_cons_of_ne_nil hrest]
    simp
  · intro hdots
    exact hfree '.' (by decide) (by decide) (hdots.subset List.mem_cons_self)
  · intro c hc
    rcases hmem c hc with h | rfl
    · exact isForbidden_plain h
    · rfl
  · intro hdot
    exact hfree '.' (by decide) (by decide) (List.mem_of_getLast? hdot)
  · intro hreflog
    exact hfree '@' (by decide) (by decide) (hreflog.subset List.mem_cons_self)

end Git
