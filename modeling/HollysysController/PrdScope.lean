import HollysysController.ArtifactScope

/-! # The scope of a PRD

`ArtifactScope.from_prd_path` splices the root of a PRD into the configured patterns. What
the scope then allows, for each pair of PRDs and every configuration. -/

namespace HollysysController

/-! ## Pure paths -/

/-- The parts of a `PurePosixPath`, without the anchor of an absolute one. -/
def pathParts (path : String) : List (List Char) :=
  (path.toList.splitOn '/').filter fun part => part ≠ [] ∧ part ≠ ['.']

def isAbsolutePath (path : String) : Bool := path.toList.head? == some '/'

/-- The stem of a name and its suffix without the dot. -/
def splitSuffix (name : List Char) : Option (List Char × List Char) :=
  let ending := (name.reverse.takeWhile (· != '.')).reverse
  let stem := ((name.reverse.dropWhile (· != '.')).drop 1).reverse
  if name.contains '.' ∧ ending ≠ [] ∧ stem ≠ [] then some (stem, ending) else none

/-- The name of a Markdown file without its suffix. -/
def markdownStem (name : List Char) : Option (List Char) :=
  match splitSuffix name with
  | some (stem, ending) => if ending.map Char.toLower = ['m', 'd'] then some stem else none
  | none => none

def joinParts (parts : List (List Char)) : String := String.ofList (['/'].intercalate parts)

/-- The path check of `validate_start`. -/
def isCanonicalPrdPath (path : String) : Bool :=
  path.toList.head? != some '/' && !path.toList.contains '\x00' &&
    (path.toList.splitOn '/').all fun part => part ∉ [[], ['.'], ['.', '.']]

/-! ## The scope of a path -/

/-- The root of a path that can define a scope. A dot is no file name. -/
def prdRoot (path : String) : Option String :=
  let parts := pathParts path
  match parts.getLast? with
  | none => none
  | some name =>
    match markdownStem name with
    | none => none
    | some stem =>
      if isAbsolutePath path ∨ ['.', '.'] ∈ parts ∨ parts.length < 2 ∨ stem = ['.'] then none
      else some (joinParts (parts.dropLast ++ [stem]))

def defaultPatterns : ArtifactPatterns where
  spec := ["specs/spec-*.md"]
  plan := ["plans/plan-*.md"]
  tasks := ["tasks/task-*.md", "tasks/tasks-*.md"]

/-- The patterns of a phase below a root. -/
def scopedPatterns (root stage : String) (patterns : List String) : Except String (List String) :=
  if patterns = [] then .error s!"artifact scope lacks {stage} patterns"
  else if patterns.any fun pattern => isAbsolutePath pattern || ['.', '.'] ∈ pathParts pattern then
    .error "artifact scope pattern must be relative"
  else .ok (patterns.map fun pattern => s!"{root}/{pattern}")

/-- `ArtifactScope.from_prd_path`. -/
def ArtifactScope.fromPrdPath (prdPath : String) (relativePatterns : Option ArtifactPatterns) :
    Except String ArtifactScope :=
  match prdRoot prdPath with
  | none => .error "PRD path cannot define a canonical artifact scope"
  | some root => do
    let configured := relativePatterns.getD defaultPatterns
    let spec ← scopedPatterns root Stage.specReview.value configured.spec
    let plan ← scopedPatterns root Stage.planReview.value configured.plan
    let tasks ← scopedPatterns root Stage.tasksReview.value configured.tasks
    .ok { sourcePrdPath := prdPath, rootPath := root, patterns := { spec, plan, tasks } }

/-- The patterns that a configuration has for the phase of a stage. -/
def ArtifactPatterns.atStage (patterns : ArtifactPatterns) : Stage → List String
  | .specWrite | .specReview => patterns.spec
  | .planWrite | .planReview => patterns.plan
  | .tasksWrite | .tasksReview => patterns.tasks
  | _ => []

/-- The path lies below the directory. -/
def Below (root path : String) : Prop := (root.toList ++ ['/']) <+: path.toList

/-- A PRD that `validate_start` and `from_prd_path` admit. -/
structure Prd where
  path : String
  root : String
  canonical : isCanonicalPrdPath path = true
  rooted : prdRoot path = some root

/-- What the scope of a PRD is for, beside another PRD. -/
structure ScopeLaw (a b : Prd) (configured : ArtifactPatterns) (scope : ArtifactScope) : Prop where
  allowed : ∀ stage path, scope.phaseContains stage path = true →
    scope.runAllowsDocumentPath path = true
  own : ∀ stage, ∀ pattern ∈ configured.atStage stage, ∀ q, fnmatchcase q pattern = true →
    scope.phaseContains stage s!"{a.root}/{q}" = true
  apart : b.path ≠ a.path → ∀ stage path, scope.phaseContains stage path = true →
    ¬ Below b.root path

/-- The law under every configuration that gives the PRD a scope. -/
def ScopeBoundary (a b : Prd) : Prop :=
  ∀ relativePatterns scope, ArtifactScope.fromPrdPath a.path relativePatterns = .ok scope →
    ScopeLaw a b (relativePatterns.getD defaultPatterns) scope

/-- No character of the root means something else in a pattern. -/
def PlainText (text : List Char) : Prop := ∀ c ∈ text, c ≠ '*' ∧ c ≠ '?' ∧ c ≠ '['

/-- Neither root is the other one, or a directory above it. -/
def Unrelated (a b : Prd) : Prop :=
  ¬ (a.root.toList ++ ['/']) <+: (b.root.toList ++ ['/']) ∧
    ¬ (b.root.toList ++ ['/']) <+: (a.root.toList ++ ['/'])

/-! ## Patterns -/

/-- The items of characters that mean themselves. -/
def literalItems (text : List Char) : List GlobItem := text.map fun c => .oneOf false [(c, c)]

theorem globItems_plain {u : List Char} (h : PlainText u) (n : Nat) (t : List Char) :
    globItems (u.length + n) (u ++ t) = literalItems u ++ globItems n t := by
  induction u with
  | nil => simp [literalItems]
  | cons c u ih =>
    obtain ⟨hstar, hany, hopen⟩ := h c (by simp)
    have hrest := ih fun d hd => h d (by simp [hd])
    rw [List.length_cons, Nat.add_right_comm, List.cons_append, globItems, if_neg hstar,
      if_neg hany, if_pos hopen, hrest]
    rfl

theorem globMatches_literal (u : List Char) (items : List GlobItem) (path : List Char) :
    globMatches (literalItems u ++ items) path = true ↔
      ∃ rest, path = u ++ rest ∧ globMatches items rest = true := by
  induction u generalizing path with
  | nil => simp [literalItems]
  | cons c u ih =>
    cases path with
    | nil => simp [literalItems, globMatches]
    | cons d path =>
      have hsame : ((c ≤ d && d ≤ c) = true) ↔ d = c := by
        rw [Bool.and_eq_true, decide_eq_true_eq, decide_eq_true_eq]
        exact ⟨fun h => Char.le_antisymm h.2 h.1, fun h => h ▸ ⟨Char.le_refl _, Char.le_refl _⟩⟩
      show (_ && globMatches (literalItems u ++ items) path) = true ↔ _
      rw [Bool.and_eq_true, ih]
      simp only [List.any_cons, List.any_nil, Bool.or_false, bne_iff_ne, ne_eq,
        Bool.not_eq_false, hsame]
      constructor
      · rintro ⟨rfl, rest, rfl, hrest⟩
        exact ⟨rest, rfl, hrest⟩
      · rintro ⟨rest, heq, hrest⟩
        obtain ⟨rfl, rfl⟩ := List.cons.inj heq
        exact ⟨rfl, rest, rfl, hrest⟩

theorem globMatches_cons_char {c : Char} {items : List GlobItem} {path : List Char} :
    globMatches (.oneOf false [(c, c)] :: items) path = true ↔
      ∃ rest, path = c :: rest ∧ globMatches items rest = true := by
  simpa [literalItems] using globMatches_literal [c] items path

/-- What follows a plain text in a pattern matches what follows it in the path. -/
theorem fnmatch_plain_append {u t : List Char} {path pattern : String} (h : PlainText u)
    (hpattern : pattern.toList = u ++ t) :
    fnmatchcase path pattern = true ↔
      ∃ rest, path.toList = u ++ rest ∧ globMatches (globItems t.length t) rest = true := by
  have hlength : pattern.length = u.length + t.length := by
    rw [← String.length_toList, hpattern, List.length_append]
  rw [fnmatchcase, hpattern, hlength, globItems_plain h, globMatches_literal]

theorem toList_below (root path : String) :
    (s!"{root}/{path}").toList = (root.toList ++ ['/']) ++ path.toList := by
  show (root ++ "/" ++ path).toList = _
  rw [String.toList_append, String.toList_append]
  rfl

/-- A pattern below a plain root matches exactly what lies below the root and matches. -/
theorem fnmatch_plain {root pattern path : String} (h : PlainText root.toList) :
    fnmatchcase path s!"{root}/{pattern}" = true ↔
      ∃ q, path = s!"{root}/{q}" ∧ fnmatchcase q pattern = true := by
  have hplain : PlainText (root.toList ++ ['/']) := by
    intro c hc
    rcases List.mem_append.mp hc with hc | hc
    · exact h c hc
    · obtain rfl : c = '/' := by simpa using hc
      decide
  rw [fnmatch_plain_append hplain (toList_below root pattern)]
  constructor
  · rintro ⟨rest, hpath, hrest⟩
    refine ⟨String.ofList rest, ?_, ?_⟩
    · apply String.toList_injective
      rw [hpath, toList_below, String.toList_ofList]
    · rw [fnmatchcase, String.toList_ofList]
      exact hrest
  · rintro ⟨q, rfl, hq⟩
    exact ⟨q.toList, toList_below root q, hq⟩

theorem takeWhile_mark {mark : Char} {t : List Char} (h : mark ∈ t) :
    t = t.takeWhile (· != mark) ++ mark :: (t.dropWhile (· != mark)).drop 1 := by
  induction t with
  | nil => simp at h
  | cons c t ih =>
    by_cases hc : c = mark
    · subst hc
      simp
    · have hrest : mark ∈ t := by
        rcases List.mem_cons.mp h with heq | hmem
        · exact absurd heq.symm hc
        · exact hmem
      have hkeep : (c != mark) = true := by simpa using hc
      rw [List.takeWhile_cons_of_pos (p := (· != mark)) hkeep,
        List.dropWhile_cons_of_pos (p := (· != mark)) hkeep, List.cons_append, ← ih hrest]

theorem closeBracket_text {t inside rest : List Char} (h : closeBracket t = some (inside, rest)) :
    t = inside ++ ']' :: rest := by
  unfold closeBracket at h
  extract_lets first after at h
  split at h
  next hclosed =>
    obtain ⟨hinside, hrest⟩ := Prod.mk.inj (Option.some.inj h)
    have hmem : ']' ∈ after := by simpa using hclosed
    rw [← hinside, ← hrest, List.append_assoc, ← takeWhile_mark hmem]
    exact (List.take_append_drop first t).symm
  next => cases h

/-- A bracket is closed by the text of a pattern that comes after the root. -/
theorem closeBracket_ends (v : List Char) :
    ∃ inside rest, closeBracket (v ++ ['/', ']']) = some (inside, rest) := by
  unfold closeBracket
  extract_lets first after
  have hfirst : first ≤ v.length := by
    rcases v with _ | ⟨c, _ | ⟨d, v⟩⟩
    · decide
    · simp only [first, List.cons_append, List.nil_append, List.length_cons, List.length_nil]
      split <;> simp_all
    · simp only [first, List.cons_append, List.length_cons]
      split <;> omega
  have hclosed : after.contains ']' = true := by
    show ((v ++ ['/', ']']).drop first).contains ']' = true
    rw [List.drop_append_of_le_length hfirst]
    simp
  rw [if_pos hclosed]
  exact ⟨_, _, rfl⟩

/-- A text that a pattern matches is no longer than it, or a star may take more. -/
theorem globMatches_length_or_star {n : Nat} {s z : List Char}
    (h : globMatches (globItems n s) z = true) :
    z.length ≤ s.length ∨ ∃ k, k < s.length ∧ k ≤ z.length ∧
      ∀ y, globMatches (globItems n s) (z.take k ++ y :: z.drop k) = true := by
  induction n generalizing s z with
  | zero =>
    left
    cases z with
    | nil => simp
    | cons x z => simp [globItems, globMatches] at h
  | succ n ih =>
    cases s with
    | nil =>
      left
      cases z with
      | nil => simp
      | cons x z => simp [globItems, globMatches] at h
    | cons c s =>
      -- an item that takes one character leaves the rest of the pattern for the rest of the text
      have hone : ∀ (item : GlobItem) (t : List Char), t.length ≤ s.length →
          globItems (n + 1) (c :: s) = item :: globItems n t →
          (globMatches (item :: globItems n t) z = true → ∃ x z', z = x :: z' ∧
            globMatches (globItems n t) z' = true ∧
            ∀ z'', globMatches (globItems n t) z'' = true →
              globMatches (item :: globItems n t) (x :: z'') = true) →
          z.length ≤ (c :: s).length ∨ ∃ k, k < (c :: s).length ∧ k ≤ z.length ∧
            ∀ y, globMatches (globItems (n + 1) (c :: s)) (z.take k ++ y :: z.drop k) = true := by
        intro item t hshort hitems hstep
        rw [hitems] at h ⊢
        obtain ⟨x, z', rfl, hrest, hback⟩ := hstep h
        rcases ih hrest with hlength | ⟨k, hk, hkz, hmore⟩
        · left
          simp only [List.length_cons]
          omega
        · right
          refine ⟨k + 1, by simp only [List.length_cons]; omega, by simpa using hkz, ?_⟩
          intro y
          exact hback _ (hmore y)
      have hany : ∀ (t : List Char), t.length ≤ s.length →
          globItems (n + 1) (c :: s) = .any :: globItems n t → _ := fun t hshort hitems =>
        hone .any t hshort hitems fun hmatch => by
          cases z with
          | nil => simp [globMatches] at hmatch
          | cons x z => exact ⟨x, z, rfl, hmatch, fun _ h => h⟩
      have hclass : ∀ negated ranges (t : List Char), t.length ≤ s.length →
          globItems (n + 1) (c :: s) = .oneOf negated ranges :: globItems n t → _ :=
        fun negated ranges t hshort hitems => hone (.oneOf negated ranges) t hshort hitems
          fun hmatch => by
            cases z with
            | nil => simp [globMatches] at hmatch
            | cons x z =>
              rw [globMatches, Bool.and_eq_true] at hmatch
              refine ⟨x, z, rfl, hmatch.2, fun _ hrest => ?_⟩
              rw [globMatches, Bool.and_eq_true]
              exact ⟨hmatch.1, hrest⟩
      by_cases hstar : c = '*'
      · right
        refine ⟨0, by simp, by simp, fun y => ?_⟩
        rw [globItems, if_pos hstar] at h ⊢
        obtain ⟨t, htail, ht⟩ := List.any_eq_true.mp h
        refine List.any_eq_true.mpr ⟨t, ?_, ht⟩
        rw [List.mem_tails] at htail ⊢
        exact htail.trans (List.suffix_cons y z)
      by_cases hmark : c = '?'
      · exact hany s (Nat.le_refl _) (by rw [globItems, if_neg hstar, if_pos hmark])
      by_cases hopen : c ≠ '['
      · exact hclass _ _ s (Nat.le_refl _) (by
          rw [globItems, if_neg hstar, if_neg hmark, if_pos hopen])
      cases hclose : closeBracket s with
      | none =>
        exact hclass _ _ s (Nat.le_refl _) (by
          rw [globItems, if_neg hstar, if_neg hmark, if_neg hopen, hclose])
      | some closed =>
        obtain ⟨inside, rest⟩ := closed
        have hshort : rest.length ≤ s.length := by
          have htext := congrArg List.length (closeBracket_text hclose)
          simp only [List.length_append, List.length_cons] at htext
          omega
        have hitems : ∃ negated ranges,
            globItems (n + 1) (c :: s) = .oneOf negated ranges :: globItems n rest := by
          rw [globItems, if_neg hstar, if_neg hmark, if_neg hopen, hclose]
          split
          next heq => cases heq
          next heq =>
            cases heq
            exact ⟨_, _, rfl⟩
          next heq =>
            cases heq
            exact ⟨_, _, rfl⟩
        obtain ⟨negated, ranges, hitems⟩ := hitems
        exact hclass negated ranges rest hshort hitems

/-! ## The root of a PRD -/

theorem intercalate_last (sep : List Char) (parts : List (List Char)) (s t : List Char) :
    sep.intercalate (parts ++ [s ++ t]) = sep.intercalate (parts ++ [s]) ++ t := by
  induction parts with
  | nil => simp
  | cons part parts ih =>
    have hne : ∀ last : List Char, parts ++ [last] ≠ [] := by simp
    rw [List.cons_append, List.cons_append, List.intercalate_cons_of_ne_nil (hne _),
      List.intercalate_cons_of_ne_nil (hne _), ih]
    simp

theorem splitSuffix_eq {name stem ending : List Char}
    (h : splitSuffix name = some (stem, ending)) : name = stem ++ '.' :: ending := by
  unfold splitSuffix at h
  extract_lets ending' stem' at h
  split at h
  next hsuffix =>
    obtain ⟨rfl, rfl⟩ := Prod.mk.inj (Option.some.inj h)
    have hdot : '.' ∈ name.reverse := by simpa using hsuffix.1
    have htext := congrArg List.reverse (takeWhile_mark hdot)
    rw [List.reverse_reverse] at htext
    rw [htext]
    simp [ending', stem']
  next => cases h

/-- The path of a PRD is its root with a suffix. -/
theorem Prd.path_eq (prd : Prd) : ∃ ending, prd.path.toList = prd.root.toList ++ '.' :: ending := by
  have hcanonical := prd.canonical
  have hrooted := prd.rooted
  simp only [isCanonicalPrdPath, Bool.and_eq_true, List.all_eq_true, decide_eq_true_eq] at hcanonical
  have hparts : pathParts prd.path = prd.path.toList.splitOn '/' := by
    apply List.filter_eq_self.mpr
    intro part hpart
    have hproper := hcanonical.2 part hpart
    simp only [List.mem_cons, List.not_mem_nil, or_false, not_or] at hproper
    simpa using ⟨hproper.1, hproper.2.1⟩
  unfold prdRoot at hrooted
  extract_lets parts at hrooted
  split at hrooted
  next => cases hrooted
  next name hlast =>
    split at hrooted
    next => cases hrooted
    next stem hstem =>
      split at hrooted
      next => cases hrooted
      next =>
        obtain ⟨ending, hname⟩ : ∃ ending, name = stem ++ '.' :: ending := by
          unfold markdownStem at hstem
          split at hstem
          next stem' ending hsplit =>
            split at hstem
            · cases hstem
              exact ⟨ending, splitSuffix_eq hsplit⟩
            · cases hstem
          next => cases hstem
        refine ⟨ending, ?_⟩
        have hpath : prd.path.toList = ['/'].intercalate parts := by
          rw [show parts = _ from hparts, List.intercalate_splitOn]
        have hsplit : parts = parts.dropLast ++ [name] :=
          (List.dropLast_append_getLast? name hlast).symm
        rw [hpath, ← Option.some.inj hrooted, joinParts, String.toList_ofList, hsplit, hname,
          intercalate_last]
        simp

/-! ## Under one configuration -/

theorem scopedPatterns_eq {root stage : String} {patterns result : List String}
    (h : scopedPatterns root stage patterns = .ok result) :
    result = patterns.map fun pattern => s!"{root}/{pattern}" := by
  unfold scopedPatterns at h
  split at h
  · cases h
  · split at h
    · cases h
    · exact (Except.ok.inj h).symm

/-- The patterns of a scope are those of the configuration, below the root. -/
theorem fromPrdPath_scope {prd : Prd} {relativePatterns : Option ArtifactPatterns}
    {scope : ArtifactScope}
    (h : ArtifactScope.fromPrdPath prd.path relativePatterns = .ok scope) :
    scope.sourcePrdPath = prd.path ∧ scope.rootPath = prd.root ∧
      ∀ stage path, scope.phaseContains stage path =
        ((relativePatterns.getD defaultPatterns).atStage stage).any
          fun pattern => fnmatchcase path s!"{prd.root}/{pattern}" := by
  unfold ArtifactScope.fromPrdPath at h
  rw [prd.rooted] at h
  simp only [bind, Except.bind] at h
  split at h
  next => cases h
  next spec hspec =>
    split at h
    next => cases h
    next plan hplan =>
      split at h
      next => cases h
      next tasks htasks =>
        cases h
        refine ⟨rfl, rfl, ?_⟩
        intro stage path
        rw [scopedPatterns_eq hspec, scopedPatterns_eq hplan, scopedPatterns_eq htasks]
        cases stage <;> simp [ArtifactScope.phaseContains, ArtifactScope.patternsFor,
          ArtifactPatterns.atStage, List.any_map] <;> rfl

theorem allows_iff {scope : ArtifactScope} {path : String} :
    scope.runAllowsDocumentPath path = true ↔
      path ≠ scope.sourcePrdPath ∧ Below scope.rootPath path := by
  rw [ArtifactScope.runAllowsDocumentPath, Bool.and_eq_true, bne_iff_ne, String.toList_append,
    List.isPrefixOf_iff_prefix]
  rfl

/-- Under a plain root the scope is what instantiates a configured pattern there. -/
theorem phaseContains_plain {prd : Prd} {relativePatterns : Option ArtifactPatterns}
    {scope : ArtifactScope}
    (h : ArtifactScope.fromPrdPath prd.path relativePatterns = .ok scope)
    (hplain : PlainText prd.root.toList) (stage : Stage) (path : String) :
    scope.phaseContains stage path = true ↔
      ∃ pattern ∈ (relativePatterns.getD defaultPatterns).atStage stage, ∃ q,
        path = s!"{prd.root}/{q}" ∧ fnmatchcase q pattern = true := by
  rw [(fromPrdPath_scope h).2.2, List.any_eq_true]
  exact exists_congr fun pattern => and_congr_right fun _ => fnmatch_plain hplain

theorem below_of_eq {root q : String} : Below root s!"{root}/{q}" := by
  rw [Below, toList_below]
  exact List.prefix_append _ _

/-- A plain root that is not related to another one bounds every scope below it. -/
theorem scopeLaw_of_plain {a b : Prd} {relativePatterns : Option ArtifactPatterns}
    {scope : ArtifactScope} (h : ArtifactScope.fromPrdPath a.path relativePatterns = .ok scope)
    (hplain : PlainText a.root.toList) (hapart : b.path ≠ a.path → Unrelated a b) :
    ScopeLaw a b (relativePatterns.getD defaultPatterns) scope := by
  have hcontains := phaseContains_plain h hplain
  obtain ⟨hsource, hroot, -⟩ := fromPrdPath_scope h
  refine ⟨?_, ?_, ?_⟩
  · intro stage path hpath
    obtain ⟨pattern, -, q, rfl, -⟩ := (hcontains stage path).mp hpath
    rw [allows_iff, hsource, hroot]
    refine ⟨?_, below_of_eq⟩
    intro heq
    obtain ⟨ending, hending⟩ := a.path_eq
    rw [← heq, toList_below, List.append_assoc, List.append_cancel_left_eq] at hending
    simp at hending
  · intro stage pattern hpattern q hq
    exact (hcontains stage _).mpr ⟨pattern, hpattern, q, rfl, hq⟩
  · intro hne stage path hpath hbelow
    obtain ⟨pattern, -, q, rfl, -⟩ := (hcontains stage path).mp hpath
    have hown : Below a.root s!"{a.root}/{q}" := below_of_eq
    rcases List.prefix_or_prefix_of_prefix hown hbelow with hab | hba
    · exact (hapart hne).1 hab
    · exact (hapart hne).2 hba

/-! ## Under every configuration -/

/-- One pattern for every phase. -/
def onePattern (pattern : String) : ArtifactPatterns where
  spec := [pattern]
  plan := [pattern]
  tasks := [pattern]

theorem fromPrdPath_onePattern (prd : Prd) {pattern : String}
    (hrelative : isAbsolutePath pattern = false) (hup : ['.', '.'] ∉ pathParts pattern) :
    ∃ scope, ArtifactScope.fromPrdPath prd.path (some (onePattern pattern)) = .ok scope := by
  have hscoped : ∀ stage, scopedPatterns prd.root stage [pattern] =
      .ok [s!"{prd.root}/{pattern}"] := fun stage => by
    simp [scopedPatterns, hrelative, hup]
  unfold ArtifactScope.fromPrdPath
  rw [prd.rooted]
  simp only [Option.getD_some, onePattern, hscoped]
  exact ⟨_, rfl⟩

theorem first_mark {t : List Char} (h : ¬ PlainText t) :
    ∃ u m v, t = u ++ m :: v ∧ PlainText u ∧ (m = '*' ∨ m = '?' ∨ m = '[') := by
  induction t with
  | nil => exact absurd (by simp [PlainText]) h
  | cons c t ih =>
    by_cases hc : c ≠ '*' ∧ c ≠ '?' ∧ c ≠ '['
    · have hrest : ¬ PlainText t := by
        intro hrest
        refine h fun d hd => ?_
        rcases List.mem_cons.mp hd with rfl | hd
        · exact hc
        · exact hrest d hd
      obtain ⟨u, m, v, rfl, hu, hm⟩ := ih hrest
      refine ⟨c :: u, m, v, rfl, fun d hd => ?_, hm⟩
      rcases List.mem_cons.mp hd with rfl | hd
      · exact hc
      · exact hu d hd
    · exact ⟨[], c, t, rfl, by simp [PlainText], by tauto⟩

/-- The pattern of a root with a mark also matches a path that leaves the root. -/
theorem mark_leaves {m : Char} (hm : m = '*' ∨ m = '?' ∨ m = '[') (v : List Char)
    (h : globMatches (globItems (v.length + 3) (m :: v ++ ['/', ']'])) (m :: v ++ ['/', ']']) = true) :
    ∃ z, globMatches (globItems (v.length + 3) (m :: v ++ ['/', ']'])) z = true ∧
      ¬ (m :: v ++ ['/']) <+: z := by
  have hleaves : ∀ z, m ≠ 'y' → ¬ (m :: v ++ ['/']) <+: 'y' :: z := fun z hne hstarts =>
    hne (List.cons_prefix_cons.mp hstarts).1
  rcases hm with rfl | rfl | rfl
  · -- a star takes any character in front
    refine ⟨'y' :: '*' :: v ++ ['/', ']'], ?_, hleaves _ (by decide)⟩
    obtain ⟨t, htail, ht⟩ := List.any_eq_true.mp h
    refine List.any_eq_true.mpr ⟨t, ?_, ht⟩
    rw [List.mem_tails] at htail ⊢
    exact htail.trans (List.suffix_cons _ _)
  · exact ⟨'y' :: v ++ ['/', ']'], h, hleaves _ (by decide)⟩
  · -- the bracket ends within the pattern, which leaves less of it than of the path
    obtain ⟨inside, rest, hclose⟩ := closeBracket_ends v
    have hshort : rest.length < v.length + 2 := by
      have htext := congrArg List.length (closeBracket_text hclose)
      simp only [List.length_append, List.length_cons, List.length_nil] at htext
      omega
    have hitems : ∃ negated ranges, globItems (v.length + 3) ('[' :: v ++ ['/', ']']) =
        .oneOf negated ranges :: globItems (v.length + 2) rest := by
      rw [List.cons_append, globItems, if_neg (by decide), if_neg (by decide),
        if_neg (by decide), hclose]
      split
      next heq => cases heq
      next heq =>
        cases heq
        exact ⟨_, _, rfl⟩
      next heq =>
        cases heq
        exact ⟨_, _, rfl⟩
    obtain ⟨negated, ranges, hitems⟩ := hitems
    rw [hitems] at h ⊢
    rw [List.cons_append, globMatches, Bool.and_eq_true] at h
    obtain ⟨hopen, hrest⟩ := h
    rcases globMatches_length_or_star hrest with hlength | ⟨k, hk, hkv, hmore⟩
    · simp only [List.length_append, List.length_cons, List.length_nil] at hlength
      omega
    · obtain ⟨y, hy⟩ : ∃ y : Char, (v ++ ['/'])[k]? ≠ some y := by
        by_cases hx : (v ++ ['/'])[k]? = some 'x'
        · exact ⟨'y', by rw [hx]; decide⟩
        · exact ⟨'x', hx⟩
      refine ⟨'[' :: ((v ++ ['/', ']']).take k ++ y :: (v ++ ['/', ']']).drop k), ?_, ?_⟩
      · rw [globMatches, Bool.and_eq_true]
        exact ⟨hopen, hmore y⟩
      · intro hstarts
        have hinside : (v ++ ['/']) <+: _ := (List.cons_prefix_cons.mp hstarts).2
        have hat : (v ++ ['/'])[k]? = some y := by
          have hlt : k < (v ++ ['/']).length := by
            simp only [List.length_append, List.length_cons, List.length_nil]
            omega
          obtain ⟨t, ht⟩ := hinside
          have hsame := congrArg (fun text : List Char => text[k]?) ht
          have htaken : ((v ++ ['/', ']']).take k).length = k := List.length_take_of_le hkv
          rw [List.getElem?_append_left hlt] at hsame
          simpa [List.getElem?_append_right, htaken] using hsame
        exact hy hat

/-- A PRD whose scope keeps to its documents has a root that means itself in a pattern. -/
theorem plain_of_boundary {a b : Prd} (h : ScopeBoundary a b) : PlainText a.root.toList := by
  by_contra hmark
  obtain ⟨u, m, v, hroot, hu, hm⟩ := first_mark hmark
  obtain ⟨close, hclose⟩ : ∃ close : String, close = "]" := ⟨_, rfl⟩
  obtain ⟨scope, hscope⟩ : ∃ scope,
      ArtifactScope.fromPrdPath a.path (some (onePattern close)) = .ok scope :=
    fromPrdPath_onePattern a (by rw [hclose]; decide) (by rw [hclose]; decide)
  obtain ⟨hallowed, hown, -⟩ := h _ scope hscope
  have hpattern : (s!"{a.root}/{close}").toList = u ++ (m :: v ++ ['/', ']']) := by
    rw [toList_below, hroot, hclose]
    simp
  have hcontains : ∀ path, scope.phaseContains .specWrite path = true ↔ ∃ rest,
      path.toList = u ++ rest ∧
        globMatches (globItems (v.length + 3) (m :: v ++ ['/', ']'])) rest = true := fun path => by
    have hglob : fnmatchcase path s!"{a.root}/{close}" = true ↔ _ := fnmatch_plain_append hu hpattern
    rw [(fromPrdPath_scope hscope).2.2]
    simpa [onePattern, ArtifactPatterns.atStage] using hglob
  obtain ⟨rest, hrest, hmatch⟩ := (hcontains _).mp
    (hown .specWrite close (by simp [onePattern, ArtifactPatterns.atStage]) close
      (by rw [hclose]; decide))
  rw [hpattern, List.append_cancel_left_eq] at hrest
  rw [← hrest] at hmatch
  obtain ⟨z, hz, hleaves⟩ := mark_leaves hm v hmatch
  have hallows := allows_iff.mp (hallowed .specWrite (String.ofList (u ++ z))
    ((hcontains _).mpr ⟨z, String.toList_ofList, hz⟩))
  have hbelow := hallows.2
  rw [Below, (fromPrdPath_scope hscope).2.1, String.toList_ofList, hroot, List.append_assoc] at hbelow
  exact hleaves ((List.prefix_append_right_inj u).mp hbelow)

theorem unrelated_of_boundary {a b : Prd} (h : ScopeBoundary a b) (hne : b.path ≠ a.path) :
    Unrelated a b := by
  have hplain := plain_of_boundary h
  obtain ⟨every, hevery⟩ : ∃ every : String, every = "*" := ⟨_, rfl⟩
  obtain ⟨scope, hscope⟩ : ∃ scope,
      ArtifactScope.fromPrdPath a.path (some (onePattern every)) = .ok scope :=
    fromPrdPath_onePattern a (by rw [hevery]; decide) (by rw [hevery]; decide)
  obtain ⟨-, -, hapart⟩ := h _ scope hscope
  have hin : ∀ q, fnmatchcase q every = true → scope.phaseContains .specWrite s!"{a.root}/{q}" = true :=
    fun q hq => (phaseContains_plain hscope hplain .specWrite _).mpr
      ⟨every, by simp [onePattern, ArtifactPatterns.atStage], q, rfl, hq⟩
  have hany : ∀ q, fnmatchcase q every = true := fun q => by
    rw [hevery]
    exact List.any_eq_true.mpr ⟨[], (List.mem_tails _ _).mpr List.nil_suffix, rfl⟩
  constructor
  · rintro ⟨t, ht⟩
    refine hapart hne .specWrite _ (hin (String.ofList t) (hany _)) ?_
    rw [Below, toList_below, String.toList_ofList, ht]
  · intro hstarts
    refine hapart hne .specWrite _ (hin "" (hany "")) (hstarts.trans ?_)
    exact below_of_eq

/-- **The scope of a PRD is its boundary exactly when its root holds no mark of a pattern and no
other PRD has a related root.** -/
theorem scopeBoundary_iff (a b : Prd) :
    ScopeBoundary a b ↔ PlainText a.root.toList ∧ (b.path ≠ a.path → Unrelated a b) := by
  constructor
  · intro h
    exact ⟨plain_of_boundary h, unrelated_of_boundary h⟩
  · intro h relativePatterns scope hscope
    exact scopeLaw_of_plain hscope h.1 h.2

/-- The PRD with a bracket in its name, and the one that its pattern names instead. -/
def bracketPrd : Prd where
  path := "docs/prds/a[1].md"
  root := "docs/prds/a[1]"
  canonical := by decide +kernel
  rooted := by decide +kernel

def plainPrd : Prd where
  path := "docs/prds/a1.md"
  root := "docs/prds/a1"
  canonical := by decide +kernel
  rooted := by decide +kernel

/-- Under the default patterns the scope leaves out a document of the PRD and holds one of
another PRD. -/
theorem bracketPrd_scope : ∃ scope, ArtifactScope.fromPrdPath bracketPrd.path none = .ok scope ∧
    scope.phaseContains .specWrite "docs/prds/a[1]/specs/spec-x.md" = false ∧
    fnmatchcase "specs/spec-x.md" "specs/spec-*.md" = true ∧
    scope.phaseContains .specWrite "docs/prds/a1/specs/spec-x.md" = true ∧
    scope.runAllowsDocumentPath "docs/prds/a1/specs/spec-x.md" = false ∧
    Below plainPrd.root "docs/prds/a1/specs/spec-x.md" ∧
    ¬ ScopeBoundary bracketPrd plainPrd := by
  obtain ⟨scope, hscope⟩ : ∃ scope, ArtifactScope.fromPrdPath bracketPrd.path none = .ok scope :=
    ⟨_, rfl⟩
  have hin : scope.phaseContains .specWrite "docs/prds/a1/specs/spec-x.md" = true := by
    cases hscope
    decide +kernel
  have hbelow : Below plainPrd.root "docs/prds/a1/specs/spec-x.md" := by
    unfold Below
    decide +kernel
  refine ⟨scope, hscope, ?_, by decide +kernel, hin, ?_, hbelow, ?_⟩
  · cases hscope
    decide +kernel
  · cases hscope
    decide +kernel
  · intro h
    exact (h none scope hscope).apart (by decide) .specWrite _ hin hbelow

end HollysysController
