import HollysysController.Git.RefNames
import HollysysController.Start
import HollysysController.StartSources

/-! # The places of a run

Each run has a branch and a worktree of its own, and runs of one project share a checkout. No
start can name a place outside of the projects root, or one of another run. -/

namespace HollysysController

open Python

/-! ## Places -/

/-- The path of parts below a root. -/
def under (root : String) (parts : List (List Char)) : String :=
  String.ofList (root.toList ++ '/' :: ['/'].intercalate parts)

/-- The path is the directory, or lies below it. -/
def AtOrBelow (dir path : String) : Prop := path = dir ∨ Below dir path

/-- What two calls of `secrets.token_hex(10)` can draw. -/
structure RunDraw.Drawn (draw : RunDraw) : Prop where
  key : draw.key.toList.length = 20 ∧ ∀ c ∈ draw.key.toList, lowerHex c = true
  generation : draw.generation.toList.length = 20 ∧ ∀ c ∈ draw.generation.toList, lowerHex c = true

def checkoutParts (s : StartSource) : List (List Char) :=
  [('p' :: decimal s.projectId) ++ '-' :: s.repoSlug.toList]

def worktreeParts (s : StartSource) (draw : RunDraw) : List (List Char) :=
  ["worktrees".toList, 'p' :: decimal s.projectId, "hollysys-".toList ++ draw.key.toList]

/-- The directories of the run are proper parts below the root, its branch is one for Git, and
the models take its keys. -/
structure Confined (cfg : Config) (s : StartSource) (draw : RunDraw) (run : RunRecord) : Prop where
  checkout : run.workspace.checkout = under cfg.projectsRoot (checkoutParts s)
  worktree : run.workspace.worktree = under cfg.projectsRoot (worktreeParts s draw)
  parts : ∀ part ∈ checkoutParts s ++ worktreeParts s draw,
    part ≠ [] ∧ part.head? ≠ some '.' ∧ ∀ c ∈ part, isProjectChar c = true
  branch : Git.BranchName run.workspace.branch.toList
  board : Record.boardPattern.holds run.workspace.board = true
  runKey : runKeyPattern.holds run.runKey = true
  sourceKey : sourceKeyPattern.holds run.sourceKey = true
  generation : runGenerationPattern.holds run.runGeneration = true
  shas : shaPattern.holds run.source.prdCommitSha = true ∧
    shaPattern.holds run.source.prdBlobSha = true ∧
    shaPattern.holds run.workspace.repositoryBaseSha = true

/-- Neither run works in a place of the other one. -/
structure PlacesApart (a b : WorkspaceFacts) : Prop where
  branch : a.branch ≠ b.branch
  worktree : ¬ AtOrBelow a.worktree b.worktree ∧ ¬ AtOrBelow b.worktree a.worktree
  checkout : ¬ AtOrBelow a.checkout b.worktree ∧ ¬ AtOrBelow b.checkout a.worktree
  inside : ¬ AtOrBelow a.worktree b.checkout ∧ ¬ AtOrBelow b.worktree a.checkout
  nested : ¬ Below a.checkout b.checkout ∧ ¬ Below b.checkout a.checkout

/-! ## Paths -/

section Paths

variable {root : String} {xs ys : List (List Char)}

theorem toList_under : (under root xs).toList = root.toList ++ '/' :: ['/'].intercalate xs := by
  rw [under, String.toList_ofList]

theorem below_under (hxs : ∀ part ∈ xs, '/' ∉ part) (hys : ∀ part ∈ ys, '/' ∉ part)
    (hxne : xs ≠ []) (hyne : ys ≠ []) (h : Below (under root xs) (under root ys)) :
    ∃ zs, zs ≠ [] ∧ ys = xs ++ zs := by
  rw [Below, toList_under, toList_under, List.append_assoc, List.cons_append,
    List.prefix_append_right_inj, List.cons_prefix_cons] at h
  exact prefix_of_below hxs hys hxne hyne h.2

theorem under_inj (hxs : ∀ part ∈ xs, '/' ∉ part) (hys : ∀ part ∈ ys, '/' ∉ part)
    (hxne : xs ≠ []) (hyne : ys ≠ []) (h : under root xs = under root ys) : xs = ys := by
  have hlist := congrArg String.toList h
  rw [toList_under, toList_under, List.append_cancel_left_eq, List.cons.injEq] at hlist
  rw [← List.splitOn_intercalate '/' hxs hxne, hlist.2, List.splitOn_intercalate '/' hys hyne]

theorem prefix_of_under (hxs : ∀ part ∈ xs, '/' ∉ part) (hys : ∀ part ∈ ys, '/' ∉ part)
    (hxne : xs ≠ []) (hyne : ys ≠ []) (h : AtOrBelow (under root xs) (under root ys)) :
    xs <+: ys := by
  rcases h with hsame | hbelow
  · exact (under_inj hys hxs hyne hxne hsame) ▸ List.prefix_rfl
  · obtain ⟨zs, -, rfl⟩ := below_under hxs hys hxne hyne hbelow
    exact List.prefix_append xs zs

end Paths

/-! ## Names -/

section Names

variable {c : Char}

theorem isProjectChar_digit (h : c.isDigit = true) : isProjectChar c = true := by
  simp [isProjectChar, Char.isAlphanum, h]

theorem isDigit_or_isLower (h : lowerAlnum c = true) : c.isDigit = true ∨ c.isLower = true := by
  rwa [lowerAlnum, Bool.or_eq_true] at h

theorem lowerAlnum_lowerHex (h : lowerHex c = true) : lowerAlnum c = true := by
  rw [lowerHex, Bool.or_eq_true, Bool.and_eq_true, decide_eq_true_eq, decide_eq_true_eq] at h
  rw [lowerAlnum, Bool.or_eq_true]
  rcases h with hdigit | ⟨hlow, hhigh⟩
  · exact .inl hdigit
  · right
    simp only [Char.isLower, Bool.and_eq_true, decide_eq_true_eq]
    exact ⟨hlow, Char.le_trans hhigh (show 'f' ≤ 'z' by decide)⟩

theorem isPlain_lowerAlnum (h : lowerAlnum c = true) : Git.isPlain c = true := by
  rcases isDigit_or_isLower h with h | h <;> simp [Git.isPlain, Char.isAlphanum, Char.isAlpha, h]

theorem isProjectChar_lowerAlnum (h : lowerAlnum c = true) : isProjectChar c = true := by
  rcases isDigit_or_isLower h with h | h <;>
    simp [isProjectChar, Char.isAlphanum, Char.isAlpha, h]

theorem isProjectChar_toLower (h : isProjectChar c = true) : isProjectChar c.toLower = true := by
  have hall : ∀ n < 123, isProjectChar (Char.ofNat n) = true →
      isProjectChar (Char.ofNat n).toLower = true := by decide
  have hrange := toNat_projectChar h
  have hc := hall c.toNat (by omega)
  rw [Char.ofNat_toNat] at hc
  exact hc h

theorem ne_slash (h : isProjectChar c = true) : c ≠ '/' := by
  rintro rfl
  exact absurd h (by decide)

end Names

/-! ## Parts -/

section Parts

variable {lower : List Char → List Char} {c : Char} {text : List Char}

theorem lowerAlnum_dashed {replaced : Bool} (h : c ∈ dashed replaced text) :
    lowerAlnum c = true ∨ c = '-' := by
  induction text generalizing replaced with
  | nil => cases h
  | cons first rest ih =>
    rw [dashed] at h
    split at h
    next hfirst =>
      rcases List.mem_cons.mp h with rfl | h
      · exact .inl hfirst
      · exact ih h
    next =>
      split at h
      next => exact ih h
      next =>
        rcases List.mem_cons.mp h with rfl | h
        · exact .inr rfl
        · exact ih h

theorem mem_stripDashes (h : c ∈ stripDashes text) : c ∈ text := by
  rw [stripDashes, List.mem_reverse] at h
  have hback := (List.dropWhile_sublist _).subset h
  exact (List.dropWhile_sublist _).subset (List.mem_reverse.mp hback)

/-- The name is fit for a branch. -/
theorem safeName_plain {prdPath : List Char} (h : c ∈ safeName lower prdPath) :
    Git.isPlain c = true := by
  have hprd : ∀ c ∈ "prd".toList, Git.isPlain c = true := List.all_eq_true.mp rfl
  rw [safeName] at h
  split at h
  next => exact hprd c h
  next =>
    rcases lowerAlnum_dashed (mem_stripDashes h) with h | rfl
    · exact isPlain_lowerAlnum h
    · rfl

/-- The last part of a project path in lower case. -/
theorem repoSlug_chars (C : LowerCase) {path : List Char} (h : isProjectPath path = true)
    (hc : c ∈ repoSlug C.lower path) : isProjectChar c = true := by
  have hlast : ∀ d ∈ (path.reverse.takeWhile (· ≠ '/')).reverse, isProjectChar d = true := by
    intro d hd
    have htaken := List.mem_reverse.mp hd
    have hne : d ≠ '/' := by simpa using List.mem_takeWhile_imp htaken
    have hmem : d ∈ path := List.mem_reverse.mp ((List.takeWhile_sublist _).subset htaken)
    exact (isProjectPath_chars h hmem).resolve_right hne
  rw [repoSlug, C.ascii _ fun d hd => ?_] at hc
  · obtain ⟨d, hd, rfl⟩ := List.mem_map.mp hc
    exact isProjectChar_toLower (hlast d hd)
  · have := toNat_projectChar (hlast d hd)
    simp only [isAsciiChar, decide_eq_true_eq]
    omega

theorem quintets_lt {bits : List Bool} {n : Nat} (h : n ∈ quintets bits) : n < 32 := by
  have hone : ∀ b : Bool, b.toNat ≤ 1 := Bool.toNat_le
  induction bits using quintets.induct with
  | case1 a b c d e rest ih =>
    rcases List.mem_cons.mp h with rfl | h
    · have := hone a
      have := hone b
      have := hone c
      have := hone d
      have := hone e
      omega
    · exact ih h
  | case2 => cases h
  | case3 a =>
    obtain rfl := List.mem_singleton.mp h
    have := hone a
    omega
  | case4 a b =>
    obtain rfl := List.mem_singleton.mp h
    have := hone a
    have := hone b
    omega
  | case5 a b c =>
    obtain rfl := List.mem_singleton.mp h
    have := hone a
    have := hone b
    have := hone c
    omega
  | case6 a b c d =>
    obtain rfl := List.mem_singleton.mp h
    have := hone a
    have := hone b
    have := hone c
    have := hone d
    omega

theorem length_quintets (bits : List Bool) : bits.length ≤ 5 * (quintets bits).length := by
  induction bits using quintets.induct with
  | case1 a b c d e rest ih =>
    simp only [quintets, List.length_cons]
    omega
  | case2 => exact Nat.le_refl 0
  | case3 | case4 | case5 | case6 => simp [quintets]

theorem lowerAlnum_base32 {bytes : List UInt8} (h : c ∈ base32 bytes) : lowerAlnum c = true := by
  have hall : ∀ n < 32, lowerAlnum (base32Digit n) = true := by decide
  obtain ⟨n, hn, rfl⟩ := List.mem_map.mp h
  exact hall n (quintets_lt hn)

theorem length_base32 (bytes : List UInt8) : 8 * bytes.length ≤ 5 * (base32 bytes).length := by
  have hbits : (bytes.flatMap bitsOf).length = 8 * bytes.length := by
    induction bytes with
    | nil => rfl
    | cons b bytes ih =>
      rw [List.flatMap_cons, List.length_append, ih, List.length_cons]
      simp only [bitsOf, List.length_map, List.length_range]
      omega
  rw [base32, List.length_map, ← hbits]
  exact length_quintets _

end Parts

/-! ## The run of an accepted start -/

section Accepted

variable {σ : StartSite} {api : Api} {blobUrl mrUrl : List Char} {s : StartSource} {cfg : Config}
  {draw : RunDraw} {r : StartRequest} {now : Nat}

theorem literalThen_ofList {lit : String} {n : Nat} {cls : Char → Bool} {rest : List Char}
    (hlength : rest.length = n) (hcls : ∀ c ∈ rest, cls c = true) :
    literalThen lit (· == n) cls (String.ofList (lit.toList ++ rest)) = true := by
  have hdrop : (lit.toList ++ rest).drop lit.length = rest := by
    rw [← String.length_toList, List.drop_left]
  simp only [literalThen, String.toList_ofList, hdrop, Bool.and_eq_true, List.all_eq_true,
    beq_iff_eq]
  exact ⟨⟨List.isPrefixOf_iff_prefix.mpr (List.prefix_append _ _), hlength⟩, hcls⟩

theorem shaPattern_stripped {sha : List Char} (hlength : sha.length = 40)
    (hhex : ∀ c ∈ sha, lowerHex c = true) : shaPattern.holds (strippedText sha) = true := by
  have htext : strippedText sha = String.ofList ("".toList ++ sha) := by
    rw [← String.toList_inj, strippedText_hex hhex, String.toList_ofList]
    rfl
  rw [htext]
  show literalThen "" (· == 40) lowerHex _ = true
  exact literalThen_ofList hlength hhex

theorem runKeyPattern_started (hdraw : draw.Drawn) :
    runKeyPattern.holds (startedRun cfg draw r s now).runKey = true := by
  have hkey : (startedRun cfg draw r s now).runKey =
      String.ofList ("hollysys-".toList ++ draw.key.toList) := by
    simp [← String.toList_inj, startedRun, toString]
  rw [hkey]
  unfold runKeyPattern
  dsimp only
  exact literalThen_ofList hdraw.key.1 fun c hc => lowerAlnum_lowerHex (hdraw.key.2 c hc)

theorem sourceKeyPattern_started (hdigest : 20 ≤ s.digest.toList.length)
    (hchars : ∀ c ∈ s.digest.toList, lowerAlnum c = true) :
    sourceKeyPattern.holds (startedRun cfg draw r s now).sourceKey = true := by
  have hkey : (startedRun cfg draw r s now).sourceKey =
      String.ofList ("source-".toList ++ s.digest.toList.take 20) := by
    simp [← String.toList_inj, startedRun, clip, toString]
  rw [hkey]
  unfold sourceKeyPattern
  dsimp only
  exact literalThen_ofList (List.length_take_of_le hdigest)
    fun c hc => hchars c (List.mem_of_mem_take hc)

theorem runGenerationPattern_started (hdraw : draw.Drawn) :
    runGenerationPattern.holds draw.generation = true := by
  have hgeneration : draw.generation = String.ofList ("".toList ++ draw.generation.toList) := by
    simp
  rw [hgeneration]
  unfold runGenerationPattern
  dsimp only
  exact literalThen_ofList hdraw.generation.1
    fun c hc => lowerAlnum_lowerHex (hdraw.generation.2 c hc)

theorem startedRun_checkout :
    (startedRun cfg draw r s now).workspace.checkout =
      under cfg.projectsRoot (checkoutParts s) := by
  rw [← String.toList_inj, toList_under]
  simp [startedRun, checkoutParts, decimal, toString]

theorem startedRun_worktree :
    (startedRun cfg draw r s now).workspace.worktree =
      under cfg.projectsRoot (worktreeParts s draw) := by
  rw [← String.toList_inj, toList_under]
  simp [startedRun, worktreeParts, decimal, toString, List.intercalate_cons_cons]

theorem startedRun_branch :
    (startedRun cfg draw r s now).workspace.branch.toList =
      ['/'].intercalate
        ["feature".toList, s.safeName.toList.take 48 ++ '-' :: draw.key.toList] := by
  simp [startedRun, clip, toString, List.intercalate_cons_cons]

/-- What an accepted source has for the names of places. -/
theorem startSource_names (h : startSource σ api blobUrl mrUrl = .ok s) :
    (∀ c ∈ s.repoSlug.toList, isProjectChar c = true) ∧
      (∀ c ∈ s.safeName.toList, Git.isPlain c = true) ∧
      20 ≤ s.digest.toList.length ∧ (∀ c ∈ s.digest.toList, lowerAlnum c = true) := by
  obtain ⟨urls, host, id, iid, branch, baseSha, blob, scope, hok, rfl⟩ := startSource_ok h
  obtain ⟨_, _, -, -, hpaths⟩ := hok.names.paths
  simp only [sourceFacts, String.toList_ofList]
  refine ⟨fun c hc => repoSlug_chars σ.case hpaths.project hc, fun c hc => safeName_plain hc, ?_,
    fun c hc => lowerAlnum_base32 hc⟩
  have hlength := length_base32 (σ.sha256 (utf8 (sourceIdentity host id urls.prdPath blob)))
  rw [σ.digestLength] at hlength
  omega

/-- The directories of a run are proper parts. -/
theorem places_parts (hslug : ∀ c ∈ s.repoSlug.toList, isProjectChar c = true)
    (hdraw : draw.Drawn) :
    ∀ part ∈ checkoutParts s ++ worktreeParts s draw,
      part ≠ [] ∧ part.head? ≠ some '.' ∧ ∀ c ∈ part, isProjectChar c = true := by
  have hnumber : ∀ c ∈ 'p' :: decimal s.projectId, isProjectChar c = true := by
    intro c hc
    rcases List.mem_cons.mp hc with rfl | hc
    · rfl
    · exact isProjectChar_digit (isDigit_decimal hc)
  intro part hpart
  simp only [checkoutParts, worktreeParts, List.mem_append, List.mem_cons, List.not_mem_nil,
    or_false] at hpart
  rcases hpart with rfl | rfl | rfl | rfl
  · refine ⟨List.cons_ne_nil _ _, by simp, ?_⟩
    intro c hc
    rcases List.mem_append.mp hc with hc | hc
    · exact hnumber c hc
    · rcases List.mem_cons.mp hc with rfl | hc
      · rfl
      · exact hslug c hc
  · exact ⟨by simp, by simp, List.all_eq_true.mp rfl⟩
  · exact ⟨List.cons_ne_nil _ _, by simp, hnumber⟩
  · refine ⟨by simp, by simp, ?_⟩
    intro c hc
    rcases List.mem_append.mp hc with hc | hc
    · have hall : ∀ c ∈ "hollysys-".toList, isProjectChar c = true := List.all_eq_true.mp rfl
      exact hall c hc
    · exact isProjectChar_lowerAlnum (lowerAlnum_lowerHex (hdraw.key.2 c hc))

/-- The branch of a run is one for Git. -/
theorem branchName_feature
    (hplain : ∀ c ∈ s.safeName.toList, Git.isPlain c = true) (hdraw : draw.Drawn) :
    Git.BranchName (['/'].intercalate
      ["feature".toList, s.safeName.toList.take 48 ++ '-' :: draw.key.toList]) := by
  apply Git.branchName_plain
  · exact Nat.le_refl 2
  · intro part hpart
    rcases List.mem_cons.mp hpart with rfl | hpart
    · exact ⟨by simp, List.all_eq_true.mp rfl⟩
    · obtain rfl := List.mem_singleton.mp hpart
      refine ⟨by simp, ?_⟩
      intro c hc
      rcases List.mem_append.mp hc with hc | hc
      · exact hplain c (List.mem_of_mem_take hc)
      · rcases List.mem_cons.mp hc with rfl | hc
        · rfl
        · exact isPlain_lowerAlnum (lowerAlnum_lowerHex (hdraw.key.2 c hc))
  · rw [List.intercalate_cons_of_ne_nil (List.cons_ne_nil _ _)]
    simp

/-- **The run of an accepted start is confined to places of its own kind.** -/
theorem startedRun_confined (h : startSource σ api blobUrl mrUrl = .ok s) (hdraw : draw.Drawn) :
    Confined cfg s draw (startedRun cfg draw r s now) := by
  obtain ⟨hslug, hplain, hdigest, hdigestChars⟩ := startSource_names h
  obtain ⟨urls, host, id, iid, branch, baseSha, blob, scope, hok, rfl⟩ := startSource_ok h
  obtain ⟨_, _, -, -, hpaths⟩ := hok.names.paths
  refine ⟨startedRun_checkout, startedRun_worktree, places_parts hslug hdraw, ?_, hok.board,
    runKeyPattern_started hdraw, sourceKeyPattern_started hdigest hdigestChars,
    runGenerationPattern_started hdraw, shaPattern_stripped hpaths.sha.1 hpaths.sha.2,
    shaPattern_stripped hok.blob.1 hok.blob.2, shaPattern_stripped hok.baseSha.1 hok.baseSha.2⟩
  rw [startedRun_branch]
  exact branchName_feature hplain hdraw

variable {s' : StartSource} {draw' : RunDraw} {r' : StartRequest} {now' : Nat}

theorem slashless {parts : List (List Char)}
    (h : ∀ part ∈ parts, part ≠ [] ∧ part.head? ≠ some '.' ∧ ∀ c ∈ part, isProjectChar c = true) :
    ∀ part ∈ parts, '/' ∉ part :=
  fun part hpart hslash => ne_slash ((h part hpart).2.2 '/' hslash) rfl

/-- A project with its slug has one checkout. -/
theorem checkoutParts_inj (h : checkoutParts s = checkoutParts s') :
    s.projectId = s'.projectId ∧ s.repoSlug = s'.repoSlug := by
  have hname := (List.cons.inj h).1
  rw [List.cons_append, List.cons_append, List.cons.injEq] at hname
  have hdash : ∀ n : Nat, '-' ∉ decimal n := by
    intro n hn
    exact absurd (isDigit_decimal hn) (by decide)
  have hsplit := congrArg (fun t => List.splitOn '-' t) hname.2
  simp only [List.splitOn_append_cons_self_of_not_mem (hdash _)] at hsplit
  have hid := (List.cons.inj hsplit).1
  have hrest := hname.2
  rw [hid, List.append_cancel_left_eq, List.cons.injEq] at hrest
  exact ⟨decimal_inj hid, String.toList_inj.mp hrest.2⟩

theorem key_of_worktree (h : worktreeParts s draw <+: worktreeParts s' draw') :
    draw.key = draw'.key := by
  simp only [worktreeParts, List.cons_prefix_cons, List.append_cancel_left_eq,
    String.toList_inj] at h
  exact h.2.2.1

theorem checkout_worktree (h : checkoutParts s <+: worktreeParts s' draw') : False := by
  simp [checkoutParts, worktreeParts] at h

theorem worktree_checkout (h : worktreeParts s draw <+: checkoutParts s') : False := by
  simp [checkoutParts, worktreeParts] at h

/-- A branch ends with the key of its run. -/
theorem branch_key (hdraw : draw.Drawn) (hdraw' : draw'.Drawn)
    (h : (startedRun cfg draw r s now).workspace.branch =
      (startedRun cfg draw' r' s' now').workspace.branch) : draw.key = draw'.key := by
  have htext := congrArg String.toList h
  rw [startedRun_branch, startedRun_branch, List.intercalate_cons_of_ne_nil (List.cons_ne_nil _ _),
    List.intercalate_cons_of_ne_nil (List.cons_ne_nil _ _), List.append_cancel_left_eq,
    List.intercalate_singleton, List.intercalate_singleton] at htext
  have hlength : ('-' :: draw.key.toList).length = ('-' :: draw'.key.toList).length := by
    rw [List.length_cons, List.length_cons, hdraw.key.1, hdraw'.key.1]
  exact String.toList_inj.mp (List.cons.inj (List.append_inj' htext hlength).2).2

/-- **Runs with their own keys are isolated, and share a checkout only within a project.** -/
theorem startedRun_isolated {σ' : StartSite} {api' : Api} {blobUrl' mrUrl' : List Char}
    (h : startSource σ api blobUrl mrUrl = .ok s)
    (h' : startSource σ' api' blobUrl' mrUrl' = .ok s')
    (hdraw : draw.Drawn) (hdraw' : draw'.Drawn) (hne : draw.key ≠ draw'.key) :
    PlacesApart (startedRun cfg draw r s now).workspace
        (startedRun cfg draw' r' s' now').workspace ∧
      ((startedRun cfg draw r s now).workspace.checkout =
          (startedRun cfg draw' r' s' now').workspace.checkout ↔
        s.projectId = s'.projectId ∧ s.repoSlug = s'.repoSlug) := by
  have hparts := slashless (places_parts (startSource_names h).1 hdraw)
  have hparts' := slashless (places_parts (startSource_names h').1 hdraw')
  have hco : ∀ part ∈ checkoutParts s, '/' ∉ part := fun part hpart =>
    hparts part (List.mem_append_left _ hpart)
  have hco' : ∀ part ∈ checkoutParts s', '/' ∉ part := fun part hpart =>
    hparts' part (List.mem_append_left _ hpart)
  have hwt : ∀ part ∈ worktreeParts s draw, '/' ∉ part := fun part hpart =>
    hparts part (List.mem_append_right _ hpart)
  have hwt' : ∀ part ∈ worktreeParts s' draw', '/' ∉ part := fun part hpart =>
    hparts' part (List.mem_append_right _ hpart)
  have hcone : ∀ s, checkoutParts s ≠ [] := fun s => List.cons_ne_nil _ _
  have hwtne : ∀ s draw, worktreeParts s draw ≠ [] := fun s draw => List.cons_ne_nil _ _
  have hnested : ∀ a b : StartSource, (∀ part ∈ checkoutParts a, '/' ∉ part) →
      (∀ part ∈ checkoutParts b, '/' ∉ part) →
      ¬ Below (under cfg.projectsRoot (checkoutParts a))
        (under cfg.projectsRoot (checkoutParts b)) := by
    intro a b ha hb hbelow
    obtain ⟨zs, hzs, hsame⟩ := below_under ha hb (hcone a) (hcone b) hbelow
    have hlength := congrArg List.length hsame
    simp only [checkoutParts, List.length_append, List.length_singleton] at hlength
    exact hzs (List.length_eq_zero_iff.mp (by omega))
  refine ⟨⟨fun hbranch => hne (branch_key hdraw hdraw' hbranch), ?_, ?_, ?_, ?_⟩, ?_⟩
  all_goals simp only [startedRun_checkout, startedRun_worktree]
  · constructor
    · intro hin
      exact hne (key_of_worktree (prefix_of_under hwt hwt' (hwtne _ _) (hwtne _ _) hin))
    · intro hin
      exact hne (key_of_worktree (prefix_of_under hwt' hwt (hwtne _ _) (hwtne _ _) hin)).symm
  · exact ⟨fun hin => checkout_worktree (prefix_of_under hco hwt' (hcone _) (hwtne _ _) hin),
      fun hin => checkout_worktree (prefix_of_under hco' hwt (hcone _) (hwtne _ _) hin)⟩
  · exact ⟨fun hin => worktree_checkout (prefix_of_under hwt hco' (hwtne _ _) (hcone _) hin),
      fun hin => worktree_checkout (prefix_of_under hwt' hco (hwtne _ _) (hcone _) hin)⟩
  · exact ⟨hnested s s' hco hco', hnested s' s hco' hco⟩
  · constructor
    · intro hsame
      exact checkoutParts_inj (under_inj hco hco' (hcone s) (hcone s') hsame)
    · rintro ⟨hid, hslug⟩
      rw [checkoutParts, checkoutParts, hid, hslug]

/-! ### Source keys -/

/-- The text of a source key has its parts once the host and the length of the blob are known. -/
theorem sourceIdentity_inj {host : Option (List Char)} {id id' : Nat}
    {path path' blob blob' : List Char} (hlength : blob.length = blob'.length)
    (h : sourceIdentity host id path blob = sourceIdentity host id' path' blob') :
    id = id' ∧ path = path' ∧ blob = blob' := by
  have hbar : ∀ n : Nat, '|' ∉ decimal n := by
    intro n hn
    exact absurd (isDigit_decimal hn) (by decide)
  obtain ⟨hfront, hblob⟩ := List.append_inj' h (by rw [List.length_cons, List.length_cons, hlength])
  rw [List.append_assoc, List.append_assoc, List.append_cancel_left_eq, List.cons_append,
    List.cons_append, List.cons.injEq] at hfront
  have hsplit := congrArg (fun t => List.splitOn '|' t) hfront.2
  simp only [List.splitOn_append_cons_self_of_not_mem (hbar _)] at hsplit
  have hid := (List.cons.inj hsplit).1
  have hrest := hfront.2
  rw [hid, List.append_cancel_left_eq, List.cons.injEq] at hrest
  exact ⟨decimal_inj hid, hrest.2, (List.cons.inj hblob).2⟩

/-- What the source of an accepted start has of its identity. -/
theorem startSource_digest {urls : StartUrls} {host : Option (List Char)}
    (h : startSource σ api blobUrl mrUrl = .ok s)
    (hurls : checkUrls σ blobUrl mrUrl = .ok (urls, host)) :
    s.digest = String.ofList (base32 (σ.sha256 (utf8 (sourceIdentity host s.projectId urls.prdPath
      s.prdBlobSha.toList)))) ∧ s.prdBlobSha.toList.length = 40 := by
  obtain ⟨urls', host', id, iid, branch, baseSha, blob, scope, hok, rfl⟩ := startSource_ok h
  obtain ⟨rfl, rfl⟩ := Prod.mk.inj (Except.ok.inj (hurls.symm.trans (checkUrls_eq hok.names)))
  have hblob := strippedText_hex hok.blob.2
  refine ⟨?_, ?_⟩
  · show String.ofList _ = String.ofList (base32 (σ.sha256 (utf8
      (sourceIdentity host id urls.prdPath (strippedText blob).toList))))
    rw [hblob]
  · show (strippedText blob).toList.length = 40
    rw [hblob]
    exact hok.blob.1

/-- **A source key names one version of one PRD**, where the digests of the two do not collide. -/
theorem startedRun_sourceKey {api' : Api} {blobUrl' mrUrl' : List Char} {urls urls' : StartUrls}
    {host host' : Option (List Char)} (h : startSource σ api blobUrl mrUrl = .ok s)
    (h' : startSource σ api' blobUrl' mrUrl' = .ok s')
    (hurls : checkUrls σ blobUrl mrUrl = .ok (urls, host))
    (hurls' : checkUrls σ blobUrl' mrUrl' = .ok (urls', host')) (hhost : σ.hostname ≠ [])
    (hfree : clip 20 s.digest = clip 20 s'.digest →
      sourceIdentity host s.projectId urls.prdPath s.prdBlobSha.toList =
        sourceIdentity host' s'.projectId urls'.prdPath s'.prdBlobSha.toList) :
    (startedRun cfg draw r s now).sourceKey = (startedRun cfg draw' r' s' now').sourceKey ↔
      s.projectId = s'.projectId ∧ urls.prdPath = urls'.prdPath ∧
        s.prdBlobSha = s'.prdBlobSha := by
  obtain ⟨hdigest, hlength⟩ := startSource_digest h hurls
  obtain ⟨hdigest', hlength'⟩ := startSource_digest h' hurls'
  obtain rfl : host = host' := by
    rw [(checkUrls_ok hurls).configured hhost, (checkUrls_ok hurls').configured hhost]
  have hkey : (startedRun cfg draw r s now).sourceKey =
      (startedRun cfg draw' r' s' now').sourceKey ↔ clip 20 s.digest = clip 20 s'.digest := by
    rw [← String.toList_inj, ← String.toList_inj]
    simp [startedRun, toString]
  rw [hkey]
  constructor
  · intro hsame
    obtain ⟨hid, hpath, hblob⟩ := sourceIdentity_inj (hlength.trans hlength'.symm) (hfree hsame)
    exact ⟨hid, hpath, String.toList_inj.mp hblob⟩
  · rintro ⟨hid, hpath, hblob⟩
    rw [hdigest, hdigest', hid, hpath, hblob]

/-! ### Two starts of a merged PRD -/

def firstDraw : RunDraw := { generation := "0123456789abcdef0123", key := "aaaaaaaaaaaaaaaaaaaa" }

def secondDraw : RunDraw := { generation := "0123456789abcdef0123", key := "bbbbbbbbbbbbbbbbbbbb" }

theorem firstDraw_drawn : firstDraw.Drawn :=
  ⟨⟨rfl, List.all_eq_true.mp rfl⟩, ⟨rfl, List.all_eq_true.mp rfl⟩⟩

theorem secondDraw_drawn : secondDraw.Drawn :=
  ⟨⟨rfl, List.all_eq_true.mp rfl⟩, ⟨rfl, List.all_eq_true.mp rfl⟩⟩

theorem mergedRun_confined :
    ∃ s, startSource mergedSite mergedAnswers mergedBlobUrl mergedMrUrl = .ok s ∧
      Confined sampleConfig s firstDraw (startedRun sampleConfig firstDraw sampleStart s 0) := by
  obtain ⟨s, hs, -⟩ := mergedStart_accepted
  exact ⟨s, hs, startedRun_confined hs firstDraw_drawn⟩

theorem mergedRuns_isolated :
    ∃ s, startSource mergedSite mergedAnswers mergedBlobUrl mergedMrUrl = .ok s ∧
      PlacesApart (startedRun sampleConfig firstDraw sampleStart s 0).workspace
        (startedRun sampleConfig secondDraw sampleStart s 1).workspace := by
  obtain ⟨s, hs, hraw⟩ := mergedStart_accepted
  exact ⟨s, hs, (startedRun_isolated hs hraw firstDraw_drawn secondDraw_drawn (by decide)).1⟩

theorem mergedRuns_sourceKey :
    ∃ s, startSource mergedSite mergedAnswers mergedBlobUrl mergedMrUrl = .ok s ∧
      startSource mergedSite mergedAnswers mergedRawUrl mergedMrUrl = .ok s ∧
      (startedRun sampleConfig firstDraw sampleStart s 0).sourceKey =
        (startedRun sampleConfig secondDraw sampleStart s 1).sourceKey := by
  obtain ⟨s, hs, hraw⟩ := mergedStart_accepted
  have hkey : (startedRun sampleConfig firstDraw sampleStart s 0).sourceKey =
      (startedRun sampleConfig secondDraw sampleStart s 1).sourceKey ↔ _ :=
    startedRun_sourceKey hs hraw mergedBlobUrl_named mergedRawUrl_named (by decide) fun _ => rfl
  exact ⟨s, hs, hraw, hkey.mpr ⟨rfl, rfl, rfl⟩⟩

end Accepted

end HollysysController
