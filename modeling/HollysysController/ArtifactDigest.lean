import HollysysController.GateBinding
import Mathlib

/-! # The digest of a set of artifacts

What is hashed for a set of artifacts, and the places that hash it: the digest of a tree, the
frozen baseline of the PRD, and the check of a baseline at a later commit. -/

namespace HollysysController

/-! ## The text that is hashed -/

/-- The blobs at the paths of a set of artifacts. -/
abbrev Artifacts := Finmap fun _ : String => String

/-- A path, a zero byte, the blob and the end of the line. -/
def digestLine (path blob : String) : String := s!"{path}\x00{blob}\n"

/-- The lines of some paths with their blobs. -/
def joinLines : List (String × String) → String
  | [] => ""
  | (path, blob) :: rest => digestLine path blob ++ joinLines rest

namespace Artifacts

variable (m : Artifacts)

/-- The paths in order, each with its blob. -/
def entries : List (String × String) :=
  (m.keys.sort (· ≤ ·)).map fun path => (path, (m.lookup path).getD "")

/-- The pre-image of the digest. -/
def text : String := joinLines m.entries

def bytes : ByteArray := m.text.toUTF8

/-- No path holds a zero byte, and the blob ids are hexadecimal. -/
structure Plain : Prop where
  paths : ∀ path ∈ m, '\x00' ∉ path.toList
  blobs : ∀ path blob, m.lookup path = some blob → ∀ c ∈ blob.toList,
    c ∈ "0123456789abcdefABCDEF".toList

end Artifacts

/-- What stands before the first mark, and what stands after it. -/
theorem cut_inj {c : Char} {a a' r r' : List Char} (ha : c ∉ a) (ha' : c ∉ a')
    (h : a ++ c :: r = a' ++ c :: r') : a = a' ∧ r = r' := by
  induction a generalizing a' with
  | nil =>
    cases a' with
    | nil => exact ⟨rfl, (List.cons.inj h).2⟩
    | cons d a' =>
      rw [← (List.cons.inj h).1] at ha'
      exact absurd List.mem_cons_self ha'
  | cons d a ih =>
    cases a' with
    | nil =>
      rw [(List.cons.inj h).1] at ha
      exact absurd List.mem_cons_self ha
    | cons d' a' =>
      obtain ⟨rfl, htail⟩ := List.cons.inj h
      obtain ⟨rfl, hr⟩ := ih (fun hc => ha (List.mem_cons_of_mem _ hc))
        (fun hc => ha' (List.mem_cons_of_mem _ hc)) htail
      exact ⟨rfl, hr⟩

/-- Nothing in the entry looks like the end of its path or of its line. -/
def Separable (e : String × String) : Prop := '\x00' ∉ e.1.toList ∧ '\n' ∉ e.2.toList

/-- A line can be told from what follows it. -/
theorem digestLine_inj {e e' : String × String} {rest rest' : String} (he : Separable e)
    (he' : Separable e')
    (h : digestLine e.1 e.2 ++ rest = digestLine e'.1 e'.2 ++ rest') : e = e' ∧ rest = rest' := by
  have hlist := congrArg String.toList h
  simp only [digestLine, toString, String.toList_append, List.append_assoc] at hlist
  obtain ⟨hpath, hafter⟩ := cut_inj he.1 he'.1 hlist
  obtain ⟨hblob, hrest⟩ := cut_inj he.2 he'.2 hafter
  exact ⟨Prod.ext (String.toList_inj.mp hpath) (String.toList_inj.mp hblob),
    String.toList_inj.mp hrest⟩

theorem digestLine_ne_empty (e : String × String) (rest : String) :
    digestLine e.1 e.2 ++ rest ≠ "" := by
  intro h
  have hlist := congrArg String.toList h
  simp only [digestLine, toString, String.toList_append, String.toList_empty,
    List.append_eq_nil_iff] at hlist
  exact absurd hlist.1.2 (by decide)

theorem joinLines_inj {l l' : List (String × String)} (hl : ∀ e ∈ l, Separable e)
    (hl' : ∀ e ∈ l', Separable e) (h : joinLines l = joinLines l') : l = l' := by
  induction l generalizing l' with
  | nil =>
    cases l' with
    | nil => rfl
    | cons e' l' => exact absurd h.symm (digestLine_ne_empty e' _)
  | cons e l ih =>
    cases l' with
    | nil => exact absurd h (digestLine_ne_empty e _)
    | cons e' l' =>
      obtain ⟨rfl, hrest⟩ := digestLine_inj (hl _ List.mem_cons_self) (hl' _ List.mem_cons_self) h
      rw [ih (fun e he => hl e (List.mem_cons_of_mem _ he))
        (fun e he => hl' e (List.mem_cons_of_mem _ he)) hrest]

namespace Artifacts

variable {m m' : Artifacts}

theorem Plain.separable (h : m.Plain) : ∀ e ∈ m.entries, Separable e := by
  intro e he
  obtain ⟨path, hpath, rfl⟩ := List.mem_map.mp he
  have hmem : path ∈ m := Finmap.mem_keys.mp ((Finset.mem_sort _).mp hpath)
  refine ⟨h.paths path hmem, ?_⟩
  obtain ⟨blob, hblob⟩ := Finmap.mem_iff.mp hmem
  rw [hblob, Option.getD_some]
  intro hend
  exact absurd (h.blobs path blob hblob '\n' hend) (by simp)

theorem mem_entries {path blob : String} :
    (path, blob) ∈ m.entries ↔ m.lookup path = some blob := by
  unfold entries
  rw [List.mem_map]
  constructor
  · rintro ⟨path, hpath, h⟩
    obtain ⟨rfl, rfl⟩ := Prod.mk.inj h
    obtain ⟨blob, hblob⟩ := Finmap.mem_iff.mp (Finmap.mem_keys.mp ((Finset.mem_sort _).mp hpath))
    rw [hblob, Option.getD_some]
  · intro h
    refine ⟨path, (Finset.mem_sort _).mpr (Finmap.mem_keys.mpr (Finmap.mem_iff.mpr ⟨_, h⟩)), ?_⟩
    rw [h, Option.getD_some]

theorem entries_inj (h : m.entries = m'.entries) : m = m' := by
  refine Finmap.ext_lookup fun path => Option.ext fun blob => ?_
  rw [← mem_entries, ← mem_entries, h]

/-- **The pre-image tells the artifacts.** -/
theorem bytes_inj (hm : m.Plain) (hm' : m'.Plain) (h : m.bytes = m'.bytes) : m = m' :=
  entries_inj (joinLines_inj hm.separable hm'.separable (String.toByteArray_inj.mp h))

end Artifacts

/-! ## The places that hash -/

/-- The stage whose patterns find the artifacts of a document phase. -/
def baselineStage : String → Option Stage
  | "spec" => some .specReview
  | "plan" => some .planReview
  | "tasks" => some .tasksReview
  | _ => none

namespace Repository

variable (repo : Repository)

/-- `validate_baseline_at_ref`. The type of a baseline has no phase but these. -/
def validateBaselineAtRef (sha256 : String → String) (run : RunRecord) (baseline : ArtifactBaseline)
    (ref : String) : Except ControllerError Unit :=
  let project := run.project.projectId
  match baselineStage baseline.phase with
  | none => do
    let blob ← repo.blobId project run.source.prdPath ref
    if blob != some run.source.prdBlobSha then
      .error (.valueError "PRD changed after the run source was frozen")
    else .ok ()
  | some stage => do
    let patterns ← (run.artifactScope.patternsFor stage).mapError .valueError
    let currentPaths ← repo.artifactPaths project ref patterns
    if currentPaths != baseline.artifactPaths.insertionSort (· ≤ ·) then
      .error (.valueError s!"{baseline.phase} artifact set changed after it was frozen")
    else do
      let currentDigest ← repo.artifactDigest sha256 project ref currentPaths
      if currentDigest != baseline.artifactDigest then
        .error (.valueError s!"{baseline.phase} artifacts changed after they were frozen")
      else .ok ()

/-- The tree of the commit has these artifacts at the paths, in any order. -/
structure Holds (project : Nat) (ref : String) (paths : List String) (m : Artifacts) : Prop where
  paths : paths.Perm (m.keys.sort (· ≤ ·))
  blobs : ∀ path ∈ m, repo.blobId project path ref = .ok (m.lookup path)

end Repository

section Sites

variable {repo : Repository} {project : Nat} {ref : String}

theorem digestLines_known {blob : String → String} {paths : List String}
    (h : ∀ path ∈ paths, repo.blobId project path ref = .ok (some (blob path))) :
    repo.digestLines project ref paths = .ok (joinLines (paths.map fun p => (p, blob p))) := by
  induction paths with
  | nil => rfl
  | cons path paths ih =>
    simp only [Repository.digestLines, h path List.mem_cons_self,
      ih fun p hp => h p (List.mem_cons_of_mem _ hp)]
    rfl

/-- The digest of a tree is the digest of its artifacts. -/
theorem artifactDigest_holds (sha256 : String → String) {paths : List String} {m : Artifacts}
    (h : repo.Holds project ref paths m) :
    repo.artifactDigest sha256 project ref paths = .ok (sha256 m.text) := by
  have hsorted : paths.insertionSort (· ≤ ·) = m.keys.sort (· ≤ ·) := by
    rw [insertionSort_congr h.paths]
    exact (m.keys.pairwise_sort _).insertionSort_eq
  have hlines : repo.digestLines project ref (m.keys.sort (· ≤ ·)) = .ok m.text := by
    refine digestLines_known fun path hpath => ?_
    have hmem := Finmap.mem_keys.mp ((Finset.mem_sort _).mp hpath)
    obtain ⟨blob, hblob⟩ := Finmap.mem_iff.mp hmem
    rw [h.blobs path hmem, hblob, Option.getD_some]
  rw [Repository.artifactDigest, hsorted, hlines]
  rfl

/-- The order of the paths does not matter, also to the errors. -/
theorem artifactDigest_perm (sha256 : String → String) {paths paths' : List String}
    (h : paths.Perm paths') :
    repo.artifactDigest sha256 project ref paths =
      repo.artifactDigest sha256 project ref paths' := by
  rw [Repository.artifactDigest, Repository.artifactDigest, insertionSort_congr h]

/-- The baseline of the PRD is the digest of one artifact. -/
theorem sourceBaseline_digest (cfg : Config) (run : RunRecord) (root : CardId) :
    (sourceBaseline cfg run root).artifactDigest =
      cfg.sha256 (Artifacts.text (Finmap.singleton run.source.prdPath run.source.prdBlobSha)) := by
  have hentries : Artifacts.entries
      (Finmap.singleton run.source.prdPath run.source.prdBlobSha) =
        [(run.source.prdPath, run.source.prdBlobSha)] := by
    rw [Artifacts.entries, Finmap.keys_singleton, Finset.sort_singleton, List.map_singleton,
      Finmap.lookup_singleton_eq, Option.getD_some]
  rw [Artifacts.text, hentries, joinLines, joinLines, String.append_empty]
  rfl

/-- The tree of the commit has the artifacts at the paths that the patterns match. -/
structure Tracks (repo : Repository) (run : RunRecord) (stage : Stage) (ref : String)
    (m : Artifacts) : Prop where
  matched : ∃ patterns paths, run.artifactScope.patternsFor stage = .ok patterns ∧
    repo.artifactPaths run.project.projectId ref patterns = .ok paths ∧
    repo.Holds run.project.projectId ref paths m

/-- A baseline that froze some artifacts is valid where the tree has the same. -/
theorem validateBaselineAtRef_ok_iff {sha256 : String → String} {run : RunRecord}
    {baseline : ArtifactBaseline} {stage : Stage} {m n : Artifacts}
    (hstage : baselineStage baseline.phase = some stage)
    (hpaths : baseline.artifactPaths.Perm (m.keys.sort (· ≤ ·)))
    (hdigest : baseline.artifactDigest = sha256 m.text) (hn : Tracks repo run stage ref n)
    (hcollision : sha256 n.text = sha256 m.text → n.text = m.text)
    (hplain : m.Plain) (hplain' : n.Plain) :
    repo.validateBaselineAtRef sha256 run baseline ref = .ok () ↔ n = m := by
  obtain ⟨patterns, paths, hpatterns, htree, hholds⟩ := hn.matched
  have hvalid : repo.validateBaselineAtRef sha256 run baseline ref =
      if paths != m.keys.sort (· ≤ ·) then
        .error (.valueError s!"{baseline.phase} artifact set changed after it was frozen")
      else if sha256 n.text != sha256 m.text then
        .error (.valueError s!"{baseline.phase} artifacts changed after they were frozen")
      else .ok () := by
    have hsorted : baseline.artifactPaths.insertionSort (· ≤ ·) = m.keys.sort (· ≤ ·) := by
      rw [insertionSort_congr hpaths]
      exact (m.keys.pairwise_sort _).insertionSort_eq
    simp only [Repository.validateBaselineAtRef, hstage, hpatterns, Except.mapError, bind,
      Except.bind, htree, artifactDigest_holds sha256 hholds, hsorted, hdigest]
  rw [hvalid]
  constructor
  · intro h
    split at h
    · cases h
    · split at h
      · cases h
      · next hsame =>
        have htext := hcollision (by simpa using hsame)
        exact Artifacts.bytes_inj hplain' hplain (congrArg String.toUTF8 htext)
  · rintro rfl
    have hsame : paths = n.keys.sort (· ≤ ·) := by
      have hsorted : paths.Pairwise (· ≤ ·) := by
        unfold Repository.artifactPaths at htree
        split at htree
        · cases htree
        · split at htree
          · cases htree
          · dsimp only at htree
            split at htree
            · cases htree
            · cases htree
              exact List.pairwise_insertionSort _ _
      exact List.Perm.eq_of_pairwise' hsorted (n.keys.pairwise_sort _) hholds.paths
    simp [hsame]

end Sites

/-! ## The law -/

/-- **What the digest of a set of artifacts promises.** -/
structure ArtifactDigestLaw : Prop where
  /-- The bytes that are hashed tell the artifacts. -/
  injective : ∀ m m' : Artifacts, m.Plain → m'.Plain → m.bytes = m'.bytes → m = m'
  /-- The digest of a tree is over these bytes, whatever the order of the paths. -/
  tree : ∀ (sha256 : String → String) (repo : Repository) (project : Nat) (ref : String)
    (paths : List String) (m : Artifacts), repo.Holds project ref paths m →
      repo.artifactDigest sha256 project ref paths = .ok (sha256 m.text)
  /-- Its errors do not depend on the order either. -/
  order : ∀ (sha256 : String → String) (repo : Repository) (project : Nat) (ref : String)
    (paths paths' : List String), paths.Perm paths' →
      repo.artifactDigest sha256 project ref paths = repo.artifactDigest sha256 project ref paths'
  /-- The frozen baseline of the PRD is over the bytes of one artifact. -/
  source : ∀ (cfg : Config) (run : RunRecord) (root : CardId),
    (sourceBaseline cfg run root).artifactDigest =
      cfg.sha256 (Artifacts.text (Finmap.singleton run.source.prdPath run.source.prdBlobSha))
  /-- A baseline is compared with the bytes of the tree: where no two texts at hand collide, it
  is valid exactly where the tree has the frozen artifacts. -/
  baseline : ∀ (sha256 : String → String) (repo : Repository) (run : RunRecord)
    (baseline : ArtifactBaseline) (stage : Stage) (ref : String) (m n : Artifacts),
      baselineStage baseline.phase = some stage →
      baseline.artifactPaths.Perm (m.keys.sort (· ≤ ·)) →
      baseline.artifactDigest = sha256 m.text → Tracks repo run stage ref n →
      (sha256 n.text = sha256 m.text → n.text = m.text) → m.Plain → n.Plain →
        (repo.validateBaselineAtRef sha256 run baseline ref = .ok () ↔ n = m)

theorem artifactDigest_law : ArtifactDigestLaw where
  injective _ _ hm hm' h := Artifacts.bytes_inj hm hm' h
  tree sha256 _ _ _ _ _ h := artifactDigest_holds sha256 h
  order sha256 _ _ _ _ _ h := artifactDigest_perm sha256 h
  source := sourceBaseline_digest
  baseline _ _ _ _ _ _ _ _ hstage hpaths hdigest hn hcollision hm hn' :=
    validateBaselineAtRef_ok_iff hstage hpaths hdigest hn hcollision hm hn'

end HollysysController
