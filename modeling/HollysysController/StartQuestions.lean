import HollysysController.StartSources

/-! # The questions of a start

The addresses at which `validate_start` asks GitLab are joined from paths and names that the
users of GitLab choose. Each address stands for one question. -/

namespace HollysysController

open Python

/-- What `validate_start` asks for. -/
inductive Question where
  | project (path : List Char)
  | mr (id iid : Nat)
  | changes (id iid : Nat)
  | branch (id : Nat) (name : List Char)
  | file (id : Nat) (path ref : List Char)
  deriving DecidableEq, Repr

namespace Question

def endpoint : Question → List Char
  | project path => projectEndpoint path
  | mr id iid => mrEndpoint id iid
  | changes id iid => changesEndpoint id iid
  | branch id name => branchEndpoint id (quote name)
  | file id path ref => fileEndpoint id path ref

def parts : Question → List (List Char)
  | project path => ["projects".toList, quote path]
  | mr id iid => ["projects".toList, quote (decimal id), "merge_requests".toList, decimal iid]
  | changes id iid =>
    ["projects".toList, quote (decimal id), "merge_requests".toList, decimal iid,
      "changes".toList]
  | branch id name =>
    ["projects".toList, quote (decimal id), "repository".toList, "branches".toList, quote name]
  | file id path ref =>
    ["projects".toList, quote (decimal id), "repository".toList, "files".toList,
      quote path ++ '?' :: ("ref=".toList ++ quote ref)]

theorem endpoint_eq (q : Question) : q.endpoint = ['/'].intercalate q.parts := by
  cases q with
  | project path =>
    unfold endpoint parts projectEndpoint
    simp
  | mr id iid =>
    unfold endpoint parts mrEndpoint projectEndpoint
    simp
  | changes id iid =>
    unfold endpoint parts changesEndpoint mrEndpoint projectEndpoint
    simp
  | branch id name =>
    unfold endpoint parts branchEndpoint projectEndpoint
    simp
  | file id path ref =>
    unfold endpoint parts fileEndpoint projectEndpoint
    simp

theorem parts_ne_nil (q : Question) : q.parts ≠ [] := by
  cases q <;> exact List.cons_ne_nil _ _

theorem slash_quote (s : List Char) : '/' ∉ quote s := by
  intro h
  rcases mem_quote h with hfree | hpercent
  · exact absurd hfree (by decide)
  · exact absurd hpercent (by decide)

theorem slash_decimal (n : Nat) : '/' ∉ decimal n := by
  intro h
  exact absurd (isDigit_decimal h) (by decide)

theorem slash_parts {q : Question} {part : List Char} (h : part ∈ q.parts) : '/' ∉ part := by
  cases q <;> simp only [parts, List.mem_cons, List.not_mem_nil, or_false] at h
  case project path =>
    rcases h with rfl | rfl
    · simp
    · exact slash_quote path
  case mr id iid =>
    rcases h with rfl | rfl | rfl | rfl
    · simp
    · exact slash_quote _
    · simp
    · exact slash_decimal iid
  case changes id iid =>
    rcases h with rfl | rfl | rfl | rfl | rfl
    · simp
    · exact slash_quote _
    · simp
    · exact slash_decimal iid
    · simp
  case branch id name =>
    rcases h with rfl | rfl | rfl | rfl | rfl
    · simp
    · exact slash_quote _
    · simp
    · simp
    · exact slash_quote name
  case file id path ref =>
    rcases h with rfl | rfl | rfl | rfl | rfl
    · simp
    · exact slash_quote _
    · simp
    · simp
    · simp [slash_quote path, slash_quote ref]

/-- The query begins at the first question mark. -/
theorem file_part {path path' ref ref' : List Char}
    (h : quote path ++ '?' :: ("ref=".toList ++ quote ref) =
      quote path' ++ '?' :: ("ref=".toList ++ quote ref')) : path = path' ∧ ref = ref' := by
  have hmark : ∀ s, '?' ∉ quote s := by
    intro s hs
    rcases mem_quote hs with hfree | hpercent
    · exact absurd hfree (by decide)
    · exact absurd hpercent (by decide)
  have hsplit := congrArg (fun t => List.splitOn '?' t) h
  simp only [List.splitOn_append_cons_self_of_not_mem (hmark _)] at hsplit
  have hpath := (List.cons.inj hsplit).1
  rw [hpath, List.append_cancel_left_eq, List.cons.injEq, List.append_cancel_left_eq] at h
  exact ⟨quote_injective hpath, quote_injective h.2⟩

theorem parts_injective : Function.Injective parts := by
  have hid : ∀ id id' : Nat, quote (decimal id) = quote (decimal id') → id = id' :=
    fun id id' h => decimal_inj (quote_injective h)
  intro q q' h
  cases q <;> cases q' <;> simp [parts] at h
  case project.project path path' => rw [quote_injective h]
  case mr.mr id iid id' iid' => rw [hid id id' h.1, decimal_inj h.2]
  case changes.changes id iid id' iid' => rw [hid id id' h.1, decimal_inj h.2]
  case branch.branch id name id' name' => rw [hid id id' h.1, quote_injective h.2]
  case file.file id path ref id' path' ref' =>
    obtain ⟨hpath, href⟩ := file_part h.2
    rw [hid id id' h.1, hpath, href]

/-- No two questions have one address. -/
theorem endpoint_injective : Function.Injective endpoint := by
  intro q q' h
  rw [endpoint_eq, endpoint_eq] at h
  apply parts_injective
  calc q.parts = (['/'].intercalate q.parts).splitOn '/' :=
      (List.splitOn_intercalate '/' (fun _ hpart => slash_parts hpart) (parts_ne_nil q)).symm
    _ = (['/'].intercalate q'.parts).splitOn '/' := by rw [h]
    _ = q'.parts :=
      List.splitOn_intercalate '/' (fun _ hpart => slash_parts hpart) (parts_ne_nil q')

end Question

/-! ## What a start learns -/

section Asked

variable {σ : StartSite} {api api' : Api}

theorem requireObject_alike (h : ∀ n (q : Question), api n q.endpoint = api' n q.endpoint) (n : Nat)
    (q : Question) : requireObject api n q.endpoint = requireObject api' n q.endpoint := by
  rw [requireObject, requireObject, call, call, h n q]

theorem fileOf_alike (h : ∀ n (q : Question), api n q.endpoint = api' n q.endpoint) (n id : Nat)
    (path ref : List Char) : fileOf api n id path ref = fileOf api' n id path ref := by
  have hfile : api n (fileEndpoint id path ref) = api' n (fileEndpoint id path ref) :=
    h n (.file id path ref)
  rw [fileOf, fileOf, call, call, hfile]

theorem readBranch_alike (h : ∀ n (q : Question), api n q.endpoint = api' n q.endpoint) (id : Nat)
    (branch : Text) : readBranch σ api id branch = readBranch σ api' id branch := by
  rw [readBranch, readBranch, quoteText]
  cases encode branch with
  | none => rfl
  | some name =>
    have hbranch : requireObject api 3 (branchEndpoint id (quote name)) =
        requireObject api' 3 (branchEndpoint id (quote name)) :=
      requireObject_alike h 3 (.branch id name)
    show (requireObject api 3 (branchEndpoint id (quote name)) >>= _) =
      (requireObject api' 3 (branchEndpoint id (quote name)) >>= _)
    rw [hbranch]

/-- Nothing else is asked. -/
theorem startSource_alike (h : ∀ n (q : Question), api n q.endpoint = api' n q.endpoint)
    (blobUrl mrUrl : List Char) :
    startSource σ api blobUrl mrUrl = startSource σ api' blobUrl mrUrl := by
  have hproject : ∀ path, readProject σ api path = readProject σ api' path := by
    intro path
    have hask : requireObject api 0 (projectEndpoint path) =
        requireObject api' 0 (projectEndpoint path) := requireObject_alike h 0 (.project path)
    rw [readProject, readProject, hask]
  have hmr : ∀ id iid branch, readMr api id iid branch = readMr api' id iid branch := by
    intro id iid branch
    have hask : requireObject api 1 (mrEndpoint id iid) =
        requireObject api' 1 (mrEndpoint id iid) := requireObject_alike h 1 (.mr id iid)
    rw [readMr, readMr, hask]
  have hchanges : ∀ id iid path,
      readChanges σ api id iid path = readChanges σ api' id iid path := by
    intro id iid path
    have hask : requireObject api 2 (changesEndpoint id iid) =
        requireObject api' 2 (changesEndpoint id iid) := requireObject_alike h 2 (.changes id iid)
    rw [readChanges, readChanges, hask]
  have hblob : ∀ id path requestedRef currentRef,
      readBlob σ api id path requestedRef currentRef =
        readBlob σ api' id path requestedRef currentRef := by
    intro id path requestedRef currentRef
    simp only [readBlob, fileOf_alike h]
  simp only [startSource, hproject, hmr, hchanges, readBranch_alike h, hblob]

/-- **A start is settled by what GitLab answers to its questions**, whatever characters the paths
and the branches have. -/
theorem startSource_asks (σ : StartSite) (blobUrl mrUrl : List Char)
    (gitlab : Nat → Question → Except ControllerError Value) :
    ∃ result, (∃ api : Api, ∀ n q, api n q.endpoint = gitlab n q) ∧
      ∀ api : Api, (∀ n q, api n q.endpoint = gitlab n q) →
        startSource σ api blobUrl mrUrl = result := by
  let api : Api := fun n => Function.extend Question.endpoint (gitlab n) fun _ => .ok .none
  have hapi : ∀ n q, api n q.endpoint = gitlab n q := by
    intro n q
    exact Question.endpoint_injective.extend_apply (gitlab n) _ q
  refine ⟨startSource σ api blobUrl mrUrl, ⟨api, hapi⟩, ?_⟩
  intro api' h
  apply startSource_alike
  intro n q
  rw [h, hapi]

end Asked

end HollysysController
