import HollysysController.CardRecords
import HollysysController.Publication
import HollysysController.LarkConfig
import HollysysController.Messages
import HollysysController.Python.Paths
import HollysysController.Python.Urls

/-! # The source of a run

What `validate_start` reads from the two URLs of a start and asks GitLab, until the PRD is known
to be the merged one. GitLab may change between two calls. -/

namespace HollysysController

open Python

/-! ## The site -/

/-- What a start is checked against, and what Python's and the validation library's tables hold. -/
structure StartSite where
  hostname : List Char
  allowedGroups : List (List Char)
  relativePatterns : Option ArtifactPatterns
  checks : HostChecks
  case : LowerCase
  decimals : Decimals
  /-- `str` of a float, of an array or of an object. -/
  repr : Value → Text
  /-- `AnyHttpUrl` takes the text. -/
  isHttpUrl : List Char → Bool
  sha256 : List UInt8 → List UInt8
  digestLength : ∀ bytes, (sha256 bytes).length = 32

inductive StartError where
  | controller (e : ControllerError)
  | python (e : PyError)
  deriving DecidableEq, Repr

/-- `GitLabClient.api`: the answer to each call, by its number. -/
abbrev Api := Nat → List Char → Except ControllerError Value

abbrev Entries := List (Text × Value)

def refuse (condition : Bool) (text : String) : Except StartError Unit :=
  if condition then .error (.controller (.valueError text)) else .ok ()

def brokenContract (text errorCode : String) : StartError :=
  .controller (contractError text errorCode)

/-! ## The URLs -/

/-- The rest of a text that begins with the word. -/
def stripPrefix (word : String) (text : List Char) : Option (List Char) :=
  if word.toList.isPrefixOf text then some (text.drop word.length) else none

/-- `(?P<project>.+?)` before the first place where the rest matches. -/
def beforeFirst {α : Type} (rest : List Char → Option α) (project : List Char) :
    List Char → Option (List Char × α)
  | [] => none
  | c :: t =>
    match if project = [] then none else rest (c :: t) with
    | some a => some (project, a)
    | none => beforeFirst rest (project ++ [c]) t

/-- `[0-9a-f]{40}/.+`. -/
def pinnedPath (text : List Char) : Option (List Char × List Char) :=
  let sha := text.take 40
  match text.drop 40 with
  | '/' :: path =>
    if sha.length == 40 && sha.all lowerHex && path != [] then some (sha, path) else none
  | _ => none

/-- `PRD_URL_RE`. -/
def prdOfPath : List Char → Option (List Char × List Char × List Char)
  | '/' :: t =>
    beforeFirst (fun rest => ((stripPrefix "/-/blob/" rest).or (stripPrefix "/-/raw/" rest)).bind
      pinnedPath) [] t
  | _ => none

/-- `[1-9][0-9]*/?` to the end. -/
def mrNumber (text : List Char) : Option (List Char) :=
  let digits := text.takeWhile Char.isDigit
  let rest := text.dropWhile Char.isDigit
  if digits.head?.any (· != '0') && (rest == [] || rest == ['/']) then some digits else none

/-- `MR_URL_RE`. -/
def mrOfPath : List Char → Option (List Char × List Char)
  | '/' :: t => beforeFirst (fun rest => (stripPrefix "/-/merge_requests/" rest).bind mrNumber) [] t
  | _ => none

def isProjectChar (c : Char) : Bool := c.isAlphanum || c == '_' || c == '.' || c == '-'

def isProjectPart : List Char → Bool
  | [] => false
  | c :: t => (c.isAlphanum || c == '_') && t.all isProjectChar

/-- `PROJECT_PATH_RE`. -/
def isProjectPath (path : List Char) : Bool :=
  let parts := path.splitOn '/'
  2 ≤ parts.length && parts.all isProjectPart

/-- What the two URLs name. -/
structure StartUrls where
  projectPath : List Char
  prdSha : List Char
  prdPath : List Char
  mrDigits : List Char
  deriving DecidableEq, Repr

def checkOrigin (label : String) (u : Url) : Except StartError Unit :=
  match u.port with
  | .error _ => refuse true s!"{label} GitLab URL has an invalid port"
  | .ok port =>
    refuse (u.scheme != "https".toList || u.username != [] || u.password != [] ||
        port.isSome || u.query != [] || u.fragment != [])
      (s!"{label} GitLab URL must be a credential-free HTTPS " ++
        "origin URL without port, query, or fragment")

/-- The paths of the two URLs. -/
def checkPaths (σ : StartSite) (blobPath mrPath : List Char) : Except StartError StartUrls :=
  match prdOfPath blobPath, mrOfPath mrPath with
  | some (blobProject, prdSha, quotedPath), some (mrProject, mrDigits) => do
    let projectPath := unquote blobProject
    refuse (projectPath != blobProject || unquote mrProject != mrProject ||
        !isProjectPath projectPath ||
        (projectPath.splitOn '/').any fun part => part == ['.'] || part == ['.', '.'])
      "GitLab project path is not canonical"
    refuse (projectPath != mrProject) "PRD and MR URLs refer to different projects"
    refuse (σ.allowedGroups != [] &&
        !σ.allowedGroups.any fun group => (group ++ ['/']).isPrefixOf projectPath)
      s!"project {String.ofList projectPath} is outside allowed groups"
    let prdPath := unquote quotedPath
    refuse (!isCanonicalPrdPath (String.ofList prdPath))
      "PRD path is not a canonical repository path"
    .ok { projectPath, prdSha, prdPath, mrDigits }
  | _, _ => .error (.controller (.valueError
      ("PRD URL must be a blob/raw URL pinned to a 40-character commit " ++
        "and MR URL must end in /-/merge_requests/<iid>")))

/-- The checks before the first call. The host of the URLs is the second part. -/
def checkUrls (σ : StartSite) (blobUrl mrUrl : List Char) :
    Except StartError (StartUrls × Option (List Char)) := do
  let blob ← (Url.parse σ.checks blobUrl).mapError .python
  let mr ← (Url.parse σ.checks mrUrl).mapError .python
  checkOrigin "PRD" blob
  checkOrigin "MR" mr
  let host := blob.hostname σ.case.lower
  refuse (host != mr.hostname σ.case.lower) "PRD and MR URLs use different hosts"
  refuse (σ.hostname != [] && host != some σ.hostname) "URL host is not the configured GitLab host"
  let urls ← checkPaths σ blob.path mr.path
  .ok (urls, host)

/-! ## The answers -/

/-- `str(value)`. -/
def StartSite.str (σ : StartSite) : Value → Text
  | .str s => s
  | .none => codePoints "None"
  | .bool b => codePoints (if b then "True" else "False")
  | .int n => codePoints (toString n)
  | v => σ.repr v

/-- `str(entries.get(key))`. -/
def StartSite.strOf (σ : StartSite) (entries : Entries) (key : String) : Text :=
  σ.str ((Value.get entries key).getD .none)

/-- `str(entries.get(key) or "")`. -/
def StartSite.textOf (σ : StartSite) (entries : Entries) (key : String) : Text :=
  match Value.get entries key with
  | some v => if v.truthy then σ.str v else []
  | none => []

/-- `quote(text, safe="")` of a text that may have no encoding. -/
def quoteText (text : Text) : Except StartError (List Char) :=
  match encode text with
  | some chars => .ok (quote chars)
  | none => .error (.python .unicodeEncode)

/-- `re.fullmatch(r"[0-9a-f]{40}", text)`. -/
def shaOf (text : Text) : Option (List Char) :=
  (encode text).filter fun chars => chars.length == 40 && chars.all lowerHex

/-- `_project_endpoint`. -/
def projectEndpoint (project : List Char) : List Char := "projects/".toList ++ quote project

def call (api : Api) (n : Nat) (endpoint : List Char) : Except StartError Value :=
  (api n endpoint).mapError .controller

/-- `_require_object` of the answer to a call. -/
def requireObject (api : Api) (n : Nat) (endpoint : List Char) : Except StartError Entries := do
  match ← call api n endpoint with
  | .dict entries => .ok entries
  | _ => .error (brokenContract
      s!"GitLab returned a non-object response for {String.ofList endpoint}"
      "invalid_object_response")

/-- `int(entries["id"])`. -/
def projectNumber (σ : StartSite) (entries : Entries) : Except StartError Int :=
  let broken := brokenContract "GitLab project response lacks id/default_branch"
    "invalid_project_response"
  match Value.get entries "id" with
  | none => .error broken
  | some v =>
    match v.toInt σ.decimals with
    | .ok n => .ok n
    | .error .overflow => .error (.python .overflow)
    | .error _ => .error broken

/-- `str(entries["default_branch"]).strip()`. -/
def defaultBranch (σ : StartSite) (entries : Entries) : Except StartError Text :=
  match Value.get entries "default_branch" with
  | none => .error (brokenContract "GitLab project response lacks id/default_branch"
      "invalid_project_response")
  | some v => .ok (stripText (σ.str v))

/-- The first call: the project. -/
def readProject (σ : StartSite) (api : Api) (projectPath : List Char) :
    Except StartError (Nat × Text) := do
  let entries ← requireObject api 0 (projectEndpoint projectPath)
  refuse ((Value.get entries "archived").any Value.truthy)
    s!"project {String.ofList projectPath} is archived"
  let id ← projectNumber σ entries
  let branch ← defaultBranch σ entries
  if id ≤ 0 ∨ branch = [] then
    .error (brokenContract "GitLab project response has invalid id/default_branch"
      "invalid_project_response")
  else .ok (id.toNat, branch)

def decimal (n : Nat) : List Char := (toString n).toList

def mrEndpoint (id iid : Nat) : List Char :=
  projectEndpoint (decimal id) ++ "/merge_requests/".toList ++ decimal iid

/-- The second call: the merge request. -/
def readMr (api : Api) (id iid : Nat) (branch : Text) : Except StartError Unit := do
  let entries ← requireObject api 1 (mrEndpoint id iid)
  refuse (!Profiles.hasStr entries "state" (codePoints "merged"))
    "the PRD merge request is not merged"
  refuse (!Profiles.hasStr entries "target_branch" branch)
    "the PRD MR was not merged to the current default branch"

def changesEndpoint (id iid : Nat) : List Char := mrEndpoint id iid ++ "/changes".toList

/-- The new paths of the changes that are objects. -/
def newPaths (σ : StartSite) (changes : List Value) : List Text :=
  (changes.filterMap Value.asDict).map fun entries => σ.strOf entries "new_path"

/-- The third call: its changes. -/
def readChanges (σ : StartSite) (api : Api) (id iid : Nat) (prdPath : List Char) :
    Except StartError Unit := do
  let entries ← requireObject api 2 (changesEndpoint id iid)
  match Value.get entries "changes" with
  | some (.list changes) =>
    refuse (!(newPaths σ changes).contains (prdPath.map .char))
      "the merged PRD MR does not contain the requested PRD path"
  | _ => .error (brokenContract "GitLab MR changes response lacks a changes list"
      "invalid_changes_response")

/-- `entries["commit"]["id"]`. -/
def commitId (entries : Entries) : Option Value :=
  ((Value.get entries "commit").bind Value.asDict).bind (Value.get · "id")

def branchEndpoint (id : Nat) (quotedBranch : List Char) : List Char :=
  projectEndpoint (decimal id) ++ "/repository/branches/".toList ++ quotedBranch

/-- The fourth call: the head of the default branch. -/
def readBranch (σ : StartSite) (api : Api) (id : Nat) (branch : Text) :
    Except StartError (List Char) := do
  let quotedBranch ← quoteText branch
  let entries ← requireObject api 3 (branchEndpoint id quotedBranch)
  match commitId entries with
  | none => .error (brokenContract "GitLab branch response lacks commit id"
      "invalid_branch_response")
  | some v =>
    match shaOf (σ.str v) with
    | some sha => .ok sha
    | none => .error (brokenContract "GitLab branch response has an invalid commit id"
        "invalid_branch_response")

def fileEndpoint (id : Nat) (path ref : List Char) : List Char :=
  projectEndpoint (decimal id) ++ "/repository/files/".toList ++ quote path ++ "?ref=".toList ++
    quote ref

/-- `GitLabClient.file`. -/
def fileOf (api : Api) (n id : Nat) (path ref : List Char) : Except StartError Entries := do
  match ← call api n (fileEndpoint id path ref) with
  | .dict entries => .ok entries
  | _ => .error (brokenContract s!"unexpected file response for {String.ofList path}"
      "invalid_file_response")

/-- The last two calls: the PRD as it was asked for and as it is. -/
def readBlob (σ : StartSite) (api : Api) (id : Nat) (path requestedRef currentRef : List Char) :
    Except StartError (List Char) := do
  let requested ← fileOf api 4 id path requestedRef
  let current ← fileOf api 5 id path currentRef
  match shaOf (σ.textOf requested "blob_id"), shaOf (σ.textOf current "blob_id") with
  | some requestedBlob, some currentBlob =>
    refuse (requestedBlob != currentBlob)
      "the PRD on the default branch no longer equals the requested version"
    .ok requestedBlob
  | _, _ => .error (brokenContract "GitLab file response has an invalid blob id"
      "invalid_file_response")

/-! ## The source -/

def bitsOf (b : UInt8) : List Bool := (List.range 8).map fun i => b.toNat.testBit (7 - i)

/-- The bits in fives, the last ones filled up with zeros. -/
def quintets : List Bool → List Nat
  | a :: b :: c :: d :: e :: rest =>
    (16 * a.toNat + 8 * b.toNat + 4 * c.toNat + 2 * d.toNat + e.toNat) :: quintets rest
  | [] => []
  | [a] => [16 * a.toNat]
  | [a, b] => [16 * a.toNat + 8 * b.toNat]
  | [a, b, c] => [16 * a.toNat + 8 * b.toNat + 4 * c.toNat]
  | [a, b, c, d] => [16 * a.toNat + 8 * b.toNat + 4 * c.toNat + 2 * d.toNat]

def base32Digit (n : Nat) : Char := if n < 26 then Char.ofNat (97 + n) else Char.ofNat (24 + n)

/-- `b32encode(digest).decode("ascii").lower().rstrip("=")`. -/
def base32 (bytes : List UInt8) : List Char := (quintets (bytes.flatMap bitsOf)).map base32Digit

/-- What a source key is the digest of. -/
def sourceIdentity (host : Option (List Char)) (id : Nat) (path blob : List Char) : List Char :=
  host.getD "None".toList ++ '|' :: decimal id ++ '|' :: path ++ '|' :: blob

/-- `re.sub(r"[^a-z0-9]+", "-", text)`, after a character that has been replaced or not. -/
def dashed (replaced : Bool) : List Char → List Char
  | [] => []
  | c :: t =>
    if lowerAlnum c then c :: dashed false t
    else if replaced then dashed true t
    else '-' :: dashed true t

/-- `text.strip("-")`. -/
def stripDashes (text : List Char) : List Char :=
  ((text.dropWhile (· == '-')).reverse.dropWhile (· == '-')).reverse

/-- The name of the PRD file, fit for a branch. -/
def safeName (lower : List Char → List Char) (prdPath : List Char) : List Char :=
  match stripDashes (dashed false (lower (pathStem (String.ofList prdPath)).toList)) with
  | [] => "prd".toList
  | name => name

/-- `path.rsplit("/", 1)[1].lower()`. -/
def repoSlug (lower : List Char → List Char) (projectPath : List Char) : List Char :=
  lower (projectPath.reverse.takeWhile (· ≠ '/')).reverse

def strippedText (text : List Char) : String := stripped (String.ofList text)

/-- The facts of the run record, as the strict models keep them. -/
def sourceFacts (σ : StartSite) (urls : StartUrls) (host : Option (List Char)) (id : Nat)
    (branch : Text) (baseSha blob : List Char) (scope : ArtifactScope) : StartSource where
  projectId := id
  projectPath := strippedText urls.projectPath
  repoSlug := String.ofList (repoSlug σ.case.lower urls.projectPath)
  defaultBranch := strippedText ((encode branch).getD [])
  prdPath := strippedText urls.prdPath
  safeName := String.ofList (safeName σ.case.lower urls.prdPath)
  prdCommitSha := strippedText urls.prdSha
  prdBlobSha := strippedText blob
  digest := String.ofList (base32 (σ.sha256 (utf8 (sourceIdentity host id urls.prdPath blob))))
  artifactRoot := stripped scope.rootPath
  artifactPatterns :=
    { spec := scope.patterns.spec.map stripped, plan := scope.patterns.plan.map stripped,
      tasks := scope.patterns.tasks.map stripped }
  baseSha := strippedText baseSha

/-- What the models of the record do not take. -/
def validated (condition : Bool) : Except StartError Unit :=
  if condition then .ok () else .error (.python .value)

/-- `validate_start`, as far as it reads and checks. -/
def startSource (σ : StartSite) (api : Api) (blobUrl mrUrl : List Char) :
    Except StartError StartSource := do
  let (urls, host) ← checkUrls σ blobUrl mrUrl
  let (id, branch) ← readProject σ api urls.projectPath
  let iid ← (σ.decimals.intOfText urls.mrDigits).mapError .python
  readMr api id iid.toNat branch
  readChanges σ api id iid.toNat urls.prdPath
  let baseSha ← readBranch σ api id branch
  let blob ← readBlob σ api id urls.prdPath urls.prdSha baseSha
  validated (σ.isHttpUrl blobUrl && σ.isHttpUrl mrUrl)
  let scope ← (ArtifactScope.fromPrdPath (String.ofList urls.prdPath)
    σ.relativePatterns).mapError fun text => .controller (.valueError text)
  validated (Record.boardPattern.holds s!"gitlab-p{id}")
  .ok (sourceFacts σ urls host id branch baseSha blob scope)

/-! ## What an accepted start stands for -/

/-- The URL names the host alone, without credentials, port, query or fragment. -/
structure PlainOrigin (σ : StartSite) (url : List Char) (host : Option (List Char)) (u : Url) :
    Prop where
  parsed : Url.parse σ.checks url = .ok u
  scheme : u.scheme = "https".toList
  username : u.username = []
  password : u.password = []
  port : u.port = .ok none
  query : u.query = []
  fragment : u.fragment = []
  host : u.hostname σ.case.lower = host

/-- The two paths name a PRD and a merge request of one project, in an allowed group. -/
structure PathsName (σ : StartSite) (blobPath mrPath : List Char) (urls : StartUrls) : Prop where
  prd : ∃ kind ∈ ["blob", "raw"], ∃ quoted, urls.prdPath = unquote quoted ∧
    blobPath = '/' :: urls.projectPath ++ "/-/".toList ++ kind.toList ++
      '/' :: urls.prdSha ++ '/' :: quoted
  mr : ∃ slash ∈ [[], ['/']],
    mrPath = '/' :: urls.projectPath ++ "/-/merge_requests/".toList ++ urls.mrDigits ++ slash
  digits : urls.mrDigits.head?.any (· != '0') = true ∧ ∀ c ∈ urls.mrDigits, c.isDigit = true
  sha : urls.prdSha.length = 40 ∧ ∀ c ∈ urls.prdSha, lowerHex c = true
  project : isProjectPath urls.projectPath = true
  group : σ.allowedGroups ≠ [] → ∃ group ∈ σ.allowedGroups, (group ++ ['/']) <+: urls.projectPath
  canonical : isCanonicalPrdPath (String.ofList urls.prdPath) = true

/-- The URLs name a version of a PRD on the configured host. -/
structure UrlsName (σ : StartSite) (blobUrl mrUrl : List Char) (urls : StartUrls)
    (host : Option (List Char)) : Prop where
  configured : σ.hostname ≠ [] → host = some σ.hostname
  paths : ∃ blob mr, PlainOrigin σ blobUrl host blob ∧ PlainOrigin σ mrUrl host mr ∧
    PathsName σ blob.path mr.path urls

/-- The source has what the URLs name. Its path is the one that GitLab was asked about, unless
that begins with whitespace. -/
structure NamedBy (urls : StartUrls) (s : StartSource) : Prop where
  projectPath : s.projectPath.toList = urls.projectPath
  prdCommitSha : s.prdCommitSha.toList = urls.prdSha
  prdPath : s.prdPath.toList = urls.prdPath ↔
    urls.prdPath.head?.any JsonSchema.isSpace = false

/-- What GitLab has answered about the source: the project lives, the merge request is merged
into its default branch and changed the PRD, and the PRD there is still the one asked for. -/
structure Confirmed (σ : StartSite) (api : Api) (urls : StartUrls) (id iid : Nat) (branch : Text)
    (baseSha blob : List Char) : Prop where
  project : ∃ entries, api 0 (projectEndpoint urls.projectPath) = .ok (.dict entries) ∧
    (Value.get entries "archived").any Value.truthy = false ∧
    projectNumber σ entries = .ok id ∧ defaultBranch σ entries = .ok branch
  mr : ∃ entries, api 1 (mrEndpoint id iid) = .ok (.dict entries) ∧
    Profiles.hasStr entries "state" (codePoints "merged") = true ∧
    Profiles.hasStr entries "target_branch" branch = true
  changes : ∃ entries changes, api 2 (changesEndpoint id iid) = .ok (.dict entries) ∧
    Value.get entries "changes" = some (.list changes) ∧
    urls.prdPath.map .char ∈ newPaths σ changes
  head : ∃ entries chars v, branch = chars.map .char ∧
    api 3 (branchEndpoint id (quote chars)) = .ok (.dict entries) ∧
    commitId entries = some v ∧ σ.str v = baseSha.map .char
  requested : ∃ entries, api 4 (fileEndpoint id urls.prdPath urls.prdSha) = .ok (.dict entries) ∧
    σ.textOf entries "blob_id" = blob.map .char
  current : ∃ entries, api 5 (fileEndpoint id urls.prdPath baseSha) = .ok (.dict entries) ∧
    σ.textOf entries "blob_id" = blob.map .char

/-- The URLs and the answers that are accepted, and what is read from them. -/
structure Acceptable (σ : StartSite) (api : Api) (blobUrl mrUrl : List Char) (urls : StartUrls)
    (host : Option (List Char)) (id iid : Nat) (branch : Text) (baseSha blob : List Char)
    (scope : ArtifactScope) : Prop where
  names : UrlsName σ blobUrl mrUrl urls host
  number : ∃ n, σ.decimals.intOfText urls.mrDigits = .ok n ∧ n.toNat = iid
  confirmed : Confirmed σ api urls id iid branch baseSha blob
  positive : 0 < id
  nonempty : branch ≠ []
  baseSha : baseSha.length = 40 ∧ ∀ c ∈ baseSha, lowerHex c = true
  blob : blob.length = 40 ∧ ∀ c ∈ blob, lowerHex c = true
  links : σ.isHttpUrl blobUrl = true ∧ σ.isHttpUrl mrUrl = true
  scope : ArtifactScope.fromPrdPath (String.ofList urls.prdPath) σ.relativePatterns = .ok scope
  board : Record.boardPattern.holds s!"gitlab-p{id}" = true

/-! ## What passed -/

section Passed

variable {σ : StartSite} {api : Api} {α β ε : Type} {n id iid : Nat} {text code : String}
  {endpoint : List Char} {entries : Entries}

theorem bind_ok {x : Except ε α} {f : α → Except ε β} {b : β} :
    (x >>= f) = .ok b ↔ ∃ a, x = .ok a ∧ f a = .ok b := by
  cases x with
  | error e =>
    constructor
    · intro h
      cases h
    · rintro ⟨a, ha, -⟩
      cases ha
  | ok a =>
    constructor
    · intro h
      exact ⟨a, rfl, h⟩
    · rintro ⟨a', ha, hf⟩
      obtain rfl := Except.ok.inj ha
      exact hf

theorem mapError_ok {x : Except ε α} {f : ε → β} {a : α} :
    x.mapError f = .ok a ↔ x = .ok a := by
  cases x <;> simp [Except.mapError]

theorem refuse_ok {condition : Bool} {u : Unit} :
    refuse condition text = .ok u ↔ condition = false := by
  cases condition <;> simp [refuse]

theorem validated_ok {condition : Bool} {u : Unit} :
    validated condition = .ok u ↔ condition = true := by
  cases condition <;> simp [validated]

theorem requireObject_ok :
    requireObject api n endpoint = .ok entries ↔ api n endpoint = .ok (.dict entries) := by
  rw [requireObject, bind_ok]
  constructor
  · rintro ⟨v, hv, h⟩
    rw [call, mapError_ok] at hv
    cases v with
    | dict found =>
      obtain rfl := Except.ok.inj h
      exact hv
    | _ => cases h
  · intro h
    exact ⟨.dict entries, mapError_ok.mpr h, rfl⟩

theorem fileOf_ok {path ref : List Char} (h : fileOf api n id path ref = .ok entries) :
    api n (fileEndpoint id path ref) = .ok (.dict entries) := by
  rw [fileOf, bind_ok] at h
  obtain ⟨v, hv, h⟩ := h
  rw [call, mapError_ok] at hv
  cases v with
  | dict found =>
    obtain rfl := Except.ok.inj h
    exact hv
  | _ => cases h

theorem shaOf_some {t : Text} {sha : List Char} (h : shaOf t = some sha) :
    t = sha.map .char ∧ sha.length = 40 ∧ ∀ c ∈ sha, lowerHex c = true := by
  rw [shaOf, Option.filter_eq_some_iff, encode_eq_some, Bool.and_eq_true, beq_iff_eq,
    List.all_eq_true] at h
  exact ⟨h.1, h.2.1, h.2.2⟩

/-! ### Paths of URLs -/

theorem beforeFirst_some {rest : List Char → Option α} {project t p : List Char} {a : α}
    (h : beforeFirst rest project t = some (p, a)) :
    ∃ u v, t = u ++ v ∧ p = project ++ u ∧ rest v = some a := by
  induction t generalizing project with
  | nil => cases h
  | cons c t ih =>
    rw [beforeFirst] at h
    split at h
    next hhere =>
      obtain ⟨rfl, rfl⟩ := Prod.mk.inj (Option.some.inj h)
      split at hhere
      next => cases hhere
      next => exact ⟨[], c :: t, rfl, (List.append_nil _).symm, hhere⟩
    next =>
      obtain ⟨u, v, rfl, rfl, hv⟩ := ih h
      exact ⟨c :: u, v, rfl, by rw [List.append_assoc, List.singleton_append], hv⟩

theorem stripPrefix_some {word : String} {t rest : List Char} (h : stripPrefix word t = some rest) :
    t = word.toList ++ rest := by
  rw [stripPrefix, Option.ite_none_right_eq_some, List.isPrefixOf_iff_prefix] at h
  obtain ⟨⟨rest', rfl⟩, h⟩ := h
  rw [← String.length_toList, List.drop_left] at h
  rw [Option.some.inj h]

theorem pinnedPath_some {t sha path : List Char} (h : pinnedPath t = some (sha, path)) :
    t = sha ++ '/' :: path ∧ sha.length = 40 ∧ (∀ c ∈ sha, lowerHex c = true) ∧ path ≠ [] := by
  rw [pinnedPath] at h
  split at h
  next rest hrest =>
    rw [Option.ite_none_right_eq_some, Option.some.injEq, Prod.mk.injEq] at h
    obtain ⟨hchecks, rfl, rfl⟩ := h
    simp only [Bool.and_eq_true, beq_iff_eq, List.all_eq_true, bne_iff_ne] at hchecks
    refine ⟨?_, hchecks.1.1, hchecks.1.2, hchecks.2⟩
    rw [← hrest, List.take_append_drop]
  next => cases h

/-- The path of a PRD URL. -/
theorem prdOfPath_some {t project sha path : List Char}
    (h : prdOfPath t = some (project, sha, path)) :
    (∃ kind ∈ ["blob", "raw"],
      t = '/' :: project ++ "/-/".toList ++ kind.toList ++ '/' :: sha ++ '/' :: path) ∧
      sha.length = 40 ∧ (∀ c ∈ sha, lowerHex c = true) ∧ path ≠ [] := by
  rw [prdOfPath.eq_def] at h
  split at h
  next t =>
    obtain ⟨u, v, rfl, rfl, hv⟩ := beforeFirst_some h
    obtain ⟨pinned, hpinned, hpath⟩ := Option.bind_eq_some_iff.mp hv
    obtain ⟨rfl, hsha⟩ := pinnedPath_some hpath
    refine ⟨?_, hsha⟩
    rw [Option.or_eq_some_iff] at hpinned
    rcases hpinned with hblob | ⟨-, hraw⟩
    · refine ⟨"blob", by simp, ?_⟩
      rw [stripPrefix_some hblob]
      simp
    · refine ⟨"raw", by simp, ?_⟩
      rw [stripPrefix_some hraw]
      simp
  next => cases h

theorem mrOfPath_some {t project digits : List Char} (h : mrOfPath t = some (project, digits)) :
    (∃ slash ∈ [[], ['/']],
      t = '/' :: project ++ "/-/merge_requests/".toList ++ digits ++ slash) ∧
      digits.head?.any (· != '0') = true ∧ ∀ c ∈ digits, c.isDigit = true := by
  rw [mrOfPath.eq_def] at h
  split at h
  next t =>
    obtain ⟨u, v, rfl, rfl, hv⟩ := beforeFirst_some h
    obtain ⟨rest, hrest, hdigits⟩ := Option.bind_eq_some_iff.mp hv
    rw [mrNumber, Option.ite_none_right_eq_some, Bool.and_eq_true, Bool.or_eq_true, beq_iff_eq,
      beq_iff_eq, Option.some.injEq] at hdigits
    obtain ⟨⟨hfirst, hend⟩, rfl⟩ := hdigits
    refine ⟨⟨rest.dropWhile Char.isDigit, by simpa using hend, ?_⟩, hfirst, ?_⟩
    · rw [stripPrefix_some hrest]
      simp
    · intro c hc
      exact List.mem_takeWhile_imp hc
  next => cases h

theorem checkOrigin_ok {label : String} {u : Url} {v : Unit} (h : checkOrigin label u = .ok v) :
    u.scheme = "https".toList ∧ u.username = [] ∧ u.password = [] ∧ u.port = .ok none ∧
      u.query = [] ∧ u.fragment = [] := by
  rw [checkOrigin] at h
  split at h
  next => cases refuse_ok.mp h
  next port hport =>
    simp only [refuse_ok, Bool.or_eq_false_iff, bne_eq_false_iff_eq, Option.isSome_eq_false_iff,
      Option.isNone_iff_eq_none] at h
    obtain ⟨⟨⟨⟨⟨hscheme, huser⟩, hpass⟩, rfl⟩, hquery⟩, hfragment⟩ := h
    exact ⟨hscheme, huser, hpass, hport, hquery, hfragment⟩

theorem checkPaths_ok {blobPath mrPath : List Char} {urls : StartUrls}
    (h : checkPaths σ blobPath mrPath = .ok urls) : PathsName σ blobPath mrPath urls := by
  rw [checkPaths] at h
  split at h
  next blobProject sha quoted mrProject digits hblob hmr =>
    simp only [bind_ok, refuse_ok, Bool.or_eq_false_iff, Bool.and_eq_false_iff, Bool.not_eq_false',
      bne_eq_false_iff_eq, Except.ok.injEq] at h
    obtain ⟨-, ⟨⟨⟨hquoted, -⟩, hproject⟩, -⟩, -, hsame, -, hgroup, -, hcanonical, rfl⟩ := h
    obtain ⟨⟨kind, hkind, hpath⟩, hlength, hsha, -⟩ := prdOfPath_some hblob
    obtain ⟨hmrPath, hdigits⟩ := mrOfPath_some hmr
    rw [hquoted] at hsame hproject hgroup ⊢
    refine ⟨⟨kind, hkind, quoted, rfl, hpath⟩, hsame ▸ hmrPath, hdigits, ⟨hlength, hsha⟩, hproject,
      ?_, hcanonical⟩
    intro hne
    obtain ⟨group, hgroup, hprefix⟩ := List.any_eq_true.mp (hgroup.resolve_left hne)
    exact ⟨group, hgroup, List.isPrefixOf_iff_prefix.mp hprefix⟩
  next => cases h

theorem checkUrls_ok {blobUrl mrUrl : List Char} {urls : StartUrls} {host : Option (List Char)}
    (h : checkUrls σ blobUrl mrUrl = .ok (urls, host)) : UrlsName σ blobUrl mrUrl urls host := by
  simp only [checkUrls, bind_ok, mapError_ok, refuse_ok, Bool.and_eq_false_iff,
    bne_eq_false_iff_eq, Except.ok.injEq, Prod.mk.injEq] at h
  obtain ⟨blob, hblob, mr, hmr, _, hblobOrigin, _, hmrOrigin, -, hhost, -, hconfigured, urls',
    hpaths, rfl, rfl⟩ := h
  refine ⟨fun hne => hconfigured.resolve_left hne, blob, mr, ?_, ?_, checkPaths_ok hpaths⟩
  · obtain ⟨h₁, h₂, h₃, h₄, h₅, h₆⟩ := checkOrigin_ok hblobOrigin
    exact ⟨hblob, h₁, h₂, h₃, h₄, h₅, h₆, rfl⟩
  · obtain ⟨h₁, h₂, h₃, h₄, h₅, h₆⟩ := checkOrigin_ok hmrOrigin
    exact ⟨hmr, h₁, h₂, h₃, h₄, h₅, h₆, hhost.symm⟩

/-! ### Answers -/

variable {branch : Text} {projectPath prdPath baseSha blob : List Char} {iid : Nat}

theorem defaultBranch_ok (h : defaultBranch σ entries = .ok branch) :
    ∃ t, stripText t = branch := by
  rw [defaultBranch] at h
  split at h
  next => cases h
  next v _ => exact ⟨σ.str v, Except.ok.inj h⟩

theorem readProject_ok (h : readProject σ api projectPath = .ok (id, branch)) :
    (∃ entries, api 0 (projectEndpoint projectPath) = .ok (.dict entries) ∧
      (Value.get entries "archived").any Value.truthy = false ∧
      projectNumber σ entries = .ok id ∧ defaultBranch σ entries = .ok branch) ∧
      0 < id ∧ branch ≠ [] := by
  simp only [readProject, bind_ok, requireObject_ok, refuse_ok] at h
  obtain ⟨entries, hentries, -, harchived, n, hn, branch', hbranch, h⟩ := h
  split at h
  next => cases h
  next hvalid =>
    obtain ⟨rfl, rfl⟩ := Prod.mk.inj (Except.ok.inj h)
    rw [not_or, Int.not_le] at hvalid
    refine ⟨⟨entries, hentries, harchived, ?_, hbranch⟩, ?_, hvalid.2⟩
    · rw [hn, Int.toNat_of_nonneg hvalid.1.le]
    · have := hvalid.1
      omega

theorem readMr_ok {u : Unit} (h : readMr api id iid branch = .ok u) :
    ∃ entries, api 1 (mrEndpoint id iid) = .ok (.dict entries) ∧
      Profiles.hasStr entries "state" (codePoints "merged") = true ∧
      Profiles.hasStr entries "target_branch" branch = true := by
  simp only [readMr, bind_ok, requireObject_ok, refuse_ok, Bool.not_eq_false'] at h
  obtain ⟨entries, hentries, -, hstate, htarget⟩ := h
  exact ⟨entries, hentries, hstate, htarget⟩

theorem readChanges_ok {u : Unit} (h : readChanges σ api id iid prdPath = .ok u) :
    ∃ entries changes, api 2 (changesEndpoint id iid) = .ok (.dict entries) ∧
      Value.get entries "changes" = some (.list changes) ∧
      prdPath.map .char ∈ newPaths σ changes := by
  simp only [readChanges, bind_ok, requireObject_ok] at h
  obtain ⟨entries, hentries, h⟩ := h
  split at h
  next changes hchanges =>
    rw [refuse_ok, Bool.not_eq_false', List.contains_iff_mem] at h
    exact ⟨entries, changes, hentries, hchanges, h⟩
  next => cases h

theorem readBranch_ok (h : readBranch σ api id branch = .ok baseSha) :
    (∃ entries chars v, branch = chars.map .char ∧
      api 3 (branchEndpoint id (quote chars)) = .ok (.dict entries) ∧
      commitId entries = some v ∧ σ.str v = baseSha.map .char) ∧
      baseSha.length = 40 ∧ ∀ c ∈ baseSha, lowerHex c = true := by
  simp only [readBranch, bind_ok, requireObject_ok] at h
  obtain ⟨quoted, hquoted, entries, hentries, h⟩ := h
  rw [quoteText] at hquoted
  split at hquoted
  next chars hchars =>
    obtain rfl := Except.ok.inj hquoted
    split at h
    next => cases h
    next v hv =>
      split at h
      next sha hsha =>
        obtain rfl := Except.ok.inj h
        obtain ⟨htext, hlength, hhex⟩ := shaOf_some hsha
        exact ⟨⟨entries, chars, v, encode_eq_some.mp hchars, hentries, hv, htext⟩, hlength, hhex⟩
      next => cases h
  next => cases hquoted

theorem readBlob_ok {requestedRef currentRef : List Char}
    (h : readBlob σ api id prdPath requestedRef currentRef = .ok blob) :
    (∃ entries, api 4 (fileEndpoint id prdPath requestedRef) = .ok (.dict entries) ∧
      σ.textOf entries "blob_id" = blob.map .char) ∧
    (∃ entries, api 5 (fileEndpoint id prdPath currentRef) = .ok (.dict entries) ∧
      σ.textOf entries "blob_id" = blob.map .char) ∧
      blob.length = 40 ∧ ∀ c ∈ blob, lowerHex c = true := by
  simp only [readBlob, bind_ok] at h
  obtain ⟨requested, hrequested, current, hcurrent, h⟩ := h
  split at h
  next requestedBlob currentBlob hrequestedSha hcurrentSha =>
    simp only [bind_ok, refuse_ok, bne_eq_false_iff_eq, Except.ok.injEq] at h
    obtain ⟨-, rfl, rfl⟩ := h
    obtain ⟨hrequestedText, hlength, hhex⟩ := shaOf_some hrequestedSha
    exact ⟨⟨requested, fileOf_ok hrequested, hrequestedText⟩,
      ⟨current, fileOf_ok hcurrent, (shaOf_some hcurrentSha).1⟩, hlength, hhex⟩
  next => cases h

end Passed

/-! ## What the record keeps of a text -/

section Strips

variable {s : List Char}

theorem strippedText_eq (hhead : ∀ c ∈ s.head?, JsonSchema.isSpace c = false)
    (hlast : ∀ c ∈ s.getLast?, JsonSchema.isSpace c = false) : (strippedText s).toList = s := by
  have hdrop : ∀ t : List Char, (∀ c ∈ t.head?, JsonSchema.isSpace c = false) →
      t.dropWhile JsonSchema.isSpace = t := by
    intro t ht
    cases t with
    | nil => rfl
    | cons c t =>
      rw [List.dropWhile_cons_of_neg]
      rw [ht c rfl]
      exact Bool.false_ne_true
  rw [strippedText, stripped, JsonSchema.strip, String.toList_ofList, String.toList_ofList,
    hdrop s hhead, hdrop s.reverse (by rwa [List.head?_reverse]), List.reverse_reverse]

theorem strippedText_plain (h : ∀ c ∈ s, JsonSchema.isSpace c = false) :
    (strippedText s).toList = s :=
  strippedText_eq (fun c hc => h c (List.mem_of_head? hc))
    (fun c hc => h c (List.mem_of_getLast? hc))

/-- Printable ASCII is no whitespace. -/
theorem isSpace_printable {c : Char} (hlow : 33 ≤ c.toNat) (hhigh : c.toNat ≤ 126) :
    JsonSchema.isSpace c = false := by
  simp only [JsonSchema.isSpace, Bool.or_eq_false_iff, Bool.and_eq_false_iff,
    decide_eq_false_iff_not, beq_eq_false_iff_ne]
  omega

theorem toNat_lowerHex {c : Char} (h : lowerHex c = true) : 48 ≤ c.toNat ∧ c.toNat ≤ 102 := by
  rw [lowerHex, Bool.or_eq_true, Bool.and_eq_true, decide_eq_true_eq, decide_eq_true_eq] at h
  rcases h with hdigit | hletter
  · have := toNat_digit hdigit
    omega
  · have hlow : (97 : Nat) ≤ c.toNat := UInt32.le_iff_toNat_le.mp hletter.1
    have hhigh : c.toNat ≤ (102 : Nat) := UInt32.le_iff_toNat_le.mp hletter.2
    omega

theorem toNat_projectChar {c : Char} (h : isProjectChar c = true) :
    45 ≤ c.toNat ∧ c.toNat ≤ 122 := by
  simp only [isProjectChar, Bool.or_eq_true, beq_iff_eq] at h
  rcases h with ((halnum | rfl) | rfl) | rfl
  · have hrange := toNat_alphanum halnum
    omega
  all_goals decide

theorem isProjectPart_chars {part : List Char} (h : isProjectPart part = true) {c : Char}
    (hc : c ∈ part) : isProjectChar c = true := by
  cases part with
  | nil => cases hc
  | cons first rest =>
    rw [isProjectPart, Bool.and_eq_true, List.all_eq_true] at h
    rcases List.mem_cons.mp hc with rfl | hrest
    · rw [isProjectChar, h.1, Bool.true_or, Bool.true_or]
    · exact h.2 c hrest

theorem isProjectPath_chars {path : List Char} (h : isProjectPath path = true) {c : Char}
    (hc : c ∈ path) : isProjectChar c = true ∨ c = '/' := by
  rw [isProjectPath, Bool.and_eq_true, List.all_eq_true] at h
  rcases (mem_parts hc : c = '/' ∨ _) with rfl | ⟨part, hpart, hmem⟩
  · exact .inr rfl
  · exact .inl (isProjectPart_chars (h.2 part hpart) hmem)

theorem strippedText_hex (h : ∀ c ∈ s, lowerHex c = true) : (strippedText s).toList = s := by
  apply strippedText_plain
  intro c hc
  have := toNat_lowerHex (h c hc)
  exact isSpace_printable (by omega) (by omega)

theorem strippedText_project (h : isProjectPath s = true) : (strippedText s).toList = s := by
  apply strippedText_plain
  intro c hc
  rcases isProjectPath_chars h hc with hchar | rfl
  · have := toNat_projectChar hchar
    exact isSpace_printable (by omega) (by omega)
  · rfl

theorem stripText_head {t : Text} {c : CodePoint} (h : c ∈ (stripText t).head?) :
    c.isSpace = false := by
  have hfix : (stripText t).dropWhile CodePoint.isSpace = stripText t :=
    dropWhile_rdropWhile (dropWhile_dropWhile CodePoint.isSpace t)
  have hnot := List.head?_dropWhile_not CodePoint.isSpace (stripText t)
  rw [hfix, Option.mem_def.mp h] at hnot
  exact hnot

theorem stripText_last {t : Text} {c : CodePoint} (h : c ∈ (stripText t).getLast?) :
    c.isSpace = false := by
  rw [stripText, List.getLast?_reverse] at h
  have hnot := List.head?_dropWhile_not CodePoint.isSpace (t.dropWhile CodePoint.isSpace).reverse
  rw [Option.mem_def.mp h] at hnot
  exact hnot

/-- What Python has stripped, the strict models leave. -/
theorem strippedText_stripText {t : Text} (h : stripText t = s.map .char) :
    (strippedText s).toList = s := by
  have hspace : ∀ c : Char, (CodePoint.char c).isSpace = false → JsonSchema.isSpace c = false := by
    intro c hc
    simp only [CodePoint.isSpace, Python.isSpace, Bool.or_eq_false_iff, Bool.and_eq_false_iff,
      decide_eq_false_iff_not, beq_eq_false_iff_ne] at hc
    simp only [JsonSchema.isSpace, Bool.or_eq_false_iff, Bool.and_eq_false_iff,
      decide_eq_false_iff_not, beq_eq_false_iff_ne]
    omega
  apply strippedText_eq
  · intro c hc
    apply hspace
    apply stripText_head (t := t)
    rw [h, List.head?_map]
    exact Option.mem_map_of_mem _ hc
  · intro c hc
    apply hspace
    apply stripText_last (t := t)
    rw [h, List.getLast?_map]
    exact Option.mem_map_of_mem _ hc

/-- The name of a Markdown file ends with a letter. -/
theorem markdownStem_last {name stem : List Char} (h : markdownStem name = some stem) :
    ∃ text c, name = text ++ [c] ∧ JsonSchema.isSpace c = false := by
  unfold markdownStem at h
  split at h
  next stem' ending hsplit =>
    split at h
    next hsuffix =>
      obtain ⟨m, d, rfl⟩ : ∃ m d, ending = [m, d] := by
        have hlength := congrArg List.length hsuffix
        rw [List.length_map] at hlength
        exact List.length_eq_two.mp hlength
      refine ⟨stem' ++ ['.', m], d, by simp [splitSuffix_eq hsplit], ?_⟩
      have hlower : d.toLower = 'd' := by simpa using (List.cons.inj hsuffix).2
      by_contra hspace
      rw [Bool.not_eq_false] at hspace
      have hsame : d.toLower = d := by
        rw [Char.toLower, dif_neg]
        rintro ⟨hlow, hhigh⟩
        have hlow' : 65 ≤ d.toNat := UInt32.le_iff_toNat_le.mp hlow
        have hhigh' : d.toNat ≤ 90 := UInt32.le_iff_toNat_le.mp hhigh
        rw [isSpace_printable (by omega) (by omega)] at hspace
        cases hspace
      rw [← hsame, hlower] at hspace
      exact absurd hspace (by decide)
    next => cases h
  next => cases h

/-- The path of a PRD that can define a scope ends with the last letter of its suffix. -/
theorem prdRoot_last {path root : String} (hcanonical : isCanonicalPrdPath path = true)
    (hroot : prdRoot path = some root) :
    ∃ text c, path.toList = text ++ [c] ∧ JsonSchema.isSpace c = false := by
  simp only [isCanonicalPrdPath, Bool.and_eq_true, List.all_eq_true, decide_eq_true_eq]
    at hcanonical
  have hparts : pathParts path = path.toList.splitOn '/' := by
    apply List.filter_eq_self.mpr
    intro part hpart
    have hproper := hcanonical.2 part hpart
    simp only [List.mem_cons, List.not_mem_nil, or_false, not_or] at hproper
    simpa using ⟨hproper.1, hproper.2.1⟩
  unfold prdRoot at hroot
  extract_lets parts at hroot
  split at hroot
  next => cases hroot
  next name hlast =>
    split at hroot
    next => cases hroot
    next stem hstem =>
      obtain ⟨text, c, hname, hc⟩ := markdownStem_last hstem
      refine ⟨['/'].intercalate (parts.dropLast ++ [text]), c, ?_, hc⟩
      rw [← intercalate_last, ← hname, List.dropLast_append_getLast? name hlast,
        show parts = _ from hparts, List.intercalate_splitOn]

end Strips

/-! ## Numbers -/

section Numbers

variable {n m : Nat}

theorem decimal_eq : decimal n = Nat.toDigits 10 n := by
  rw [decimal, Nat.toString_eq_ofList_toDigits, String.toList_ofList]

theorem isDigit_decimal {c : Char} (h : c ∈ decimal n) : c.isDigit = true := by
  rw [decimal_eq] at h
  exact Nat.isDigit_of_mem_toDigits (by decide) (by decide) h

theorem decimal_inj (h : decimal n = decimal m) : n = m := by
  have hnum := congrArg (fun ds => Nat.ofDigitChars 10 ds 0) h
  simpa [decimal_eq] using hnum

end Numbers

/-! ## What is let through -/

section Let

variable {σ : StartSite} {api : Api} {α : Type} {text : String}

theorem refuse_false {condition : Bool} (h : condition = false) :
    refuse condition text = .ok () := by
  rw [h]
  rfl

theorem validated_true {condition : Bool} (h : condition = true) :
    validated condition = .ok () := by
  rw [h]
  rfl

theorem requireObject_eq {n : Nat} {endpoint : List Char} {entries : Entries}
    (h : api n endpoint = .ok (.dict entries)) : requireObject api n endpoint = .ok entries :=
  requireObject_ok.mpr h

theorem shaOf_map {sha : List Char} (hlength : sha.length = 40)
    (hhex : ∀ c ∈ sha, lowerHex c = true) : shaOf (sha.map .char) = some sha := by
  rw [shaOf, encode_map, Option.filter_some, if_pos]
  rw [Bool.and_eq_true, beq_iff_eq, List.all_eq_true]
  exact ⟨hlength, hhex⟩

/-! ### Paths of URLs -/

theorem stripPrefix_append (word : String) (rest : List Char) :
    stripPrefix word (word.toList ++ rest) = some rest := by
  rw [stripPrefix, if_pos (List.isPrefixOf_iff_prefix.mpr (List.prefix_append _ _)),
    ← String.length_toList, List.drop_left]

theorem beforeFirst_eq {rest : List Char → Option α} {v w project : List Char} {a : α}
    (hproject : project ++ w ≠ []) (hv : v ≠ []) (ha : rest v = some a)
    (hfirst : ∀ u x, w = u ++ x → x ≠ [] → rest (x ++ v) = none) :
    beforeFirst rest project (w ++ v) = some (project ++ w, a) := by
  induction w generalizing project with
  | nil =>
    rw [List.append_nil] at hproject ⊢
    obtain ⟨c, t, rfl⟩ := List.exists_cons_of_ne_nil hv
    rw [List.nil_append, beforeFirst, if_neg hproject, ha]
  | cons c w ih =>
    have hnone : (if project = [] then none else rest (c :: (w ++ v))) = none := by
      split
      · rfl
      · exact hfirst [] (c :: w) rfl (List.cons_ne_nil c w)
    rw [List.cons_append, beforeFirst, hnone]
    show beforeFirst rest (project ++ [c]) (w ++ v) = _
    rw [ih (by simp) fun u x hx hne => hfirst (c :: u) x (by rw [hx, List.cons_append]) hne,
      List.append_assoc, List.singleton_append]

theorem beforeFirst_nil {rest : List Char → Option α} {v project : List Char} {a : α}
    (hproject : project ≠ []) (hv : v ≠ []) (ha : rest v = some a)
    (hfirst : ∀ u x, project = u ++ x → x ≠ [] → rest (x ++ v) = none) :
    beforeFirst rest [] (project ++ v) = some (project, a) :=
  beforeFirst_eq hproject hv ha hfirst

/-- No place within a project path is a mark. -/
theorem isProjectPath_mark {u x v : List Char} (h : isProjectPath (u ++ x) = true) (hx : x ≠ []) :
    ¬ "/-/".toList <+: x ++ v := by
  intro hmark
  rw [show "/-/".toList = ['/', '-', '/'] from rfl] at hmark
  rw [isProjectPath, Bool.and_eq_true, List.all_eq_true] at h
  obtain ⟨c, t, rfl⟩ := List.exists_cons_of_ne_nil hx
  obtain ⟨rfl, hrest⟩ := List.cons_prefix_cons.mp hmark
  rw [List.splitOn_append_cons_self] at h
  cases t with
  | nil =>
    have hempty := h.2 [] (List.mem_append_right _ (by simp))
    cases hempty
  | cons d t =>
    obtain ⟨rfl, -⟩ := List.cons_prefix_cons.mp hrest
    obtain ⟨head, tail, hsplit⟩ := List.exists_cons_of_ne_nil (List.splitOn_ne_nil '/' t)
    have hdash : ('-' :: head) ∈ List.splitOn '/' ('-' :: t) := by
      rw [List.splitOn_cons_eq_if_modifyHead, if_neg (by decide), hsplit]
      exact List.mem_cons_self
    have hpart := h.2 _ (List.mem_append_right _ hdash)
    cases hpart

theorem stripPrefix_mark {word : String} {u x v : List Char} (hword : "/-/".toList <+: word.toList)
    (h : isProjectPath (u ++ x) = true) (hx : x ≠ []) : stripPrefix word (x ++ v) = none := by
  rw [stripPrefix, if_neg]
  intro hprefix
  exact isProjectPath_mark h hx (hword.trans (List.isPrefixOf_iff_prefix.mp hprefix))

theorem isProjectPath_ne_nil {path : List Char} (h : isProjectPath path = true) : path ≠ [] := by
  rintro rfl
  cases h

theorem pinnedPath_eq {sha path : List Char} (hlength : sha.length = 40)
    (hhex : ∀ c ∈ sha, lowerHex c = true) (hpath : path ≠ []) :
    pinnedPath (sha ++ '/' :: path) = some (sha, path) := by
  have htake : (sha ++ '/' :: path).take 40 = sha := by rw [← hlength, List.take_left]
  have hdrop : (sha ++ '/' :: path).drop 40 = '/' :: path := by rw [← hlength, List.drop_left]
  simp only [pinnedPath, htake, hdrop]
  rw [if_pos]
  simp only [Bool.and_eq_true, beq_iff_eq, List.all_eq_true, bne_iff_ne]
  exact ⟨⟨hlength, hhex⟩, hpath⟩

theorem prdOfPath_eq {project sha path : List Char} {kind : String} (hkind : kind ∈ ["blob", "raw"])
    (hproject : isProjectPath project = true) (hlength : sha.length = 40)
    (hhex : ∀ c ∈ sha, lowerHex c = true) (hpath : path ≠ []) :
    prdOfPath ('/' :: project ++ "/-/".toList ++ kind.toList ++ '/' :: sha ++ '/' :: path) =
      some (project, sha, path) := by
  have htext : '/' :: project ++ "/-/".toList ++ kind.toList ++ '/' :: sha ++ '/' :: path =
      '/' :: (project ++ ("/-/".toList ++ kind.toList ++ ['/'] ++ (sha ++ '/' :: path))) := by
    simp
  rw [htext, prdOfPath, beforeFirst_nil (isProjectPath_ne_nil hproject) (by simp)]
  · simp only [List.mem_cons, List.not_mem_nil, or_false] at hkind
    rcases hkind with rfl | rfl
    · have hblob : "/-/".toList ++ "blob".toList ++ ['/'] = "/-/blob/".toList := by decide
      rw [hblob, stripPrefix_append, Option.some_or, Option.bind_some,
        pinnedPath_eq hlength hhex hpath]
    · have hraw : "/-/".toList ++ "raw".toList ++ ['/'] = "/-/raw/".toList := by decide
      have hblob : stripPrefix "/-/blob/" ("/-/raw/".toList ++ (sha ++ '/' :: path)) = none := by
        rw [stripPrefix, if_neg]
        simp
      rw [hraw, hblob, stripPrefix_append, Option.none_or, Option.bind_some,
        pinnedPath_eq hlength hhex hpath]
  · intro u x hux hx
    rw [hux] at hproject
    rw [stripPrefix_mark (by decide) hproject hx, stripPrefix_mark (by decide) hproject hx]
    rfl

theorem mrNumber_eq {digits slash : List Char} (hfirst : digits.head?.any (· != '0') = true)
    (hdigits : ∀ c ∈ digits, c.isDigit = true) (hslash : slash ∈ [[], ['/']]) :
    mrNumber (digits ++ slash) = some digits := by
  simp only [List.mem_cons, List.not_mem_nil, or_false] at hslash
  have hends : slash.takeWhile Char.isDigit = [] ∧ slash.dropWhile Char.isDigit = slash := by
    rcases hslash with rfl | rfl <;> exact ⟨rfl, rfl⟩
  have htake : (digits ++ slash).takeWhile Char.isDigit = digits := by
    rw [List.takeWhile_append_of_pos hdigits, hends.1, List.append_nil]
  have hdrop : (digits ++ slash).dropWhile Char.isDigit = slash := by
    rw [List.dropWhile_append_of_pos hdigits, hends.2]
  rw [mrNumber, htake, hdrop, if_pos]
  rw [Bool.and_eq_true, Bool.or_eq_true, beq_iff_eq, beq_iff_eq]
  exact ⟨hfirst, hslash⟩

theorem mrOfPath_eq {project digits slash : List Char} (hproject : isProjectPath project = true)
    (hfirst : digits.head?.any (· != '0') = true) (hdigits : ∀ c ∈ digits, c.isDigit = true)
    (hslash : slash ∈ [[], ['/']]) :
    mrOfPath ('/' :: project ++ "/-/merge_requests/".toList ++ digits ++ slash) =
      some (project, digits) := by
  have htext : '/' :: project ++ "/-/merge_requests/".toList ++ digits ++ slash =
      '/' :: (project ++ ("/-/merge_requests/".toList ++ (digits ++ slash))) := by
    simp
  rw [htext, mrOfPath, beforeFirst_nil (isProjectPath_ne_nil hproject) (by simp)]
  · rw [stripPrefix_append, Option.bind_some, mrNumber_eq hfirst hdigits hslash]
  · intro u x hux hx
    rw [hux] at hproject
    rw [stripPrefix_mark (by decide) hproject hx]
    rfl

theorem unquote_project {project : List Char} (h : isProjectPath project = true) :
    unquote project = project := by
  rw [unquote, if_neg]
  intro hpercent
  rcases isProjectPath_chars h hpercent with hchar | hslash
  · exact absurd hchar (by decide)
  · exact absurd hslash (by decide)

theorem isProjectPath_dots {project : List Char} (h : isProjectPath project = true) :
    ((project.splitOn '/').any fun part => part == ['.'] || part == ['.', '.']) = false := by
  rw [isProjectPath, Bool.and_eq_true, List.all_eq_true] at h
  rw [List.any_eq_false]
  intro part hpart hdots
  have hproper := h.2 part hpart
  rw [Bool.or_eq_true, beq_iff_eq, beq_iff_eq] at hdots
  rcases hdots with rfl | rfl <;> cases hproper

theorem checkOrigin_eq {url : List Char} {host : Option (List Char)} {u : Url}
    (h : PlainOrigin σ url host u) (label : String) : checkOrigin label u = .ok () := by
  rw [checkOrigin, h.port]
  apply refuse_false
  rw [h.scheme, h.username, h.password, h.query, h.fragment]
  rfl

theorem checkPaths_eq {blobPath mrPath : List Char} {urls : StartUrls}
    (h : PathsName σ blobPath mrPath urls) : checkPaths σ blobPath mrPath = .ok urls := by
  obtain ⟨kind, hkind, quoted, hquoted, rfl⟩ := h.prd
  obtain ⟨slash, hslash, rfl⟩ := h.mr
  have hne : quoted ≠ [] := by
    rintro rfl
    have hcanonical := h.canonical
    rw [hquoted] at hcanonical
    exact absurd hcanonical (by decide)
  have hgroup : (σ.allowedGroups != [] &&
      !σ.allowedGroups.any fun group => (group ++ ['/']).isPrefixOf urls.projectPath) = false := by
    by_cases hnil : σ.allowedGroups = []
    · rw [hnil]
      rfl
    · obtain ⟨group, hgroup, hprefix⟩ := h.group hnil
      have hany : (σ.allowedGroups.any fun group =>
          (group ++ ['/']).isPrefixOf urls.projectPath) = true :=
        List.any_eq_true.mpr ⟨group, hgroup, List.isPrefixOf_iff_prefix.mpr hprefix⟩
      rw [hany, Bool.not_true, Bool.and_false]
  rw [checkPaths, prdOfPath_eq hkind h.project h.sha.1 h.sha.2 hne,
    mrOfPath_eq h.project h.digits.1 h.digits.2 hslash]
  simp only [bind_ok]
  have hunquoted := unquote_project h.project
  refine ⟨(), refuse_false ?_, (), refuse_false ?_, (), refuse_false ?_, (), refuse_false ?_, ?_⟩
  · rw [hunquoted, bne_self_eq_false, h.project, isProjectPath_dots h.project]
    rfl
  · rw [hunquoted, bne_self_eq_false]
  · rw [hunquoted]
    exact hgroup
  · rw [← hquoted, h.canonical]
    rfl
  · rw [hunquoted, ← hquoted]

theorem checkUrls_eq {blobUrl mrUrl : List Char} {urls : StartUrls} {host : Option (List Char)}
    (h : UrlsName σ blobUrl mrUrl urls host) : checkUrls σ blobUrl mrUrl = .ok (urls, host) := by
  obtain ⟨blob, mr, hblob, hmr, hpaths⟩ := h.paths
  have hconfigured : (σ.hostname != [] && host != some σ.hostname) = false := by
    by_cases hnil : σ.hostname = []
    · rw [hnil]
      rfl
    · rw [h.configured hnil, bne_self_eq_false, Bool.and_false]
  simp only [checkUrls, bind_ok, mapError_ok]
  refine ⟨blob, hblob.parsed, mr, hmr.parsed, (), checkOrigin_eq hblob "PRD", (),
    checkOrigin_eq hmr "MR", (), refuse_false ?_, (), refuse_false ?_, urls,
    checkPaths_eq hpaths, ?_⟩
  · rw [hblob.host, hmr.host, bne_self_eq_false]
  · rw [hblob.host]
    exact hconfigured
  · rw [hblob.host]

/-! ### Answers -/

variable {urls : StartUrls} {id iid : Nat} {branch : Text} {baseSha blob : List Char}

theorem fileOf_eq {n : Nat} {path ref : List Char} {entries : Entries}
    (h : api n (fileEndpoint id path ref) = .ok (.dict entries)) :
    fileOf api n id path ref = .ok entries := by
  rw [fileOf, bind_ok]
  exact ⟨.dict entries, mapError_ok.mpr h, rfl⟩

theorem readProject_eq (h : Confirmed σ api urls id iid branch baseSha blob) (hid : 0 < id)
    (hbranch : branch ≠ []) : readProject σ api urls.projectPath = .ok (id, branch) := by
  obtain ⟨entries, hentries, harchived, hnumber, hdefault⟩ := h.project
  simp only [readProject, bind_ok]
  refine ⟨entries, requireObject_eq hentries, (), refuse_false harchived, id, hnumber, branch,
    hdefault, ?_⟩
  rw [if_neg, Int.toNat_natCast]
  rw [not_or, Int.not_le]
  exact ⟨Int.natCast_pos.mpr hid, hbranch⟩

theorem readMr_eq (h : Confirmed σ api urls id iid branch baseSha blob) :
    readMr api id iid branch = .ok () := by
  obtain ⟨entries, hentries, hstate, htarget⟩ := h.mr
  simp only [readMr, bind_ok]
  refine ⟨entries, requireObject_eq hentries, (), refuse_false ?_, refuse_false ?_⟩
  · rw [hstate, Bool.not_true]
  · rw [htarget, Bool.not_true]

theorem readChanges_eq (h : Confirmed σ api urls id iid branch baseSha blob) :
    readChanges σ api id iid urls.prdPath = .ok () := by
  obtain ⟨entries, changes, hentries, hchanges, hmem⟩ := h.changes
  simp only [readChanges, bind_ok]
  refine ⟨entries, requireObject_eq hentries, ?_⟩
  rw [hchanges]
  apply refuse_false
  rw [List.contains_iff_mem.mpr hmem, Bool.not_true]

theorem readBranch_eq (h : Confirmed σ api urls id iid branch baseSha blob)
    (hlength : baseSha.length = 40) (hhex : ∀ c ∈ baseSha, lowerHex c = true) :
    readBranch σ api id branch = .ok baseSha := by
  obtain ⟨entries, chars, v, rfl, hentries, hcommit, hv⟩ := h.head
  simp only [readBranch, bind_ok]
  refine ⟨quote chars, ?_, entries, requireObject_eq hentries, ?_⟩
  · rw [quoteText, encode_map]
  · simp only [hcommit, hv, shaOf_map hlength hhex]

theorem readBlob_eq (h : Confirmed σ api urls id iid branch baseSha blob)
    (hlength : blob.length = 40) (hhex : ∀ c ∈ blob, lowerHex c = true) :
    readBlob σ api id urls.prdPath urls.prdSha baseSha = .ok blob := by
  obtain ⟨requested, hrequested, hrequestedText⟩ := h.requested
  obtain ⟨current, hcurrent, hcurrentText⟩ := h.current
  simp only [readBlob, bind_ok]
  refine ⟨requested, fileOf_eq hrequested, current, fileOf_eq hcurrent, ?_⟩
  rw [hrequestedText, hcurrentText, shaOf_map hlength hhex]
  exact bind_ok.mpr ⟨(), refuse_false (bne_self_eq_false blob), rfl⟩

end Let

/-! ## Accepted starts -/

section Accepted

variable {σ : StartSite} {api : Api} {blobUrl mrUrl : List Char} {s : StartSource}

/-- What an accepted start has read, and the source it has made of that. -/
theorem startSource_ok (h : startSource σ api blobUrl mrUrl = .ok s) :
    ∃ urls host id iid branch baseSha blob scope,
      Acceptable σ api blobUrl mrUrl urls host id iid branch baseSha blob scope ∧
      s = sourceFacts σ urls host id branch baseSha blob scope := by
  simp only [startSource, bind_ok, mapError_ok, validated_ok, Bool.and_eq_true,
    Except.ok.injEq] at h
  obtain ⟨⟨urls, host⟩, hurls, ⟨id, branch⟩, hproject, iid, hiid, _, hmr, _, hchanges, baseSha,
    hbase, blob, hblob, -, hlinks, scope, hscope, -, hboard, rfl⟩ := h
  obtain ⟨hproject, hid, hbranch⟩ := readProject_ok hproject
  obtain ⟨hhead, hbaseSha⟩ := readBranch_ok hbase
  obtain ⟨hrequested, hcurrent, hblobSha⟩ := readBlob_ok hblob
  exact ⟨urls, host, id, iid.toNat, branch, baseSha, blob, scope,
    { names := checkUrls_ok hurls
      number := ⟨iid, hiid, rfl⟩
      confirmed := ⟨hproject, readMr_ok hmr, readChanges_ok hchanges, hhead, hrequested, hcurrent⟩
      positive := hid
      nonempty := hbranch
      baseSha := hbaseSha
      blob := hblobSha
      links := hlinks
      scope := hscope
      board := hboard }, rfl⟩

theorem prdRoot_of_scope {path : String} {patterns : Option ArtifactPatterns}
    {scope : ArtifactScope} (h : ArtifactScope.fromPrdPath path patterns = .ok scope) :
    ∃ root, prdRoot path = some root := by
  cases hroot : prdRoot path with
  | none =>
    rw [ArtifactScope.fromPrdPath, hroot] at h
    cases h
  | some root => exact ⟨root, rfl⟩

/-- A path that does not begin with whitespace is kept. -/
theorem strippedText_prdPath {path : List Char} {root : String}
    (hcanonical : isCanonicalPrdPath (String.ofList path) = true)
    (hroot : prdRoot (String.ofList path) = some root) :
    (strippedText path).toList = path ↔ path.head?.any JsonSchema.isSpace = false := by
  obtain ⟨text, c, hpath, hc⟩ := prdRoot_last hcanonical hroot
  rw [String.toList_ofList] at hpath
  constructor
  · intro hsame
    cases path with
    | nil => rfl
    | cons first rest =>
      by_contra hspace
      rw [List.head?_cons, Option.any_some, Bool.not_eq_false] at hspace
      have hlength := congrArg List.length hsame
      rw [strippedText, stripped, JsonSchema.strip, String.toList_ofList, String.toList_ofList,
        List.dropWhile_cons_of_pos hspace, List.length_reverse, List.length_cons] at hlength
      have hback := (List.dropWhile_suffix JsonSchema.isSpace
        (l := (rest.dropWhile JsonSchema.isSpace).reverse)).length_le
      have hfront := (List.dropWhile_suffix JsonSchema.isSpace (l := rest)).length_le
      rw [List.length_reverse] at hback
      omega
  · intro hhead
    apply strippedText_eq
    · intro first hfirst
      rw [Option.mem_def.mp hfirst] at hhead
      exact hhead
    · intro last hlast
      rw [hpath, List.getLast?_concat] at hlast
      obtain rfl := Option.some.inj hlast
      exact hc

/-- **A start is accepted only for a merged PRD that GitLab has confirmed.** -/
theorem startSource_confirmed (h : startSource σ api blobUrl mrUrl = .ok s) :
    ∃ urls host iid, UrlsName σ blobUrl mrUrl urls host ∧ NamedBy urls s ∧
      Confirmed σ api urls s.projectId iid (codePoints s.defaultBranch) s.baseSha.toList
        s.prdBlobSha.toList := by
  obtain ⟨urls, host, id, iid, branch, baseSha, blob, scope, hok, rfl⟩ := startSource_ok h
  obtain ⟨_, _, -, -, hpaths⟩ := hok.names.paths
  obtain ⟨root, hroot⟩ := prdRoot_of_scope hok.scope
  have hconfirmed := hok.confirmed
  refine ⟨urls, host, iid, hok.names, ⟨strippedText_project hpaths.project,
    strippedText_hex hpaths.sha.2, strippedText_prdPath hpaths.canonical hroot⟩, ?_⟩
  obtain ⟨entries, chars, v, rfl, -⟩ := hconfirmed.head
  obtain ⟨project, -, -, -, hbranch⟩ := hconfirmed.project
  have hdefault : codePoints (strippedText ((encode (chars.map .char)).getD [])) =
      chars.map .char := by
    obtain ⟨t, ht⟩ := defaultBranch_ok hbranch
    rw [encode_map, Option.getD_some, codePoints, strippedText_stripText ht]
  show Confirmed σ api urls id iid (codePoints (strippedText _)) (strippedText baseSha).toList
    (strippedText blob).toList
  rw [hdefault, strippedText_hex hok.baseSha.2, strippedText_hex hok.blob.2]
  exact hconfirmed

/-! ### A merged PRD -/

def asciiDigit (c : Char) : Option (Fin 10) :=
  if c.isDigit then some ⟨(c.toNat - 48) % 10, Nat.mod_lt _ (Nat.succ_pos 9)⟩ else none

theorem asciiDigit_isSome (c : Char) : (asciiDigit c).isSome = c.isDigit := by
  rw [asciiDigit]
  split
  · next h => exact h.symm
  · next h => exact (Bool.eq_false_of_not_eq_true h).symm

def mergedSite : StartSite where
  hostname := "git.example".toList
  allowedGroups := ["group".toList]
  relativePatterns := none
  checks := { bracketed := fun _ => true, normal := fun _ => true }
  case := { lower := List.map Char.toLower, ascii := fun _ _ => rfl }
  decimals := { digit := asciiDigit, ascii := fun c _ => asciiDigit_isSome c }
  repr := fun _ => []
  isHttpUrl := fun _ => true
  -- the digest of the one identity that is asked for
  sha256 := fun _ => [9, 181, 81, 219, 126, 83, 5, 158, 169, 94, 110, 51, 67, 181, 115, 138,
    51, 167, 18, 19, 33, 202, 64, 48, 24, 87, 229, 206, 57, 186, 16, 8]
  digestLength := fun _ => rfl

/-- The answers to the six calls. -/
def mergedAnswers : Api := fun n _ => .ok <| .dict <| match n with
  | 0 => [(codePoints "id", .int 7), (codePoints "default_branch", .str (codePoints "main"))]
  | 1 => [(codePoints "state", .str (codePoints "merged")),
      (codePoints "target_branch", .str (codePoints "main"))]
  | 2 => [(codePoints "changes", .list [.dict [(codePoints "new_path",
      .str (codePoints "docs/A b.md"))]])]
  | 3 => [(codePoints "commit", .dict [(codePoints "id", .str (List.replicate 40 (.char '9')))])]
  | _ => [(codePoints "blob_id", .str (List.replicate 40 (.char 'f')))]

def mergedBlobUrl : List Char :=
  "https://git.example/group/project/-/blob/".toList ++ List.replicate 40 'a' ++
    "/docs/A%20b.md".toList

def mergedMrUrl : List Char := "https://git.example/group/project/-/merge_requests/12".toList

/-- The same version under the other kind of URL. -/
def mergedRawUrl : List Char :=
  "https://git.example/group/project/-/raw/".toList ++ List.replicate 40 'a' ++
    "/docs/A%20b.md".toList

def mergedUrls : StartUrls where
  projectPath := "group/project".toList
  prdSha := List.replicate 40 'a'
  prdPath := "docs/A b.md".toList
  mrDigits := "12".toList

theorem mergedBlobUrl_named :
    checkUrls mergedSite mergedBlobUrl mergedMrUrl =
      .ok (mergedUrls, some "git.example".toList) := by
  rfl

theorem mergedRawUrl_named :
    checkUrls mergedSite mergedRawUrl mergedMrUrl =
      .ok (mergedUrls, some "git.example".toList) := by
  rfl

theorem mergedStart_accepted :
    ∃ s, startSource mergedSite mergedAnswers mergedBlobUrl mergedMrUrl = .ok s ∧
      startSource mergedSite mergedAnswers mergedRawUrl mergedMrUrl = .ok s := by
  obtain ⟨s, hs⟩ : ∃ s, startSource mergedSite mergedAnswers mergedBlobUrl mergedMrUrl = .ok s := by
    rw [startSource, mergedBlobUrl_named]
    exact ⟨_, rfl⟩
  refine ⟨s, hs, ?_⟩
  rw [startSource, mergedBlobUrl_named] at hs
  rw [startSource, mergedRawUrl_named]
  exact hs

end Accepted

end HollysysController
