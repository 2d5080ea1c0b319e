import HollysysController.Acceptance

/-! # The gates in `status`

The audit of a run looks at the newest completion of each gate again, with the
author of its note, and does not let one GitLab user vouch for both code gates. -/

namespace HollysysController

open Durable

/-- One row of `gates`. -/
structure GateStatus where
  valid : Bool := false
  evidenceValid : Bool := false
  outcome : Option Outcome := none
  reason : Option String := none
  author : Option String := none
  headSha : Option String := none
  artifactCommitSha : Option String := none
  artifactDigest : Option String := none
  testDisposition : Option TestDisposition := none
  skipReason : Option String := none
  deriving DecidableEq, Repr

def gateStages : List Stage := [.specReview, .planReview, .tasksReview, .test, .codeReview]

/-- The author of the gate, and what is wrong with its evidence. A gate of a document
must hold at the MR head. -/
def gateEvidence (run : RunRecord) (mr : Option MergeRequest) (s : Stage)
    (m : CompletionPayload) : Service (Option String × Option String) := do
  match ← (validateGate .status run m).attempt with
  | .error e => pure (none, some e.text)
  | .ok author =>
    let head := (mr.map (·.head)).getD ""
    if s.isDocumentReview && head != "" then
      match ← (gitlab (.check (.artifactGateAtRef run m head))).attempt with
      | .error e => pure (author, some e.text)
      | .ok _ => pure (author, none)
    else pure (author, none)

/-- The row of one gate. -/
def gateStatus (run : RunRecord) (mr : Option MergeRequest) (items : List HistoryItem)
    (s : Stage) : Service GateStatus :=
  match latestValidCompletion items s [.pass, .fail] with
  | none => pure { reason := some "no applicable completion" }
  | some m => do
    let (author, wrong) ← gateEvidence run mr s m.toCompletionPayload
    let valid := wrong.isNone && m.outcome == .pass
    pure {
      valid
      evidenceValid := wrong.isNone
      outcome := some m.outcome
      reason := if wrong.isSome then wrong else if valid then none
        else some "gate evidence is valid but outcome is fail"
      author
      headSha := m.headSha
      artifactCommitSha := m.artifactCommitSha
      artifactDigest := m.artifactDigest
      testDisposition := m.testDisposition
      skipReason := m.skipReason }

/-- `for stage in (…)`. -/
def gateRows (run : RunRecord) (mr : Option MergeRequest) (items : List HistoryItem) :
    List Stage → Service (List (Stage × GateStatus))
  | [] => pure []
  | s :: ss => do
    let row ← gateStatus run mr items s
    let rows ← gateRows run mr items ss
    pure ((s, row) :: rows)

/-- Both code gates are valid and have one author. -/
def sameUser (rows : List (Stage × GateStatus)) : Bool :=
  match rows.lookup .test, rows.lookup .codeReview with
  | some test, some review => test.valid && review.valid && test.author == review.author
  | _, _ => false

def sameUserReason : String :=
  "test and code-review were published by the same GitLab user"

/-- The code gates of one user are no gates. -/
def checkAuthors (rows : List (Stage × GateStatus)) : List (Stage × GateStatus) :=
  if sameUser rows then
    rows.map fun (s, row) =>
      if s.isCodeGate then (s, { row with valid := false, reason := some sameUserReason })
      else (s, row)
  else rows

/-- `status`, the value of `gates`. -/
def gatesStatus (runKey : String) : Service (List (Stage × GateStatus)) := do
  let (items, run) ← history runKey
  let mr ← boundDeliveryMr .status run
  let rows ← gateRows run mr items gateStages
  pure (checkAuthors rows)

/-- The evidence of the gate holds and it passed, but it does not count. -/
def GateStatus.discounted (row : GateStatus) : Bool :=
  row.evidenceValid && row.outcome == some .pass && !row.valid

/-- `status` reports the code gates as independent. -/
def reportsIndependent (rows : List (Stage × GateStatus)) : Bool :=
  rows.all fun (_, row) => !row.discounted

end HollysysController
