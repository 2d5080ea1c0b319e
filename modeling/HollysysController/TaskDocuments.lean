import HollysysController.Graph.Dfs
import HollysysController.Python.Regex
import Mathlib.Data.List.Dedup
import Mathlib.Data.List.Infix
import Mathlib.Data.List.Sort

/-! # TASKS documents

`validate_task_documents`: the blocks of the documents, the errors of each, and the search
of their dependency graph. Digests are parameters, and so are the order in which a set is
iterated and the table of word characters. -/

namespace HollysysController

open Python

/-! ## Patterns -/

/-- `T[0-9]{3,}`. -/
def taskIdItems : List Item := [.one (· == 'T'), .many 3 Char.isDigit]

/-- `[：:]`. -/
def colonItem : Item := .one fun c => c == '：' || c == ':'

/-- `TASK_HEADER_RE`. -/
def taskHeader : List Item :=
  .lineStart :: literal "- [ ] " ++ .opened :: taskIdItems ++
    ([.closed, .boundary, .many 0 (· != '\n'), .lineEnd] : List Item)

/-- `TASK_DEPENDENCY_RE`. -/
def taskDependency : List Item :=
  ([.lineStart, .many 1 isSpace] : List Item) ++ literal "- depends_on" ++
    [colonItem, .many 0 isSpace] ++ literal "[" ++
    ([.opened, .many 0 (· != ']'), .closed] : List Item) ++ literal "]" ++
    ([.many 0 isSpace, .lineEnd] : List Item)

/-- `TASK_ACTION_RE`. -/
def taskAction : List Item :=
  ([.lineStart, .many 1 isSpace] : List Item) ++ literal "- 动作" ++
    [colonItem, .many 0 isSpace, .opened,
      .words (["reuse", "modify", "extend", "create"].map String.toList), .closed,
      .many 0 isSpace, .lineEnd]

/-- `\bT[0-9]{3,}\b`. -/
def boundedTaskId : List Item := .boundary :: taskIdItems ++ [Item.boundary]

/-- A text in backticks, on one line. -/
def quotedPath : List Item :=
  [.one (· == '\x60'), .opened, .many 1 fun c => c != '\x60' && c != '\n', .closed,
    .one (· == '\x60')]

/-- `[\s,，、]`. -/
def separator (c : Char) : Bool := isSpace c || c == ',' || c == '，' || c == '、'

/-! ## Task blocks -/

structure TaskBlock where
  id : String
  text : List Char
  deriving DecidableEq

variable (W : Words)

/-- Each block runs from its header to the next one. -/
def taskBlocks (document : String) : List TaskBlock :=
  let document := document.toList
  let headers := finditer W taskHeader document
  headers.zipIdx.map fun (header, index) =>
    let stop := match headers[index + 1]? with
      | some following => following.start
      | none => document.length
    { id := String.ofList header.caught.group
      text := (document.drop header.start).take (stop - header.start) }

namespace TaskBlock

/-- The bracketed texts of the `depends_on` lines. -/
def dependencyTexts (b : TaskBlock) : List (List Char) :=
  (finditer W taskDependency b.text).map fun f => Python.strip f.caught.group

/-- `re.findall` of the bounded task ids. -/
def idsIn (text : List Char) : List String :=
  (finditer W boundedTaskId text).map fun f => String.ofList f.caught.text

/-- What is left of a bracketed text without the ids and the separators. -/
def residue (text : List Char) : List Char :=
  remove W [.many 1 separator] (remove W boundedTaskId text)

def actions (b : TaskBlock) : List String :=
  (finditer W taskAction b.text).map fun f => String.ofList f.caught.group

def targetPaths (b : TaskBlock) : List String :=
  (finditer W quotedPath b.text).map fun f => String.ofList f.caught.group

end TaskBlock

/-- Lower case outside ASCII does not matter: no character of another script becomes a
letter of the parts. -/
def looksLikeFrozenUpstream (path : String) : Bool :=
  let normalized := ((Python.strip path.toList).dropWhile fun c => c == '.' || c == '/').map Char.toLower
  ["/prds/", "/specs/", "/plans/", "docs/prd", "docs/spec", "docs/plan"].any fun part =>
    part.toList <:+: normalized

/-! ## Errors -/

inductive TaskError where
  | actionCount | dependencyCycle | dependsOnCount | duplicateId | frozenFileModified
  | malformedDependency | missingDependency | noTasks | selfDependency
  deriving DecidableEq

def TaskError.value : TaskError → String
  | .actionCount => "action_count"
  | .dependencyCycle => "dependency_cycle"
  | .dependsOnCount => "depends_on_count"
  | .duplicateId => "duplicate_id"
  | .frozenFileModified => "frozen_file_modified"
  | .malformedDependency => "malformed_dependency"
  | .missingDependency => "missing_dependency"
  | .noTasks => "no_tasks"
  | .selfDependency => "self_dependency"

namespace TaskBlock

/-- The ids of the one bracketed text; a block with none or several has no dependencies. -/
def dependencyIds (b : TaskBlock) : List String :=
  match b.dependencyTexts W with
  | [text] => idsIn W text
  | _ => []

def dependencyErrors (b : TaskBlock) : List TaskError :=
  match b.dependencyTexts W with
  | [text] => if residue W text = [] then [] else [.malformedDependency]
  | _ => [.dependsOnCount]

def actionErrors (b : TaskBlock) : List TaskError :=
  match b.actions W with
  | [action] =>
    if action ≠ "reuse" ∧ (b.targetPaths W).any looksLikeFrozenUpstream then
      [.frozenFileModified]
    else []
  | _ => [.actionCount]

end TaskBlock

/-! ## Validation -/

/-- The sets and the dict that the loop over the blocks fills. -/
structure TaskReading where
  errors : List TaskError := []
  tasks : List (String × List String) := []
  duplicateIds : List String := []

def TaskReading.block (s : TaskReading) (b : TaskBlock) : TaskReading :=
  let seen : Bool := b.id ∈ s.tasks.map Prod.fst
  let duplicateIds := if seen then b.id :: s.duplicateIds else s.duplicateIds
  { errors := (if seen then [.duplicateId] else []) ++ b.dependencyErrors W ++ b.actionErrors W ++
      s.errors
    -- an id that is no duplicate is a new key
    tasks := if b.id ∈ duplicateIds then s.tasks else s.tasks ++ [(b.id, b.dependencyIds W)]
    duplicateIds := duplicateIds }

def readDocuments (documents : List String) : TaskReading :=
  (documents.flatMap (taskBlocks W)).foldl (TaskReading.block W) {}

/-- The order in which a set that was built from a list is iterated. -/
structure SetOrder where
  order : List String → List String
  mem_order : ∀ ids id, id ∈ order ids ↔ id ∈ ids
  nodup_order : ∀ ids, (order ids).Nodup

/-- The digests of a list of documents and of a result. -/
structure TaskDigests where
  documents : List String → String
  result : String → List String → String

structure ValidationResult where
  inputDigest : String
  passed : Bool
  errorCodes : List String
  resultDigest : String
  deriving DecidableEq

/-- The exceptions of a validation. `RecursionError` is a `RuntimeError`. -/
inductive TaskValidationError where
  | valueError (text : String)
  | recursionError
  deriving DecidableEq

/-- `_result`. -/
def validationResult (digests : TaskDigests) (inputDigest : String) (errors : List TaskError) :
    ValidationResult :=
  let errorCodes := (errors.map TaskError.value).dedup.insertionSort (· ≤ ·)
  { inputDigest
    passed := errorCodes.isEmpty
    errorCodes
    resultDigest := digests.result inputDigest errorCodes }

/-- `tasks[task_id]`; every id that is asked for is a key. -/
def taskDependencies (tasks : List (String × List String)) (id : String) : List String :=
  (tasks.lookup id).getD []

/-- The dependencies that `visit` is called for, in their order. -/
def nextTasks (order : SetOrder) (tasks : List (String × List String)) (id : String) :
    List String :=
  (order.order (taskDependencies tasks id)).filter fun d => d ∈ tasks.map Prod.fst

/-- The errors of the loop over the tasks. -/
def referenceErrors (tasks : List (String × List String)) : List TaskError :=
  (if tasks.any fun (_, ids) => ids.any fun d => d ∉ tasks.map Prod.fst then
    [TaskError.missingDependency] else []) ++
  (if tasks.any fun (id, ids) => id ∈ ids then [TaskError.selfDependency] else [])

/-- `frames` are what the interpreter's recursion limit leaves for `visit`. -/
def validateTaskDocuments (order : SetOrder) (digests : TaskDigests) (frames : Nat)
    (documents : List String) : Except TaskValidationError ValidationResult :=
  let inputDigest := digests.documents documents
  let s := readDocuments W documents
  if s.tasks = [] then .ok (validationResult digests inputDigest (.noTasks :: s.errors))
  else
    let errors := referenceErrors s.tasks ++ s.errors
    match Graph.search (nextTasks order s.tasks) frames (s.tasks.map Prod.fst) with
    | none => .error .recursionError
    | some colours =>
      .ok (validationResult digests inputDigest
        (if colours.cycle then .dependencyCycle :: errors else errors))

end HollysysController
