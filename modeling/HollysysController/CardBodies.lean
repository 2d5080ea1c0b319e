import HollysysController.CardRecords
import HollysysController.Messages
import HollysysController.Python.Search

/-! # Card bodies

The bodies of run roots, work cards and exception cards: a marker, a text for the reader, and
the record as JSON in a code block. A record is read back from the body that was rendered for
it, whatever its strings are. -/

namespace HollysysController.Record

open Python (Value Text Double CodePoint Codec PyError codePoints codePoints_of find findFrom find_append
  find_of_prefix findFrom_zero rfind rfind_append slice slice_append)
open Python.Json (JsonError dumps loads loads_dumps write writeEntries quoted newLine Written)

/-! ## Rendering -/

def cardMarker : String := "[hollysys-controller-card:v4]"

def exceptionMarker : String := "[hollysys-controller-exception:v4]"

def runMarker : String := "[hollysys-controller-run:v4]"

def fence : Text := codePoints "```"

def jsonFence : Text := codePoints "```json"

/-- A body: the marker, the text, and the payload in a block. -/
def bodyOf (marker : String) (prose payload : Text) : Text :=
  codePoints marker ++ (codePoints "\n\n" ++ (prose ++
    (jsonFence ++ (codePoints "\n" ++ payload ++ codePoints "\n" ++ (fence ++ codePoints "\n")))))

def runProse : Text :=
  codePoints "这是控制器生成的不可变运行根记录，不由 Agent 执行业务工作。\n\n"

def exceptionProse : Text :=
  codePoints "该卡由 Dispatcher 作为异常入口处理；不得直接推进门禁或合并。\n\n"

/-- The text of a card after its iteration. -/
def cardRules : Text :=
  codePoints "`。\n\n开始前必须读取完整 JSON 输入和角色 Skill。所有工作写入指定共享 " ++
  codePoints "worktree/branch/MR；完成时提交符合 " ++
  codePoints "`/opt/fleet/schemas/card-completion.schema.json` 的严格 metadata，并先运行 " ++
  codePoints "`hollysysctl validate-completion --card-id <当前卡> --metadata <json>`。\n\n" ++
  codePoints "GitLab API 只使用当前 Profile 环境中的 `GITLAB_HOST/GITLAB_TOKEN` 调用 " ++
  codePoints "`glab`，不得运行 `glab auth login`。远程 Git 只使用 PATH 中的受控 `git` " ++
  codePoints "和 `https://green-git.hollysys.net/<allowed-group>/...`；禁止 SSH、明文 " ++
  codePoints "HTTP、含 token 的 remote、持久 credential 或系统 Git 绕过路径。" ++
  codePoints "只读 Profile 不得 push。\n\n" ++
  codePoints "真正需要人类时先写 `[human-block:v1]` 评论再使用 " ++
  codePoints "`kanban_block`；Controller outbox 负责原渠道通知。不得创建、链接或推进 " ++
  codePoints "其他正式卡片。environment/destructive_approval 阻塞还必须写明 " ++
  codePoints "`gate_phase`、冻结 `requirement_ids` 和 `contract_refs`。\n\n"

def cardProse {L : Leaves} (card : CardRecord L) : Text :=
  codePoints "执行阶段：`" ++ codePoints card.stage.value ++ codePoints "`，模式：`" ++
    codePoints card.mode.value ++ codePoints "`，迭代：`" ++
    Python.Json.intText card.iteration.val ++ cardRules

variable (L : Leaves)

def renderRunBody (run : RunRecord L) : Except PyError Text :=
  (dumps L.floatText ((runRecord L).dump run)).map (bodyOf runMarker runProse)

def renderCardBody (card : CardRecord L) : Except PyError Text :=
  (dumps L.floatText ((cardRecord L).dump card)).map (bodyOf cardMarker (cardProse card))

def renderExceptionBody (record : ExceptionCardRecord L) : Except PyError Text :=
  (dumps L.floatText ((exceptionCardRecord L).dump record)).map
    (bodyOf exceptionMarker exceptionProse)

/-! ## Parsing -/

inductive BodyError where
  | missing (marker : String)
  | block
  | trailing
  | json (e : JsonError)
  | validation
  deriving DecidableEq, Repr

/-- `_extract_json`. The interpreter has `frames` calls for the arrays and objects. -/
def extractJson (frames : Nat) (body : Option Text) (marker : String) :
    Except BodyError Value :=
  match body with
  | none => .error (.missing marker)
  | some body =>
    match find (codePoints marker) body with
    | none => .error (.missing marker)
    | some at_ =>
      match findFrom jsonFence body at_, rfind fence body with
      | some start, some stop =>
        if stripText (body.drop (stop + fence.length)) ≠ [] then .error .trailing
        else (loads frames (stripText (slice body (start + jsonFence.length) stop))).mapError
          .json
      | _, _ => .error .block

def parseRunBody (frames : Nat) (body : Option Text) : Except BodyError (RunRecord L) := do
  let payload ← extractJson frames body runMarker
  ((runRecord L).validate payload).elim (.error .validation) .ok

def parseCardBody (frames : Nat) (body : Option Text) : Except BodyError (CardRecord L) := do
  let payload ← extractJson frames body cardMarker
  ((cardRecord L).validate payload).elim (.error .validation) .ok

/-! ## Fences -/

/-- Whether a text ends with a backtick, when no two of them stand side by side. -/
def calm : Bool → Text → Option Bool
  | after, [] => some after
  | after, c :: s =>
    if c = .char '\x60' then if after then none else calm true s else calm false s

theorem calm_append (after : Bool) (s t : Text) :
    calm after (s ++ t) = (calm after s).bind fun after => calm after t := by
  induction s generalizing after with
  | nil => rfl
  | cons c s ih =>
    rw [List.cons_append, calm, calm]
    split
    · split
      · rfl
      · exact ih true
    · exact ih false

theorem calm_plain {s : Text} (h : ∀ c ∈ s, c ≠ .char '\x60') (hs : s ≠ []) (after : Bool) :
    calm after s = some false := by
  induction s generalizing after with
  | nil => exact absurd rfl hs
  | cons c s ih =>
    rw [calm, if_neg (h c List.mem_cons_self)]
    by_cases hnil : s = []
    · rw [hnil, calm]
    · exact ih (fun c hc => h c (List.mem_cons_of_mem _ hc)) hnil false

/-- No fence begins in a calm text. -/
theorem calm_fence {s : Text} (h : calm false s = some false) (t : Text) :
    find jsonFence (s ++ (jsonFence ++ t)) = some s.length := by
  have htick : jsonFence = .char '\x60' :: .char '\x60' :: codePoints "`json" := rfl
  rw [find_append, find_of_prefix (List.prefix_append _ _)]
  · simp
  rintro u v rfl hv hprefix
  rw [htick] at hprefix
  rw [calm_append] at h
  obtain ⟨after, hafter, hrest⟩ := Option.bind_eq_some_iff.mp h
  cases v with
  | nil => exact hv rfl
  | cons c v =>
    obtain ⟨rfl, htail⟩ := List.cons_prefix_cons.mp hprefix
    rw [calm, if_pos rfl] at hrest
    cases after with
    | true => simp at hrest
    | false =>
      cases v with
      | nil => simp [calm] at hrest
      | cons d v =>
        obtain ⟨rfl, -⟩ := List.cons_prefix_cons.mp htail
        simp [calm] at hrest

/-- The block of a body, from its marker on. -/
theorem body_block {marker : String} {prose payload : Text}
    (h : calm false (codePoints marker ++ (codePoints "\n\n" ++ prose)) = some false) :
    findFrom jsonFence (bodyOf marker prose payload) 0 =
      some (codePoints marker ++ (codePoints "\n\n" ++ prose)).length := by
  have hfound := calm_fence h (codePoints "\n" ++ payload ++ codePoints "\n" ++
    (fence ++ codePoints "\n"))
  rw [findFrom_zero, bodyOf]
  simpa only [List.append_assoc] using hfound

theorem body_stop (marker : String) (prose payload : Text) :
    rfind fence (bodyOf marker prose payload) =
      some ((codePoints marker ++ (codePoints "\n\n" ++ prose)).length + jsonFence.length +
        (codePoints "\n" ++ payload ++ codePoints "\n").length) := by
  have hlast : rfind fence (fence ++ codePoints "\n") = some 0 := rfl
  have hfound := rfind_append (s := codePoints marker ++ (codePoints "\n\n" ++ prose) ++
    jsonFence ++ (codePoints "\n" ++ payload ++ codePoints "\n")) hlast
  rw [bodyOf]
  simpa only [List.append_assoc, List.length_append, Nat.add_assoc, Nat.add_zero] using hfound

theorem body_tail (marker : String) (prose payload : Text) :
    (bodyOf marker prose payload).drop
      ((codePoints marker ++ (codePoints "\n\n" ++ prose)).length + jsonFence.length +
        (codePoints "\n" ++ payload ++ codePoints "\n").length + fence.length) =
      codePoints "\n" := by
  have hsplit : bodyOf marker prose payload =
      (codePoints marker ++ (codePoints "\n\n" ++ prose) ++ jsonFence ++
        (codePoints "\n" ++ payload ++ codePoints "\n") ++ fence) ++ codePoints "\n" := by
    simp only [bodyOf, List.append_assoc]
  rw [hsplit, List.drop_left' (by simp only [List.length_append])]

theorem body_slice (marker : String) (prose payload : Text) :
    slice (bodyOf marker prose payload)
      ((codePoints marker ++ (codePoints "\n\n" ++ prose)).length + jsonFence.length)
      ((codePoints marker ++ (codePoints "\n\n" ++ prose)).length + jsonFence.length +
        (codePoints "\n" ++ payload ++ codePoints "\n").length) =
      codePoints "\n" ++ payload ++ codePoints "\n" := by
  have hslice := slice_append (codePoints marker ++ (codePoints "\n\n" ++ prose) ++ jsonFence)
    (codePoints "\n" ++ payload ++ codePoints "\n") (fence ++ codePoints "\n")
  have hsplit : bodyOf marker prose payload =
      (codePoints marker ++ (codePoints "\n\n" ++ prose) ++ jsonFence) ++
        ((codePoints "\n" ++ payload ++ codePoints "\n") ++ (fence ++ codePoints "\n")) := by
    simp only [bodyOf, List.append_assoc]
  rw [hsplit]
  rwa [List.length_append] at hslice

/-- A text that begins and ends with a brace has nothing to strip but the line breaks. -/
theorem stripText_block (w : Text) :
    stripText (codePoints "\n" ++ (.char '\x7b' :: w ++ [CodePoint.char '\x7d']) ++
      codePoints "\n") = .char '\x7b' :: w ++ [CodePoint.char '\x7d'] := by
  have hline : codePoints "\n" = [.char '\n'] := rfl
  have hspace : (CodePoint.char '\n').isSpace = true := by decide
  have hopen : (CodePoint.char '\x7b').isSpace = false := by decide
  have hclose : (CodePoint.char '\x7d').isSpace = false := by decide
  simp [stripText, hline, hspace, hopen, hclose]

/-- The text of a model. -/
theorem write_model (repr : Double → Text) (entry : Text × Value)
    (entries : List (Text × Value)) : ∃ w, write repr 0 (.dict (entry :: entries)) =
      CodePoint.char '\x7b' :: w ++ [CodePoint.char '\x7d'] := by
  obtain ⟨key, v⟩ := entry
  refine ⟨newLine 1 ++ quoted key ++ codePoints ": " ++ write repr 1 v ++
    writeEntries repr 1 entries ++ newLine 0, ?_⟩
  simp [write]

/-- **What `_extract_json` reads of a body.** -/
theorem extractJson_bodyOf {marker : String} {prose : Text} (frames : Nat) (w : Text)
    (h : calm false (codePoints marker ++ (codePoints "\n\n" ++ prose)) = some false) :
    extractJson frames
        (some (bodyOf marker prose (.char '\x7b' :: w ++ [CodePoint.char '\x7d']))) marker =
      (loads frames (.char '\x7b' :: w ++ [CodePoint.char '\x7d'])).mapError .json := by
  have hmarker : find (codePoints marker)
      (bodyOf marker prose (.char '\x7b' :: w ++ [CodePoint.char '\x7d'])) = some 0 :=
    find_of_prefix (List.prefix_append _ _)
  have hblank : ¬ stripText (codePoints "\n") ≠ [] := by decide
  simp only [extractJson, hmarker, body_block h, body_stop, body_tail, if_neg hblank, body_slice,
    stripText_block]

/-! ## Round trips -/

theorem runMarker_calm :
    calm false (codePoints runMarker ++ (codePoints "\n\n" ++ runProse)) = some false := by
  rw [runMarker, runProse, codePoints_of rfl, codePoints_of rfl, codePoints_of rfl]
  decide

theorem exceptionMarker_calm :
    calm false (codePoints exceptionMarker ++ (codePoints "\n\n" ++ exceptionProse)) =
      some false := by
  rw [exceptionMarker, exceptionProse, codePoints_of rfl, codePoints_of rfl, codePoints_of rfl]
  decide

theorem cardRules_calm : calm false (cardRules) = some false := by
  rw [cardRules]
  repeat rw [codePoints_of rfl]
  decide +kernel

theorem intText_calm (n : Int) (after : Bool) :
    calm after (Python.Json.intText n) = some false := by
  refine calm_plain ?_ ?_ after
  · intro c hc
    rcases List.mem_append.mp hc with hsign | hdigit
    · split at hsign
      · rw [List.mem_singleton.mp hsign]
        decide
      · cases hsign
    · obtain ⟨d, hd, rfl⟩ := List.mem_map.mp hdigit
      have hdigit : d.isDigit = true := Nat.isDigit_of_mem_toDigits (by decide) (by decide) hd
      intro heq
      rw [Python.CodePoint.char.inj heq] at hdigit
      revert hdigit
      decide
  · have hne : Nat.toDigits 10 n.natAbs ≠ [] := Nat.toDigits_ne_nil
    intro hnil
    exact hne (List.map_eq_nil_iff.mp (List.append_eq_nil_iff.mp hnil).2)

theorem cardProse_calm {L : Leaves} (card : CardRecord L) :
    calm false (codePoints cardMarker ++ (codePoints "\n\n" ++ cardProse card)) = some false := by
  have hhead : calm false (codePoints cardMarker ++ (codePoints "\n\n" ++
      codePoints "执行阶段：`")) = some true := by
    rw [cardMarker, codePoints_of rfl, codePoints_of rfl, codePoints_of rfl]
    decide
  have hstage : calm true (codePoints card.stage.value) = some false := by
    cases card.stage <;> rfl
  have hmode : calm true (codePoints card.mode.value) = some false := by
    cases card.mode <;> rfl
  have hnext : calm false (codePoints "`，模式：`") = some true := rfl
  have hlast : calm false (codePoints "`，迭代：`") = some true := rfl
  have hdecompose : codePoints cardMarker ++ (codePoints "\n\n" ++ cardProse card) =
      (codePoints cardMarker ++ (codePoints "\n\n" ++ codePoints "执行阶段：`")) ++
        (codePoints card.stage.value ++ (codePoints "`，模式：`" ++ (codePoints card.mode.value ++
          (codePoints "`，迭代：`" ++ (Python.Json.intText card.iteration.val ++
            cardRules))))) := by
    simp only [cardProse, List.append_assoc]
  rw [hdecompose, calm_append, hhead, Option.bind_some, calm_append, hstage, Option.bind_some,
    calm_append, hnext, Option.bind_some, calm_append, hmode, Option.bind_some, calm_append,
    hlast, Option.bind_some, calm_append, intText_calm, Option.bind_some, cardRules_calm]

variable {L : Leaves} {frames : Nat}

/-- A record is read back from the block that was written for it. -/
theorem extractJson_dumps {α : Type} {c : Codec α} {a : α} {marker : String} {prose text : Text}
    (hmodel : ∃ entry entries, c.dump a = .dict (entry :: entries))
    (hcalm : calm false (codePoints marker ++ (codePoints "\n\n" ++ prose)) = some false)
    (hframes : c.levels ≤ frames) (htext : dumps L.floatText (c.dump a) = .ok text) :
    extractJson frames (some (bodyOf marker prose text)) marker = .ok (c.dump a) := by
  have hloads := loads_dumps (c.regular a) ((c.depth_le a).trans hframes) htext
  obtain ⟨entry, entries, hdump⟩ := hmodel
  rw [hdump, dumps] at htext
  split at htext
  case isFalse => cases htext
  case isTrue =>
    obtain ⟨w, hw⟩ := write_model L.floatText entry entries
    rw [hw] at htext
    obtain rfl := Except.ok.inj htext
    rw [extractJson_bodyOf frames w hcalm, hloads]
    rfl

theorem dumps_written {v : Value} (h : Written v = true) :
    dumps L.floatText v = .ok (write L.floatText 0 v) :=
  if_pos h

theorem parseCardBody_of {body : Option Text} {payload : Value} {c : CardRecord L}
    (hjson : extractJson frames body cardMarker = .ok payload)
    (hvalid : (cardRecord L).validate payload = some c) :
    parseCardBody L frames body = .ok c := by
  simp only [parseCardBody, hjson, bind, Except.bind, hvalid, Option.elim]

theorem parseRunBody_of {body : Option Text} {payload : Value} {r : RunRecord L}
    (hjson : extractJson frames body runMarker = .ok payload)
    (hvalid : (runRecord L).validate payload = some r) :
    parseRunBody L frames body = .ok r := by
  simp only [parseRunBody, hjson, bind, Except.bind, hvalid, Option.elim]

theorem renderCardBody_written {c : CardRecord L} (h : Written ((cardRecord L).dump c) = true) :
    renderCardBody L c =
      .ok (bodyOf cardMarker (cardProse c) (write L.floatText 0 ((cardRecord L).dump c))) := by
  rw [renderCardBody, dumps_written h, Except.map]

/-- **The bodies of cards and runs round-trip.** The JSON writer has a text for the integers of
the record, and the reader calls for its nesting. -/
theorem bodies_roundTrip (hframes : 5 ≤ frames) :
    (∀ c : CardRecord L, Written ((cardRecord L).dump c) = true →
      ∃ body, renderCardBody L c = .ok body ∧ parseCardBody L frames (some body) = .ok c) ∧
    ∀ r : RunRecord L, Written ((runRecord L).dump r) = true →
      ∃ body, renderRunBody L r = .ok body ∧ parseRunBody L frames (some body) = .ok r := by
  constructor
  · intro c hc
    have hread := extractJson_dumps (L := L) ⟨_, _, rfl⟩ (cardProse_calm c) hframes
      (dumps_written hc)
    exact ⟨_, renderCardBody_written hc, parseCardBody_of hread ((cardRecord L).validate_dump c)⟩
  · intro r hr
    have hread := extractJson_dumps (L := L) ⟨_, _, rfl⟩ runMarker_calm
      (le_trans (show 3 ≤ 5 by decide) hframes) (dumps_written hr)
    refine ⟨_, ?_, parseRunBody_of hread ((runRecord L).validate_dump r)⟩
    rw [renderRunBody, dumps_written hr, Except.map]

/-! ## A sample -/

/-- URLs and times that are kept as they are written. -/
def sampleLeaves : Leaves where
  Url := String
  urlText u := u
  url := Codec.textOf
  url_urlText := Codec.textOf_codePoints
  DateTime := String
  timeText t := t
  time := Codec.textOf
  time_timeText := Codec.textOf_codePoints
  aware _ := true
  int
    | .int n => some n
    | _ => none
  int_int _ := rfl
  floatText _ := []

def sampleSha : Sha := ⟨"aaaaaaaaaaaaaaaaaaaabbbbbbbbbbbbbbbbbbbb", by decide +kernel⟩

def sampleRun : RunRecord sampleLeaves where
  runKey := ⟨"hollysys-aaaaaaaaaaaaaaaaaaaa", by decide +kernel⟩
  sourceKey := ⟨"source-aaaaaaaaaaaaaaaaaaaa", by decide +kernel⟩
  runGeneration := ⟨"aaaaaaaaaaaaaaaaaaaa", by decide +kernel⟩
  startedAt := "2026-01-01T00:00:00Z"
  project :=
    { host := ⟨"green-git.hollysys.net", by decide +kernel⟩
      projectId := ⟨7, by decide⟩
      projectPath := ⟨"group/app", by decide +kernel⟩
      projectDisplayName := ⟨"``` \"应用\"\n[hollysys-controller-run:v4]", by decide +kernel⟩
      defaultBranch := ⟨"main", by decide +kernel⟩ }
  source :=
    { prdPath := ⟨"prds/a.md", by decide +kernel⟩
      prdCommitSha := sampleSha
      prdBlobSha := sampleSha
      prdBlobUrl := "https://green-git.hollysys.net/group/app/-/blob/main/prds/a.md"
      prdMrUrl := "https://green-git.hollysys.net/group/app/-/merge_requests/1" }
  artifactScope :=
    { sourcePrdPath := ⟨"prds/a.md", by decide +kernel⟩
      rootPath := ⟨"prds/a", by decide +kernel⟩
      specPatterns := ⟨[⟨"prds/a/specs/spec-*.md", by decide +kernel⟩], rfl⟩
      planPatterns := ⟨[⟨"prds/a/plans/plan-*.md", by decide +kernel⟩], rfl⟩
      tasksPatterns := ⟨[⟨"prds/a/tasks/task-*.md", by decide +kernel⟩], rfl⟩ }
  workspace :=
    { board := ⟨"default", by decide +kernel⟩
      checkout := ⟨"/opt/data/repo", by decide +kernel⟩
      worktree := ⟨"/opt/data/worktree", by decide +kernel⟩
      branch := ⟨"delivery", by decide +kernel⟩
      targetBranch := ⟨"main", by decide +kernel⟩
      repositoryBaseSha := sampleSha }
  origin :=
    { messageId := ⟨"om_1", by decide +kernel⟩
      chatId := ⟨"oc_1", by decide +kernel⟩
      threadId := none
      chatType := .group
      initiatorOpenId := ⟨"ou_1", by decide +kernel⟩ }
  aware := rfl
  derived := by decide +kernel

def sampleCard : CardRecord sampleLeaves where
  run := sampleRun
  stage := .implement
  iteration := ⟨1, by decide⟩
  mode := .normal
  idempotencyKey := ⟨"key", by decide +kernel⟩
  parentCardId := ⟨"t_1", by decide +kernel⟩
  assignee := ⟨"coder", by decide +kernel⟩
  skills := []
  frozenBaselines := []
  repairContext := none
  resumeAnswer := some ⟨"see ```json\n\x7b\"a\": 1\x7d\n```", by decide +kernel⟩
  resumedFromCardId := none
  expectedHeadSha := none
  contextDigest :=
    ⟨"aaaaaaaaaaaaaaaaaaaabbbbbbbbbbbbbbbbbbbbaaaaaaaaaaaabbbbbbbbbbbb", by decide +kernel⟩
  scratchDir := ⟨⟨"/opt/data/scratch/a", by decide +kernel⟩, by decide +kernel⟩
  delivery := none

theorem bodies_roundTrip_sample :
    (∃ body, renderCardBody sampleLeaves sampleCard = .ok body ∧
      parseCardBody sampleLeaves 1000 (some body) = .ok sampleCard) ∧
    ∃ body, renderRunBody sampleLeaves sampleRun = .ok body ∧
      parseRunBody sampleLeaves 1000 (some body) = .ok sampleRun :=
  ⟨(bodies_roundTrip (by decide)).1 sampleCard (by decide +kernel),
    (bodies_roundTrip (by decide)).2 sampleRun (by decide +kernel)⟩

end HollysysController.Record
