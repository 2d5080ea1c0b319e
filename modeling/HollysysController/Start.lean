import HollysysController.Bodies
import HollysysController.Durable.Trace
import HollysysController.Durable.Triple
import HollysysController.ProviderCooldown

/-! # Starting a run

A start message becomes a request, the request a run. The run is drawn, saved and
bound to the request in steps of their own. -/

namespace HollysysController

open Durable

/-! ## The run -/

/-- The two `secrets.token_hex(10)` of a start. -/
structure RunDraw where
  generation : String
  key : String
  deriving DecidableEq, Repr

def startOrigin (r : StartRequest) : FeishuOrigin where
  messageId := r.messageId
  chatId := r.chatId
  threadId := r.threadId
  initiatorOpenId := r.initiator

/-- The record at the end of `validate_start`. -/
def startedRun (cfg : Config) (draw : RunDraw) (r : StartRequest) (source : StartSource)
    (now : Nat) : RunRecord :=
  let runKey := s!"hollysys-{draw.key}"
  { runKey
    sourceKey := s!"source-{clip 20 source.digest}"
    runGeneration := draw.generation
    startedAt := now
    project := { projectId := source.projectId, projectPath := source.projectPath }
    source :=
      { prdPath := source.prdPath, prdCommitSha := source.prdCommitSha,
        prdBlobSha := source.prdBlobSha, prdMrUrl := r.prdMrUrl }
    artifactRoot := source.artifactRoot
    artifactPatterns := source.artifactPatterns
    workspace :=
      { board := s!"gitlab-p{source.projectId}"
        checkout := s!"{cfg.projectsRoot}/p{source.projectId}-{source.repoSlug}"
        worktree := s!"{cfg.projectsRoot}/worktrees/p{source.projectId}/{runKey}"
        branch := s!"feature/{clip 48 source.safeName}-{draw.key}"
        targetBranch := source.defaultBranch
        repositoryBaseSha := source.baseSha }
    origin := startOrigin r }

theorem startedRun_key {cfg : Config} {draw : RunDraw} {r : StartRequest} {source : StartSource}
    {now : Nat} : (startedRun cfg draw r source now).runKey ≠ "" := by
  intro h
  have := congrArg String.toList h
  simp [startedRun, toString] at this

/-- `validate_start`: every call draws a run of its own. -/
def validateStart (cfg : Config) (draw : RunDraw) (r : StartRequest) : Service RunRecord := do
  let source ← gitlab (.start r)
  let now ← host .now
  pure (startedRun cfg draw r source now)

/-! ## The request -/

def startKey (messageId : String) : String := s!"start:{messageId}"

def StartRequest.key (r : StartRequest) : String := startKey r.messageId

def StartRequest.payload (r : StartRequest) : String :=
  let thread := r.threadId.getD ""
  s!"{r.prdBlobUrl}|{r.prdMrUrl}|{r.messageId}|{r.chatId}|{thread}|{r.chatType}|{r.initiator}"

/-- The run the request was bound to before. -/
def persistedRun (key : String) : Service (Option RunRecord) := do
  let request ← store (.requestRecord key)
  match (request.bind (·.runKey)).filter (· != "") with
  | some runKey => store (.runRecord runKey)
  | none => pure none

/-- The run of a delivery: the one bound before, or a new one. -/
def startFacts (cfg : Config) (draw : RunDraw) (r : StartRequest) : Service RunRecord := do
  match ← persistedRun r.key with
  | some run => pure run
  | none => validateStart cfg draw r

/-- Save the run, give it a control row and bind the request to it. -/
def bindRun (r : StartRequest) (run : RunRecord) : Service Unit := do
  store (.saveRun run)
  store (.ensureRunControl run.runKey)
  store (.bindRequestRun r.key run.runKey)

/-- `status_summary` of a run with cards. -/
def statusSummary (runKey : String) : Service String := do
  let (items, run) ← history runKey
  let control ← runControl runKey
  let modifications ← codeModificationCount items
  let active := ((items.filter (·.task.status.isActive)).getLast?.map (·.task.id.text)).getD ""
  pure s!"{runKey}|{run.sourceKey}|{control.state.value}|{active}|{modifications}"

def startResponse (run : RunRecord) (first : TaskRecord) : String :=
  s!"{run.runKey}|{run.sourceKey}|{run.runGeneration}|{run.project.projectPath}|" ++
    s!"{first.id.text}|{run.workspace.board}|{run.workspace.worktree}"

/-- The response to the start of a bound run: a summary when the run has cards
already, else the run is initialized. -/
def startBound (cfg : Config) (run : RunRecord) : Service String := do
  let existing ← store (.cardsForRun run.runKey)
  if !existing.isEmpty then statusSummary run.runKey
  else
    let first ← initializeRun cfg run
    pure (startResponse run first)

/-- The part of `_start` after the run is known. `inFlight` says whether another pass
has taken the run up. -/
def startRun (cfg : Config) (inFlight : Bool) (r : StartRequest) (run : RunRecord) :
    Service String := do
  bindRun r run
  if inFlight then raise (.runPolicy s!"request_in_progress:{r.key}")
  else
    let response ← startBound cfg run
    store (.finishRequest r.key response)
    pure response

/-- What `_start` does with an error. -/
def settleStart (cfg : Config) (r : StartRequest) (runKey : Option String)
    (e : ControllerError) : Service String := do
  match e with
  | .dependency .contract text _ => store (.failRequest r.key text)
  | .dependency kind text c => recordRequestDependencyError cfg (runKey.getD "") kind text c
  | .runPolicy text =>
    if "request_in_progress:".toList.isPrefixOf text.toList then pure ()
    else store (.failRequest r.key text)
  | _ => store (.failRequest r.key e.text)
  raise e

/-- `_start`. -/
def start (cfg : Config) (draw : RunDraw) (inFlight : Bool) (r : StartRequest) :
    Service String := do
  match ← store (.beginRequest r.key r.payload) with
  | some previous => pure previous
  | none =>
    match ← (startFacts cfg draw r).attempt with
    | .error e => settleStart cfg r none e
    | .ok run =>
      match ← (startRun cfg inFlight r run).attempt with
      | .error e => settleStart cfg r (some run.runKey) e
      | .ok response => pure response

/-! ## What the store knows of a message -/

/-- The runs that were created for a message. -/
def runsOf (m : String) (s : Store) : List RunRecord := s.runs.filter (·.origin.messageId == m)

/-- The binding and the status of a request. -/
abbrev RequestView := Option (Option String × RequestStatus)

def requestOf (m : String) (s : Store) : RequestView :=
  (s.requests (startKey m)).map fun row => (row.runKey, row.status)

/-- Nothing about the message has changed. -/
def SameStart (m : String) (w w' : World) : Prop :=
  requestOf m w'.store = requestOf m w.store ∧ runsOf m w'.store = runsOf m w.store

theorem SameStart.refl {m : String} (w : World) : SameStart m w w := ⟨rfl, rfl⟩

/-- A message has at most one run, and a run that is not bound to its request belongs
to a failed one. -/
structure StartInv (v : RequestView) (runs : List RunRecord) : Prop where
  once : runs.length ≤ 1
  bound : ∀ k st, v = some (some k, st) → k ≠ "" ∧ ∃ run ∈ runs, run.runKey = k
  started : ∀ run ∈ runs, ∃ k st, v = some (k, st) ∧ (k = some run.runKey ∨ st = .failed)
  done : ∀ k, v = some (k, .done) → k.isSome

/-! ## The operations of a start -/

/-- The operations by which a start makes its run. -/
def isStart : Op → Bool
  | .store (.saveRun _) | .store (.bindRequestRun _ _) | .store (.failRequest _ _) => true
  | _ => false

abbrev startMachine : Machine Op Op.Ret ControllerError (World × List Op) :=
  machine.traced isStart

/-- The others leave the message alone; anything may fail or stop. -/
def startSetting (m : String) : Setting Op ControllerError World where
  others := SameStart m
  faults _ _ _ := True

abbrev starting (m : String) : Setting Op ControllerError (World × List Op) :=
  (startSetting m).traced

section Effects

variable {m : String} {s s' : Store}

theorem beginRequest_view {payload : String} {a : Option String}
    (h : beginRequest (startKey m) payload s = .ok (a, s')) :
    runsOf m s' = runsOf m s ∧
      (requestOf m s' = requestOf m s ∨
        requestOf m s = none ∧ requestOf m s' = some (none, .running)) ∧
      (∀ resp, a = some resp → ∃ k, requestOf m s' = some (k, .done)) ∧
      (a = none → ∃ k st, requestOf m s' = some (k, st) ∧ st ≠ .failed) := by
  unfold beginRequest at h
  split at h
  · next row hrow =>
    split at h
    · cases h
    · split at h
      · next hst _ =>
        cases h
        refine ⟨rfl, .inl rfl, fun _ _ => ⟨row.runKey, ?_⟩, nofun⟩
        rw [requestOf, hrow, Option.map_some, hst]
      · cases h
      · next hfailed _ =>
        cases h
        refine ⟨rfl, .inl rfl, nofun, fun _ => ⟨row.runKey, row.status, ?_, fun hf => ?_⟩⟩
        · rw [requestOf, hrow, Option.map_some]
        · exact hfailed hf
  · next hrow =>
    cases h
    refine ⟨rfl, .inr ⟨by rw [requestOf, hrow]; rfl, ?_⟩, nofun, fun _ => ⟨none, .running, ?_, nofun⟩⟩
    all_goals simp [requestOf]

theorem saveRun_view {run : RunRecord} {u : Unit} (h : saveRun run s = .ok (u, s')) :
    requestOf m s' = requestOf m s ∧ run ∈ s'.runs ∧
      (runsOf m s' = runsOf m s ∨
        s.runRecord run.runKey = none ∧ run.origin.messageId = m ∧
          runsOf m s' = runsOf m s ++ [run]) := by
  unfold saveRun at h
  split at h
  · next persisted hrow =>
    split at h <;> cases h
    next hsame =>
    subst hsame
    exact ⟨rfl, List.mem_of_find?_eq_some hrow, .inl rfl⟩
  · next hrow =>
    split at h <;> cases h
    refine ⟨rfl, by simp, ?_⟩
    by_cases hm : run.origin.messageId = m
    · exact .inr ⟨hrow, hm, by simp [runsOf, hm]⟩
    · exact .inl (by simp [runsOf, hm])

theorem bindRequestRun_view {k : String} {u : Unit}
    (h : bindRequestRun (startKey m) k s = .ok (u, s')) :
    runsOf m s' = runsOf m s ∧ requestOf m s' = some (some k, .running) := by
  unfold bindRequestRun at h
  split at h
  · cases h
  · split at h
    · cases h
    · next hst =>
      split at h <;> cases h
      refine ⟨rfl, ?_⟩
      simpa [requestOf] using hst

theorem finishRequest_view {response : String} {u : Unit}
    (h : finishRequest (startKey m) response s = .ok (u, s')) :
    runsOf m s' = runsOf m s ∧
      requestOf m s' = (requestOf m s).map fun v => (v.1, .done) := by
  cases h
  refine ⟨rfl, ?_⟩
  simp only [requestOf, Table.modify_self, Option.map_map]
  rfl

theorem failRequest_view {error : String} {u : Unit}
    (h : failRequest (startKey m) error s = .ok (u, s')) :
    runsOf m s' = runsOf m s ∧
      requestOf m s' = (requestOf m s).map fun v => (v.1, .failed) := by
  cases h
  refine ⟨rfl, ?_⟩
  simp only [requestOf, Table.modify_self, Option.map_map]
  rfl

end Effects

namespace StartInv

variable {v : RequestView} {runs : List RunRecord} {k : Option String} {st : RequestStatus}

theorem fail (h : StartInv (some (k, st)) runs) : StartInv (some (k, .failed)) runs where
  once := h.once
  bound k' st' hk := by
    cases hk
    exact h.bound k' st rfl
  started run hr := ⟨k, .failed, rfl, .inr rfl⟩
  done k' hk := by cases hk

/-- The runs of a request that is not failed are the one it is bound to. -/
theorem run_of (h : StartInv (some (k, st)) runs) (hst : st ≠ .failed) {run : RunRecord}
    (hr : run ∈ runs) : k = some run.runKey := by
  obtain ⟨k', st', hv, hk | hf⟩ := h.started run hr
  · cases hv
    exact hk
  · cases hv
    exact absurd hf hst

/-- The request is bound to the run that its runs are. -/
theorem bind {run : RunRecord} (honce : runs.length ≤ 1) (hne : run.runKey ≠ "")
    (hmem : ∃ r ∈ runs, r.runKey = run.runKey) (hst : st ≠ .failed) :
    StartInv (some (some run.runKey, st)) runs where
  once := honce
  bound k' st' hk := by
    cases hk
    exact ⟨hne, hmem⟩
  started r hr := by
    obtain ⟨r', hr', hk⟩ := hmem
    have hrr : r = r' := by
      match runs, honce, hr, hr' with
      | [x], _, hr, hr' => rw [List.mem_singleton.mp hr, List.mem_singleton.mp hr']
    exact ⟨_, st, rfl, .inl (by rw [hrr, hk])⟩
  done k' hk := by
    cases hk
    rfl

end StartInv

/-! ## One delivery -/

/-- The delivery was not cut between the save of a new run and its binding: the request
was bound to the run before, or is bound to it, or is failed. -/
def BindsWhatItSaved (m : String) (w : World) (done : List Op) : Prop :=
  ∀ run, Op.store (.saveRun run) ∈ done →
    (requestOf m w.store).bind (·.1) = some run.runKey ∨
    Op.store (.bindRequestRun (startKey m) run.runKey) ∈ done ∨
    ∃ error, Op.store (.failRequest (startKey m) error) ∈ done

/-- `BindsWhatItSaved`, as a check that runs. -/
def bindsSaved (m : String) (w : World) (done : List Op) : Bool :=
  done.all fun
    | .store (.saveRun run) =>
      (requestOf m w.store).bind (·.1) == some run.runKey || done.any fun
        | .store (.bindRequestRun key runKey) => key == startKey m && runKey == run.runKey
        | .store (.failRequest key _) => key == startKey m
        | _ => false
    | _ => true

theorem bindsSaved_sound {m : String} {w : World} {done : List Op}
    (h : bindsSaved m w done = true) : BindsWhatItSaved m w done := by
  intro run hrun
  have hsaved := List.all_eq_true.mp h _ hrun
  simp only [Bool.or_eq_true, beq_iff_eq, List.any_eq_true] at hsaved
  obtain hbound | ⟨op, hop, hkind⟩ := hsaved
  · exact .inl hbound
  split at hkind
  · simp only [Bool.and_eq_true, beq_iff_eq] at hkind
    exact .inr (.inl (hkind.1 ▸ hkind.2 ▸ hop))
  · exact .inr (.inr ⟨_, beq_iff_eq.mp hkind ▸ hop⟩)
  · cases hkind

/-- What holds in every state of a delivery that began in `w`. -/
structure Midway (m : String) (w : World) (s : World × List Op) : Prop where
  inv : BindsWhatItSaved m w s.2 → StartInv (requestOf m s.1.store) (runsOf m s.1.store)
  fails : ∀ k st, requestOf m s.1.store = some (k, st) →
    StartInv (some (k, .failed)) (runsOf m s.1.store)
  unbegun : requestOf m s.1.store = none → StartInv none (runsOf m s.1.store)

/-- Nothing about the message was changed or noted. -/
def Unmoved (m : String) (s₀ s : World × List Op) : Prop := SameStart m s₀.1 s.1 ∧ s.2 = s₀.2

section Delivery

variable {m : String} {w : World} {s s' s₀ : World × List Op}

theorem Unmoved.refl (s : World × List Op) : Unmoved m s s := ⟨.refl _, rfl⟩

theorem Unmoved.others (h : Unmoved m s₀ s) (ho : (starting m).others s s') : Unmoved m s₀ s' :=
  ⟨⟨ho.1.1.trans h.1.1, ho.1.2.trans h.1.2⟩, ho.2.trans h.2⟩

theorem unmoved_op {o : Op} (ho : isStart o = false)
    (hop : ∀ w, SameStart m w (machine.exec o w).2) :
    Keeps startMachine (starting m) (Unmoved m s₀) (Prog.op o : Service o.Ret) := by
  refine keeps_op (fun _ _ => Unmoved.others) fun s h => ?_
  rw [exec_unwatched ho]
  have hs := hop s.1
  exact ⟨⟨hs.1.trans h.1.1, hs.2.trans h.1.2⟩, h.2⟩

theorem isBody_writes {o : StoreOp} (ho : o.isBody = true) :
    Column.requests ∉ o.writes ∧ Column.runs ∉ o.writes ∧ isStart (.store o) = false := by
  cases o <;> simp_all [StoreOp.writes, StoreOp.isBody, isStart]

/-- A body leaves the message alone. -/
theorem body_unmoved :
    Body (fun {α} (p : Service α) => Keeps startMachine (starting m) (Unmoved m s₀) p) := by
  have hstore : ∀ o : StoreOp, Column.requests ∉ o.writes → Column.runs ∉ o.writes →
      isStart (.store o) = false →
      Keeps startMachine (starting m) (Unmoved m s₀) (store o) := by
    intro o hreq hrun ho
    refine unmoved_op ho fun w => ?_
    have hrequests := o.exec_get (c := .requests) w.now w.store hreq
    have hruns := o.exec_get (c := .runs) w.now w.store hrun
    simp only [Column.get] at hrequests hruns
    simp only [SameStart, requestOf, runsOf, exec_store, hrequests, hruns, and_self]
  have hbody : ∀ o : StoreOp, o.isLive = true →
      Keeps startMachine (starting m) (Unmoved m s₀) (store o) := fun o ho => by
    obtain ⟨hreq, hrun, hstart⟩ := isBody_writes (StoreOp.isLive_isBody ho)
    exact hstore o hreq hrun hstart
  have hhost : ∀ o : HostOp, Keeps startMachine (starting m) (Unmoved m s₀) (host o) := fun o =>
    unmoved_op rfl fun w => by rw [exec_host]; exact .refl w
  have htransition : ∀ t : Transition, Keeps startMachine (starting m) (Unmoved m s₀)
      (store (.transitionRun t)) := fun t =>
    hstore _ (by simp [StoreOp.writes]) (by simp [StoreOp.writes]) rfl
  have houtage : ∀ o : StoreOp, o.isOutage = true →
      Keeps startMachine (starting m) (Unmoved m s₀) (store o) := fun o ho => by
    obtain ⟨hreq, hrun, hstart⟩ := isBody_writes (StoreOp.isOutage_isBody ho)
    exact hstore o hreq hrun hstart
  exact body_of_ops closed_keeps hbody (fun o => unmoved_op rfl fun w => ⟨rfl, rfl⟩)
    (fun o => unmoved_op (by cases o <;> rfl) fun w => ⟨rfl, rfl⟩) hhost
    houtage (fun t _ _ => htransition t)
    (admission_of_transitions closed_keeps hbody (fun t _ _ => htransition t) hhost)

namespace Midway

theorem unmoved (h : Midway m w s) (hu : Unmoved m s s') : Midway m w s' := by
  obtain ⟨⟨hreq, hruns⟩, hdone⟩ := hu
  constructor
  · rw [hreq, hruns, hdone]
    exact h.inv
  · rw [hreq, hruns]
    exact h.fails
  · rw [hreq, hruns]
    exact h.unbegun

theorem of_inv (h : StartInv (requestOf m s.1.store) (runsOf m s.1.store)) : Midway m w s where
  inv _ := h
  fails k st hk := by
    rw [hk] at h
    exact h.fail
  unbegun hn := hn ▸ h

/-- A body keeps what is known. -/
theorem body {α : Type} {p : Service α} (h : Midway m w s)
    (hp : Keeps startMachine (starting m) (Unmoved m s) p) :
    Ensures startMachine (starting m) (Midway m w) p (fun _ s' => Unmoved m s s') s :=
  hp.ensures (.refl s) fun _ => h.unmoved

end Midway

/-- The effect of an operation of a start. -/
theorem exec_start {o : Op} (s : World × List Op) :
    startMachine.exec o s = match machine.exec o s.1 with
      | (.ok a, w') => (.ok a, w', if isStart o then s.2 ++ [o] else s.2)
      | (.error e, w') => (.error e, w', s.2) := by
  simp only [Machine.traced]
  rcases machine.exec o s.1 with ⟨r, w'⟩
  cases r <;> rfl

/-- A store operation of a start: either it fails and changes nothing, or it commits. -/
theorem ensures_store {o : StoreOp} {t : Txn o.Ret} {I : World × List Op → Prop}
    {Q : o.Ret → World × List Op → Prop}
    (hexec : ∀ s : World × List Op, o.exec s.1.now s.1.store = t.commit s.1.store)
    (hI : ∀ s', Unmoved m s s' → I s')
    (hQ : ∀ (s₁ : World × List Op) a st, Unmoved m s s₁ → t s₁.1.store = .ok (a, st) →
      let s' : World × List Op := ({ s₁.1 with store := st },
        if isStart (.store o) then s₁.2 ++ [Op.store o] else s₁.2)
      I s' ∧ Q a s') :
    Ensures startMachine (starting m) I (store o) Q s := by
  have hmove : ∀ s₁, (starting m).others s s₁ → Unmoved m s s₁ := fun s₁ h => h
  have hboth : ∀ s₁, (starting m).others s s₁ → I (startMachine.exec (.store o) s₁).2 ∧
      ∀ a s₂, startMachine.exec (.store o) s₁ = (.ok a, s₂) → Q a s₂ := by
    intro s₁ h₁
    have hx : machine.exec (.store o) s₁.1 = ((t.commit s₁.1.store).1,
        { s₁.1 with store := (t.commit s₁.1.store).2 }) := by
      rw [← hexec s₁]
      rfl
    rw [exec_start, hx]
    unfold Txn.commit
    rcases ht : t s₁.1.store with e | ⟨a, st⟩
    · exact ⟨hI s₁ (hmove s₁ h₁), fun a s₂ h => by cases h⟩
    · obtain ⟨hIs, hQs⟩ := hQ s₁ a st (hmove s₁ h₁) ht
      exact ⟨hIs, fun a' s₂ h => by cases h; exact hQs⟩
  exact .op (fun s₁ h₁ => hI s₁ (hmove s₁ h₁)) (fun s₁ h₁ => (hboth s₁ h₁).1)
    fun s₁ a s₂ h₁ hx => (hboth s₁ h₁).2 a s₂ hx

/-- The request is running, and no run is saved yet. -/
structure Opened (m : String) (w : World) (k : Option String) (st : RequestStatus)
    (s : World × List Op) : Prop where
  request : requestOf m s.1.store = some (k, st)
  running : st ≠ .failed
  before : k = (requestOf m w.store).bind (·.1)
  notes : s.2 = []
  inv : StartInv (some (k, st)) (runsOf m s.1.store)

namespace Opened

variable {k : Option String} {st : RequestStatus}

theorem unmoved (h : Opened m w k st s) (hu : Unmoved m s s') : Opened m w k st s' where
  request := hu.1.1.trans h.request
  running := h.running
  before := h.before
  notes := hu.2.trans h.notes
  inv := by rw [hu.1.2]; exact h.inv

theorem midway (h : Opened m w k st s) : Midway m w s :=
  .of_inv (by rw [h.request]; exact h.inv)

end Opened

theorem beginRequest_opens {payload : String}
    (hinv : StartInv (requestOf m w.store) (runsOf m w.store)) :
    Ensures startMachine (starting m) (Midway m w) (store (.beginRequest (startKey m) payload))
      (fun a s' => (∀ resp, a = some resp → ∃ k, requestOf m s'.1.store = some (k, .done)) ∧
        (a = none → ∃ k st, Opened m w k st s')) (w, []) := by
  refine ensures_store (o := .beginRequest (startKey m) payload)
    (t := beginRequest (startKey m) payload) (fun _ => rfl)
    (fun s' hu => (Midway.of_inv hinv).unmoved hu) fun s₁ a st hu ht => ?_
  obtain ⟨hruns, hview, hsome, hnone⟩ := beginRequest_view ht
  have hinv' : StartInv (requestOf m st) (runsOf m st) := by
    rw [hruns, hu.1.2]
    rcases hview with hview | ⟨hold, hnew⟩
    · rw [hview, hu.1.1]
      exact hinv
    · rw [hu.1.1] at hold
      rw [hnew]
      rw [hold] at hinv
      have hempty : runsOf m w.store = [] := by
        refine List.eq_nil_iff_forall_not_mem.mpr fun run hr => ?_
        obtain ⟨k, st, hv, -⟩ := hinv.started run hr
        cases hv
      rw [hempty]
      exact ⟨Nat.zero_le 1, fun _ _ h => (by cases h), by simp, fun _ h => (by cases h)⟩
  refine ⟨.of_inv hinv', hsome, fun ha => ?_⟩
  obtain ⟨k, st', hv, hst⟩ := hnone ha
  refine ⟨k, st', hv, hst, ?_, hu.2, by rw [← hv]; exact hinv'⟩
  rcases hview with hview | ⟨hold, hnew⟩
  · rw [← hu.1.1, ← hview, hv]
    rfl
  · rw [← hu.1.1, hold]
    rw [hnew] at hv
    cases hv
    rfl

/-- The run a delivery goes on with: the one the request is bound to, or a new one of
a request that is bound to none. -/
def RunOf (m : String) (k : Option String) (run : RunRecord) (s : World × List Op) : Prop :=
  run.runKey ≠ "" ∧
    (k = some run.runKey ∧ (run.origin.messageId = m → run ∈ runsOf m s.1.store) ∨
      k = none ∧ run.origin.messageId = m)

theorem RunOf.unmoved {k : Option String} {run : RunRecord} (h : RunOf m k run s)
    (hu : Unmoved m s s') : RunOf m k run s' := by
  refine ⟨h.1, h.2.imp_left fun ⟨hk, hmem⟩ => ⟨hk, ?_⟩⟩
  rw [hu.1.2]
  exact hmem

/-- A read of the store changes nothing and tells the store. -/
theorem ensures_read {o : StoreOp} {a : Store → o.Ret} {I : World × List Op → Prop}
    (hexec : ∀ now st, o.exec now st = (.ok (a st), st)) (ho : isStart (.store o) = false)
    (hI : ∀ s', Unmoved m s s' → I s') :
    Ensures startMachine (starting m) I (store o)
      (fun r s' => Unmoved m s s' ∧ r = a s'.1.store) s := by
  refine ensures_store (t := fun st => .ok (a st, st)) (fun s => by rw [hexec]; rfl) hI
    fun s₁ r st hu ht => ?_
  cases ht
  rw [if_neg (by rw [ho]; simp)]
  exact ⟨hI s₁ hu, hu, rfl⟩

section Stages

variable {k : Option String} {st : RequestStatus}

theorem persistedRun_stage (h : Opened m w k st s) :
    Ensures startMachine (starting m) (Midway m w) (persistedRun (startKey m))
      (fun found s' => Opened m w k st s' ∧ (∀ run, found = some run → RunOf m k run s') ∧
        (found = none → k = none)) s := by
  refine .bind (ensures_read (a := fun st => st.requests (startKey m)) (fun _ _ => rfl) rfl
    fun s' hu => (h.unmoved hu).midway) fun row s₁ _ ⟨hu₁, hrow⟩ => ?_
  have h₁ := h.unmoved hu₁
  have hk : row.bind (·.runKey) = k := by
    have hv := h₁.request
    rw [requestOf, ← hrow] at hv
    cases row with
    | none => cases hv
    | some row =>
      cases hv
      rfl
  rw [hk]
  cases k with
  | none => exact .pure h₁.midway ⟨h₁, nofun, fun _ => rfl⟩
  | some key =>
    obtain ⟨hne, run, hmem, hkey⟩ := h₁.inv.bound key st rfl
    rw [Option.filter_some_pos (by simpa using hne)]
    refine (ensures_read (a := fun st => st.runRecord key) (fun _ _ => rfl) rfl
      fun s' hu => (h₁.unmoved hu).midway).mono fun found s₂ _ ⟨hu₂, hfound⟩ => ?_
    have h₂ := h₁.unmoved hu₂
    refine ⟨h₂, fun run' hrun' => ?_, fun hnone => ?_⟩
    · rw [hrun', Store.runRecord] at hfound
      have hkey' : run'.runKey = key := by simpa using List.find?_some hfound.symm
      refine ⟨hkey' ▸ hne, .inl ⟨by rw [hkey'], fun hm => ?_⟩⟩
      exact List.mem_filter.mpr ⟨List.mem_of_find?_eq_some hfound.symm, by simpa using hm⟩
    · rw [hnone, Store.runRecord] at hfound
      have hmem₂ : run ∈ runsOf m s₂.1.store := by rwa [hu₂.1.2]
      have := List.find?_eq_none.mp hfound.symm run (List.mem_filter.mp hmem₂).1
      simp [hkey] at this

theorem startFacts_stage (cfg : Config) (draw : RunDraw) (r : StartRequest)
    (hm : r.messageId = m) (h : Opened m w k st s) :
    Ensures startMachine (starting m) (Midway m w) (startFacts cfg draw r)
      (fun run s' => Opened m w k st s' ∧ RunOf m k run s') s := by
  subst hm
  refine .bind (persistedRun_stage h) fun found s₁ _ ⟨h₁, hsome, hnone⟩ => ?_
  cases found with
  | some run => exact .pure h₁.midway ⟨h₁, hsome run rfl⟩
  | none =>
    have hread : Keeps startMachine (starting r.messageId) (Unmoved r.messageId s₁)
        (gitlab (.start r)) := body_unmoved.gitlab _
    refine .bind (h₁.midway.body hread) fun source s₂ _ hu₂ => ?_
    have h₂ := h₁.unmoved hu₂
    refine .bind (h₂.midway.body (body_unmoved.host .now)) fun now s₃ _ hu₃ => ?_
    have h₃ := h₂.unmoved hu₃
    exact .pure h₃.midway ⟨h₃, startedRun_key, .inr ⟨hnone rfl, rfl⟩⟩

/-- The run is saved, and the request is not bound to it yet. -/
structure Saved (m : String) (w : World) (run : RunRecord) (s : World × List Op) : Prop where
  midway : Midway m w s
  inv : StartInv (some (some run.runKey, .running)) (runsOf m s.1.store)

theorem saveRun_stage {run : RunRecord} (h : Opened m w k st s) (hr : RunOf m k run s) :
    Ensures startMachine (starting m) (Midway m w) (store (.saveRun run))
      (fun _ s' => Saved m w run s') s := by
  refine ensures_store (o := .saveRun run) (t := saveRun run) (fun _ => rfl)
    (fun s' hu => (h.unmoved hu).midway) fun s₁ a st' hu ht => ?_
  have h₁ := h.unmoved hu
  obtain ⟨hne, hrun⟩ := hr.unmoved hu
  obtain ⟨hreq, hin, hruns⟩ := saveRun_view (m := m) ht
  have hnotes : (if isStart (.store (.saveRun run)) then s₁.2 ++ [Op.store (.saveRun run)]
      else s₁.2) = [Op.store (.saveRun run)] := by
    rw [h₁.notes]
    rfl
  rw [hnotes]
  rcases hrun with ⟨hk, hmem⟩ | ⟨hk, hm⟩
  · -- the run was there before
    have hsame : runsOf m st' = runsOf m s₁.1.store := by
      rcases hruns with hsame | ⟨hnone, hm, -⟩
      · exact hsame
      · have hin := (List.mem_filter.mp (hmem hm)).1
        have := List.find?_eq_none.mp hnone run hin
        simp at this
    have hbound := h₁.inv
    rw [hk, ← hsame] at hbound
    have hmid : Midway m w ({ s₁.1 with store := st' }, [.store (.saveRun run)]) :=
      .of_inv (by rw [show requestOf m st' = _ from hreq.trans h₁.request, hk]; exact hbound)
    refine ⟨hmid, hmid, .bind hbound.once hne (hbound.bound _ _ rfl).2 (by simp)⟩
  · -- a request that is bound to no run and is not failed has no run
    have hempty : runsOf m s₁.1.store = [] := by
      refine List.eq_nil_iff_forall_not_mem.mpr fun r hr => ?_
      have := h₁.inv.run_of h₁.running hr
      rw [hk] at this
      cases this
    have hone : runsOf m st' = [run] := by
      rcases hruns with hsame | ⟨-, -, happ⟩
      · have hmem : run ∈ runsOf m st' := List.mem_filter.mpr ⟨hin, by simpa using hm⟩
        rw [hsame, hempty] at hmem
        cases hmem
      · rw [happ, hempty]
        rfl
    have hview : requestOf m st' = some (k, st) := hreq.trans h₁.request
    refine ⟨?mid, ?mid, ?_⟩
    case mid =>
      refine ⟨fun hbinds => ?_, fun k' st₁ hk' => ?_, fun hnone => ?_⟩
      · -- cut here, the delivery has not bound what it saved
        rcases hbinds run (by simp) with hold | hbind | ⟨error, hfail⟩
        · rw [← h₁.before, hk] at hold
          cases hold
        · simp at hbind
        · simp at hfail
      · rw [hview, hk] at hk'
        cases hk'
        rw [hone]
        exact ⟨le_rfl, fun _ _ hf => (by cases hf), fun _ _ => ⟨_, _, rfl, .inr rfl⟩,
          fun _ hf => (by cases hf)⟩
      · rw [hview] at hnone
        cases hnone
    · rw [hone]
      exact .bind le_rfl hne ⟨run, by simp, rfl⟩ (by simp)

theorem Saved.unmoved {run : RunRecord} (h : Saved m w run s) (hu : Unmoved m s s') :
    Saved m w run s' :=
  ⟨h.midway.unmoved hu, by rw [hu.1.2]; exact h.inv⟩

/-- The request is bound to the run. -/
structure Bound (m : String) (run : RunRecord) (st : RequestStatus) (s : World × List Op) :
    Prop where
  request : requestOf m s.1.store = some (some run.runKey, st)
  inv : StartInv (some (some run.runKey, st)) (runsOf m s.1.store)

namespace Bound

variable {run : RunRecord}

theorem midway (h : Bound m run st s) : Midway m w s :=
  .of_inv (by rw [h.request]; exact h.inv)

theorem unmoved (h : Bound m run st s) (hu : Unmoved m s s') : Bound m run st s' :=
  ⟨hu.1.1.trans h.request, by rw [hu.1.2]; exact h.inv⟩

end Bound

theorem bindRequestRun_stage {run : RunRecord} (h : Saved m w run s) :
    Ensures startMachine (starting m) (Midway m w)
      (store (.bindRequestRun (startKey m) run.runKey)) (fun _ s' => Bound m run .running s') s := by
  refine ensures_store (o := .bindRequestRun (startKey m) run.runKey)
    (t := bindRequestRun (startKey m) run.runKey) (fun _ => rfl)
    (fun s' hu => h.midway.unmoved hu) fun s₁ a st' hu ht => ?_
  obtain ⟨hruns, hview⟩ := bindRequestRun_view ht
  have hinv := (h.unmoved hu).inv
  rw [← hruns] at hinv
  have hbound : ∀ notes, Bound m run .running ({ s₁.1 with store := st' }, notes) :=
    fun _ => ⟨hview, hinv⟩
  exact ⟨(hbound _).midway, hbound _⟩

theorem bindRun_stage {r : StartRequest} {run : RunRecord} (hm : r.messageId = m)
    (h : Opened m w k st s) (hr : RunOf m k run s) :
    Ensures startMachine (starting m) (Midway m w) (bindRun r run)
      (fun _ s' => Bound m run .running s') s := by
  subst hm
  refine .bind (saveRun_stage h hr) fun _ s₁ _ h₁ => ?_
  refine .bind (h₁.midway.body (body_unmoved.store (.ensureRunControl run.runKey) rfl))
    fun _ s₂ _ hu => ?_
  exact bindRequestRun_stage (h₁.unmoved hu)

theorem startBound_body {K : ∀ {α : Type}, Service α → Prop} (hK : Body K) (cfg : Config)
    (run : RunRecord) : K (startBound cfg run) := by
  have hsummary : K (statusSummary run.runKey) := by
    refine hK.bind (hK.reading.history _) fun read => ?_
    obtain ⟨items, run⟩ := read
    exact hK.bind (hK.reading.runControl _) fun _ =>
      hK.bind (hK.reading.codeModificationCount _) fun _ => hK.pure _
  refine hK.bind (hK.store _ rfl) fun existing => ?_
  split
  · exact hsummary
  · exact hK.bind (hK.initializeRun _ _) fun _ => hK.pure _

theorem finishRequest_stage {run : RunRecord} {response : String} (h : Bound m run .running s) :
    Ensures startMachine (starting m) (Midway m w) (store (.finishRequest (startKey m) response))
      (fun _ s' => Bound m run .done s') s := by
  refine ensures_store (o := .finishRequest (startKey m) response)
    (t := finishRequest (startKey m) response) (fun _ => rfl)
    (fun s' hu => (h.unmoved hu).midway) fun s₁ a st' hu ht => ?_
  obtain ⟨hruns, hview⟩ := finishRequest_view ht
  have h₁ := h.unmoved hu
  have hdone : ∀ notes, Bound m run .done ({ s₁.1 with store := st' }, notes) := fun _ => by
    refine ⟨by rw [hview, h₁.request]; rfl, ?_⟩
    obtain ⟨hne, hmem⟩ := h₁.inv.bound _ _ rfl
    rw [show runsOf m st' = _ from hruns]
    exact .bind h₁.inv.once hne hmem (by simp)
  exact ⟨(hdone _).midway, hdone _⟩

theorem startRun_stage (cfg : Config) (inFlight : Bool) {r : StartRequest} {run : RunRecord}
    (hm : r.messageId = m) (h : Opened m w k st s) (hr : RunOf m k run s) :
    Ensures startMachine (starting m) (Midway m w) (startRun cfg inFlight r run)
      (fun _ s' => Bound m run .done s') s := by
  refine .bind (bindRun_stage hm h hr) fun _ s₁ _ h₁ => ?_
  subst hm
  split
  · exact .raise h₁.midway
  · refine .bind (h₁.midway.body (startBound_body body_unmoved cfg run)) fun response s₂ _ hu => ?_
    exact .bind (finishRequest_stage (h₁.unmoved hu)) fun _ s₃ _ h₃ => .pure h₃.midway h₃

theorem failRequest_stage {error : String} (h : Midway m w s) :
    Ensures startMachine (starting m) (Midway m w) (store (.failRequest (startKey m) error))
      (fun _ _ => True) s := by
  refine ensures_store (o := .failRequest (startKey m) error)
    (t := failRequest (startKey m) error) (fun _ => rfl)
    (fun s' hu => h.unmoved hu) fun s₁ a st' hu ht => ⟨.of_inv ?_, trivial⟩
  obtain ⟨hruns, hview⟩ := failRequest_view ht
  have h₁ := h.unmoved hu
  rw [show requestOf m st' = _ from hview, show runsOf m st' = _ from hruns]
  rcases hreq : requestOf m s₁.1.store with _ | ⟨k', st''⟩
  · exact h₁.unbegun hreq
  · exact h₁.fails k' st'' hreq

theorem settleStart_stage (cfg : Config) {r : StartRequest} (runKey : Option String)
    (e : ControllerError) (hm : r.messageId = m) (h : Midway m w s) :
    Ensures startMachine (starting m) (Midway m w) (settleStart cfg r runKey e)
      (fun _ _ => False) s := by
  subst hm
  have hfail : ∀ error, Ensures startMachine (starting r.messageId) (Midway r.messageId w)
      ((store (.failRequest r.key error)).bind fun _ => (raise e : Service String))
      (fun _ _ => False) s := fun error =>
    .bind (failRequest_stage h) fun _ s₁ h₁ _ => .raise h₁
  have hdependency : ∀ kind text c,
      Ensures startMachine (starting r.messageId) (Midway r.messageId w)
        ((recordRequestDependencyError cfg (runKey.getD "") kind text c).bind
          fun _ => (raise e : Service String)) (fun _ _ => False) s := fun kind text c =>
    .bind (h.body (body_unmoved.recordRequestDependencyError _ _ _ _ _)) fun _ s₁ h₁ _ => .raise h₁
  unfold settleStart
  cases e with
  | dependency kind text c =>
    cases kind with
    | contract => exact hfail _
    | transient | rateLimited | auth => exact hdependency _ _ _
  | runPolicy text =>
    dsimp only
    split
    · exact .raise h
    · exact hfail _
  | superseded | checkedHeadConflict | valueError | runtimeError | permissionError | fatal =>
    exact hfail _

theorem start_stage (cfg : Config) (draw : RunDraw) (inFlight : Bool) {r : StartRequest}
    (hm : r.messageId = m) (hinv : StartInv (requestOf m w.store) (runsOf m w.store)) :
    Ensures startMachine (starting m) (Midway m w) (start cfg draw inFlight r)
      (fun _ s' => ∃ k, requestOf m s'.1.store = some (k, .done)) (w, []) := by
  subst hm
  refine .bind (beginRequest_opens hinv) fun previous s₁ hmid ⟨hsome, hnone⟩ => ?_
  cases previous with
  | some response => exact .pure hmid (hsome response rfl)
  | none =>
    obtain ⟨k, st, h₁⟩ := hnone rfl
    refine .bind (startFacts_stage cfg draw r rfl h₁).attempt fun facts s₂ hmid₂ h₂ => ?_
    cases facts with
    | error e => exact (settleStart_stage cfg none e rfl hmid₂).mono fun _ _ _ => False.elim
    | ok run =>
      obtain ⟨hopened, hrun⟩ := h₂ run rfl
      refine .bind (startRun_stage cfg inFlight rfl hopened hrun).attempt
        fun response s₃ hmid₃ h₃ => ?_
      cases response with
      | error e => exact (settleStart_stage cfg _ e rfl hmid₃).mono fun _ _ _ => False.elim
      | ok response => exact .pure hmid₃ ⟨_, (h₃ response rfl).request⟩

end Stages

end Delivery

/-! ## Deliveries of a message -/

/-- A delivery that has ended: the world before and after it, the steps by which it made
its run, and its outcome. -/
structure Delivered where
  before : World
  after : World
  done : List Op
  outcome : Durable.Outcome ControllerError String

/-- The deliveries of a message, each ended by an answer, an error or a crash. -/
inductive Deliveries (cfg : Config) (m : String) : World → List Delivered → World → Prop
  | none {w} : Deliveries cfg m w [] w
  | elsewhere {w ds w' w''} : Deliveries cfg m w ds w' → SameStart m w' w'' →
      Deliveries cfg m w ds w''
  | deliver {w ds w' r w'' out done} (draw : RunDraw) (inFlight : Bool) :
      Deliveries cfg m w ds w' → r.messageId = m →
      Runs startMachine (starting m) (start cfg draw inFlight r) (w', []) out (w'', done) →
      Deliveries cfg m w (ds ++ [⟨w', w'', done, out⟩]) w''

/-- The request is bound to a run that was created for its message. -/
def BoundToRun (m : String) (s : Store) : Prop :=
  ∃ k st, requestOf m s = some (some k, st) ∧ ∃ run ∈ runsOf m s, run.runKey = k

/-- **A message starts one run** as long as no delivery is cut between the save of a
run and its binding: there is at most one run of the message, and after a delivery that
answers the request is bound to it. -/
theorem deliveries_start_once {cfg : Config} {m : String} {w w' : World} {ds : List Delivered}
    (hnew : requestOf m w.store = none) (hnone : runsOf m w.store = [])
    (h : Deliveries cfg m w ds w')
    (hbinds : ∀ d ∈ ds, BindsWhatItSaved m d.before d.done) :
    (runsOf m w'.store).length ≤ 1 ∧
      ∀ d ∈ ds, (runsOf m d.after.store).length ≤ 1 ∧
        ∀ response, d.outcome = .returned response → BoundToRun m d.after.store := by
  suffices key : StartInv (requestOf m w'.store) (runsOf m w'.store) ∧
      ∀ d ∈ ds, (runsOf m d.after.store).length ≤ 1 ∧
        ∀ response, d.outcome = .returned response → BoundToRun m d.after.store from
    ⟨key.1.once, key.2⟩
  induction h with
  | none =>
    rw [hnew, hnone]
    exact ⟨⟨Nat.zero_le 1, fun _ _ hf => (by cases hf), by simp, fun _ hf => (by cases hf)⟩,
      by simp⟩
  | elsewhere _ hmove ih =>
    obtain ⟨hinv, hds⟩ := ih hbinds
    rw [hmove.1, hmove.2]
    exact ⟨hinv, hds⟩
  | deliver draw inFlight _ hm hrun ih =>
    obtain ⟨hinv, hds⟩ := ih fun d hd => hbinds d (List.mem_append_left _ hd)
    obtain ⟨hmid, hdone⟩ := (start_stage cfg draw inFlight hm hinv).runs hrun
    have hinv' := hmid.inv (hbinds _ (List.mem_append_right _ (List.mem_singleton_self _)))
    refine ⟨hinv', List.forall_mem_append.mpr ⟨hds, List.forall_mem_singleton.mpr
      ⟨hinv'.once, fun response hout => ?_⟩⟩⟩
    obtain ⟨k, hreq⟩ := hdone response hout
    dsimp only at hreq hinv' ⊢
    rw [hreq] at hinv'
    obtain ⟨key, rfl⟩ := Option.isSome_iff_exists.mp (hinv'.done k rfl)
    exact ⟨key, .done, hreq, (hinv'.bound key .done rfl).2⟩

/-! ## A delivery that is cut -/

def sampleStart : StartRequest where
  prdBlobUrl := "https://gitlab/team/app/-/blob/c1/docs/prds/a.md"
  prdMrUrl := "https://gitlab/team/app/-/merge_requests/1"
  messageId := "om_9"
  chatId := "oc_1"
  chatType := "p2p"
  initiator := "ou_1"

def sampleSource : StartSource where
  projectId := 1
  projectPath := "team/app"
  repoSlug := "app"
  defaultBranch := "main"
  prdPath := "docs/prds/a.md"
  safeName := "a"
  prdCommitSha := "c1"
  prdBlobSha := "b1"
  digest := "app-a"
  artifactRoot := "docs/prds/a"
  baseSha := "0123456789abcdef0123456789abcdef01234567"

/-- GitLab has the PRD, and nothing was started yet. -/
def unstartedWorld : World where
  gitlab := { downGitLab with start := fun _ => .ok sampleSource }
  now := 100

/-- Where a delivery of the sample message ends that meets the faults of the script. -/
def scriptedStart (fs : List (Fault ControllerError)) (draw : RunDraw) (w : World) :
    Durable.Outcome ControllerError String × World × List Op :=
  startMachine.replay (start sampleConfig draw false sampleStart) fs (w, [])

/-- The delivery as it is recorded. -/
def deliveredStart (fs : List (Fault ControllerError)) (draw : RunDraw) (w : World) : Delivered :=
  let (out, after, done) := scriptedStart fs draw w
  ⟨w, after, done, out⟩

theorem Deliveries.script {w w' : World} {ds : List Delivered}
    (h : Deliveries sampleConfig "om_9" w ds w') (fs : List (Fault ControllerError))
    (draw : RunDraw) :
    Deliveries sampleConfig "om_9" w (ds ++ [deliveredStart fs draw w'])
      (deliveredStart fs draw w').after :=
  .deliver draw false h rfl
    (replay_runs (E := starting "om_9") (fun s => ⟨.refl s.1, rfl⟩) (fun _ _ _ => trivial) _ _ _)

/-- The first delivery is stopped right after `save_run`. -/
def cutStart : Delivered :=
  deliveredStart [.none, .none, .none, .none, .stopAfter] ⟨"g1", "k1"⟩ unstartedWorld

def resumedStart : Delivered := deliveredStart [] ⟨"g2", "k2"⟩ cutStart.after

/-- The second delivery draws a second run for the message. -/
theorem resumedStart_second :
    Deliveries sampleConfig "om_9" unstartedWorld [cutStart, resumedStart] resumedStart.after ∧
      requestOf "om_9" unstartedWorld.store = none ∧ runsOf "om_9" unstartedWorld.store = [] ∧
      (runsOf "om_9" resumedStart.after.store).map (·.runKey) = ["hollysys-k1", "hollysys-k2"] := by
  refine ⟨((Deliveries.none (w := unstartedWorld)).script _ _).script _ _, rfl, rfl, ?_⟩
  decide +kernel

/-- A delivery that is not cut, and its repetition. -/
def wholeStart : Delivered := deliveredStart [] ⟨"g1", "k1"⟩ unstartedWorld

def repeatedStart : Delivered := deliveredStart [] ⟨"g2", "k2"⟩ wholeStart.after

theorem repeatedStart_once : (runsOf "om_9" repeatedStart.after.store).length ≤ 1 := by
  have hall : ([wholeStart, repeatedStart].all fun d => bindsSaved "om_9" d.before d.done) =
      true := by
    decide +kernel
  have hdeliveries : Deliveries sampleConfig "om_9" unstartedWorld [wholeStart, repeatedStart]
      repeatedStart.after :=
    ((Deliveries.none (w := unstartedWorld)).script _ _).script _ _
  have h := deliveries_start_once rfl rfl hdeliveries
    fun d hd => bindsSaved_sound (List.all_eq_true.mp hall d hd)
  exact h.1

end HollysysController
