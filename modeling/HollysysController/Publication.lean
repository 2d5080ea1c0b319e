import HollysysController.Initializing

/-! # Publishing a delivery

The first SPEC writer of a run publishes its delivery: one MR is created for the
run's branch, claimed by a note and bound to the run. The operation row pins the
payload of the first attempt, and an MR that exists for the branch is refused, so
what an attempt leaves behind decides what a later one can do. -/

namespace HollysysController

open Durable

/-! ## The request -/

structure PublishRequest where
  cardId : Option CardId
  headSha : String
  description : String
  deriving DecidableEq, Repr

/-- The work cards with the id, of all the runs. -/
def workCards (cardId : CardId) : List String → Service (List ManagedCard)
  | [] => pure []
  | runKey :: runKeys => do
    let cards ← store (.cardsForRun runKey)
    let rest ← workCards cardId runKeys
    pure (cards.filter (fun c => c.cardId == cardId && c.purpose == .work) ++ rest)

/-- `_managed_work`. -/
def managedWork (cardId : CardId) : Service (ManagedCard × HistoryItem × RunRecord) := do
  let runKeys ← store .runKeys
  let cards ← workCards cardId runKeys
  match cards with
  | [managed] =>
    let (items, run) ← history managed.runKey
    match items.find? fun i => i.task.id == cardId with
    | none => raise (.runtimeError "")
    | some item => pure (managed, item, run)
  | _ => raise (.valueError "card_id must identify exactly one managed Hollysys work card")

/-- The checks of `publish_delivery` on the request and its card: the card and its run. -/
def publishingCard (r : PublishRequest) : Service (CardId × RunRecord) := do
  match r.cardId with
  | none => raise (.valueError "card_id and non-empty description are required")
  | some cardId =>
    if strip r.description = [] then
      raise (.valueError "card_id and non-empty description are required")
    else
      let (managed, item, run) ← managedWork cardId
      let record ← fromText (parseCardBody item.task.body)
      if managed.stage ≠ .work .specWrite ∨ managed.iteration ≠ 1 ∨ record.mode ≠ .normal then
        raise (.valueError "only the first normal SPEC writer card may publish delivery")
      else if !item.task.status.isActive then
        raise (.valueError "publish-delivery card is no longer active")
      else pure (cardId, run)

/-! ## At GitLab -/

/-- `re.fullmatch(r"[0-9a-f]{40}", text)`. -/
def isFullSha (text : String) : Bool :=
  text.length == 40 && text.toList.all fun c => c.isDigit || ('a' ≤ c && c ≤ 'f')

/-- `Path(path).stem`. -/
def pathStem (path : String) : String :=
  let name := (path.toList.reverse.dropWhile (· == '/')).takeWhile (· != '/')
  let stem := (name.dropWhile (· != '.')).drop 1
  String.ofList (if stem ≠ [] ∧ name.head? ≠ some '.' then stem else name).reverse

def deliveryTitle (run : RunRecord) : String :=
  let stem := pathStem run.source.prdPath
  s!"Draft: Hollysys {stem} [{run.runKey}]"

/-- The claim note of a delivery MR. -/
def deliveryClaim (run : RunRecord) (headSha : String) : String :=
  s!"[hollysys-run-claim:v4] run={run.runKey} source={run.sourceKey} " ++
    s!"generation={run.runGeneration} initial_head={headSha} started_at={run.startedAt}"

def contractError (text errorCode : String) : ControllerError :=
  .dependency .contract text { dependency := "gitlab", errorCode := some errorCode }

/-- What the MR that GitLab made is checked for, and the binding that stands for it. -/
def createdBinding (run : RunRecord) (headSha creator : String) (mr : MergeRequest) :
    Service DeliveryBinding := do
  if mr.creator ≠ creator then
    raise (contractError "created MR author is not the Controller identity" "mr_creator_mismatch")
  else if mr.sourceBranch ≠ run.workspace.branch ∨ mr.targetBranch ≠ run.workspace.targetBranch ∨
      mr.head ≠ headSha then
    raise (contractError "created MR does not match run branch/head" "created_mr_mismatch")
  else
    let note ← gitlab (.addNote run mr.iid (deliveryClaim run headSha))
    if mr.iid = 0 ∨ note = 0 then raise (.valueError "Input should be greater than 0")
    else pure { mrIid := mr.iid, mrUrl := mr.webUrl, creator, createdAt := mr.createdAt,
                initialHeadSha := headSha, claimNoteId := note }

/-- `GitLabClient.publish_delivery`. -/
def createDelivery (run : RunRecord) (headSha description : String) : Service DeliveryBinding := do
  if !isFullSha headSha then raise (.valueError "publish_delivery requires a full head SHA")
  else
    let state ← host (.workspace run)
    if !state.ok || state.headSha != headSha || state.branch != run.workspace.branch then
      raise (.valueError "publish_delivery local head/branch mismatch")
    else
      let remoteHead ← gitlab (.branchHead run)
      if remoteHead ≠ headSha then
        raise (.valueError s!"publish_delivery remote head mismatch:{remoteHead}")
      else
        let collisions ← gitlab (.mergeRequests run)
        if !collisions.isEmpty then
          raise (.valueError s!"unbound_delivery_mr_exists:{run.workspace.branch}")
        else
          let creator ← gitlab .currentUser
          if strip creator = [] then
            raise (contractError "GitLab current user response lacks identity"
              "invalid_user_response")
          else
            let mr ← gitlab (.createMr run (deliveryTitle run) description)
            createdBinding run headSha creator mr

/-! ## The operation -/

def publishKey (runKey : String) : String := s!"{runKey}:publish-delivery"

/-- The operation of a publication, expected at a state version. -/
def deliveryCall (cfg : Config) (run : RunRecord) (cardId : CardId) (r : PublishRequest)
    (version : Nat) : OperationCall where
  key := publishKey run.runKey
  kind := "publish-delivery"
  payload := .publishDelivery run.runKey cardId r.headSha (cfg.sha256 r.description)
  expectedStateVersion := some version
  expectedHeadSha := some r.headSha

/-- The result of the operation becomes the binding of the run. -/
def bindResult (runKey : String) : OperationResult → Service DeliveryBinding
  | .delivery binding => do
    store (.bindDelivery runKey binding)
    pure binding
  | _ => raise (.valueError "Field required")

/-- The delivery is created as a ledger operation. -/
def creation (run : RunRecord) (r : PublishRequest) : Service OperationResult := do
  let binding ← createDelivery run r.headSha r.description
  pure (.delivery binding)

/-- What follows the checks on the card. -/
def publishFor (cfg : Config) (r : PublishRequest) (cardId : CardId) (run : RunRecord) :
    Service DeliveryBinding := do
  let bound ← store (.deliveryBinding run.runKey)
  match bound with
  | some _ => raise (.valueError s!"delivery_already_bound:{run.runKey}")
  | none =>
    let control ← runControl run.runKey
    let result ← operation (deliveryCall cfg run cardId r control.stateVersion) (some run.runKey)
      (creation run r)
    bindResult run.runKey result

/-- `publish_delivery`. -/
def publishDelivery (cfg : Config) (r : PublishRequest) : Service DeliveryBinding := do
  let (cardId, run) ← publishingCard r
  publishFor cfg r cardId run

/-! ## Sequences of attempts -/

/-- The state version of a run. -/
def controlVersion (runKey : String) (w : World) : Nat :=
  ((w.store.runControl runKey).getD {}).stateVersion

def bindingsOf (runKey : String) (w : World) : List (String × DeliveryBinding) :=
  w.store.deliveryBindings.filter (·.1 == runKey)

/-- An MR with the number was created. -/
def MrCreated (w : World) (iid : Nat) : Prop := ∃ d ∈ w.gitlab.deliveries, d.2.iid = iid

/-- Others may do anything but touch the publication of the run: its operation row and its
binding stay, MRs do not vanish, and the state version does not go back. -/
structure Beside (runKey : String) (w w' : World) : Prop where
  row : w'.store.operations (publishKey runKey) = w.store.operations (publishKey runKey)
  bindings : bindingsOf runKey w' = bindingsOf runKey w
  version : controlVersion runKey w ≤ controlVersion runKey w'
  opened : w.gitlab.deliveries ⊆ w'.gitlab.deliveries

/-- Every operation may fail or stop, before its effect or after it. -/
def disturbed (runKey : String) : Setting Op ControllerError World where
  others := Beside runKey
  faults _ _ _ := True

/-- A sequence of attempts, with anything else going on between their operations and
between one attempt and the next. -/
inductive Attempts (cfg : Config) (runKey : String) : World → World → Prop
  | none {w} : Attempts cfg runKey w w
  | beside {w v v'} : Attempts cfg runKey w v → Beside runKey v v' →
      Attempts cfg runKey w v'
  | attempt {w v v' outcome} (r : PublishRequest) : Attempts cfg runKey w v →
      Runs machine (disturbed runKey) (publishDelivery cfg r) v outcome v' →
      Attempts cfg runKey w v'

/-- Nothing of the run was published. -/
structure Unpublished (runKey : String) (w : World) : Prop where
  row : w.store.operations (publishKey runKey) = Option.none
  bindings : bindingsOf runKey w = []

/-- The run is bound to one MR, once. -/
def BoundOnce (runKey : String) (w : World) : Prop :=
  ∃ b, bindingsOf runKey w = [(runKey, b)] ∧ MrCreated w b.mrIid

/-! ## What every attempt keeps -/

/-- The operation row of a publication. -/
structure PublishRow (runKey : String) (w : World) (row : OperationRow) : Prop where
  kind : row.kind = "publish-delivery"
  payload : ∃ cardId head digest, row.payload = .publishDelivery runKey cardId head digest ∧
    row.expectedHeadSha = some head
  version : ∃ v, row.expectedStateVersion = some v ∧ v ≤ controlVersion runKey w
  done : row.status = .done → ∀ result, row.result = some result →
    ∃ b, result = .delivery b ∧ MrCreated w b.mrIid

structure WellPublished (runKey : String) (w : World) : Prop where
  row : ∀ row, w.store.operations (publishKey runKey) = some row → PublishRow runKey w row
  bindings : bindingsOf runKey w = [] ∨ BoundOnce runKey w

theorem Unpublished.published {runKey : String} {w : World} (h : Unpublished runKey w) :
    WellPublished runKey w where
  row row hrow := by
    rw [h.row] at hrow
    cases hrow
  bindings := .inl h.bindings

section WellPublished

variable {runKey : String} {w w' : World}

theorem MrCreated.mono {iid : Nat} (h : MrCreated w iid)
    (hsub : w.gitlab.deliveries ⊆ w'.gitlab.deliveries) : MrCreated w' iid := by
  obtain ⟨d, hd, hiid⟩ := h
  exact ⟨d, hsub hd, hiid⟩

theorem WellPublished.beside (h : WellPublished runKey w) (he : Beside runKey w w') :
    WellPublished runKey w' where
  row row hrow := by
    rw [he.row] at hrow
    have hold := h.row row hrow
    obtain ⟨v, hv, hle⟩ := hold.version
    refine ⟨hold.kind, hold.payload, ⟨v, hv, hle.trans he.version⟩, fun hdone result hr => ?_⟩
    obtain ⟨b, hb, hcreated⟩ := hold.done hdone result hr
    exact ⟨b, hb, hcreated.mono he.opened⟩
  bindings := by
    rcases h.bindings with hnone | ⟨b, hb, hcreated⟩
    · exact .inl (he.bindings.trans hnone)
    · exact .inr ⟨b, he.bindings.trans hb, hcreated.mono he.opened⟩

end WellPublished

/-! ## The operations outside the publication -/

section Outside

variable {runKey : String} {I : World → Prop}

theorem Beside.refl (w : World) : Beside runKey w w :=
  ⟨rfl, rfl, Nat.le_refl _, List.Subset.refl _⟩

/-- What writes neither the control rows nor the ledger nor the bindings. -/
theorem exec_beside (o : Op) (w : World) (ho : ∀ q, o = .store q →
      ∀ c ∈ [Column.control, .operations, .bindings], c ∉ q.writes) :
    Beside runKey w (machine.exec o w).2 := by
  cases o with
  | store q =>
    have hget := fun c hc => q.exec_get w.now w.store (ho q rfl c hc)
    refine ⟨congrFun (hget .operations (by simp)) _, ?_, Nat.le_of_eq ?_, List.Subset.refl _⟩
    · exact congrArg (List.filter (·.1 == runKey)) (hget .bindings (by simp))
    · exact congrArg (fun t : Table String RunControl => ((t runKey).getD {}).stateVersion)
        (hget .control (by simp)).symm
  | gitlab q =>
    refine ⟨rfl, rfl, Nat.le_refl _, ?_⟩
    cases q with
    | createMr run title description =>
      simp only [exec_gitlab, GitLabOp.exec]
      split
      · exact List.subset_append_left _ _
      · exact List.Subset.refl _
    | _ => exact List.Subset.refl _
  | hermes q => exact ⟨rfl, rfl, Nat.le_refl _, List.Subset.refl _⟩
  | host q => exact .refl w

theorem isRead_writes {o : StoreOp} (ho : o.isRead = true) : o.writes = [] := by
  cases o <;> first | rfl | cases ho

variable (hI : ∀ w w', I w → Beside runKey w w' → I w')
include hI

theorem keeps_outside {o : Op} (ho : ∀ q, o = .store q →
      ∀ c ∈ [Column.control, .operations, .bindings], c ∉ q.writes) :
    Keeps machine (disturbed runKey) I (Prog.op o) :=
  keeps_op hI fun w hw => hI _ _ hw (exec_beside o w ho)

/-- Reads keep whatever the others keep. -/
theorem reading_disturbed :
    Reading (fun {α} (p : Service α) => Keeps machine (disturbed runKey) I p) where
  toClosed := closed_keeps
  store o ho := keeps_outside hI fun q hq c _ => by
    cases hq
    simp [isRead_writes ho]
  hermes _ _ := keeps_outside hI fun q hq => by cases hq
  gitlab _ _ := keeps_outside hI fun q hq => by cases hq
  host _ := keeps_outside hI fun q hq => by cases hq
  artifact _ _ := keeps_outside hI fun q hq => by cases hq

end Outside

namespace Reading

variable {K : ∀ {α : Type}, Service α → Prop} (h : Reading K)
include h

theorem workCards (cardId : CardId) (runKeys : List String) : K (workCards cardId runKeys) := by
  induction runKeys with
  | nil => exact h.pure _
  | cons runKey runKeys ih =>
    exact h.bind (h.store _ rfl) fun cards => h.bind ih fun rest => h.pure _

theorem managedWork (cardId : CardId) : K (managedWork cardId) := by
  refine h.bind (h.store _ rfl) fun runKeys => h.bind (h.workCards cardId runKeys) fun cards => ?_
  split
  · refine h.bind (h.history _) fun ⟨items, run⟩ => ?_
    dsimp only
    split
    · exact h.raise _
    · exact h.pure _
  · exact h.raise _

theorem publishingCard (r : PublishRequest) : K (publishingCard r) := by
  unfold HollysysController.publishingCard
  split
  · exact h.raise _
  · split
    · exact h.raise _
    · refine h.bind (h.managedWork _) fun read => h.bind (h.fromText _) fun record => ?_
      split
      · exact h.raise _
      · split
        · exact h.raise _
        · exact h.pure _

end Reading

/-! ## The writes of a publication -/

theorem publishKey_inj {k k' : String} (h : publishKey k = publishKey k') : k = k' := by
  have hl := congrArg String.toList h
  exact String.toList_inj.mp (by simpa [publishKey, toString] using hl)

section Writes

variable {runKey : String} {w : World} {row : OperationRow} {b : DeliveryBinding}

/-- The world with other operation rows. -/
def World.withOperations (w : World) (t : Table String OperationRow) : World :=
  { w with store := { w.store with operations := t } }

theorem WellPublished.put (h : WellPublished runKey w) (hrow : PublishRow runKey w row) :
    WellPublished runKey (w.withOperations (w.store.operations.put (publishKey runKey) row)) where
  row row' hr := by
    simp only [World.withOperations, Table.put_self, Option.some.injEq] at hr
    subst hr
    exact ⟨hrow.kind, hrow.payload, hrow.version, hrow.done⟩
  bindings := h.bindings

theorem WellPublished.modify (h : WellPublished runKey w) {f : OperationRow → OperationRow}
    (hf : ∀ row, PublishRow runKey w row → PublishRow runKey w (f row)) :
    WellPublished runKey (w.withOperations (w.store.operations.modify (publishKey runKey) f)) where
  row row' hr := by
    simp only [World.withOperations, Table.modify_self, Option.map_eq_some_iff] at hr
    obtain ⟨row, hrow, rfl⟩ := hr
    have hnew := hf row (h.row row hrow)
    exact ⟨hnew.kind, hnew.payload, hnew.version, hnew.done⟩
  bindings := h.bindings

/-- Closing the row under a status that is not `done`. -/
theorem WellPublished.close (h : WellPublished runKey w) (status : OperationStatus) (hs : status ≠ .done)
    (f : OperationRow → OperationRow) (hf : ∀ row, (f row).kind = row.kind ∧
      (f row).payload = row.payload ∧ (f row).expectedHeadSha = row.expectedHeadSha ∧
      (f row).expectedStateVersion = row.expectedStateVersion ∧ (f row).status = status) :
    WellPublished runKey (w.withOperations (w.store.operations.modify (publishKey runKey) f)) := by
  refine h.modify fun row hrow => ?_
  obtain ⟨hkind, hpayload, hhead, hversion, hstatus⟩ := hf row
  refine ⟨hkind.trans hrow.kind, ?_, ?_, fun hd => absurd (hstatus.symm.trans hd) hs⟩
  · rw [hpayload, hhead]
    exact hrow.payload
  · rw [hversion]
    exact hrow.version

theorem WellPublished.finish (h : WellPublished runKey w) (hb : MrCreated w b.mrIid) :
    WellPublished runKey
      (machine.exec (.store (.finishOperation (publishKey runKey) (.delivery b))) w).2 := by
  refine h.modify fun row hrow => ⟨hrow.kind, hrow.payload, hrow.version, fun _ result hr => ?_⟩
  cases hr
  exact ⟨b, rfl, hb⟩

theorem deliveryBinding_bindingsOf (s : Store) (w : World) (hs : w.store = s) :
    s.deliveryBinding runKey = ((bindingsOf runKey w).head?).map (·.2) := by
  subst hs
  rw [bindingsOf, List.head?_filter]
  rfl

theorem WellPublished.bind (h : WellPublished runKey w) (hb : MrCreated w b.mrIid) :
    WellPublished runKey (machine.exec (.store (.bindDelivery runKey b)) w).2 := by
  have hrow := h.row
  rcases bindDelivery_cases w.store runKey b with ⟨-, -, hr⟩ | ⟨-, e, hr⟩ | ⟨-, hnone, -, hr⟩
  · simpa [StoreOp.exec, hr] using h
  · simpa [StoreOp.exec, hr] using h
  · simp only [exec_store, StoreOp.exec, hr]
    refine ⟨fun row hk => ?_, .inr ⟨b, ?_, hb⟩⟩
    · obtain ⟨hkind, hpayload, hversion, hdone⟩ := hrow row hk
      exact ⟨hkind, hpayload, hversion, hdone⟩
    · rw [deliveryBinding_bindingsOf w.store w rfl, Option.map_eq_none_iff,
        List.head?_eq_none_iff] at hnone
      show List.filter _ (w.store.deliveryBindings ++ [(runKey, b)]) = _
      rw [List.filter_append, show List.filter (·.1 == runKey) w.store.deliveryBindings = []
        from hnone]
      simp

end Writes

/-! ## One attempt -/

section Attempt

variable {cfg : Config} {r : PublishRequest} {cardId : CardId} {run : RunRecord} {v : Nat}
variable {w w' : World}

/-- What the ledger says to the call of an attempt. -/
inductive Ledger (c : OperationCall) (run : RunRecord) (v : Nat) (w : World) : Prop
  /-- Another payload is there under the key, or the version was read long ago. -/
  | refused (row : OperationRow) (e : ControllerError) :
      w.store.operations (publishKey run.runKey) = some row →
      row.payload ≠ c.payload ∨ v < controlVersion run.runKey w →
      machine.exec (.store (.operationResult c)) w = (.error e, w) → Ledger c run v w
  /-- The delivery was recorded. -/
  | recorded (row : OperationRow) (b : DeliveryBinding) :
      w.store.operations (publishKey run.runKey) = some row → row.payload = c.payload →
      row.status = .done → row.result = some (.delivery b) → MrCreated w b.mrIid →
      machine.exec (.store (.operationResult c)) w = (.ok (some (.delivery b)), w) →
      Ledger c run v w
  /-- The row is executing afterwards. -/
  | claimed (row' : OperationRow) :
      (∀ row, w.store.operations (publishKey run.runKey) = some row →
        row.payload = c.payload ∧ ¬ (row.status = .done ∧ row.result.isSome)) →
      PublishRow run.runKey w row' → row'.status = .executing →
      machine.exec (.store (.operationResult c)) w =
        (.ok none, w.withOperations (w.store.operations.put (publishKey run.runKey) row')) →
      Ledger c run v w

theorem exec_ledger (c : OperationCall) (w : World)
    {x : Except ControllerError (Option OperationResult × Store)}
    (hx : operationResult c w.now w.store = x) : machine.exec (.store (.operationResult c)) w =
      match (motive := _ → Except ControllerError (Option OperationResult) × World) x with
      | .ok (a, s) => (.ok a, { w with store := s })
      | .error e => (.error e, w) := by
  simp only [machine, Op.exec, StoreOp.exec, Txn.commit, hx]
  rcases x with e | ⟨a, s⟩ <;> rfl

/-- What it says when it has a row. -/
theorem PublishRow.ledger {row : OperationRow} (hold : PublishRow run.runKey w row)
    (hrow : w.store.operations (publishKey run.runKey) = some row)
    (hv : v ≤ controlVersion run.runKey w) :
    Ledger (deliveryCall cfg run cardId r v) run v w := by
  obtain ⟨cardId', head, digest, hpayload, hhead⟩ := hold.payload
  obtain ⟨v', hversion, hle⟩ := hold.version
  by_cases hsame : row.payload = (deliveryCall cfg run cardId r v).payload
  · have hheads : head = r.headSha := by
      rw [hpayload] at hsame
      simp only [deliveryCall, OperationPayload.publishDelivery.injEq] at hsame
      exact hsame.2.2.1
    have hpass : ¬ (row.kind ≠ "publish-delivery" ∨
        row.payload ≠ (deliveryCall cfg run cardId r v).payload) := by
      simp [hold.kind, hsame]
    by_cases hread : v' ≤ v
    · by_cases hdone : row.status = .done ∧ row.result.isSome
      · obtain ⟨result, hresult⟩ := Option.isSome_iff_exists.mp hdone.2
        obtain ⟨b, rfl, hcreated⟩ := hold.done hdone.1 result hresult
        refine .recorded row b hrow hsame hdone.1 hresult hcreated ?_
        exact exec_ledger _ w (x := .ok (some (.delivery b), w.store)) (by
          simp only [operationResult, deliveryCall, hrow] at hpass ⊢
          simp [hpass, hhead, hheads, hversion, versionAdmitted, hread, hdone.1, hresult])
      · refine .claimed { row with
          status := .executing
          uncertainAt := if row.status ∈ [.executing, .running, .uncertain] then some w.now
            else row.uncertainAt
          attempts := row.attempts + 1
          expectedStateVersion := some v } (fun row' hr => ?_) ?_ rfl ?_
        · cases hrow.symm.trans hr
          exact ⟨hsame, hdone⟩
        · exact ⟨hold.kind, ⟨cardId', head, digest, hpayload, hhead⟩, ⟨v, rfl, hv⟩, by simp⟩
        · exact exec_ledger _ w (x := .ok (none, _)) (by
            simp only [operationResult, deliveryCall, hrow] at hpass ⊢
            simp [hpass, hhead, hheads, hversion, versionAdmitted, hread, hdone])
    · refine .refused row (.valueError
        s!"operation expectation changed for {publishKey run.runKey}") hrow (.inr (by omega)) ?_
      exact exec_ledger _ w (x := .error _) (by
        simp only [operationResult, deliveryCall, hrow] at hpass ⊢
        simp [hpass, hhead, hheads, hversion, versionAdmitted, hread])
  · refine .refused row (.valueError s!"operation key {publishKey run.runKey} was reused") hrow
      (.inl hsame) ?_
    exact exec_ledger _ w (x := .error _) (by
      simp only [operationResult, deliveryCall, hrow] at hsame ⊢
      simp [hsame])

theorem WellPublished.ledger (h : WellPublished run.runKey w) (hv : v ≤ controlVersion run.runKey w) :
    Ledger (deliveryCall cfg run cardId r v) run v w := by
  cases hrow : w.store.operations (publishKey run.runKey) with
  | none =>
    refine .claimed
      { kind := "publish-delivery"
        payload := (deliveryCall cfg run cardId r v).payload
        expectedStateVersion := some v
        expectedHeadSha := some r.headSha }
      (fun row hr => by simp [hrow] at hr)
      ⟨rfl, ⟨cardId, r.headSha, cfg.sha256 r.description, rfl, rfl⟩, ⟨v, rfl, hv⟩, by simp⟩ rfl ?_
    exact exec_ledger _ w (x := .ok (none, _)) (by simp only [operationResult, deliveryCall, hrow])
  | some row => exact (h.row row hrow).ledger hrow hv

/-- An attempt under way, with the state version it read. -/
def UnderWay (runKey : String) (v : Nat) (w : World) : Prop :=
  WellPublished runKey w ∧ v ≤ controlVersion runKey w

/-- It has an MR of GitLab in hand. -/
def InHand (runKey : String) (v iid : Nat) (w : World) : Prop :=
  UnderWay runKey v w ∧ MrCreated w iid

variable {runKey : String} {iid : Nat}

theorem UnderWay.beside (h : UnderWay runKey v w) (he : Beside runKey w w') :
    UnderWay runKey v w' :=
  ⟨h.1.beside he, h.2.trans he.version⟩

theorem InHand.beside (h : InHand runKey v iid w) (he : Beside runKey w w') :
    InHand runKey v iid w' :=
  ⟨h.1.beside he, h.2.mono he.opened⟩

/-- The claim of the row. -/
theorem ensures_claim (h : UnderWay run.runKey v w) :
    Ensures machine (disturbed run.runKey) (UnderWay run.runKey v)
      (store (.operationResult (deliveryCall cfg run cardId r v)))
      (fun a w' => ∀ result, a = some result → ∃ b, result = .delivery b ∧ MrCreated w' b.mrIid)
      w := by
  have hstep : ∀ w₁, Beside run.runKey w w₁ →
      UnderWay run.runKey v
          (machine.exec (.store (.operationResult (deliveryCall cfg run cardId r v))) w₁).2 ∧
        ∀ a w₂, machine.exec (.store (.operationResult (deliveryCall cfg run cardId r v))) w₁ =
            (.ok a, w₂) → ∀ result, a = some result →
          ∃ b, result = .delivery b ∧ MrCreated w₂ b.mrIid := by
    intro w₁ he
    obtain ⟨hpub, hle⟩ := h.beside he
    cases hpub.ledger hle (r := r) with
    | refused row e _ _ hx =>
      rw [hx]
      exact ⟨⟨hpub, hle⟩, fun a w₂ hc => by cases hc⟩
    | recorded row b _ _ _ _ hcreated hx =>
      rw [hx]
      refine ⟨⟨hpub, hle⟩, fun a w₂ hc result hr => ?_⟩
      cases hc
      cases hr
      exact ⟨b, rfl, hcreated⟩
    | claimed row' _ hrow' _ hx =>
      rw [hx]
      refine ⟨⟨hpub.put hrow', hle⟩, fun a w₂ hc result hr => ?_⟩
      cases hc
      cases hr
  exact .op (fun w₁ he => h.beside he) (fun w₁ he => (hstep w₁ he).1)
    fun w₁ a w₂ he hx => (hstep w₁ he).2 a w₂ hx

/-- A gitlab or host operation keeps what the others keep. -/
theorem ensures_outside {I J : World → Prop} {o : Op} (hI : ∀ w, J w → I w)
    (hJ : ∀ w w', J w → Beside runKey w w' → J w')
    (ho : ∀ q, o = .store q → ∀ c ∈ [Column.control, .operations, .bindings], c ∉ q.writes)
    (hw : J w) : Ensures machine (disturbed runKey) I (Prog.op o) (fun _ => J) w :=
  (keeps_outside hJ ho).ensures hw hI

theorem ensures_createdBinding {headSha creator : String} {mr : MergeRequest}
    (hw : InHand runKey v mr.iid w) :
    Ensures machine (disturbed runKey) (UnderWay runKey v)
      (createdBinding run headSha creator mr) (fun b w' => InHand runKey v b.mrIid w') w := by
  unfold createdBinding
  split
  · exact .raise hw.1
  · split
    · exact .raise hw.1
    · refine .bind (ensures_outside (fun _ h => h.1) (fun _ _ h he => h.beside he)
        (fun q hq => by cases hq) hw) fun note w₁ _ hw₁ => ?_
      split
      · exact .raise hw₁.1
      · exact .pure hw₁.1 hw₁

/-- The delivery that an attempt gets from GitLab is an MR there. -/
theorem ensures_createDelivery {headSha description : String} (hw : UnderWay runKey v w) :
    Ensures machine (disturbed runKey) (UnderWay runKey v)
      (createDelivery run headSha description) (fun b w' => InHand runKey v b.mrIid w') w := by
  have hread : ∀ (o : Op) (w : World), (∀ q, o ≠ .store q) → UnderWay runKey v w →
      Ensures machine (disturbed runKey) (UnderWay runKey v) (Prog.op o)
        (fun _ => UnderWay runKey v) w :=
    fun o w ho hw => ensures_outside (fun _ h => h) (fun _ _ h he => h.beside he)
      (fun q hq => absurd hq (ho q)) hw
  unfold createDelivery
  split
  · exact .raise hw
  · refine .bind (hread _ _ (fun q hq => by cases hq) hw) fun state w₁ _ hw₁ => ?_
    split
    · exact .raise hw₁
    · refine .bind (hread _ _ (fun q hq => by cases hq) hw₁) fun remoteHead w₂ _ hw₂ => ?_
      split
      · exact .raise hw₂
      · refine .bind (hread _ _ (fun q hq => by cases hq) hw₂) fun collisions w₃ _ hw₃ => ?_
        split
        · exact .raise hw₃
        · refine .bind (hread _ _ (fun q hq => by cases hq) hw₃) fun creator w₄ _ hw₄ => ?_
          split
          · exact .raise hw₄
          · refine .bind (R := fun mr w' => InHand runKey v mr.iid w') ?_
              fun mr w₅ _ hw₅ => ensures_createdBinding hw₅
            refine .op (fun w' he => hw₄.beside he) (fun w' he => ?_) fun w' mr w'' he hx => ?_
            · exact (hw₄.beside he).beside (exec_beside _ _ fun q hq => by cases hq)
            · have hkept := (hw₄.beside he).beside
                (exec_beside (.gitlab (.createMr run (deliveryTitle run) description)) w'
                  fun q hq => by cases hq)
              refine ⟨by rwa [hx] at hkept, ?_⟩
              simp only [machine, Op.exec, GitLabOp.exec] at hx
              split at hx <;> cases hx
              exact ⟨(run.project.projectId, mr), by simp, rfl⟩

theorem assertVersion_reads {K : ∀ {α : Type}, Service α → Prop} (h : Reading K)
    (run : Option String) (version : Option Nat) (text : String) :
    K (assertVersion run version text) := by
  unfold assertVersion
  split
  · refine h.bind (h.assertReconcileMutable _) fun control => ?_
    split
    · exact h.raise _
    · exact h.pure _
  · exact h.pure _

/-- A write of the publication that keeps the rows as they should be. -/
theorem exec_underWay {o : StoreOp} (hc : Column.control ∉ o.writes) (h : UnderWay runKey v w)
    (hp : WellPublished runKey (machine.exec (.store o) w).2) :
    UnderWay runKey v (machine.exec (.store o) w).2 := by
  refine ⟨hp, h.2.trans (Nat.le_of_eq ?_)⟩
  exact congrArg (fun t : Table String RunControl => ((t runKey).getD {}).stateVersion)
    (o.exec_get w.now w.store hc).symm

/-- The row of a failed attempt is closed under a status other than `done`. -/
theorem ensures_settle (e : ControllerError) {Q : OperationResult → World → Prop}
    (hw : UnderWay run.runKey v w) :
    Ensures machine (disturbed run.runKey) (UnderWay run.runKey v)
      (settleFailure (deliveryCall cfg run cardId r v) e) Q w := by
  have hclose : ∀ (o : StoreOp) (e : ControllerError), Column.control ∉ o.writes →
      (∀ w : World, WellPublished run.runKey w →
        WellPublished run.runKey (machine.exec (.store o) w).2) →
      Ensures machine (disturbed run.runKey) (UnderWay run.runKey v)
        ((store o).bind fun _ => (raise e : Service OperationResult)) Q w := by
    intro o e hc hp
    have hkeeps : Keeps machine (disturbed run.runKey) (UnderWay run.runKey v) (store o) :=
      keeps_op (fun w w' hw he => hw.beside he) fun w hw => exec_underWay hc hw (hp w hw.1)
    exact .bind (hkeeps.ensures hw fun _ h => h) fun _ w₁ hw₁ _ => .raise hw₁
  cases e with
  | superseded text => exact .raise hw
  | dependency kind text context | runtimeError text | permissionError text | fatal text =>
    exact hclose (.markOperationUncertain (publishKey run.runKey) text) _ (by simp [StoreOp.writes])
      fun w hw => hw.close .uncertain (by decide) _ fun row => ⟨rfl, rfl, rfl, rfl, rfl⟩
  | checkedHeadConflict text =>
    exact hclose (.supersedeOperation (publishKey run.runKey) text) _ (by simp [StoreOp.writes])
      fun w hw => hw.close .superseded (by decide) _ fun row => ⟨rfl, rfl, rfl, rfl, rfl⟩
  | runPolicy text | valueError text =>
    exact hclose (.failOperation (publishKey run.runKey) text) _ (by simp [StoreOp.writes])
      fun w hw => hw.close .failed (by decide) _ fun row => ⟨rfl, rfl, rfl, rfl, rfl⟩

/-- An attempt gets a delivery that is an MR of GitLab, from the ledger or newly created. -/
theorem ensures_operation (hw : UnderWay run.runKey v w) :
    Ensures machine (disturbed run.runKey) (UnderWay run.runKey v)
      (operation (deliveryCall cfg run cardId r v) (some run.runKey) (creation run r))
      (fun result w' => ∃ b, result = .delivery b ∧ InHand run.runKey v b.mrIid w') w := by
  have hversion : ∀ (J : World → Prop) (text : String) (w : World),
      (∀ w, J w → UnderWay run.runKey v w) → (∀ w w', J w → Beside run.runKey w w' → J w') →
      J w → Ensures machine (disturbed run.runKey) (UnderWay run.runKey v)
        (assertVersion (some run.runKey) (some v) text) (fun _ => J) w :=
    fun J text w hJ hE hw => (assertVersion_reads (reading_disturbed hE) _ _ _).ensures hw hJ
  refine .bind (hversion (UnderWay run.runKey v) _ w (fun _ h => h)
    (fun _ _ h he => h.beside he) hw) fun _ w₁ _ hw₁ =>
    .bind (ensures_claim hw₁) fun previous w₂ hw₂ hprevious => ?_
  cases previous with
  | some previous =>
    obtain ⟨b, rfl, hb⟩ := hprevious previous rfl
    exact .pure hw₂ ⟨b, rfl, hw₂, hb⟩
  | none =>
    refine .bind (R := fun a w' => ∀ result, a = .ok result →
      ∃ b, result = .delivery b ∧ InHand run.runKey v b.mrIid w') (.attempt ?_)
      fun a w₃ hw₃ ha => ?_
    · refine .bind (R := fun result w' => ∃ b, result = .delivery b ∧
        InHand run.runKey v b.mrIid w') ?_ fun result w₃ _ hresult => ?_
      · exact .bind (ensures_createDelivery hw₂) fun b w₃ hw₃ hb => .pure hw₃ ⟨b, rfl, hb⟩
      · obtain ⟨b, rfl, hb⟩ := hresult
        refine .bind (R := fun _ => InHand run.runKey v b.mrIid) ?_ fun _ w₄ hw₄ hb₄ => ?_
        · have hfinish : ∀ w', Beside run.runKey w₃ w' → InHand run.runKey v b.mrIid
              (machine.exec (.store (.finishOperation (publishKey run.runKey) (.delivery b))) w').2 :=
            fun w' he => ⟨exec_underWay (by simp [StoreOp.writes]) (hb.beside he).1
              ((hb.beside he).1.1.finish (hb.beside he).2), (hb.beside he).2⟩
          refine .op (fun w' he => (hb.beside he).1) (fun w' he => (hfinish w' he).1)
            fun w' _ w'' he hx => ?_
          cases hx
          exact hfinish w' he
        · exact .bind (hversion (InHand run.runKey v b.mrIid) _ w₄ (fun _ h => h.1)
            (fun _ _ h he => h.beside he) hb₄) fun _ w₅ hw₅ hb₅ => .pure hw₅ ⟨b, rfl, hb₅⟩
    · cases a with
      | ok result => exact .pure hw₃ (ha result rfl)
      | error e => exact ensures_settle e hw₃

/-- What follows the checks, of an attempt at the publication of the run. -/
theorem ensures_publishFor (hw : WellPublished run.runKey w) :
    Ensures machine (disturbed run.runKey) (WellPublished run.runKey) (publishFor cfg r cardId run)
      (fun _ => WellPublished run.runKey) w := by
  have hread := reading_disturbed (I := WellPublished run.runKey)
    fun _ _ h he => h.beside he
  refine .bind ((hread.store (.deliveryBinding run.runKey) rfl).ensures hw fun _ h => h)
    fun bound w₁ _ hw₁ => ?_
  cases bound with
  | some bound => exact .raise hw₁
  | none =>
    refine .bind (R := fun control w' => UnderWay run.runKey control.stateVersion w') ?_
      fun control w₂ _ hw₂ => ?_
    · refine .bind (R := fun control w' => UnderWay run.runKey (control.getD {}).stateVersion w') ?_
        fun control w' _ hw' => .pure hw'.1 hw'
      refine .op (fun w' he => hw₁.beside he) (fun w' he => hw₁.beside he)
        fun w' control w'' he hx => ?_
      cases hx
      exact ⟨hw₁.beside he, Nat.le_refl _⟩
    · refine Ensures.bind (R := fun result w' => ∃ b, result = .delivery b ∧
          InHand run.runKey control.stateVersion b.mrIid w')
        (wp_mono (fun _ _ h => ⟨h.1.1, h.2⟩) (ensures_operation hw₂)) fun result w₃ _ hresult => ?_
      obtain ⟨b, rfl, hb⟩ := hresult
      refine .bind (R := fun _ => WellPublished run.runKey) ?_ fun _ w₄ hw₄ _ => .pure hw₄ hw₄
      have hbind := fun w' (he : Beside run.runKey w₃ w') =>
        (hb.beside he).1.1.bind (hb.beside he).2
      refine .op (fun w' he => (hb.beside he).1.1) hbind fun w' _ w'' he hx => ?_
      have hkept := hbind w' he
      rwa [hx] at hkept

/-- The ledger of one operation leaves the rows of the others alone. -/
theorem ledger_other {c : OperationCall} {k : Option String} {o : StoreOp} (ho : c.ledger k o)
    {key : String} (hkey : key ≠ c.key) (now : Nat) (s : Store) :
    (o.exec now s).2.operations key = s.operations key := by
  cases o with
  | operationResult c' =>
    obtain rfl : c' = c := ho
    simp only [StoreOp.exec, Txn.commit]
    split
    · next hx =>
      unfold operationResult at hx
      repeat' split at hx
      all_goals cases hx <;> first | rfl | exact Table.put_ne _ _ hkey
    · rfl
  | finishOperation key' result | failOperation key' e | supersedeOperation key' e
  | markOperationUncertain key' e =>
    obtain rfl : key' = c.key := ho
    exact Table.modify_ne _ _ hkey
  | runControl => rfl
  | _ => cases ho

theorem ledger_writes {c : OperationCall} {k : Option String} {o : StoreOp} (ho : c.ledger k o) :
    o.writes ⊆ [Column.operations] := by
  cases o <;> first | exact List.Subset.refl _ | exact List.nil_subset _ | cases ho

/-- The creation of a delivery is made of GitLab requests and a look at the workspace. -/
theorem creation_closed {K : ∀ {α : Type}, Service α → Prop} (h : Closed K)
    (hhost : ∀ o, K (host o)) (hgitlab : ∀ o, K (gitlab o)) : K (creation run r) := by
  refine h.bind ?_ fun b => h.pure _
  unfold createDelivery
  split
  · exact h.raise _
  · refine h.bind (hhost _) fun state => ?_
    split
    · exact h.raise _
    · refine h.bind (hgitlab _) fun remoteHead => ?_
      split
      · exact h.raise _
      · refine h.bind (hgitlab _) fun collisions => ?_
        split
        · exact h.raise _
        · refine h.bind (hgitlab _) fun creator => ?_
          split
          · exact h.raise _
          · refine h.bind (hgitlab _) fun mr => ?_
            unfold createdBinding
            split
            · exact h.raise _
            · split
              · exact h.raise _
              · refine h.bind (hgitlab _) fun note => ?_
                split
                · exact h.raise _
                · exact h.pure _

/-- Binding a run leaves the others alone. -/
theorem bind_other (hk : run.runKey ≠ runKey) (b : DeliveryBinding) (w : World) :
    Beside runKey w (machine.exec (.store (.bindDelivery run.runKey b)) w).2 := by
  rcases bindDelivery_cases w.store run.runKey b with ⟨-, -, hr⟩ | ⟨-, e, hr⟩ | ⟨-, -, -, hr⟩ <;>
    simp only [exec_store, StoreOp.exec, hr]
  · exact .refl w
  · exact .refl w
  · refine ⟨rfl, ?_, Nat.le_refl _, List.Subset.refl _⟩
    simp [bindingsOf, Store.withBinding, hk]

/-- An attempt at the publication of another run. -/
theorem keeps_publishFor_other (hk : run.runKey ≠ runKey) :
    Keeps machine (disturbed runKey) (WellPublished runKey) (publishFor cfg r cardId run) := by
  have hkey : publishKey runKey ≠ publishKey run.runKey := fun h => hk (publishKey_inj h).symm
  have hE : ∀ w w', WellPublished runKey w → Beside runKey w w' → WellPublished runKey w' :=
    fun _ _ h he => h.beside he
  have hread := reading_disturbed hE
  have hgitlab : ∀ o, Keeps machine (disturbed runKey) (WellPublished runKey) (gitlab o) :=
    fun o => keeps_outside hE fun q hq => by cases hq
  have hledger : ∀ (v : Nat) (o : StoreOp),
      (deliveryCall cfg run cardId r v).ledger (some run.runKey) o →
      Keeps machine (disturbed runKey) (WellPublished runKey) (store o) := by
    intro v o ho
    refine keeps_op hE fun w hw => hE _ _ hw ⟨ledger_other ho hkey w.now w.store, ?_, ?_, ?_⟩
    · exact congrArg (List.filter (·.1 == runKey)) (o.exec_get w.now w.store (c := .bindings)
        fun hc => by simpa using ledger_writes ho hc)
    · exact Nat.le_of_eq (congrArg (fun t : Table String RunControl =>
        ((t runKey).getD {}).stateVersion) (o.exec_get w.now w.store (c := .control)
          fun hc => by simpa using ledger_writes ho hc).symm)
    · exact List.Subset.refl _
  refine closed_keeps.bind (hread.store _ rfl) fun bound => ?_
  cases bound with
  | some bound => exact closed_keeps.raise _
  | none =>
    refine closed_keeps.bind (hread.runControl _) fun control =>
      closed_keeps.bind (operation_closed closed_keeps (hledger _)
        (creation_closed closed_keeps hread.host hgitlab)) fun result => ?_
    cases result with
    | delivery b =>
      exact closed_keeps.bind (keeps_op hE fun w hw => hE _ _ hw (bind_other hk b w))
        fun _ => closed_keeps.pure _
    | _ => exact closed_keeps.raise _

/-- **Every attempt keeps the publication of every run.** -/
theorem keeps_publishDelivery :
    Keeps machine (disturbed runKey) (WellPublished runKey) (publishDelivery cfg r) := by
  have hread := reading_disturbed (I := WellPublished runKey)
    fun _ _ h he => h.beside he
  refine closed_keeps.bind (hread.publishingCard r) fun ⟨cardId, run⟩ => ?_
  by_cases hk : run.runKey = runKey
  · subst hk
    intro w hw
    exact wp_mono (fun _ _ h => h.1) (ensures_publishFor hw)
  · exact keeps_publishFor_other hk

theorem Attempts.published (h : Attempts cfg runKey w w') (hw : WellPublished runKey w) :
    WellPublished runKey w' := by
  induction h with
  | none => exact hw
  | beside _ he ih => exact ih.beside he
  | attempt r _ hrun ih => exact hrun.sound (keeps_publishDelivery _ ih)

end Attempt



/-! ## An attempt that nothing fails -/

/-- GitLab makes the MR `mr` of the request, and takes the claim note. -/
structure Makes (r : PublishRequest) (run : RunRecord) (mr : MergeRequest) (w : World) : Prop where
  user : w.gitlab.currentUser = .ok mr.creator ∧ strip mr.creator ≠ []
  opens : w.gitlab.opens run (deliveryTitle run) r.description = .ok mr
  made : mr.sourceBranch = run.workspace.branch ∧ mr.targetBranch = run.workspace.targetBranch ∧
    mr.head = r.headSha ∧ mr.iid ≠ 0
  note : ∃ note, w.gitlab.noteId run mr.iid (deliveryClaim run r.headSha) = .ok note ∧ note ≠ 0

/-- The head is the current one on the branch and in the workspace, and unless the branch has
an MR, GitLab makes `mr`. -/
structure Offered (r : PublishRequest) (run : RunRecord) (mr : MergeRequest) (w : World) :
    Prop where
  head : isFullSha r.headSha = true
  workspace : (w.host.workspace run).ok = true ∧ (w.host.workspace run).headSha = r.headSha ∧
    (w.host.workspace run).branch = run.workspace.branch
  remote : w.gitlab.branchHead run = .ok r.headSha
  makes : w.gitlab.mergeRequests run = [] → Makes r run mr w

/-- The card of the request passes its checks as well, and the run is at work. -/
structure Unfailing (r : PublishRequest) (cardId : CardId) (run : RunRecord) (mr : MergeRequest)
    (w : World) : Prop extends Offered r run mr w where
  card : (machine.eval (publishingCard r) w).1 = .returned (cardId, run)
  known : (w.store.runRecord run.runKey).isSome
  working : (stateOf run.runKey w).isReconcilable = true

/-- The delivery that the ledger has. -/
def recordedDelivery (runKey : String) (w : World) : Option DeliveryBinding :=
  match w.store.operations (publishKey runKey) with
  | some row =>
    match row.status, row.result with
    | .done, some (.delivery b) => some b
    | _, _ => none
  | none => none

/-- The number of the MR that an attempt is to bind. -/
def numberToBind (runKey : String) (mr : MergeRequest) (w : World) : Nat :=
  ((recordedDelivery runKey w).map (·.mrIid)).getD mr.iid

/-- Earlier attempts left a row with the payload of this one, if any, and no MR of the branch
that the ledger does not have. -/
structure Continues (cfg : Config) (r : PublishRequest) (cardId : CardId) (run : RunRecord)
    (w : World) : Prop where
  payload : ∀ row, w.store.operations (publishKey run.runKey) = some row →
    row.payload = .publishDelivery run.runKey cardId r.headSha (cfg.sha256 r.description)
  recorded : w.gitlab.mergeRequests run = [] ∨ (recordedDelivery run.runKey w).isSome

/-- No run is bound to the number either. -/
structure Resumable (cfg : Config) (r : PublishRequest) (cardId : CardId) (run : RunRecord)
    (mr : MergeRequest) (w : World) : Prop extends Continues cfg r cardId run w where
  number : ∀ p ∈ w.store.deliveryBindings, p.2.mrIid ≠ numberToBind run.runKey mr w

section Unfailing

variable {cfg : Config} {r : PublishRequest} {cardId : CardId} {run : RunRecord}
variable {mr : MergeRequest} {w w' : World}

theorem eval_exec_ok {o : Op} {a : o.Ret} (h : machine.exec o w = (.ok a, w')) :
    machine.eval (Prog.op o) w = (.returned a, w') := by
  rw [Machine.eval_op, h]

theorem eval_exec_error {o : Op} {e : ControllerError} (h : machine.exec o w = (.error e, w')) :
    machine.eval (Prog.op o : Service o.Ret) w = (.raised e, w') := by
  rw [Machine.eval_op, h]

/-- The world after GitLab made an MR. -/
def World.withMr (w : World) (run : RunRecord) (mr : MergeRequest) : World :=
  { w with gitlab := { w.gitlab with
    deliveries := w.gitlab.deliveries ++ [(run.project.projectId, mr)] } }

/-- The creation of the MR. -/
theorem Makes.eval_createdBinding (h : Makes r run mr w) : ∃ b, b.mrIid = mr.iid ∧
    machine.eval (createdBinding run r.headSha mr.creator mr) (w.withMr run mr) =
      (.returned b, w.withMr run mr) := by
  obtain ⟨note, hnote, hpositive⟩ := h.note
  have hclaim : machine.eval (gitlab (.addNote run mr.iid (deliveryClaim run r.headSha)))
      (w.withMr run mr) = (.returned note, w.withMr run mr) :=
    eval_exec_ok (Prod.ext hnote rfl)
  obtain ⟨hsource, htarget, hhead, hiid⟩ := h.made
  refine ⟨{ mrIid := mr.iid, mrUrl := mr.webUrl, creator := mr.creator, createdAt := mr.createdAt,
            initialHeadSha := r.headSha, claimNoteId := note }, rfl, ?_⟩
  rw [createdBinding, if_neg (not_not_intro rfl), if_neg (by simp [hsource, htarget, hhead]),
    Prog.bind_def, machine.eval_bind_of hclaim, if_neg (by simp [hiid, hpositive])]
  rfl

/-- The checks pass, up to the look for other MRs of the branch. -/
theorem Offered.eval_createDelivery (h : Offered r run mr w) :
    (w.gitlab.mergeRequests run = [] → ∃ b, b.mrIid = mr.iid ∧
      machine.eval (createDelivery run r.headSha r.description) w =
        (.returned b, w.withMr run mr)) ∧
    (w.gitlab.mergeRequests run ≠ [] →
      machine.eval (createDelivery run r.headSha r.description) w =
        (.raised (.valueError s!"unbound_delivery_mr_exists:{run.workspace.branch}"), w)) := by
  have hremote : machine.eval (gitlab (.branchHead run)) w = (.returned r.headSha, w) :=
    eval_exec_ok (Prod.ext h.remote rfl)
  obtain ⟨hok, hlocal, hbranch⟩ := h.workspace
  unfold createDelivery
  rw [if_neg (by simp [h.head]), Prog.bind_def,
    machine.eval_bind_of (eval_host (.workspace run) w),
    if_neg (by simp [hok, hlocal, hbranch]), Prog.bind_def, machine.eval_bind_of hremote,
    if_neg (not_not_intro rfl), Prog.bind_def,
    machine.eval_bind_of (eval_gitlab (.mergeRequests run) w)]
  constructor
  · intro hnone
    have hmakes := h.makes hnone
    have huser : machine.eval (gitlab .currentUser) w = (.returned mr.creator, w) :=
      eval_exec_ok (Prod.ext hmakes.user.1 rfl)
    have hopens : machine.eval (gitlab (.createMr run (deliveryTitle run) r.description)) w =
        (.returned mr, w.withMr run mr) :=
      eval_exec_ok (by simp only [machine, Op.exec, GitLabOp.exec, hmakes.opens, World.withMr])
    obtain ⟨b, hiid, hbinding⟩ := hmakes.eval_createdBinding
    refine ⟨b, hiid, ?_⟩
    rw [if_neg (by simp [hnone]), Prog.bind_def, machine.eval_bind_of huser,
      if_neg hmakes.user.2, Prog.bind_def, machine.eval_bind_of hopens]
    exact hbinding
  · intro hsome
    rw [if_pos (by simpa using hsome)]
    rfl

theorem recordedDelivery_eq_some {runKey : String} {b : DeliveryBinding} :
    recordedDelivery runKey w = some b ↔ ∃ row, w.store.operations (publishKey runKey) = some row ∧
      row.status = .done ∧ row.result = some (.delivery b) := by
  unfold recordedDelivery
  constructor
  · intro h
    split at h
    · next row hrow =>
      split at h
      · next hstatus hresult =>
        cases h
        exact ⟨row, hrow, hstatus, hresult⟩
      · cases h
    · cases h
  · rintro ⟨row, hrow, hstatus, hresult⟩
    rw [hrow]
    simp only [hstatus, hresult]

/-- The bindings and the records of the runs are the same. -/
def SameRuns (w w' : World) : Prop :=
  w'.store.deliveryBindings = w.store.deliveryBindings ∧ w'.store.runs = w.store.runs

/-- The operation of an attempt that nothing fails gives the delivery to bind, or it raises. -/
inductive Attempted (cfg : Config) (r : PublishRequest) (cardId : CardId) (run : RunRecord)
    (mr : MergeRequest) (w : World) : Durable.Outcome ControllerError OperationResult × World → Prop
  | refused {e w₁} : ¬ Continues cfg r cardId run w → SameRuns w w₁ →
      Attempted cfg r cardId run mr w (.raised e, w₁)
  | delivered {b w₁} : Continues cfg r cardId run w → SameRuns w w₁ →
      b.mrIid = numberToBind run.runKey mr w → MrCreated w₁ b.mrIid →
      Attempted cfg r cardId run mr w (.returned (.delivery b), w₁)

section RunOperation

variable {c : OperationCall} {runKey : Option String} {action : Service OperationResult}

theorem runOperation_raised {e : ControllerError} (h : machine.eval action w = (.raised e, w')) :
    machine.eval (runOperation c runKey action none) w =
      machine.eval (settleFailure c e) w' := by
  rw [runOperation, Prog.bind_def, Prog.bind_def]
  have hattempt : machine.eval (action.bind fun result => (store (.finishOperation c.key result)).bind
      fun _ => (assertVersion runKey c.expectedStateVersion "discarded_stale_operation_result").bind
      fun _ => (pure result : Service OperationResult)).attempt w = (.returned (.error e), w') := by
    rw [machine.eval_attempt, machine.eval_bind_raised h]
  exact machine.eval_bind_of hattempt

/-- The world after the row of the operation was finished. -/
theorem runOperation_returned {result : OperationResult}
    (h : machine.eval action w = (.returned result, w'))
    (hversion : machine.eval (assertVersion runKey c.expectedStateVersion
        "discarded_stale_operation_result")
      (machine.exec (.store (.finishOperation c.key result)) w').2 =
        (.returned (), (machine.exec (.store (.finishOperation c.key result)) w').2)) :
    machine.eval (runOperation c runKey action none) w =
      (.returned result, (machine.exec (.store (.finishOperation c.key result)) w').2) := by
  have hattempt : machine.eval (action.bind fun result => (store (.finishOperation c.key result)).bind
      fun _ => (assertVersion runKey c.expectedStateVersion "discarded_stale_operation_result").bind
      fun _ => (pure result : Service OperationResult)).attempt w =
        (.returned (.ok result), (machine.exec (.store (.finishOperation c.key result)) w').2) := by
    refine machine.eval_attempt_ok.mpr ((machine.eval_bind_of h).trans ?_)
    refine (machine.eval_bind_of (eval_exec_ok rfl)).trans ?_
    exact machine.eval_bind_of hversion
  exact machine.eval_bind_of hattempt

end RunOperation

/-- An attempt whose row was claimed. -/
theorem Unfailing.eval_claimed (h : Unfailing r cardId run mr w) {t : Table String OperationRow}
    (hpayload : ∀ row, w.store.operations (publishKey run.runKey) = some row →
      row.payload = .publishDelivery run.runKey cardId r.headSha (cfg.sha256 r.description))
    (hrecorded : recordedDelivery run.runKey w = none) :
    Attempted cfg r cardId run mr w (machine.eval (runOperation
      (deliveryCall cfg run cardId r (controlVersion run.runKey w)) (some run.runKey)
      (creation run r) none) (w.withOperations t)) := by
  have hoffered : Offered r run mr (w.withOperations t) :=
    ⟨h.head, h.workspace, h.remote, fun hnone =>
      ⟨(h.makes hnone).user, (h.makes hnone).opens, (h.makes hnone).made, (h.makes hnone).note⟩⟩
  by_cases hnone : w.gitlab.mergeRequests run = []
  · obtain ⟨b, hiid, hcreate⟩ := hoffered.eval_createDelivery.1 hnone
    have hcreation : machine.eval (creation run r) (w.withOperations t) = _ :=
      machine.eval_bind_of hcreate
    have hversion : ∀ v : World, v.store.runControl = w.store.runControl →
        machine.eval (assertVersion (some run.runKey)
          (deliveryCall cfg run cardId r (controlVersion run.runKey w)).expectedStateVersion
          "discarded_stale_operation_result") v = (.returned (), v) := by
      intro v hv
      refine assertVersion_eval _ ?_ ?_
      · rw [stateOf, hv]
        exact h.working
      · rw [hv]
        rfl
    rw [runOperation_returned hcreation (hversion _ rfl)]
    refine .delivered ⟨hpayload, .inl hnone⟩ ⟨rfl, rfl⟩ ?_ ?_
    · simp [numberToBind, hrecorded, hiid]
    · exact ⟨(run.project.projectId, mr), List.mem_append_right _ List.mem_cons_self, hiid.symm⟩
  · have hcreate := hoffered.eval_createDelivery.2 hnone
    have hcreation : machine.eval (creation run r) (w.withOperations t) = _ :=
      machine.eval_bind_raised hcreate
    rw [runOperation_raised hcreation]
    refine .refused (fun hc => ?_) ⟨rfl, rfl⟩
    rcases hc.recorded with h₁ | h₁
    · exact hnone h₁
    · simp [hrecorded] at h₁

theorem Unfailing.eval_operation (h : Unfailing r cardId run mr w)
    (hpub : WellPublished run.runKey w) :
    Attempted cfg r cardId run mr w (machine.eval (operation
      (deliveryCall cfg run cardId r (controlVersion run.runKey w)) (some run.runKey)
      (creation run r)) w) := by
  have hstart : machine.eval (assertVersion (some run.runKey)
      (deliveryCall cfg run cardId r (controlVersion run.runKey w)).expectedStateVersion
      "operation_state_version_changed") w = (.returned (), w) :=
    assertVersion_eval _ h.working rfl
  rw [operation, Prog.bind_def, machine.eval_bind_of hstart]
  cases hpub.ledger (Nat.le_refl _) (r := r) with
  | refused row e hrow hwhy hx =>
    have hclaim : machine.eval (store (.operationResult _)) w = _ := eval_exec_error hx
    rw [Prog.bind_def, machine.eval_bind_raised hclaim]
    refine .refused (fun hc => ?_) ⟨rfl, rfl⟩
    rcases hwhy with hne | hlt
    · exact hne (hc.payload row hrow)
    · exact Nat.lt_irrefl _ hlt
  | recorded row b hrow hsame hstatus hresult hcreated hx =>
    have hclaim : machine.eval (store (.operationResult _)) w = _ := eval_exec_ok hx
    rw [Prog.bind_def, machine.eval_bind_of hclaim]
    have hb : recordedDelivery run.runKey w = some b :=
      recordedDelivery_eq_some.mpr ⟨row, hrow, hstatus, hresult⟩
    refine .delivered ⟨fun row' hr => ?_, .inr (by simp [hb])⟩ ⟨rfl, rfl⟩
      (by simp [numberToBind, hb]) hcreated
    cases hrow.symm.trans hr
    exact hsame
  | claimed row' hnew hrow' _ hx =>
    have hclaim : machine.eval (store (.operationResult _)) w = _ := eval_exec_ok hx
    rw [Prog.bind_def, machine.eval_bind_of hclaim]
    refine h.eval_claimed (fun row hr => (hnew row hr).1) ?_
    cases hb : recordedDelivery run.runKey w with
    | none => rfl
    | some b =>
      obtain ⟨row, hrow, hstatus, hresult⟩ := recordedDelivery_eq_some.mp hb
      exact absurd ⟨hstatus, by simp [hresult]⟩ (hnew row hrow).2

/-- The last step: the run without a binding is bound unless the number is taken. -/
theorem eval_bindResult {b : DeliveryBinding} (hnone : bindingsOf run.runKey w = [])
    (hknown : (w.store.runRecord run.runKey).isSome) (hb : MrCreated w b.mrIid) :
    BoundOnce run.runKey (machine.eval (bindResult run.runKey (.delivery b)) w).2 ↔
      ∀ p ∈ w.store.deliveryBindings, p.2.mrIid ≠ b.mrIid := by
  have hunbound : w.store.deliveryBinding run.runKey = none := by
    rw [deliveryBinding_bindingsOf w.store w rfl, hnone]
    rfl
  have hnot : ¬ BoundOnce run.runKey w := by
    rintro ⟨b', hb', -⟩
    rw [hnone] at hb'
    cases hb'
  have heval : (machine.eval (bindResult run.runKey (.delivery b)) w).2 =
      { w with store := ((bindDelivery run.runKey b).commit w.store).2 } := by
    rw [bindResult, Prog.bind_def, machine.eval_bind, eval_store]
    simp only [StoreOp.exec]
    rcases (bindDelivery run.runKey b).commit w.store with ⟨r, s⟩
    cases r <;> rfl
  rw [heval]
  rcases bindDelivery_cases w.store run.runKey b with ⟨hown, -⟩ | ⟨hwhy, e, hr⟩ | ⟨-, -, hfree, hr⟩
  · rw [hunbound] at hown
    cases hown
  · rw [hr]
    refine iff_of_false hnot fun hfree => ?_
    rcases hwhy with hrun | ⟨own, hown, -⟩ | ⟨-, p, hp, hiid⟩
    · rw [hrun] at hknown
      cases hknown
    · rw [hunbound] at hown
      cases hown
    · exact hfree p hp hiid
  · rw [hr]
    refine iff_of_true ⟨b, ?_, hb⟩ hfree
    show List.filter _ (w.store.deliveryBindings ++ [(run.runKey, b)]) = _
    rw [List.filter_append, show List.filter (·.1 == run.runKey) w.store.deliveryBindings = []
      from hnone]
    simp

/-- **Publication is resumed exactly from what it left in order.** After any sequence of
attempts from a run that was not published, an attempt that nothing fails leaves the run bound
to one MR if and only if the run was bound already, or the row has the payload of this
attempt, every MR of the branch is in the ledger, and no other run has the number. -/
theorem publication_resumes_iff {w₀ : World} (hstart : Unpublished run.runKey w₀)
    (hruns : Attempts cfg run.runKey w₀ w) (h : Unfailing r cardId run mr w) :
    BoundOnce run.runKey (machine.eval (publishDelivery cfg r) w).2 ↔
      BoundOnce run.runKey w ∨ Resumable cfg r cardId run mr w := by
  have hpub := hruns.published hstart.published
  have hcard : machine.eval (publishingCard r) w = (.returned (cardId, run), w) :=
    Prod.ext h.card ((reading_keeps (· = w)).publishingCard r w rfl)
  have hread : machine.eval (store (.deliveryBinding run.runKey)) w =
      (.returned (w.store.deliveryBinding run.runKey), w) := eval_exec_ok rfl
  have heval : machine.eval (publishDelivery cfg r) w = machine.eval (publishFor cfg r cardId run) w :=
    machine.eval_bind_of hcard
  rw [heval, publishFor, Prog.bind_def, machine.eval_bind_of hread,
    deliveryBinding_bindingsOf w.store w rfl]
  rcases hpub.bindings with hnone | hbound
  · have hnot : ∀ w', SameRuns w w' → bindingsOf run.runKey w' = [] := by
      intro w' hsame
      rw [← hnone, bindingsOf, hsame.1]
      rfl
    have hcontrol : machine.eval (runControl run.runKey) w =
        (.returned ((w.store.runControl run.runKey).getD {}), w) :=
      machine.eval_bind_of (eval_readControl run.runKey w)
    rw [hnone]
    show BoundOnce run.runKey (machine.eval ((runControl run.runKey).bind _) w).2 ↔ _
    rw [machine.eval_bind_of hcontrol, Prog.bind_def, machine.eval_bind]
    have hoperation := @Unfailing.eval_operation cfg _ _ _ _ _ h hpub
    rw [controlVersion] at hoperation
    rcases hx : machine.eval (operation (deliveryCall cfg run cardId r
      ((w.store.runControl run.runKey).getD {}).stateVersion) (some run.runKey)
      (creation run r)) w with ⟨o, w₁⟩
    rw [hx] at hoperation
    have hunbound : ¬ BoundOnce run.runKey w := by
      rintro ⟨b, hb, -⟩
      rw [hnone] at hb
      cases hb
    cases hoperation with
    | refused hrefused hsame =>
      refine iff_of_false (fun ⟨b, hb, _⟩ => ?_) (fun hc => hc.elim hunbound fun hc => hrefused hc.1)
      rw [hnot _ hsame] at hb
      cases hb
    | delivered hcontinues hsame hiid hcreated =>
      refine (eval_bindResult (hnot _ hsame) ?_ hcreated).trans ?_
      · have hknown := h.known
        rwa [Store.runRecord, ← hsame.2] at hknown
      · rw [hsame.1, hiid]
        exact ⟨fun hfree => .inr ⟨hcontinues, hfree⟩,
          fun hc => hc.elim (fun hb => absurd hb hunbound) fun hc => hc.number⟩
  · obtain ⟨b, hb, hcreated⟩ := hbound
    rw [hb]
    exact iff_of_true ⟨b, hb, hcreated⟩ (.inl ⟨b, hb, hcreated⟩)

end Unfailing

/-! ## An MR that is left behind -/

def firstHead : String := "1111111111111111111111111111111111111111"

/-- GitLab and the workspace of a run at a head, with MR 7 for whoever asks next. -/
def atHead (head : String) (w : World) : World :=
  { w with
    gitlab := { w.gitlab with
      branchHead := fun _ => .ok head
      currentUser := .ok "controller"
      opens := fun run _ _ => .ok (sampleMr head run)
      noteId := fun _ _ _ => .ok 9 }
    host := { w.host with
      workspace := fun run => { ok := true, branch := run.workspace.branch, headSha := head } } }
where
  sampleMr (head : String) (run : RunRecord) : MergeRequest :=
    { iid := 7, sha := some head, sourceBranch := run.workspace.branch,
      targetBranch := run.workspace.targetBranch, creator := "controller", createdAt := 200,
      webUrl := "https://gitlab/team/app/-/merge_requests/7" }

/-- The first SPEC writer of the sample run has pushed its first head. -/
def writerWorld : World := atHead firstHead wholeStart.after

def publishRequest (head : String) : PublishRequest := ⟨some ⟨2⟩, head, "Delivery"⟩

/-- The run of the sample start. -/
def writerRun : RunRecord := startedRun sampleConfig ⟨"g1", "k1"⟩ sampleStart sampleSource 100

/-- Where an attempt ends that meets the faults of the script. -/
def scriptedAttempt (fs : List (Fault ControllerError)) (head : String) (w : World) : World :=
  (machine.replay (publishDelivery sampleConfig (publishRequest head)) fs w).2

theorem Attempts.script {runKey : String} {w w' : World} (h : Attempts sampleConfig runKey w w')
    (fs : List (Fault ControllerError)) (head : String) :
    Attempts sampleConfig runKey w (scriptedAttempt fs head w') :=
  .attempt (publishRequest head) h (replay_runs (E := disturbed runKey) .refl
    (fun _ _ _ => trivial) _ fs w')

/-- The attempt stops right after GitLab made the MR. -/
def orphanedWorld : World :=
  scriptedAttempt (List.replicate 13 Fault.none ++ [Fault.stopAfter]) firstHead writerWorld

/-- The attempt stops right before, and nothing changes. -/
def interruptedWorld : World :=
  scriptedAttempt (List.replicate 13 Fault.none ++ [Fault.stopBefore]) firstHead writerWorld

def secondHead : String := "2222222222222222222222222222222222222222"

/-- After the interrupted attempt the writer pushes another head. -/
def movedWorld : World := atHead secondHead interruptedWorld

theorem writerWorld_unpublished : Unpublished writerRun.runKey writerWorld := by
  have hnone : writerWorld.store.operations (publishKey writerRun.runKey) = Option.none ∧
      bindingsOf writerRun.runKey writerWorld = [] := by
    decide +kernel
  exact ⟨hnone.1, hnone.2⟩

/-- The world is ready for the first attempt at the head that nothing fails. -/
abbrev ReadyAt (head : String) (w : World) : Prop :=
  (w.gitlab.branchHead writerRun = .ok head ∧ w.gitlab.currentUser = .ok "controller" ∧
    w.gitlab.opens writerRun (deliveryTitle writerRun) "Delivery" =
      .ok (atHead.sampleMr head writerRun) ∧
    w.gitlab.noteId writerRun 7 (deliveryClaim writerRun head) = .ok 9 ∧
    w.host.workspace writerRun =
      { ok := true, branch := writerRun.workspace.branch, headSha := head }) ∧
  (machine.eval (publishingCard (publishRequest head)) w).1 = .returned (⟨2⟩, writerRun) ∧
  (w.store.runRecord writerRun.runKey).isSome = true ∧
  (stateOf writerRun.runKey w).isReconcilable = true

theorem unfailing_at {head : String} {w : World} (hhead : isFullSha head = true)
    (hw : ReadyAt head w) :
    Unfailing (publishRequest head) ⟨2⟩ writerRun (atHead.sampleMr head writerRun) w := by
  obtain ⟨⟨hremote, huser, hopens, hnote, hworkspace⟩, hcard, hknown, hworking⟩ := hw
  refine ⟨⟨hhead, ?_, hremote, fun _ => ⟨⟨huser, (by decide : strip "controller" ≠ [])⟩, hopens,
    ⟨rfl, rfl, rfl, (by decide : 7 ≠ 0)⟩, 9, hnote, by decide⟩⟩, hcard, hknown, hworking⟩
  rw [hworkspace]
  exact ⟨rfl, rfl, rfl⟩

/-- Another head changes nothing of what a run has published. -/
theorem atHead_beside (runKey head : String) (w : World) : Beside runKey w (atHead head w) :=
  ⟨rfl, rfl, Nat.le_refl _, List.Subset.refl _⟩

/-- A world that is ready for an attempt, after which the run is bound to nothing. -/
abbrev StuckAt (head : String) (w : World) : Prop :=
  ReadyAt head w ∧ bindingsOf writerRun.runKey
    (machine.eval (publishDelivery sampleConfig (publishRequest head)) w).2 = []

theorem orphanedWorld_stuck : StuckAt firstHead orphanedWorld := by
  decide +kernel

theorem movedWorld_stuck : StuckAt secondHead movedWorld := by
  decide +kernel

theorem BoundOnce.bound {runKey : String} {w : World} (h : BoundOnce runKey w) :
    bindingsOf runKey w ≠ [] := by
  obtain ⟨b, hb, -⟩ := h
  simp [hb]

/-- An attempt that is cut after the creation leaves an MR that no later attempt gets past,
and one that is cut before it pins the head. -/
theorem cutAttempts_unbound :
    (Attempts sampleConfig writerRun.runKey writerWorld orphanedWorld ∧
      Unfailing (publishRequest firstHead) ⟨2⟩ writerRun (atHead.sampleMr firstHead writerRun)
        orphanedWorld ∧
      ¬ BoundOnce writerRun.runKey
        (machine.eval (publishDelivery sampleConfig (publishRequest firstHead)) orphanedWorld).2) ∧
    Attempts sampleConfig writerRun.runKey writerWorld movedWorld ∧
      Unfailing (publishRequest secondHead) ⟨2⟩ writerRun (atHead.sampleMr secondHead writerRun)
        movedWorld ∧
      ¬ BoundOnce writerRun.runKey
        (machine.eval (publishDelivery sampleConfig (publishRequest secondHead)) movedWorld).2 := by
  have hfirst : isFullSha firstHead = true := by decide +kernel
  have hsecond : isFullSha secondHead = true := by decide +kernel
  exact ⟨⟨Attempts.none.script _ _, unfailing_at hfirst orphanedWorld_stuck.1,
      fun h => h.bound orphanedWorld_stuck.2⟩,
    (Attempts.none.script _ _).beside (atHead_beside _ _ _),
    unfailing_at hsecond movedWorld_stuck.1, fun h => h.bound movedWorld_stuck.2⟩

/-- A repetition of the interrupted attempt binds the run. -/
theorem interruptedWorld_bound : BoundOnce writerRun.runKey
    (machine.eval (publishDelivery sampleConfig (publishRequest firstHead)) interruptedWorld).2 := by
  have hfirst : isFullSha firstHead = true := by decide +kernel
  have hworld : ReadyAt firstHead interruptedWorld ∧
      ((interruptedWorld.store.operations (publishKey writerRun.runKey)).all fun row =>
        decide (row.payload = .publishDelivery writerRun.runKey ⟨2⟩ firstHead
          (sampleConfig.sha256 "Delivery"))) = true ∧
      interruptedWorld.gitlab.mergeRequests writerRun = [] ∧
      ∀ p ∈ interruptedWorld.store.deliveryBindings, p.2.mrIid ≠
        numberToBind writerRun.runKey (atHead.sampleMr firstHead writerRun) interruptedWorld := by
    decide +kernel
  obtain ⟨hready, hall, hopen, hnumber⟩ := hworld
  have hattempts : Attempts sampleConfig writerRun.runKey writerWorld interruptedWorld :=
    Attempts.none.script _ _
  refine (publication_resumes_iff writerWorld_unpublished hattempts
    (unfailing_at hfirst hready)).mpr (.inr ⟨⟨fun row hrow => ?_, .inl hopen⟩, hnumber⟩)
  have hrow' : interruptedWorld.store.operations (publishKey writerRun.runKey) = some row := hrow
  rw [hrow'] at hall
  exact of_decide_eq_true hall

end HollysysController
