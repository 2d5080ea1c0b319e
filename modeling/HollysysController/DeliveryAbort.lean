import HollysysController.Durable.Pages
import HollysysController.Durable.During
import HollysysController.Delivery
import HollysysController.World

/-! # Aborting a delivery

What an abort does at GitLab: it leaves one note of audit in the discussion of the delivery MR
and closes the MR. The discussion is read page by page while others go on writing, any request
may fail before or after it took effect, and the Controller begins again after each failure. -/

namespace HollysysController.Abort

open Durable

/-! ## The MR at GitLab -/

structure Note where
  id : Nat
  body : String
  deriving DecidableEq, Repr

/-- The notes of an MR, the newest first. -/
structure Discussion where
  notes : List Note
  ordered : notes.Pairwise fun a b => b.id < a.id

namespace Discussion

def nextId (d : Discussion) : Nat := (d.notes.head?.map (·.id + 1)).getD 1

theorem lt_nextId (d : Discussion) : ∀ n ∈ d.notes, n.id < d.nextId := by
  intro n hn
  have hordered := d.ordered
  unfold nextId
  cases hnotes : d.notes with
  | nil => simp [hnotes] at hn
  | cons m notes =>
    rw [hnotes] at hn hordered
    obtain rfl | hn := List.mem_cons.mp hn
    · simp
    · exact Nat.lt_succ_of_lt (List.rel_of_pairwise_cons hordered hn)

def add (d : Discussion) (body : String) : Discussion where
  notes := { id := d.nextId, body } :: d.notes
  ordered := List.pairwise_cons.mpr ⟨d.lt_nextId, d.ordered⟩

theorem nodup (d : Discussion) : d.notes.Nodup :=
  d.ordered.imp fun h => by
    rintro rfl
    exact Nat.lt_irrefl _ h

end Discussion

structure Delivery where
  mr : MergeRequest
  discussion : Discussion

/-- The MRs of the project by their number. -/
structure Remote where
  deliveries : Table Nat Delivery
  numbered : ∀ iid d, deliveries iid = some d → d.mr.iid = iid

/-- Change an MR, but not its number. -/
def Remote.change (r : Remote) (iid : Nat) (f : Delivery → Delivery)
    (hf : ∀ d, (f d).mr.iid = d.mr.iid) : Remote where
  deliveries := r.deliveries.modify iid f
  numbered := by
    intro iid' d hd
    rw [Table.modify_apply] at hd
    split at hd
    · next heq =>
      obtain ⟨d', hd', rfl⟩ := Option.map_eq_some_iff.mp hd
      rw [hf, heq]
      exact r.numbered iid d' hd'
    · exact r.numbered iid' d hd

inductive MrOp where
  | mr (iid : Nat)
  | notes (iid page : Nat)
  | addNote (iid : Nat) (body : String)
  | close (iid : Nat)
  deriving DecidableEq, Repr

@[reducible] def MrOp.Ret : MrOp → Type
  | mr _ | close _ => MergeRequest
  | notes _ _ => List Note
  | addNote _ _ => Unit

abbrev Client := Prog MrOp MrOp.Ret ControllerError

def act (o : MrOp) : Client o.Ret := Prog.op o

def perPage : Nat := 100

def notFound : ControllerError :=
  .dependency .contract "404 Not Found" { dependency := "gitlab" }

def Delivery.closed (d : Delivery) : Delivery :=
  if d.mr.state = "opened" then { d with mr := { d.mr with state := "closed" } } else d

theorem closed_iid (d : Delivery) : d.closed.mr.iid = d.mr.iid := by
  unfold Delivery.closed
  split <;> rfl

def exec : (o : MrOp) → Remote → Except ControllerError o.Ret × Remote
  | .mr iid, r =>
    match r.deliveries iid with
    | some d => (.ok d.mr, r)
    | none => (.error notFound, r)
  | .notes iid page, r =>
    match r.deliveries iid with
    | some d => (.ok (Pages.page perPage d.discussion.notes (page - 1)), r)
    | none => (.error notFound, r)
  | .addNote iid body, r =>
    match r.deliveries iid with
    | some _ =>
      (.ok (), r.change iid (fun d => { d with discussion := d.discussion.add body }) fun _ => rfl)
    | none => (.error notFound, r)
  | .close iid, r =>
    match r.deliveries iid with
    | some d => (.ok d.closed.mr, r.change iid Delivery.closed closed_iid)
    | none => (.error notFound, r)

def machine : Machine MrOp MrOp.Ret ControllerError Remote := ⟨exec⟩

/-! ## The abort -/

/-- `delivery_mr`. -/
def deliveryMr (run : RunRecord) (iid : Nat) : Client MergeRequest := do
  let mr ← act (.mr iid)
  if mr.sourceBranch ≠ run.workspace.branch ∨ mr.targetBranch ≠ run.workspace.targetBranch then
    .raise (.valueError "delivery MR does not belong to the run branch/target")
  else pure mr

/-- The loop of `paginated_list` from a page on. It is followed for so many pages. -/
def notesFrom (iid : Nat) : Nat → Nat → List Note → Client (List Note)
  | 0, _, _ => .raise (.runtimeError "")
  | pages + 1, page, items => do
    let response ← act (.notes iid page)
    if response.length < perPage then pure (items ++ response)
    else notesFrom iid pages (page + 1) (items ++ response)

/-- `paginated_list` of the notes of an MR. -/
def paginatedNotes (pages iid : Nat) : Client (List Note) := notesFrom iid pages 1 []

def marker (run : RunRecord) : String := s!"[hollysys-aborted:v4] run={run.runKey}"

def marked (run : RunRecord) (n : Note) : Bool :=
  decide ((marker run).toList <:+: n.body.toList)

def auditNote (run : RunRecord) (requestedBy reason : String) : String :=
  marker run ++ s!"\nrequested_by={requestedBy}\nreason=" ++
    String.ofList (reason.toList.take 1000) ++ "\n" ++
    "Controller stopped all managed work and preserved the branch/worktree for human inspection."

def notConfirmed : ControllerError :=
  .dependency .contract "GitLab did not confirm delivery MR closure"
    { dependency := "gitlab", errorCode := some "abort_close_not_confirmed" }

/-- The note of audit, unless the discussion has one. -/
def noteAbort (run : RunRecord) (iid : Nat) (notes : List Note) (requestedBy reason : String) :
    Client Unit :=
  if notes.any (marked run) then pure ()
  else act (.addNote iid (auditNote run requestedBy reason))

/-- Close an MR that was open when it was read. -/
def closeOpened (iid : Nat) (current : MergeRequest) : Client MergeRequest :=
  if current.state = "opened" then act (.close iid) else pure current

/-- `abort_delivery`. -/
def abortDelivery (pages : Nat) (run : RunRecord) (iid : Option Nat)
    (requestedBy reason : String) : Client (Option MergeRequest) := do
  match iid with
  | none => pure none
  | some iid =>
    let mr ← deliveryMr run iid
    if mr.state = "merged" then pure (some mr)
    else
      let notes ← paginatedNotes pages mr.iid
      noteAbort run mr.iid notes requestedBy reason
      let current ← closeOpened mr.iid (← deliveryMr run mr.iid)
      if current.state ≠ "closed" ∧ current.state ≠ "merged" then .raise notConfirmed
      else pure (some current)

/-! ## The note of audit -/

section Audit

variable {run : RunRecord} {iid n pages : Nat} {requestedBy reason : String}

def notesAt (iid : Nat) (r : Remote) : List Note :=
  ((r.deliveries iid).map fun d => d.discussion.notes).getD []

/-- The notes of audit in the discussion. -/
def marks (run : RunRecord) (iid : Nat) (r : Remote) : Nat := (notesAt iid r).countP (marked run)

theorem notesAt_some {r : Remote} {d : Delivery} (h : r.deliveries iid = some d) :
    notesAt iid r = d.discussion.notes := by
  rw [notesAt, h]
  rfl

theorem notesAt_nodup (r : Remote) : (notesAt iid r).Nodup := by
  cases h : r.deliveries iid with
  | none =>
    rw [notesAt, h]
    exact List.nodup_nil
  | some d =>
    rw [notesAt_some h]
    exact d.discussion.nodup

theorem auditNote_marked (id : Nat) :
    marked run { id, body := auditNote run requestedBy reason } = true := by
  have hprefix : (marker run).toList <:+: (auditNote run requestedBy reason).toList := by
    simp only [auditNote, String.append_assoc, String.toList_append]
    exact (List.prefix_append _ _).isInfix
  exact decide_eq_true hprefix

/-- The others write notes and change MRs as they like. They take no note away and leave no note
of audit; any request may fail, and the Controller may stop. -/
def writing (run : RunRecord) (iid : Nat) : Setting MrOp ControllerError Remote where
  others r r' := (notesAt iid r).Sublist (notesAt iid r') ∧ marks run iid r' = marks run iid r
  faults _ _ _ := True

/-- With the closings of the MR. -/
abbrev closings (iid : Nat) : Machine MrOp MrOp.Ret ControllerError (Remote × List MrOp) :=
  machine.traced (· == .close iid)

abbrev Moment := Remote × List MrOp

/-- One note of audit at most, and one before the MR is closed. -/
def Audited (run : RunRecord) (iid : Nat) (s : Moment) : Prop :=
  marks run iid s.1 ≤ 1 ∧ (s.2 ≠ [] → marks run iid s.1 = 1)

/-- There are `n` notes of audit. -/
structure Stage (run : RunRecord) (iid n : Nat) (s : Moment) : Prop where
  marks : marks run iid s.1 = n
  closed : s.2 ≠ [] → n = 1

variable {s s' : Moment}

theorem Stage.audited (h : Stage run iid n s) (hn : n ≤ 1) : Audited run iid s :=
  ⟨h.marks.trans_le hn, fun hclosed => h.marks.trans (h.closed hclosed)⟩

theorem Audited.stage (h : Audited run iid s) : ∃ n ≤ 1, Stage run iid n s :=
  ⟨_, h.1, rfl, h.2⟩

theorem Stage.others (h : Stage run iid n s) (ho : (writing run iid).traced.others s s') :
    Stage run iid n s' := by
  obtain ⟨⟨-, hmarks⟩, htrace⟩ := ho
  refine ⟨hmarks.trans h.marks, fun hclosed => h.closed ?_⟩
  rwa [← htrace]

/-- The request changes nothing. -/
def MrOp.reads : MrOp → Bool
  | mr _ | notes _ _ => true
  | _ => false

theorem exec_reads {o : MrOp} (ho : o.reads = true) (r : Remote) : (exec o r).2 = r := by
  cases o with
  | mr iid =>
    rw [exec]
    split <;> rfl
  | notes iid page =>
    rw [exec]
    split <;> rfl
  | addNote iid body => cases ho
  | close iid => cases ho

theorem closings_reads {o : MrOp} (ho : o.reads = true) (s : Moment) :
    (closings iid).exec o s = ((exec o s.1).1, s) := by
  have hread := exec_reads ho s.1
  have hwatch : (o == MrOp.close iid) = false := by
    cases o with
    | close iid => cases ho
    | _ => rfl
  simp only [closings, Machine.traced, machine, hwatch]
  rcases hx : exec o s.1 with ⟨answer, r⟩
  rw [hx] at hread
  obtain rfl : r = s.1 := hread
  cases answer <;> rfl

theorem reads_ensures {o : MrOp} (ho : o.reads = true) (hn : n ≤ 1) (h : Stage run iid n s) :
    Ensures (closings iid) (writing run iid).traced (Audited run iid) (act o)
      (fun a s' => Stage run iid n s' ∧ (notesAt iid s.1).Sublist (notesAt iid s'.1) ∧
        (exec o s'.1).1 = .ok a) s := by
  refine .op ?_ ?_ ?_
  · intro s₁ hothers
    exact (h.others hothers).audited hn
  · intro s₁ hothers
    rw [closings_reads ho]
    exact (h.others hothers).audited hn
  · intro s₁ a s₂ hothers hx
    rw [closings_reads ho] at hx
    obtain ⟨hanswer, rfl⟩ := Prod.mk.inj hx
    exact ⟨h.others hothers, hothers.1.1, hanswer⟩

/-- The MR as it is at GitLab. -/
def mrAt (iid : Nat) (s : Moment) : Option MergeRequest := (s.1.deliveries iid).map (·.mr)

theorem mrAt_iid {mr : MergeRequest} (h : mrAt iid s = some mr) : mr.iid = iid := by
  obtain ⟨d, hd, rfl⟩ := Option.map_eq_some_iff.mp h
  exact s.1.numbered iid d hd

theorem deliveryMr_ensures (hn : n ≤ 1) (h : Stage run iid n s) :
    Ensures (closings iid) (writing run iid).traced (Audited run iid) (deliveryMr run iid)
      (fun mr s' => Stage run iid n s' ∧ mrAt iid s' = some mr) s := by
  refine (reads_ensures rfl hn h).bind fun mr s₁ hI hmr => ?_
  obtain ⟨h₁, -, hanswer⟩ := hmr
  have hat : mrAt iid s₁ = some mr := by
    rw [exec] at hanswer
    split at hanswer
    · next d hd =>
      obtain rfl := Except.ok.inj hanswer
      rw [mrAt, hd]
      rfl
    · cases hanswer
  split
  · exact .raise hI
  · exact .pure hI ⟨h₁, hat⟩

theorem notes_answer {page : Nat} {r : Remote} {response : List Note}
    (h : (exec (.notes iid (page + 1)) r).1 = .ok response) :
    response = Pages.page perPage (notesAt iid r) page := by
  rw [exec] at h
  split at h
  · next d hd =>
    rw [notesAt_some hd]
    exact (Except.ok.inj h).symm
  · cases h

/-- The listing of the notes misses none that was there when it began. -/
theorem notesFrom_ensures (hn : n ≤ 1) {l₀ items : List Note} {page : Nat}
    (h : Stage run iid n s) (hgrown : l₀.Sublist (notesAt iid s.1))
    (hseen : Pages.Seen perPage l₀ page (notesAt iid s.1) items)
    (hitems : items ⊆ notesAt iid s.1) :
    Ensures (closings iid) (writing run iid).traced (Audited run iid)
      (notesFrom iid pages (page + 1) items)
      (fun items' s' => Stage run iid n s' ∧ l₀ ⊆ items' ∧ items' ⊆ notesAt iid s'.1) s := by
  induction pages generalizing page items s with
  | zero => exact .raise (h.audited hn)
  | succ pages ih =>
    refine (reads_ensures rfl hn h).bind fun response s₁ hI hresponse => ?_
    obtain ⟨h₁, hsub, hanswer⟩ := hresponse
    obtain rfl := notes_answer hanswer
    have hgrown₁ := hgrown.trans hsub
    have hseen₁ := (hseen.grow hgrown.subset hsub (notesAt_nodup s₁.1)).page
    have hitems₁ : items ++ Pages.page perPage (notesAt iid s₁.1) page ⊆ notesAt iid s₁.1 := by
      refine List.append_subset.mpr ⟨List.Subset.trans hitems hsub.subset, ?_⟩
      exact fun a ha => Pages.mem_of_mem_page ha
    split
    · next hshort => exact .pure hI ⟨h₁, hseen₁.done hgrown₁.subset hshort, hitems₁⟩
    · exact ih h₁ hgrown₁ hseen₁ hitems₁

theorem paginatedNotes_ensures (hn : n ≤ 1) (h : Stage run iid n s) :
    Ensures (closings iid) (writing run iid).traced (Audited run iid) (paginatedNotes pages iid)
      (fun items s' => Stage run iid n s' ∧ (items.any (marked run) = true ↔ n = 1)) s := by
  refine (notesFrom_ensures hn h (List.Sublist.refl _) Pages.seen_zero
    (List.nil_subset _)).mono fun items s' _ hitems => ?_
  obtain ⟨h', hall, hthere⟩ := hitems
  refine ⟨h', ?_⟩
  have hcount : n = 0 ↔ ∀ a ∈ notesAt iid s'.1, ¬ marked run a = true := by
    rw [← h'.marks, marks, List.countP_eq_zero]
  have hcount₀ : n = 0 ↔ ∀ a ∈ notesAt iid s.1, ¬ marked run a = true := by
    rw [← h.marks, marks, List.countP_eq_zero]
  constructor
  · intro hany
    obtain ⟨a, ha, hmarked⟩ := List.any_eq_true.mp hany
    have hne : n ≠ 0 := fun hzero => hcount.mp hzero a (hthere ha) hmarked
    omega
  · intro hone
    by_contra hnone
    have hzero : n = 0 := by
      refine hcount₀.mpr fun a ha hmarked => hnone ?_
      exact List.any_eq_true.mpr ⟨a, hall ha, hmarked⟩
    omega

theorem change_notes {r : Remote} {f : Delivery → Delivery} {hf : ∀ d, (f d).mr.iid = d.mr.iid}
    {d : Delivery} (h : r.deliveries iid = some d) :
    (r.change iid f hf).deliveries iid = some (f d) := by
  show r.deliveries.modify iid f iid = _
  rw [Table.modify_self, h]
  rfl

/-- The one note of audit is written. -/
theorem addNote_ensures {body : String} (hbody : ∀ id, marked run { id, body } = true)
    (h : Stage run iid 0 s) :
    Ensures (closings iid) (writing run iid).traced (Audited run iid) (act (.addNote iid body))
      (fun _ s' => Stage run iid 1 s') s := by
  have heffect (s₁ : Moment) (h₁ : Stage run iid 0 s₁) :
      Audited run iid ((closings iid).exec (.addNote iid body) s₁).2 ∧
        ∀ s₂, (closings iid).exec (.addNote iid body) s₁ = (.ok (), s₂) → Stage run iid 1 s₂ := by
    have hunclosed : s₁.2 = [] := by
      by_contra hclosed
      exact absurd (h₁.closed hclosed) (by decide)
    have hwatch : (MrOp.addNote iid body == MrOp.close iid) = false := rfl
    simp only [closings, Machine.traced, machine, exec]
    cases hd : s₁.1.deliveries iid with
    | none => exact ⟨h₁.audited (by decide), fun s₂ hx => by simp at hx⟩
    | some d =>
      have hone : Stage run iid 1 (s₁.1.change iid (fun d =>
          { d with discussion := d.discussion.add body }) fun _ => rfl, s₁.2) := by
        refine ⟨?_, fun _ => rfl⟩
        have hzero := h₁.marks
        rw [marks, notesAt_some hd] at hzero
        rw [marks, notesAt_some (change_notes hd)]
        simp [Discussion.add, hbody, hzero]
      simp only [hwatch, Bool.false_eq_true, if_false]
      refine ⟨hone.audited (by decide), ?_⟩
      intro s₂ hx
      obtain ⟨-, rfl⟩ := Prod.mk.inj hx
      exact hone
  refine .op ?_ ?_ ?_
  · intro s₁ ho
    exact (h.others ho).audited (by decide)
  · intro s₁ ho
    exact (heffect s₁ (h.others ho)).1
  · intro s₁ _ s₂ ho hx
    exact (heffect s₁ (h.others ho)).2 s₂ hx

theorem close_ensures (h : Stage run iid 1 s) :
    Ensures (closings iid) (writing run iid).traced (Audited run iid) (act (.close iid))
      (fun mr s' => Stage run iid 1 s' ∧ mrAt iid s' = some mr) s := by
  have hkept (r : Remote) : notesAt iid (r.change iid Delivery.closed closed_iid) =
      notesAt iid r := by
    cases hd : r.deliveries iid with
    | none => simp [notesAt, Remote.change, hd]
    | some d =>
      rw [notesAt_some hd, notesAt_some (change_notes hd), Delivery.closed]
      split <;> rfl
  have heffect (s₁ : Moment) (h₁ : Stage run iid 1 s₁) :
      Stage run iid 1 ((closings iid).exec (.close iid) s₁).2 ∧
        ∀ mr s₂, (closings iid).exec (.close iid) s₁ = (.ok mr, s₂) → mrAt iid s₂ = some mr := by
    have hmarks : marks run iid (s₁.1.change iid Delivery.closed closed_iid) = 1 := by
      rw [marks, hkept]
      exact h₁.marks
    simp only [closings, Machine.traced, machine, exec]
    cases hd : s₁.1.deliveries iid with
    | none => exact ⟨h₁, fun mr s₂ hx => by simp at hx⟩
    | some d =>
      refine ⟨⟨hmarks, fun _ => rfl⟩, ?_⟩
      intro mr s₂ hx
      obtain ⟨hmr, rfl⟩ := Prod.mk.inj hx
      obtain rfl := Except.ok.inj hmr
      rw [mrAt, change_notes hd]
      rfl
  refine .op ?_ ?_ ?_
  · intro s₁ ho
    exact (h.others ho).audited (by decide)
  · intro s₁ ho
    exact (heffect s₁ (h.others ho)).1.audited (by decide)
  · intro s₁ mr s₂ ho hx
    have hstage := (heffect s₁ (h.others ho)).1
    rw [hx] at hstage
    exact ⟨hstage, (heffect s₁ (h.others ho)).2 mr s₂ hx⟩

/-- The MR that an abort answers is at GitLab as it says, merged, or closed with its note. -/
def Settled (run : RunRecord) (iid : Nat) (mr : Option MergeRequest) (s : Moment) : Prop :=
  ∃ m, mr = some m ∧ mrAt iid s = some m ∧
    (m.state = "merged" ∨ m.state = "closed" ∧ marks run iid s.1 = 1)

theorem noteAbort_ensures {notes : List Note} (hn : n ≤ 1) (h : Stage run iid n s)
    (hmarked : notes.any (marked run) = true ↔ n = 1) :
    Ensures (closings iid) (writing run iid).traced (Audited run iid)
      (noteAbort run iid notes requestedBy reason) (fun _ s' => Stage run iid 1 s') s := by
  rw [noteAbort]
  split
  · next hany =>
    obtain rfl := hmarked.mp hany
    exact .pure (h.audited hn) h
  · next hnone =>
    have hne : n ≠ 1 := fun hone => hnone (hmarked.mpr hone)
    obtain rfl : n = 0 := by omega
    exact addNote_ensures auditNote_marked h

theorem closeOpened_ensures {current : MergeRequest} (h : Stage run iid 1 s)
    (hmr : mrAt iid s = some current) :
    Ensures (closings iid) (writing run iid).traced (Audited run iid) (closeOpened iid current)
      (fun mr s' => Stage run iid 1 s' ∧ mrAt iid s' = some mr) s := by
  rw [closeOpened]
  split
  · exact close_ensures h
  · exact .pure (h.audited (by decide)) ⟨h, hmr⟩

theorem abortDelivery_ensures (h : Audited run iid s) :
    Ensures (closings iid) (writing run iid).traced (Audited run iid)
      (abortDelivery pages run (some iid) requestedBy reason)
      (fun mr s' => Settled run iid mr s') s := by
  obtain ⟨n, hn, hstage⟩ := h.stage
  refine (deliveryMr_ensures hn hstage).bind fun mr s₁ hI₁ hmr => ?_
  obtain ⟨h₁, hat₁⟩ := hmr
  by_cases hmerged : mr.state = "merged"
  · rw [if_pos hmerged]
    exact .pure hI₁ ⟨mr, rfl, hat₁, .inl hmerged⟩
  · rw [if_neg hmerged, mrAt_iid hat₁]
    refine (paginatedNotes_ensures hn h₁).bind fun notes s₂ hI₂ hnotes => ?_
    obtain ⟨h₂, hmarked⟩ := hnotes
    refine (noteAbort_ensures hn h₂ hmarked).bind fun _ s₃ hI₃ h₃ => ?_
    refine (deliveryMr_ensures (by decide) h₃).bind fun current s₄ hI₄ hcurrent => ?_
    obtain ⟨h₄, hat₄⟩ := hcurrent
    refine (closeOpened_ensures h₄ hat₄).bind fun final s₅ hI₅ hfinal => ?_
    obtain ⟨h₅, hat₅⟩ := hfinal
    split
    · exact .raise hI₅
    · next hstate =>
      refine .pure hI₅ ⟨final, rfl, hat₅, ?_⟩
      by_cases hmerged : final.state = "merged"
      · exact .inl hmerged
      · refine .inr ⟨?_, h₅.marks⟩
        by_contra hopen
        exact hstate ⟨hopen, hmerged⟩

/-- Calls of the abort one after the other, each with whatever end, and what the others do in
between. -/
inductive Calls (run : RunRecord) (iid : Nat) : Moment → Moment → Prop
  | refl (s : Moment) : Calls run iid s s
  | others {s t u : Moment} : Calls run iid s t → (writing run iid).traced.others t u →
      Calls run iid s u
  | call {s t u : Moment} {pages : Nat} {requestedBy reason : String}
      {outcome : Durable.Outcome ControllerError (Option MergeRequest)} : Calls run iid s t →
      Runs (closings iid) (writing run iid).traced
        (abortDelivery pages run (some iid) requestedBy reason) t outcome u →
      Calls run iid s u

theorem Calls.audited (h : Calls run iid s s') (hs : Audited run iid s) : Audited run iid s' := by
  induction h with
  | refl => exact hs
  | others _ ho ih =>
    obtain ⟨n, hn, hstage⟩ := ih.stage
    exact (hstage.others ho).audited hn
  | call _ hrun ih => exact ((abortDelivery_ensures ih).runs hrun).1

/-- **One note of audit, however often an abort begins again.** The MR is not closed before the
note is written, and the abort that returns leaves an MR that is merged, or closed with the
note. -/
theorem abortDelivery_audits {r : Remote}
    {outcome : Durable.Outcome ControllerError (Option MergeRequest)}
    (hone : marks run iid r ≤ 1) (hcalls : Calls run iid (r, []) s)
    (hrun : Runs (closings iid) (writing run iid).traced
      (abortDelivery pages run (some iid) requestedBy reason) s outcome s') :
    Audited run iid s' ∧ ∀ mr, outcome = .returned mr → Settled run iid mr s' := by
  have hstart : Audited run iid (r, []) :=
    ⟨hone, fun hclosed => absurd rfl hclosed⟩
  exact (abortDelivery_ensures (hcalls.audited hstart)).runs hrun

end Audit

/-! ## The pages of a discussion that rests -/

section Rest

variable {r : Remote} {d : Delivery} {iid : Nat}

theorem eval_notesFrom (h : r.deliveries iid = some d) {pages page : Nat}
    (hfull : perPage * page ≤ d.discussion.notes.length)
    (hpages : d.discussion.notes.length < perPage * (page + pages)) :
    machine.eval (notesFrom iid pages (page + 1) (d.discussion.notes.take (perPage * page))) r =
      (.returned d.discussion.notes, r) := by
  induction pages generalizing page with
  | zero => exact absurd hfull (Nat.not_le.mpr hpages)
  | succ pages ih =>
    have hread : machine.exec (.notes iid (page + 1)) r =
        (.ok (Pages.page perPage d.discussion.notes page), r) := by
      simp only [machine, exec, h, Nat.add_sub_cancel]
    have hact : machine.eval (act (.notes iid (page + 1))) r =
        (.returned (Pages.page perPage d.discussion.notes page), r) := by
      rw [act, Machine.eval_op, hread]
    rw [notesFrom, Prog.bind_def, machine.eval_bind_of hact, Pages.take_page]
    split
    · next hshort =>
      rw [Pages.take_of_short hshort]
      rfl
    · next hlong =>
      have hnext : page + (pages + 1) = page + 1 + pages := by omega
      rw [hnext] at hpages
      refine ih ?_ hpages
      rw [Pages.page, List.length_take, List.length_drop] at hlong
      rw [Nat.mul_succ]
      omega

/-- Where nobody writes, the pages are the discussion. -/
theorem eval_paginatedNotes (h : r.deliveries iid = some d) {pages : Nat}
    (hpages : d.discussion.notes.length < perPage * pages) :
    machine.eval (paginatedNotes pages iid) r = (.returned d.discussion.notes, r) :=
  eval_notesFrom h (Nat.zero_le _) (by rwa [Nat.zero_add])

end Rest

/-! ## An abort that loses an answer -/

def sampleDelivery : Delivery where
  mr := { iid := 7, sha := some "h0", sourceBranch := "delivery-a", targetBranch := "main",
          webUrl := "https://gitlab/team/app/-/merge_requests/7", creator := "controller",
          createdAt := 5 }
  discussion := { notes := [{ id := 3, body := "looks good" }], ordered := by simp }

def sampleRemote : Remote where
  deliveries iid := if iid = 7 then some sampleDelivery else none
  numbered := by
    intro iid d hd
    split at hd
    · next heq =>
      obtain rfl := Option.some.inj hd
      exact heq.symm
    · cases hd

def abortedRun : RunRecord := sampleRun "run-a" "ga" 1

def sampleAbort : Client (Option MergeRequest) :=
  abortDelivery 5 abortedRun (some 7) "ou_1" "obsolete"

/-- The note is written, and the Controller stops before it hears of it. -/
def interrupted : Durable.Outcome ControllerError (Option MergeRequest) × Remote × List MrOp :=
  (closings 7).replay sampleAbort [.none, .none, .stopAfter] (sampleRemote, [])

def resumed : Durable.Outcome ControllerError (Option MergeRequest) × Remote × List MrOp :=
  (closings 7).replay sampleAbort [] interrupted.2

theorem resumed_returns :
    resumed.1 = .returned (some { sampleDelivery.mr with state := "closed" }) := by
  decide +kernel

theorem resumed_settled : marks abortedRun 7 resumed.2.1 = 1 := by
  have hreplay (fs : List (Fault ControllerError)) (s : Moment) :
      Runs (closings 7) (writing abortedRun 7).traced sampleAbort s
        ((closings 7).replay sampleAbort fs s).1 ((closings 7).replay sampleAbort fs s).2 := by
    refine replay_runs (fun s => ?_) (fun _ _ _ => trivial) _ fs s
    exact ⟨⟨List.Sublist.refl _, rfl⟩, rfl⟩
  have hcalls : Calls abortedRun 7 (sampleRemote, []) interrupted.2 :=
    .call (.refl _) (hreplay _ _)
  have hunmarked : marks abortedRun 7 sampleRemote ≤ 1 := by decide +kernel
  have haudit := abortDelivery_audits hunmarked hcalls (hreplay [] interrupted.2)
  rw [← resumed] at haudit
  obtain ⟨mr, hmr, -, hmerged | hclosed⟩ := haudit.2 _ resumed_returns
  · have hstate : mr.state = "closed" := by rw [← Option.some.inj hmr]
    exact absurd (hstate.symm.trans hmerged) (by decide)
  · exact hclosed.2

end HollysysController.Abort
