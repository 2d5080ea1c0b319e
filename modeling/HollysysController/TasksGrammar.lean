import HollysysController.TaskDocuments

/-! # The grammar of TASKS documents

What `validate_task_documents` decides: a declarative grammar of the blocks and their
bracketed texts, and the dependency graph over the tasks that are defined. -/

namespace HollysysController

open Python

/-! ## Task ids -/

/-- `T` and at least three digits. -/
def TaskId (i : List Char) : Prop :=
  ∃ ds, i = 'T' :: ds ∧ 3 ≤ ds.length ∧ ∀ d ∈ ds, d.isDigit = true

variable {W : Words}

theorem TaskId.ne_nil {i : List Char} (h : TaskId i) : i ≠ [] := by
  obtain ⟨ds, rfl, -⟩ := h
  simp

theorem TaskId.word {i : List Char} (h : TaskId i) : ∀ c ∈ i, W.word c = true := by
  obtain ⟨ds, rfl, -, hds⟩ := h
  intro c hc
  rcases List.mem_cons.mp hc with rfl | hc
  · rw [W.ascii 'T' (by decide)]
    decide
  · exact W.digit (hds c hc)

theorem TaskId.before {i : List Char} (h : TaskId i) (prev : Option Char) :
    W.at? (before prev i) = true := by
  obtain ⟨d, hd, hword⟩ : ∃ d, Python.before prev i = some d ∧ W.word d = true :=
    before_all h.word h.ne_nil
  rw [hd]
  exact hword

theorem caught_append (ds : List Char) :
    Caught.append ds {} = { text := ds, group := [], inside := false } :=
  (Caught.append_outside rfl).trans (by simp)

/-- A bounded id is matched whole, between two places where no word goes on. -/
theorem boundedTaskId_match {prev : Option Char} {t : List Char} {m : Caught} :
    matchAt W boundedTaskId prev t = some m ↔
      W.at? prev = false ∧ ∃ i u, t = i ++ u ∧ TaskId i ∧ W.at? u.head? = false ∧
        m = { text := i, group := [], inside := false } := by
  have hT : W.word 'T' = true := by
    rw [W.ascii 'T' (by decide)]
    decide
  constructor
  · intro h
    cases t with
    | nil => simp [boundedTaskId, taskIdItems, matchAt] at h
    | cons x t =>
      simp only [boundedTaskId, taskIdItems, List.cons_append, List.nil_append, matchAt] at h
      split at h
      next hbound =>
        split at h
        next hx =>
          obtain rfl : x = 'T' := by simpa using hx
          obtain ⟨m₁, hm₁, rfl⟩ := Option.map_eq_some_iff.mp h
          obtain ⟨ds, u, m', rfl, hds, hlen, hrest, rfl⟩ := greedy_some hm₁
          split at hrest
          next hend =>
            obtain rfl : m' = {} := by simpa [eq_comm] using hrest
            have hid : TaskId ('T' :: ds) := ⟨ds, rfl, hlen, hds⟩
            refine ⟨by simpa [hT] using hbound, 'T' :: ds, u, rfl, hid, ?_, ?_⟩
            · have hlast : W.at? (before (some 'T') ds) = true := hid.before none
              simpa [hlast] using hend
            · exact caught_append ('T' :: ds)
          next => cases hrest
        next => cases h
      next => cases h
  · rintro ⟨hprev, i, u, rfl, hid, hu, rfl⟩
    have hlast := hid.before (W := W) none
    obtain ⟨ds, rfl, hlen, hds⟩ := hid
    have hstop : ∀ c, u.head? = some c → c.isDigit = false := by
      intro c hc
      by_contra hdigit
      rw [hc, W.at?_some, W.digit (by simpa using hdigit)] at hu
      cases hu
    have hrest : matchAt W [.boundary] (before (some 'T') ds) u = some {} := by
      have hlast : W.at? (before (some 'T') ds) = true := hlast
      rw [matchAt_boundary (by simp [hlast, hu])]
      rfl
    have hstart : W.at? prev ≠ W.at? ('T' :: ds ++ u).head? := by simp [hprev, hT]
    show matchAt W (.boundary :: .one (· == 'T') :: .many 3 Char.isDigit :: [.boundary]) prev
      ('T' :: ds ++ u) = _
    rw [matchAt_boundary hstart, List.cons_append, matchAt_one rfl, matchAt_many,
      greedy_whole hds hstop hlen hrest]
    exact congrArg some (caught_append ('T' :: ds))

theorem boundedTaskId_none {prev : Option Char} {x : Char} {t : List Char} (hx : x ≠ 'T') :
    matchAt W boundedTaskId prev (x :: t) = none := by
  cases h : matchAt W boundedTaskId prev (x :: t) with
  | none => rfl
  | some m =>
    obtain ⟨-, i, u, htext, ⟨ds, rfl, -⟩, -⟩ := boundedTaskId_match.mp h
    exact absurd (List.cons.inj htext).1 hx

/-! ## Ids in a text -/

/-- The id stands in the text, and no word goes on at its ends. -/
def MentionsFrom (W : Words) (prev : Option Char) (text i : List Char) : Prop :=
  ∃ pre u, text = pre ++ i ++ u ∧ TaskId i ∧ W.at? (before prev pre) = false ∧
    W.at? u.head? = false

/-- The search finds exactly the ids that the text mentions. -/
theorem mentions_iff {prev : Option Char} {text i : List Char} (pos : Nat) :
    i ∈ (scan W boundedTaskId 0 pos prev text).map (·.caught.text) ↔
      MentionsFrom W prev text i := by
  have hall : ∀ n (text : List Char) pos prev, text.length ≤ n →
      (i ∈ (scan W boundedTaskId 0 pos prev text).map (·.caught.text) ↔
        MentionsFrom W prev text i) := by
    intro n
    induction n with
    | zero =>
      intro text pos prev hlen
      obtain rfl : text = [] := List.length_eq_zero_iff.mp (by omega)
      constructor
      · intro h
        simp [scan] at h
      · rintro ⟨pre, u, htext, hid, -⟩
        simp [hid.ne_nil] at htext
    | succ n ih =>
      intro text pos prev hlen
      cases text with
      | nil =>
        constructor
        · intro h
          simp [scan] at h
        · rintro ⟨pre, u, htext, hid, -⟩
          simp [hid.ne_nil] at htext
      | cons x t =>
        cases hm : matchAt W boundedTaskId prev (x :: t) with
        | none =>
          rw [scan_none hm, ih t (pos + 1) (some x) (by simpa using hlen)]
          constructor
          · rintro ⟨pre, u, rfl, hid, hpre, hu⟩
            exact ⟨x :: pre, u, rfl, hid, hpre, hu⟩
          · rintro ⟨pre, u, htext, hid, hpre, hu⟩
            cases pre with
            | nil =>
              rw [List.nil_append] at htext
              rw [before_nil] at hpre
              rw [htext, boundedTaskId_match.mpr ⟨hpre, i, u, rfl, hid, hu, rfl⟩] at hm
              cases hm
            | cons y pre =>
              obtain ⟨rfl, rfl⟩ := List.cons.inj htext
              exact ⟨pre, u, rfl, hid, hpre, hu⟩
        | some m =>
          obtain ⟨hprev, j, v, htext, hj, hv, rfl⟩ := boundedTaskId_match.mp hm
          have hlen' : v.length ≤ n := by
            have := congrArg List.length htext
            have := List.length_pos_iff.mpr hj.ne_nil
            simp only [List.length_cons, List.length_append] at *
            omega
          rw [htext] at hm ⊢
          rw [scan_match hj.ne_nil hm rfl, List.map_cons, List.mem_cons,
            ih v (pos + j.length) (before prev j) hlen']
          constructor
          · rintro (rfl | ⟨pre, u, rfl, hid, hpre, hu⟩)
            · exact ⟨[], v, rfl, hj, hprev, hv⟩
            · exact ⟨j ++ pre, u, by simp, hid, by rwa [before_append], hu⟩
          · rintro ⟨pre, u, heq, hid, hpre, hu⟩
            by_cases hnil : pre = []
            · subst hnil
              rw [List.nil_append] at heq
              have hsame := boundedTaskId_match.mpr ⟨hprev, i, u, rfl, hid, hu, rfl⟩
              rw [← heq, hm] at hsame
              exact .inl (Caught.mk.inj (Option.some.inj hsame)).1.symm
            · -- the text before cannot end inside the first id
              rcases List.append_eq_append_iff.mp
                (heq.trans (List.append_assoc pre i u)) with ⟨rest, hpre', hv'⟩ | ⟨rest, hj', -⟩
              · subst hpre'
                exact .inr ⟨rest, u, by rw [hv', List.append_assoc], hid,
                  by rwa [← before_append], hu⟩
              · obtain ⟨d, hd, hword⟩ : ∃ d, before prev pre = some d ∧ W.word d = true :=
                  before_all (fun c hc => hj.word c (by simp [hj', hc])) hnil
                rw [hd, W.at?_some, hword] at hpre
                cases hpre
  exact hall text.length text pos prev (Nat.le_refl _)

/-! ## Bracketed texts -/

/-- The texts that consist of task ids and separators, with their ids. -/
inductive IdList : List Char → List String → Prop
  | nil : IdList [] []
  | gap {c t ids} : separator c = true → IdList t ids → IdList (c :: t) ids
  | id {i t ids} : TaskId i → (∀ c, t.head? = some c → separator c = true) → IdList t ids →
      IdList (i ++ t) (String.ofList i :: ids)

theorem separator_word {c : Char} (h : separator c = true) : W.word c = false := by
  simp only [separator, Bool.or_eq_true, beq_iff_eq] at h
  rcases h with ((hspace | rfl) | rfl) | rfl
  · exact W.space c hspace
  · rw [W.ascii ',' (by decide)]
    decide
  · exact W.fullwidthComma
  · exact W.ideographicComma

/-- No word goes on here: the character before is none, or a separator follows. -/
def Open (W : Words) (prev : Option Char) (t : List Char) : Prop :=
  W.at? prev = false ∨ ∀ c, t.head? = some c → separator c = true

theorem IdList.read {t : List Char} {ids : List String} (h : IdList t ids) (pos : Nat)
    {prev : Option Char} (hopen : Open W prev t) :
    (removeFrom W boundedTaskId 0 prev t).filter (fun c => !separator c) = [] ∧
      (scan W boundedTaskId 0 pos prev t).map (fun f => String.ofList f.caught.text) = ids := by
  induction h generalizing pos prev with
  | nil => exact ⟨rfl, rfl⟩
  | @gap c t ids hc _ ih =>
    have hnone : matchAt W boundedTaskId prev (c :: t) = none :=
      boundedTaskId_none (by rintro rfl; revert hc; decide)
    have hopen : Open W (some c) t := .inl (separator_word hc)
    obtain ⟨hres, hids⟩ := ih (pos + 1) hopen
    rw [removeFrom_none hnone, scan_none hnone]
    exact ⟨by simpa [hc] using hres, hids⟩
  | @id i t ids hi hnext _ ih =>
    have hprev : W.at? prev = false := by
      rcases hopen with hprev | hhead
      · exact hprev
      · obtain ⟨ds, rfl, -⟩ := hi
        exact absurd (hhead 'T' rfl) (by decide)
    have hend : W.at? t.head? = false := by
      cases hhead : t.head? with
      | none => rfl
      | some c => exact separator_word (hnext c hhead)
    have hmatch := boundedTaskId_match.mpr ⟨hprev, i, t, rfl, hi, hend, rfl⟩
    have hopen : Open W (before prev i) t := .inr hnext
    obtain ⟨hres, hids⟩ := ih (pos + i.length) hopen
    rw [removeFrom_match hi.ne_nil hmatch rfl, scan_match hi.ne_nil hmatch rfl, List.map_cons, hids]
    exact ⟨hres, rfl⟩

theorem idList_of_residue {t : List Char} {prev : Option Char} (hopen : Open W prev t)
    (h : (removeFrom W boundedTaskId 0 prev t).filter (fun c => !separator c) = []) :
    ∃ ids, IdList t ids := by
  have hall : ∀ n (t : List Char) prev, t.length ≤ n → Open W prev t →
      (removeFrom W boundedTaskId 0 prev t).filter (fun c => !separator c) = [] →
      ∃ ids, IdList t ids := by
    intro n
    induction n with
    | zero =>
      intro t prev hlen _ _
      obtain rfl : t = [] := List.length_eq_zero_iff.mp (by omega)
      exact ⟨[], .nil⟩
    | succ n ih =>
      intro t prev hlen hopen h
      cases hm : matchAt W boundedTaskId prev t with
      | none =>
        cases t with
        | nil => exact ⟨[], .nil⟩
        | cons x t =>
          rw [removeFrom_none hm] at h
          by_cases hx : separator x
          · obtain ⟨ids, hids⟩ := ih t (some x) (by simpa using hlen)
              (.inl (separator_word hx)) (by simpa [hx] using h)
            exact ⟨ids, .gap hx hids⟩
          · simp [hx] at h
      | some m =>
        obtain ⟨-, i, u, rfl, hi, hu, rfl⟩ := boundedTaskId_match.mp hm
        rw [removeFrom_match hi.ne_nil hm rfl] at h
        -- what follows an id is no word character, so the search leaves it in the text
        have hnext : ∀ c, u.head? = some c → separator c = true := by
          intro c hc
          obtain ⟨u', rfl⟩ := List.head?_eq_some_iff.mp hc
          have hnone : matchAt W boundedTaskId (before prev i) (c :: u') = none := by
            cases hm' : matchAt W boundedTaskId (before prev i) (c :: u') with
            | none => rfl
            | some m' =>
              have hprev := (boundedTaskId_match.mp hm').1
              rw [hi.before prev] at hprev
              cases hprev
          rw [removeFrom_none hnone] at h
          by_contra hsep
          simp [hsep] at h
        obtain ⟨ids, hids⟩ := ih u (before prev i) (by
          have := List.length_pos_iff.mpr hi.ne_nil
          simp only [List.length_append] at hlen
          omega) (.inr hnext) h
        exact ⟨_, .id hi hnext hids⟩
  exact hall t.length t prev (Nat.le_refl _) hopen h

/-- **Nothing is left of a bracketed text exactly when it holds only ids and separators.** -/
theorem residue_nil_iff (text : List Char) :
    TaskBlock.residue W text = [] ↔ ∃ ids, IdList text ids := by
  rw [TaskBlock.residue, remove_class, remove]
  constructor
  · exact idList_of_residue (.inl rfl)
  · rintro ⟨ids, h⟩
    exact (h.read 0 (.inl rfl)).1

theorem IdList.idsIn {text : List Char} {ids : List String} (h : IdList text ids) :
    TaskBlock.idsIn W text = ids :=
  (h.read 0 (.inl rfl)).2

def Mentions (W : Words) (text : List Char) (id : String) : Prop :=
  MentionsFrom W none text id.toList

theorem mem_idsIn {text : List Char} {id : String} :
    id ∈ TaskBlock.idsIn W text ↔ Mentions W text id := by
  rw [Mentions, ← mentions_iff 0, TaskBlock.idsIn, finditer]
  simp only [List.mem_map]
  constructor
  · rintro ⟨f, hf, rfl⟩
    exact ⟨f, hf, by simp⟩
  · rintro ⟨f, hf, htext⟩
    exact ⟨f, hf, by rw [htext, String.ofList_toList]⟩

/-! ## The grammar -/

/-- The task blocks of all documents, in the order in which they are read. -/
def documentBlocks (W : Words) (documents : List String) : List TaskBlock :=
  documents.flatMap (taskBlocks W)

def Defined (W : Words) (documents : List String) (id : String) : Prop :=
  ∃ b ∈ documentBlocks W documents, b.id = id

/-- The first block of `a` has one `depends_on`, and `b` is one of its ids and defined. -/
def DependsOn (W : Words) (documents : List String) (a b : String) : Prop :=
  ∃ block text, (documentBlocks W documents).find? (·.id == a) = some block ∧
    block.dependencyTexts W = [text] ∧ Mentions W text b ∧ Defined W documents b

def DependencyCycle (W : Words) (documents : List String) : Prop :=
  ∃ a, Relation.TransGen (DependsOn W documents) a a

structure TasksGrammar (W : Words) (documents : List String) : Prop where
  task : documentBlocks W documents ≠ []
  unique : ((documentBlocks W documents).map (·.id)).Nodup
  dependsOn : ∀ b ∈ documentBlocks W documents, ∃ text ids, b.dependencyTexts W = [text] ∧
    IdList text ids ∧ ∀ d ∈ ids, Defined W documents d ∧ d ≠ b.id
  action : ∀ b ∈ documentBlocks W documents, ∃ action, b.actions W = [action]
  acyclic : ¬ DependencyCycle W documents
  frozen : ∀ b ∈ documentBlocks W documents, b.actions W ≠ ["reuse"] →
    ∀ path ∈ b.targetPaths W, looksLikeFrozenUpstream path = false

/-! ## The loop over the blocks -/

/-- What the loop has recorded after some blocks. -/
structure ReadTo (W : Words) (done : List TaskBlock) (s : TaskReading) : Prop where
  keys : ∀ id, id ∈ s.tasks.map Prod.fst ↔ id ∈ done.map (·.id)
  lookup : ∀ id, s.tasks.lookup id = (done.find? (·.id == id)).map (·.dependencyIds W)
  entries : ∀ entry ∈ s.tasks, ∃ b, done.find? (·.id == entry.1) = some b ∧
    entry.2 = b.dependencyIds W
  length : s.tasks.length ≤ done.length
  duplicates : ∀ id ∈ s.duplicateIds, id ∈ done.map (·.id)
  errors : ∀ e, e ∈ s.errors ↔ (e = .duplicateId ∧ ¬ (done.map (·.id)).Nodup) ∨
    ∃ b ∈ done, e ∈ b.dependencyErrors W ∨ e ∈ b.actionErrors W

theorem ReadTo.start : ReadTo W [] {} :=
  ⟨fun _ => .rfl, fun _ => rfl, nofun, Nat.le_refl _, nofun, by simp⟩

theorem find_of_mem {done : List TaskBlock} {id : String} (h : id ∈ done.map (·.id)) :
    ∃ b, done.find? (·.id == id) = some b := by
  obtain ⟨b, hb, rfl⟩ := List.mem_map.mp h
  exact Option.isSome_iff_exists.mp (List.find?_isSome.mpr ⟨b, hb, beq_self_eq_true _⟩)

theorem find_of_not_mem {done : List TaskBlock} {id : String} (h : id ∉ done.map (·.id)) :
    done.find? (·.id == id) = none := by
  refine List.find?_eq_none.mpr fun b hb heq => h ?_
  exact List.mem_map.mpr ⟨b, hb, by simpa using heq⟩

theorem nodup_ids_append (done : List TaskBlock) (b : TaskBlock) :
    ((done ++ [b]).map (·.id)).Nodup ↔ (done.map (·.id)).Nodup ∧ b.id ∉ done.map (·.id) := by
  rw [List.map_append, List.nodup_append]
  constructor
  · rintro ⟨hdone, -, hfresh⟩
    exact ⟨hdone, fun hmem => hfresh _ hmem _ (by simp) rfl⟩
  · rintro ⟨hdone, hfresh⟩
    refine ⟨hdone, by simp, ?_⟩
    rintro x hx y hy rfl
    obtain rfl : x = b.id := by simpa using hy
    exact hfresh hx

theorem ReadTo.block {done : List TaskBlock} {s : TaskReading} (h : ReadTo W done s)
    (b : TaskBlock) : ReadTo W (done ++ [b]) (s.block W b) := by
  have herrors : ∀ e, e ∈ (s.block W b).errors ↔
      (e = .duplicateId ∧ ¬ ((done ++ [b]).map (·.id)).Nodup) ∨
        ∃ c ∈ done ++ [b], e ∈ c.dependencyErrors W ∨ e ∈ c.actionErrors W := by
    intro e
    rw [nodup_ids_append]
    simp only [TaskReading.block, List.mem_append, h.errors, List.mem_singleton, h.keys]
    by_cases hseen : b.id ∈ done.map (·.id)
    · simp only [hseen, decide_true, if_true, List.mem_singleton]
      grind
    · simp only [hseen, decide_false, Bool.false_eq_true, if_false, List.not_mem_nil]
      grind
  by_cases hseen : b.id ∈ done.map (·.id)
  · have htasks : (s.block W b).tasks = s.tasks := by
      simp [TaskReading.block, h.keys, hseen]
    have hdups : (s.block W b).duplicateIds = b.id :: s.duplicateIds := by
      simp [TaskReading.block, h.keys, hseen]
    have hfind : ∀ id, (done ++ [b]).find? (·.id == id) = done.find? (·.id == id) := by
      intro id
      rw [List.find?_append]
      by_cases hid : b.id = id
      · subst hid
        obtain ⟨c, hc⟩ := find_of_mem hseen
        simp [hc]
      · simp [hid]
    refine ⟨?_, ?_, ?_, ?_, ?_, herrors⟩
    · intro id
      rw [htasks, h.keys, List.map_append, List.mem_append]
      constructor
      · exact .inl
      · rintro (hid | hid)
        · exact hid
        · obtain rfl : id = b.id := by simpa using hid
          exact hseen
    · intro id
      rw [htasks, hfind, h.lookup]
    · intro entry hentry
      rw [hfind]
      exact h.entries entry (htasks ▸ hentry)
    · rw [htasks, List.length_append]
      exact Nat.le_trans h.length (Nat.le_add_right _ _)
    · intro id hid
      rw [hdups] at hid
      rw [List.map_append, List.mem_append]
      rcases List.mem_cons.mp hid with rfl | hid
      · exact .inl hseen
      · exact .inl (h.duplicates id hid)
  · have hfresh : b.id ∉ s.duplicateIds := fun hmem => hseen (h.duplicates _ hmem)
    have htasks : (s.block W b).tasks = s.tasks ++ [(b.id, b.dependencyIds W)] := by
      simp [TaskReading.block, h.keys, hseen, hfresh]
    have hdups : (s.block W b).duplicateIds = s.duplicateIds := by
      simp [TaskReading.block, h.keys, hseen]
    refine ⟨?_, ?_, ?_, ?_, ?_, herrors⟩
    · intro id
      rw [htasks, List.map_append, List.map_append, List.mem_append, List.mem_append, h.keys]
      rfl
    · intro id
      rw [htasks, List.lookup_append, h.lookup, List.find?_append]
      by_cases hid : b.id = id
      · subst hid
        simp [find_of_not_mem hseen]
      · have hne : (id == b.id) = false := by simpa using Ne.symm hid
        simp [hid, List.lookup_cons, hne]
    · intro entry hentry
      rw [htasks] at hentry
      rcases List.mem_append.mp hentry with hentry | hentry
      · obtain ⟨c, hc, hids⟩ := h.entries entry hentry
        exact ⟨c, by rw [List.find?_append, hc]; rfl, hids⟩
      · obtain rfl : entry = (b.id, b.dependencyIds W) := by simpa using hentry
        exact ⟨b, by simp [List.find?_append, find_of_not_mem hseen], rfl⟩
    · rw [htasks, List.length_append, List.length_append]
      exact Nat.add_le_add_right h.length 1
    · intro id hid
      rw [hdups] at hid
      rw [List.map_append, List.mem_append]
      exact .inl (h.duplicates id hid)

theorem readDocuments_readTo (W : Words) (documents : List String) :
    ReadTo W (documentBlocks W documents) (readDocuments W documents) := by
  have hfold : ∀ (later done : List TaskBlock) (s : TaskReading), ReadTo W done s →
      ReadTo W (done ++ later) (later.foldl (TaskReading.block W) s) := by
    intro later
    induction later with
    | nil => exact fun done s h => by simpa using h
    | cons b later ih => exact fun done s h => by simpa using ih _ _ (h.block b)
  exact hfold _ [] {} .start

/-! ## Results -/

theorem TaskError.value_injective {e f : TaskError} (h : e.value = f.value) : e = f := by
  cases e <;> cases f <;> first | rfl | exact absurd h (by decide)

theorem mem_errorCodes {digests : TaskDigests} {digest : String} {errors : List TaskError}
    {e : TaskError} :
    e.value ∈ (validationResult digests digest errors).errorCodes ↔ e ∈ errors := by
  simp only [validationResult, List.mem_insertionSort, List.mem_dedup, List.mem_map]
  constructor
  · rintro ⟨f, hf, hvalue⟩
    exact TaskError.value_injective hvalue ▸ hf
  · exact fun he => ⟨e, he, rfl⟩

theorem passed_iff {digests : TaskDigests} {digest : String} {errors : List TaskError} :
    (validationResult digests digest errors).passed = true ↔ errors = [] := by
  rw [List.eq_nil_iff_forall_not_mem]
  show (validationResult digests digest errors).errorCodes.isEmpty = true ↔ _
  rw [List.isEmpty_iff]
  constructor
  · intro hnil e he
    have hcode : e.value ∈ (validationResult digests digest errors).errorCodes :=
      mem_errorCodes.mpr he
    simp [hnil] at hcode
  · intro hnone
    have hnil : errors = [] := List.eq_nil_iff_forall_not_mem.mpr hnone
    simp [validationResult, hnil]

/-! ## The errors of a block -/

namespace TaskBlock

variable {b : TaskBlock}

theorem dependencyErrors_nil_iff :
    b.dependencyErrors W = [] ↔ ∃ text ids, b.dependencyTexts W = [text] ∧ IdList text ids := by
  unfold dependencyErrors
  split
  next text htexts =>
    by_cases hres : residue W text = []
    · obtain ⟨ids, hids⟩ := (residue_nil_iff text).mp hres
      rw [if_pos hres]
      exact ⟨fun _ => ⟨text, ids, htexts, hids⟩, fun _ => rfl⟩
    · have hnone := mt (residue_nil_iff text).mpr hres
      simp only [hres, if_false, List.cons_ne_nil, false_iff]
      rintro ⟨text', ids, htext', hids⟩
      obtain rfl : text = text' := by simpa [htexts] using htext'
      exact hnone ⟨ids, hids⟩
  next hmany =>
    simp only [List.cons_ne_nil, false_iff]
    rintro ⟨text, -, htext, -⟩
    exact hmany text htext

theorem actionErrors_nil_iff :
    b.actionErrors W = [] ↔ (∃ action, b.actions W = [action]) ∧
      (b.actions W ≠ ["reuse"] → ∀ path ∈ b.targetPaths W,
        looksLikeFrozenUpstream path = false) := by
  unfold actionErrors
  split
  next action hactions =>
    by_cases hreuse : action = "reuse"
    · simp [hactions, hreuse]
    · simp [hactions, hreuse]
  next hmany =>
    simp only [List.cons_ne_nil, false_iff]
    rintro ⟨⟨action, haction⟩, -⟩
    exact hmany action haction

theorem mem_dependencyIds {d : String} :
    d ∈ b.dependencyIds W ↔ ∃ text, b.dependencyTexts W = [text] ∧ Mentions W text d := by
  unfold dependencyIds
  split
  next text htexts => simp [htexts, mem_idsIn]
  next hmany =>
    simp only [List.not_mem_nil, false_iff]
    rintro ⟨text, htext, -⟩
    exact hmany text htext

theorem cycle_not_mem : .dependencyCycle ∉ b.dependencyErrors W ∧
    .dependencyCycle ∉ b.actionErrors W := by
  unfold dependencyErrors actionErrors
  constructor
  · split
    · split <;> simp
    · simp
  · split
    · split <;> simp
    · simp

end TaskBlock

/-! ## The dependency graph -/

variable {documents : List String}

theorem mem_tasks_iff {id : String} :
    id ∈ (readDocuments W documents).tasks.map Prod.fst ↔ Defined W documents id := by
  rw [(readDocuments_readTo W documents).keys, List.mem_map]
  rfl

/-- **The search follows exactly the dependencies between defined tasks.** -/
theorem edge_iff (order : SetOrder) {a b : String} :
    Graph.Edge (nextTasks order (readDocuments W documents).tasks) a b ↔
      DependsOn W documents a b := by
  rw [Graph.Edge, nextTasks, List.mem_filter, order.mem_order, taskDependencies,
    (readDocuments_readTo W documents).lookup, decide_eq_true_eq, mem_tasks_iff]
  constructor
  · rintro ⟨hb, hdefined⟩
    cases hfind : (documentBlocks W documents).find? (·.id == a) with
    | none => simp [hfind] at hb
    | some block =>
      obtain ⟨text, htexts, hmentions⟩ := TaskBlock.mem_dependencyIds.mp (by simpa [hfind] using hb)
      exact ⟨block, text, hfind, htexts, hmentions, hdefined⟩
  · rintro ⟨block, text, hfind, htexts, hmentions, hdefined⟩
    refine ⟨?_, hdefined⟩
    rw [hfind]
    exact TaskBlock.mem_dependencyIds.mpr ⟨text, htexts, hmentions⟩

theorem edge_eq (order : SetOrder) :
    Graph.Edge (nextTasks order (readDocuments W documents).tasks) = DependsOn W documents := by
  funext a b
  exact propext (edge_iff order)

theorem cyclic_iff (order : SetOrder) :
    Graph.Cyclic (nextTasks order (readDocuments W documents).tasks) ↔
      DependencyCycle W documents := by
  rw [Graph.Cyclic, edge_eq]
  rfl

theorem nextTasks_keys (order : SetOrder) (tasks : List (String × List String)) (id : String) :
    ∀ d ∈ nextTasks order tasks id, d ∈ tasks.map Prod.fst := by
  intro d hd
  exact of_decide_eq_true (List.mem_filter.mp hd).2

theorem nextTasks_ne_nil {order : SetOrder} {tasks : List (String × List String)} {id : String}
    (h : nextTasks order tasks id ≠ []) : id ∈ tasks.map Prod.fst := by
  obtain ⟨d, hd⟩ := List.exists_mem_of_ne_nil _ h
  have hmem := (order.mem_order _ _).mp (List.mem_filter.mp hd).1
  cases hlookup : tasks.lookup id with
  | none => simp [taskDependencies, hlookup] at hmem
  | some ids =>
    obtain ⟨l₁, l₂, rfl, -⟩ := List.lookup_eq_some_iff.mp hlookup
    simp

/-! ## What is accepted -/

theorem find_of_nodup {blocks : List TaskBlock} (h : (blocks.map (·.id)).Nodup) {b : TaskBlock}
    (hb : b ∈ blocks) : blocks.find? (·.id == b.id) = some b := by
  obtain ⟨c, hc⟩ := find_of_mem (List.mem_map_of_mem hb)
  have hid : c.id = b.id := by simpa using List.find?_some hc
  rw [hc, List.inj_on_of_nodup_map h (List.mem_of_find?_eq_some hc) hb hid]

theorem referenceErrors_nil_iff {tasks : List (String × List String)} :
    referenceErrors tasks = [] ↔
      ∀ entry ∈ tasks, ∀ d ∈ entry.2, d ∈ tasks.map Prod.fst ∧ d ≠ entry.1 := by
  rw [referenceErrors, List.append_eq_nil_iff]
  constructor
  · rintro ⟨hmissing, hself⟩ entry hentry d hd
    constructor
    · by_contra hnot
      rw [if_pos (List.any_eq_true.mpr ⟨entry, hentry,
        List.any_eq_true.mpr ⟨d, hd, by simpa using hnot⟩⟩)] at hmissing
      cases hmissing
    · rintro rfl
      rw [if_pos (List.any_eq_true.mpr ⟨entry, hentry, by simpa using hd⟩)] at hself
      cases hself
  · intro hall
    constructor
    · rw [if_neg]
      intro hany
      obtain ⟨entry, hentry, hany⟩ := List.any_eq_true.mp hany
      obtain ⟨d, hd, hnot⟩ := List.any_eq_true.mp hany
      exact absurd (hall entry hentry d hd).1 (by simpa using hnot)
    · rw [if_neg]
      intro hany
      obtain ⟨entry, hentry, hmem⟩ := List.any_eq_true.mp hany
      exact (hall entry hentry entry.1 (by simpa using hmem)).2 rfl

/-- Without a cycle, no error is left exactly for the grammar. -/
theorem errors_nil_iff (htask : documentBlocks W documents ≠ [])
    (hacyclic : ¬ DependencyCycle W documents) :
    referenceErrors (readDocuments W documents).tasks ++ (readDocuments W documents).errors = [] ↔
      TasksGrammar W documents := by
  have hread := readDocuments_readTo W documents
  rw [List.append_eq_nil_iff, referenceErrors_nil_iff]
  constructor
  · rintro ⟨hrefs, hnone⟩
    have hclean : ∀ e, ¬ ((e = .duplicateId ∧ ¬ ((documentBlocks W documents).map (·.id)).Nodup) ∨
        ∃ b ∈ documentBlocks W documents, e ∈ b.dependencyErrors W ∨ e ∈ b.actionErrors W) := by
      intro e he
      have hmem := (hread.errors e).mpr he
      simp [hnone] at hmem
    have hunique : ((documentBlocks W documents).map (·.id)).Nodup := by
      by_contra hdup
      exact hclean _ (.inl ⟨rfl, hdup⟩)
    have haction : ∀ b ∈ documentBlocks W documents, b.actionErrors W = [] := fun b hb =>
      List.eq_nil_iff_forall_not_mem.mpr fun e he => hclean e (.inr ⟨b, hb, .inr he⟩)
    refine ⟨htask, hunique, ?_, ?_, hacyclic, ?_⟩
    · intro b hb
      have hdeps : b.dependencyErrors W = [] :=
        List.eq_nil_iff_forall_not_mem.mpr fun e he => hclean e (.inr ⟨b, hb, .inl he⟩)
      obtain ⟨text, ids, htexts, hids⟩ := TaskBlock.dependencyErrors_nil_iff.mp hdeps
      refine ⟨text, ids, htexts, hids, fun d hd => ?_⟩
      have hlookup := hread.lookup b.id
      rw [find_of_nodup hunique hb] at hlookup
      obtain ⟨l₁, l₂, htasks, -⟩ := List.lookup_eq_some_iff.mp hlookup
      have hentry : (b.id, b.dependencyIds W) ∈ (readDocuments W documents).tasks := by
        rw [htasks]
        simp
      have hmem : d ∈ b.dependencyIds W := by
        rw [TaskBlock.dependencyIds, htexts]
        show d ∈ TaskBlock.idsIn W text
        rwa [hids.idsIn]
      obtain ⟨hkey, hself⟩ := hrefs _ hentry d hmem
      exact ⟨mem_tasks_iff.mp hkey, hself⟩
    · exact fun b hb => (TaskBlock.actionErrors_nil_iff.mp (haction b hb)).1
    · exact fun b hb => (TaskBlock.actionErrors_nil_iff.mp (haction b hb)).2
  · intro h
    constructor
    · intro entry hentry d hd
      obtain ⟨b, hfind, hids⟩ := hread.entries entry hentry
      have hid : b.id = entry.1 := by simpa using List.find?_some hfind
      obtain ⟨text, ids, htexts, hlist, hall⟩ := h.dependsOn b (List.mem_of_find?_eq_some hfind)
      have hmem : d ∈ ids := by
        rw [hids, TaskBlock.dependencyIds, htexts] at hd
        rw [← hlist.idsIn (W := W)]
        exact hd
      exact ⟨mem_tasks_iff.mpr (hall d hmem).1, hid ▸ (hall d hmem).2⟩
    · refine List.eq_nil_iff_forall_not_mem.mpr fun e he => ?_
      rcases (hread.errors e).mp he with ⟨-, hdup⟩ | ⟨b, hb, hdeps | hactions⟩
      · exact hdup h.unique
      · obtain ⟨text, ids, htexts, hids, -⟩ := h.dependsOn b hb
        rw [TaskBlock.dependencyErrors_nil_iff.mpr ⟨text, ids, htexts, hids⟩] at hdeps
        cases hdeps
      · rw [TaskBlock.actionErrors_nil_iff.mpr ⟨h.action b hb, h.frozen b hb⟩] at hactions
        cases hactions

/-- **The validator decides the grammar, and finds exactly the cycles**, whatever the order
of its sets, where the stack holds one frame more than there are blocks. -/
theorem validateTaskDocuments_decides (W : Words) (order : SetOrder) (digests : TaskDigests)
    (documents : List String) :
    ∃ r, (∀ frames, (documentBlocks W documents).length < frames →
        validateTaskDocuments W order digests frames documents = .ok r) ∧
      (r.passed = true ↔ TasksGrammar W documents) ∧
      ("dependency_cycle" ∈ r.errorCodes ↔ DependencyCycle W documents) := by
  have hread := readDocuments_readTo W documents
  have hnocycle : TaskError.dependencyCycle ∉ (readDocuments W documents).errors := by
    intro hmem
    rcases (hread.errors _).mp hmem with ⟨heq, -⟩ | ⟨b, -, hdeps | hactions⟩
    · cases heq
    · exact TaskBlock.cycle_not_mem.1 hdeps
    · exact TaskBlock.cycle_not_mem.2 hactions
  by_cases htasks : (readDocuments W documents).tasks = []
  · have hblocks : documentBlocks W documents = [] := by
      refine List.eq_nil_iff_forall_not_mem.mpr fun b hb => ?_
      have hkey := mem_tasks_iff.mpr ⟨b, hb, rfl⟩
      simp [htasks] at hkey
    refine ⟨_, fun frames _ => by rw [validateTaskDocuments, if_pos htasks], ?_, ?_⟩
    · rw [passed_iff]
      exact ⟨nofun, fun h => absurd hblocks h.task⟩
    · rw [show "dependency_cycle" = TaskError.dependencyCycle.value from rfl, mem_errorCodes]
      constructor
      · intro hmem
        rcases List.mem_cons.mp hmem with heq | hmem
        · cases heq
        · exact absurd hmem hnocycle
      · rintro ⟨a, ha⟩
        obtain ⟨b, ⟨block, -, hfind, -⟩, -⟩ := Relation.TransGen.head'_iff.mp ha
        simp [hblocks] at hfind
  · obtain ⟨colours, hcolours⟩ := Graph.search_bounded
      (fun id => nextTasks_keys order (readDocuments W documents).tasks id) (Nat.le_refl _)
    have hflag : colours.cycle = true ↔ DependencyCycle W documents :=
      (Graph.search_cycle_iff (fun _ => nextTasks_ne_nil) hcolours).trans (cyclic_iff order)
    have htask : documentBlocks W documents ≠ [] := by
      intro hnil
      have hlen := hread.length
      rw [hnil] at hlen
      exact htasks (List.length_eq_zero_iff.mp (Nat.le_zero.mp hlen))
    have hcalls : ∀ frames, (documentBlocks W documents).length < frames →
        Graph.search (nextTasks order (readDocuments W documents).tasks) frames
          ((readDocuments W documents).tasks.map Prod.fst) = some colours := by
      intro frames hframes
      refine Graph.search_mono ?_ hcolours
      have := hread.length
      rw [List.length_map]
      omega
    refine ⟨_, fun frames hframes => by
      rw [validateTaskDocuments, if_neg htasks, hcalls frames hframes], ?_, ?_⟩
    · rw [passed_iff]
      by_cases hcycle : DependencyCycle W documents
      · rw [if_pos (hflag.mpr hcycle)]
        exact ⟨nofun, fun h => absurd hcycle h.acyclic⟩
      · rw [if_neg (mt hflag.mp hcycle)]
        exact errors_nil_iff htask hcycle
    · rw [show "dependency_cycle" = TaskError.dependencyCycle.value from rfl, mem_errorCodes,
        ← hflag]
      by_cases hcycle : colours.cycle = true
      · simp [hcycle]
      · rw [if_neg hcycle]
        refine iff_of_false ?_ hcycle
        intro hmem
        rcases List.mem_append.mp hmem with hmem | hmem
        · rw [referenceErrors] at hmem
          rcases List.mem_append.mp hmem with hmem | hmem
          all_goals
            split at hmem
            · simp at hmem
            · cases hmem
        · exact hnocycle hmem

end HollysysController
