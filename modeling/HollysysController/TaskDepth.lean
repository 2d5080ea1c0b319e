import HollysysController.Consumer
import HollysysController.TaskRendering
import Mathlib

/-! # The depth of the dependency search

`visit` takes a frame of the interpreter's stack for each task of the path it follows. How
long a path may be, for every order of the sets, and what the reconcile pass makes of an
overflow. -/

namespace HollysysController

open Python

/-- CPython's default recursion limit. -/
def recursionLimit : Nat := 1000

def recursionErrorText : String := "maximum recursion depth exceeded"

/-- `_validate_task_graph`. -/
def validateTaskGraph (W : Words) (order : SetOrder) (digests : TaskDigests) (frames : Nat)
    (documents : List String) : Except TaskValidationError Unit := do
  let result ← validateTaskDocuments W order digests frames documents
  if result.passed then .ok ()
  else .error (.valueError ("TASKS_VALIDATION_FAILED:" ++ ",".intercalate result.errorCodes))

/-- The end of a pass that checks a semantic gate: a `ValueError` becomes a protocol
failure, whose ending is the answer, and a `RuntimeError` leaves the pass. -/
def tasksGateEnding (runKey : String) (answer : Ending) : Except TaskValidationError Unit → Ending
  | .ok () | .error (.valueError _) => answer
  | .error .recursionError =>
    policyEnding runKey answer (.runtimeError recursionErrorText)

/-- The validation of the documents returns, and the pass around it does not stop the
daemon, whatever the order of the sets. -/
structure TasksDecided (W : Words) (digests : TaskDigests) (runKey : String) (frames : Nat)
    (documents : List String) : Prop where
  returns : ∀ order, ∃ r, validateTaskDocuments W order digests frames documents = .ok r
  goesOn : ∀ order, tasksGateEnding runKey (.ok ())
    (validateTaskGraph W order digests frames documents) = .ok ()

/-- From each task, in the order of the first blocks, the frames hold every dependency path
whose tasks before the last are reached from no task before. -/
def ChainsFit (W : Words) (frames : Nat) (documents : List String) : Prop :=
  ∀ (done : List TaskBlock) (b : TaskBlock) later,
    documentBlocks W documents = done ++ b :: later → b.id ∉ done.map (·.id) →
    ∀ path, List.IsChain (DependsOn W documents) (b.id :: path) →
      (∀ u ∈ (b.id :: path).dropLast, ∀ e ∈ done.map (·.id),
        ¬ Relation.ReflTransGen (DependsOn W documents) e u) →
      path.length + 1 ≤ frames

variable {W : Words} {documents : List String}

/-! ## The roots of the search -/

/-- The ids of the blocks, each where it comes first. -/
def firstIds (blocks : List TaskBlock) : List String :=
  blocks.foldl (fun ids b => if b.id ∈ ids then ids else ids ++ [b.id]) []

theorem firstIds_append (blocks : List TaskBlock) (b : TaskBlock) :
    firstIds (blocks ++ [b]) =
      if b.id ∈ firstIds blocks then firstIds blocks else firstIds blocks ++ [b.id] := by
  rw [firstIds, List.foldl_append]
  rfl

theorem mem_firstIds {blocks : List TaskBlock} {id : String} :
    id ∈ firstIds blocks ↔ id ∈ blocks.map (·.id) := by
  induction blocks using List.reverseRecOn with
  | nil => simp [firstIds]
  | append_singleton blocks b ih =>
    rw [firstIds_append, List.map_append, List.mem_append, ← ih]
    by_cases hb : b.id ∈ firstIds blocks
    · rw [if_pos hb]
      constructor
      · exact .inl
      · rintro (h | h)
        · exact h
        · obtain rfl : id = b.id := by simpa using h
          exact hb
    · rw [if_neg hb, List.mem_append]
      rfl

theorem tasks_keys (W : Words) (documents : List String) :
    (readDocuments W documents).tasks.map Prod.fst = firstIds (documentBlocks W documents) := by
  have hfold : ∀ (later done : List TaskBlock) (s : TaskReading), ReadTo W done s →
      s.tasks.map Prod.fst = firstIds done →
      (later.foldl (TaskReading.block W) s).tasks.map Prod.fst = firstIds (done ++ later) := by
    intro later
    induction later with
    | nil => exact fun done s _ h => by simpa using h
    | cons b later ih =>
      intro done s hread h
      rw [List.foldl_cons, ih (done ++ [b]) _ (hread.block b), List.append_assoc]
      · rfl
      · rw [firstIds_append, ← h]
        by_cases hseen : b.id ∈ s.tasks.map Prod.fst
        · simp [TaskReading.block, hseen]
        · have hfresh : b.id ∉ s.duplicateIds := fun hmem =>
            hseen ((hread.keys _).mpr (hread.duplicates _ hmem))
          simp [TaskReading.block, hseen, hfresh]
  exact hfold _ [] {} .start rfl

/-- The places in the list of the first ids are those of first blocks. -/
theorem firstIds_split {blocks : List TaskBlock} {earlier later : List String} {v : String}
    (h : firstIds blocks = earlier ++ v :: later) :
    ∃ (done : List TaskBlock) (b : TaskBlock) (rest : List TaskBlock),
      blocks = done ++ b :: rest ∧ b.id = v ∧ v ∉ done.map (·.id) ∧
        earlier = firstIds done := by
  induction blocks using List.reverseRecOn generalizing later with
  | nil => simp [firstIds] at h
  | append_singleton blocks c ih =>
    rw [firstIds_append] at h
    by_cases hc : c.id ∈ firstIds blocks
    · rw [if_pos hc] at h
      obtain ⟨done, b, rest, rfl, hb, hfresh, hearlier⟩ := ih h
      exact ⟨done, b, rest ++ [c], by simp, hb, hfresh, hearlier⟩
    · rw [if_neg hc] at h
      rcases List.eq_nil_or_concat later with rfl | ⟨later, w, rfl⟩
      · obtain ⟨hblocks, hv⟩ := List.append_inj' h rfl
        obtain rfl : c.id = v := by simpa using hv
        exact ⟨blocks, c, [], rfl, rfl, mt mem_firstIds.mpr hc, hblocks.symm⟩
      · rw [List.concat_eq_append, ← List.cons_append, ← List.append_assoc] at h
        obtain ⟨done, b, rest, rfl, hb, hfresh, hearlier⟩ := ih (List.append_inj' h rfl).1
        exact ⟨done, b, rest ++ [c], by simp, hb, hfresh, hearlier⟩

theorem firstIds_of_split (done rest : List TaskBlock) {b : TaskBlock}
    (hfresh : b.id ∉ done.map (·.id)) :
    ∃ later, firstIds (done ++ b :: rest) = firstIds done ++ b.id :: later := by
  induction rest using List.reverseRecOn with
  | nil => exact ⟨[], by rw [firstIds_append, if_neg (mt mem_firstIds.mp hfresh)]⟩
  | append_singleton rest c ih =>
    obtain ⟨later, hlater⟩ := ih
    rw [← List.cons_append, ← List.append_assoc, firstIds_append, hlater]
    by_cases hc : c.id ∈ firstIds done ++ b.id :: later
    · exact ⟨later, if_pos hc⟩
    · exact ⟨later ++ [c.id], by rw [if_neg hc]; simp⟩

/-! ## An order that follows a path -/

/-- The order that begins with the favoured member of a set, where it has one. -/
def favouring (pairs : List (List String × String)) : SetOrder where
  order ids :=
    match pairs.find? fun p => p.1 == ids && decide (p.2 ∈ ids) with
    | some p => p.2 :: ids.dedup.erase p.2
    | none => ids.dedup
  mem_order ids id := by
    split
    next p hp =>
      have hmem : p.2 ∈ ids := by
        have hfound := List.find?_some hp
        simp only [Bool.and_eq_true, decide_eq_true_eq] at hfound
        exact hfound.2
      by_cases hid : id = p.2
      · simp [hid, hmem]
      · rw [List.mem_cons, List.mem_erase_of_ne hid, List.mem_dedup]
        exact ⟨fun h => h.resolve_left hid, .inr⟩
    next => exact List.mem_dedup
  nodup_order ids := by
    split
    next p _ =>
      refine List.nodup_cons.mpr ⟨?_, (List.nodup_dedup ids).erase _⟩
      exact fun hmem => ((List.nodup_dedup ids).mem_erase_iff.mp hmem).1 rfl
    next => exact List.nodup_dedup ids

theorem favouring_head {pairs : List (List String × String)} {ids : List String} {d : String}
    (hd : (ids, d) ∈ pairs) (hmem : d ∈ ids)
    (honly : ∀ p ∈ pairs, p.1 = ids → p.2 = d) : ((favouring pairs).order ids).head? = some d := by
  simp only [favouring]
  split
  next p hp =>
    have hfound := List.find?_some hp
    simp only [Bool.and_eq_true, beq_iff_eq] at hfound
    exact congrArg some (honly p (List.mem_of_find?_eq_some hp) hfound.1)
  next hnone => exact absurd (by simp [hmem]) (List.find?_eq_none.mp hnone _ hd)

/-- On a graph without cycles, an order follows every edge of a path first. -/
theorem exists_order_along (hacyclic : ¬ DependencyCycle W documents) {path : List String}
    (hpath : List.IsChain (DependsOn W documents) path) :
    ∃ order, List.IsChain (fun a b =>
      (nextTasks order (readDocuments W documents).tasks a).head? = some b) path := by
  let tasks := (readDocuments W documents).tasks
  refine ⟨favouring ((path.zip path.tail).map fun p => (taskDependencies tasks p.1, p.2)), ?_⟩
  refine Graph.isChain_of_zip fun p hp => ?_
  have hedge := Graph.rel_of_mem_zip hpath hp
  obtain ⟨hmem, hdefined⟩ : p.2 ∈ taskDependencies tasks p.1 ∧ p.2 ∈ tasks.map Prod.fst := by
    have hnext := (edge_iff (favouring [])).mpr hedge
    rw [Graph.Edge, nextTasks, List.mem_filter, (favouring []).mem_order,
      decide_eq_true_eq] at hnext
    exact hnext
  have hhead := favouring_head (d := p.2)
    (List.mem_map.mpr ⟨p, hp, rfl⟩ :
      (taskDependencies tasks p.1, p.2) ∈ (path.zip path.tail).map fun p =>
        (taskDependencies tasks p.1, p.2)) hmem (by
    intro q hq hsame
    obtain ⟨r, hr, rfl⟩ := List.mem_map.mp hq
    -- two tasks of a path with the same dependencies would lie on a cycle
    refine Graph.step_unique hacyclic hpath hr hp fun c => ?_
    have hdeps : taskDependencies tasks r.1 = taskDependencies tasks p.1 := hsame
    rw [← edge_iff (favouring []), ← edge_iff (favouring []), Graph.Edge, Graph.Edge, nextTasks,
      nextTasks, hdeps])
  obtain ⟨rest, hrest⟩ := List.head?_eq_some_iff.mp hhead
  rw [nextTasks, hrest, List.filter_cons_of_pos (by simpa using hdefined)]
  rfl

/-! ## The validation returns -/

theorem validateTaskDocuments_ok_iff {order : SetOrder} {digests : TaskDigests} {frames : Nat} :
    (∃ r, validateTaskDocuments W order digests frames documents = .ok r) ↔
      ∃ colours, Graph.search (nextTasks order (readDocuments W documents).tasks) frames
        (firstIds (documentBlocks W documents)) = some colours := by
  rw [← tasks_keys, validateTaskDocuments]
  by_cases htasks : (readDocuments W documents).tasks = []
  · simp [htasks, Graph.search]
  · rw [if_neg htasks]
    cases Graph.search (nextTasks order (readDocuments W documents).tasks) frames
      ((readDocuments W documents).tasks.map Prod.fst) <;> simp

theorem TasksDecided.of_returns {digests : TaskDigests} {runKey : String} {frames : Nat}
    (h : ∀ order, ∃ r, validateTaskDocuments W order digests frames documents = .ok r) :
    TasksDecided W digests runKey frames documents := by
  refine ⟨h, fun order => ?_⟩
  obtain ⟨r, hr⟩ := h order
  rw [validateTaskGraph, hr]
  show tasksGateEnding runKey (.ok ()) (if r.passed then _ else _) = .ok ()
  by_cases hpassed : r.passed
  · rw [if_pos hpassed]
    rfl
  · rw [if_neg hpassed]
    rfl

theorem searched_iff (order : SetOrder) (done : List TaskBlock) (u : String) :
    Graph.Searched (nextTasks order (readDocuments W documents).tasks) (firstIds done) u ↔
      ∃ e ∈ done.map (·.id), Relation.ReflTransGen (DependsOn W documents) e u := by
  simp only [Graph.Searched, edge_eq, mem_firstIds]

theorem ChainsFit.roots {frames : Nat} (h : ChainsFit W frames documents) (order : SetOrder) :
    Graph.RootsFit (nextTasks order (readDocuments W documents).tasks) frames
      (firstIds (documentBlocks W documents)) := by
  intro earlier v later hroots path hpath hfresh
  obtain ⟨done, b, rest, hblocks, rfl, hb, rfl⟩ := firstIds_split hroots
  rw [edge_eq] at hpath
  refine h done b rest hblocks hb path hpath fun u hu e he hreach => hfresh u hu ?_
  exact (searched_iff order done u).mpr ⟨e, he, hreach⟩

theorem decided_iff_fits (hacyclic : ¬ DependencyCycle W documents) (digests : TaskDigests)
    (runKey : String) (frames : Nat) :
    TasksDecided W digests runKey frames documents ↔ ChainsFit W frames documents := by
  constructor
  · intro h done b later hblocks hb path hpath hfresh
    by_contra hlong
    obtain ⟨order, horder⟩ := exists_order_along hacyclic hpath
    obtain ⟨rest, hroots⟩ := firstIds_of_split done later hb
    have hoverflow : Graph.search (nextTasks order (readDocuments W documents).tasks) frames
        (firstIds done ++ b.id :: rest) = none := by
      refine Graph.search_overflows (mt (cyclic_iff order).mp hacyclic) horder ?_ (by omega)
      intro u hu hsearched
      obtain ⟨e, he, hreach⟩ := (searched_iff order done u).mp hsearched
      exact hfresh u hu e he hreach
    obtain ⟨colours, hcolours⟩ := validateTaskDocuments_ok_iff.mp (h.returns order)
    rw [hblocks, hroots, hoverflow] at hcolours
    cases hcolours
  · intro h
    refine .of_returns fun order => validateTaskDocuments_ok_iff.mpr ?_
    exact Graph.search_fits (mt (cyclic_iff order).mp hacyclic) (h.roots order)

/-- **Acyclic documents are decided within the recursion limit exactly when the paths that
no earlier task has searched fit in it.** -/
theorem tasksDecided_iff (W : Words) (digests : TaskDigests) (runKey : String) (inUse : Nat)
    (documents : List String) :
    (¬ DependencyCycle W documents →
        TasksDecided W digests runKey (recursionLimit - inUse) documents) ↔
      (¬ DependencyCycle W documents → ChainsFit W (recursionLimit - inUse) documents) := by
  constructor
  · exact fun h hacyclic => (decided_iff_fits hacyclic digests runKey _).mp (h hacyclic)
  · exact fun h hacyclic => (decided_iff_fits hacyclic digests runKey _).mpr (h hacyclic)

/-! ## A long chain -/

/-- The words of ASCII texts. -/
def asciiWords : Words where
  word c := decide (c.toNat < 128) && (c.isAlphanum || c == '_')
  ascii c h := by simp [h]
  space c h := by
    have hval : c.val.toNat = c.toNat := rfl
    simp only [isSpace, Bool.or_eq_true, Bool.and_eq_true, decide_eq_true_eq, beq_iff_eq] at h
    simp only [Char.isAlphanum, Char.isAlpha, Char.isUpper, Char.isLower, Char.isDigit,
      Bool.and_eq_false_iff, Bool.or_eq_false_iff, decide_eq_false_iff_not, ge_iff_le,
      UInt32.le_iff_toNat_le, hval, beq_eq_false_iff_ne]
    by_cases h128 : c.toNat < 128
    · refine .inr ⟨⟨⟨?_, ?_⟩, ?_⟩, ?_⟩
      · by_contra hupper
        simp at hupper
        omega
      · by_contra hlower
        simp at hlower
        omega
      · by_contra hdigit
        simp at hdigit
        omega
      · rintro rfl
        revert h
        decide
    · exact .inl h128
  fullwidthComma := by decide
  ideographicComma := by decide

/-- The id of the task at a place, from `T1000` on. -/
def chainDigits (i : Nat) : List Char := Nat.toDigits 10 (1000 + i)

def chainId (i : Nat) : String := String.ofList ('T' :: chainDigits i)

theorem chainDigits_digit (i : Nat) : ∀ d ∈ chainDigits i, d.isDigit = true := fun _ hd =>
  Nat.isDigit_of_mem_toDigits (by decide) (by decide) hd

theorem chainDigits_long (i : Nat) : 3 ≤ (chainDigits i).length := by
  by_contra hshort
  have hle : (chainDigits i).length ≤ 2 := by omega
  have hsmall := (Nat.length_toDigits_le_iff (by decide) (by decide)).mp hle
  omega

theorem chainDigits_plain (i : Nat) : ∀ d ∈ chainDigits i, isSpace d = false ∧ d ≠ ']' := by
  intro d hd
  have hdigit := chainDigits_digit i d hd
  constructor
  · by_contra hspace
    have hword := asciiWords.digit hdigit
    rw [asciiWords.space d (by simpa using hspace)] at hword
    cases hword
  · rintro rfl
    revert hdigit
    decide

theorem chainId_injective {i j : Nat} (h : chainId i = chainId j) : i = j := by
  have hlist := congrArg String.toList h
  simp only [chainId, String.toList_ofList] at hlist
  have hnum := congrArg (fun ds => Nat.ofDigitChars 10 ds 0) (List.cons.inj hlist).2
  simp only [chainDigits, Nat.ofDigitChars_ten_toDigits] at hnum
  omega

/-- The task that depends on the next one, where there is one. -/
def link (n i : Nat) : WrittenTask where
  digits := chainDigits i
  brackets := if i + 1 < n then 'T' :: chainDigits (i + 1) else []
  digits_long := chainDigits_long i
  digits_digit := chainDigits_digit i
  brackets_plain := by
    intro c hc
    split at hc
    · rcases List.mem_cons.mp hc with rfl | hc
      · decide
      · exact ⟨(chainDigits_plain _ c hc).2,
          WrittenTask.digit_not_newline (chainDigits_digit _ c hc)⟩
    · cases hc

/-- `n` tasks, each of which depends on the next. -/
def chainDocument (n : Nat) : String := writtenDocument ((List.range n).map (link n))

theorem chain_blocks (W : Words) (n : Nat) :
    documentBlocks W [chainDocument n] = (List.range n).map fun i => (link n i).block := by
  rw [documentBlocks, List.flatMap_cons, List.flatMap_nil, List.append_nil, chainDocument,
    taskBlocks_written, List.map_map]
  rfl

theorem strip_plain {s : List Char} (h : ∀ c ∈ s, isSpace c = false) : Python.strip s = s := by
  have hdrop : ∀ {l : List Char}, (∀ c ∈ l, isSpace c = false) → l.dropWhile isSpace = l := by
    intro l hl
    cases l with
    | nil => rfl
    | cons c l => simp [hl c (by simp)]
  rw [Python.strip, hdrop h, hdrop (by simpa using h), List.reverse_reverse]

theorem link_dependencyIds (W : Words) (n i : Nat) :
    (link n i).block.dependencyIds W = if i + 1 < n then [chainId (i + 1)] else [] := by
  rw [TaskBlock.dependencyIds, WrittenTask.dependencyTexts_block]
  show TaskBlock.idsIn W (Python.strip (if i + 1 < n then 'T' :: chainDigits (i + 1) else [])) = _
  by_cases hi : i + 1 < n
  · rw [if_pos hi, if_pos hi, strip_plain]
    · have hid : TaskId ('T' :: chainDigits (i + 1)) :=
        ⟨_, rfl, chainDigits_long _, chainDigits_digit _⟩
      have hlist : IdList ('T' :: chainDigits (i + 1) ++ []) [chainId (i + 1)] :=
        .id hid (by simp) .nil
      rw [List.append_nil] at hlist
      exact hlist.idsIn
    · intro c hc
      rcases List.mem_cons.mp hc with rfl | hc
      · decide
      · exact (chainDigits_plain _ c hc).1
  · rw [if_neg hi, if_neg hi]
    rfl

theorem chain_find (W : Words) {n i : Nat} (hi : i < n) :
    (documentBlocks W [chainDocument n]).find? (·.id == chainId i) = some (link n i).block := by
  have hnodup : ((documentBlocks W [chainDocument n]).map (·.id)).Nodup := by
    rw [chain_blocks, List.map_map]
    exact List.nodup_range.map fun i j h => chainId_injective h
  show (documentBlocks W [chainDocument n]).find? (·.id == (link n i).block.id) = _
  refine find_of_nodup hnodup ?_
  rw [chain_blocks]
  exact List.mem_map.mpr ⟨i, List.mem_range.mpr hi, rfl⟩

theorem chain_dependsOn_iff (W : Words) (n : Nat) {a b : String} :
    DependsOn W [chainDocument n] a b ↔
      ∃ i, i + 1 < n ∧ a = chainId i ∧ b = chainId (i + 1) := by
  constructor
  · rintro ⟨block, text, hfind, htexts, hmentions, -⟩
    have hmem := List.mem_of_find?_eq_some hfind
    rw [chain_blocks] at hmem
    obtain ⟨i, -, rfl⟩ := List.mem_map.mp hmem
    have hb := TaskBlock.mem_dependencyIds.mpr ⟨text, htexts, hmentions⟩
    rw [link_dependencyIds] at hb
    have ha : (link n i).block.id = a := by simpa using List.find?_some hfind
    split at hb
    next hi => exact ⟨i, hi, ha.symm, by simpa using hb⟩
    next => cases hb
  · rintro ⟨i, hi, rfl, rfl⟩
    obtain ⟨text, htexts, hmentions⟩ := TaskBlock.mem_dependencyIds.mp
      (show chainId (i + 1) ∈ (link n i).block.dependencyIds W by simp [link_dependencyIds, hi])
    refine ⟨_, text, chain_find W (by omega), htexts, hmentions, (link n (i + 1)).block, ?_, rfl⟩
    rw [chain_blocks]
    exact List.mem_map.mpr ⟨i + 1, List.mem_range.mpr hi, rfl⟩

theorem chain_acyclic (W : Words) (n : Nat) : ¬ DependencyCycle W [chainDocument n] := by
  have hless : ∀ {a b}, Relation.TransGen (DependsOn W [chainDocument n]) a b →
      ∃ i j, i < j ∧ a = chainId i ∧ b = chainId j := by
    intro a b h
    induction h with
    | single h =>
      obtain ⟨i, -, ha, hb⟩ := (chain_dependsOn_iff W n).mp h
      exact ⟨i, i + 1, by omega, ha, hb⟩
    | tail _ h ih =>
      obtain ⟨i, j, hij, ha, hb⟩ := ih
      obtain ⟨k, -, hb', hc⟩ := (chain_dependsOn_iff W n).mp h
      have hjk : j = k := chainId_injective (hb.symm.trans hb')
      exact ⟨i, k + 1, by omega, ha, hc⟩
  rintro ⟨a, ha⟩
  obtain ⟨i, j, hij, hi, hj⟩ := hless ha
  have := chainId_injective (hi.symm.trans hj)
  omega

theorem order_singleton (order : SetOrder) (d : String) : order.order [d] = [d] := by
  have hmem := order.mem_order [d]
  have hnodup := order.nodup_order [d]
  match hids : order.order [d] with
  | [] =>
    rw [hids] at hmem
    simpa using (hmem d).mpr (by simp)
  | [e] =>
    rw [hids] at hmem
    obtain rfl : e = d := by simpa using (hmem e).mp (by simp)
    rfl
  | e :: f :: rest =>
    rw [hids] at hmem hnodup
    obtain rfl : e = d := by simpa using (hmem e).mp (by simp)
    obtain rfl : f = e := by simpa using (hmem f).mp (by simp)
    simp at hnodup

/-- Every order visits the one dependency first. -/
theorem chain_head (W : Words) (order : SetOrder) {n i : Nat} (hi : i + 1 < n) :
    (nextTasks order (readDocuments W [chainDocument n]).tasks (chainId i)).head? =
      some (chainId (i + 1)) := by
  have hkey : chainId (i + 1) ∈ (readDocuments W [chainDocument n]).tasks.map Prod.fst := by
    refine mem_tasks_iff.mpr ⟨(link n (i + 1)).block, ?_, rfl⟩
    rw [chain_blocks]
    exact List.mem_map.mpr ⟨i + 1, List.mem_range.mpr hi, rfl⟩
  have hdeps : taskDependencies (readDocuments W [chainDocument n]).tasks (chainId i) =
      [chainId (i + 1)] := by
    rw [taskDependencies, (readDocuments_readTo W _).lookup, chain_find W (by omega),
      Option.map_some, link_dependencyIds, if_pos hi]
    rfl
  rw [nextTasks, hdeps, order_singleton, List.filter_cons_of_pos (by simpa using hkey)]
  rfl

theorem firstIds_of_nodup {blocks : List TaskBlock} (h : (blocks.map (·.id)).Nodup) :
    firstIds blocks = blocks.map (·.id) := by
  induction blocks using List.reverseRecOn with
  | nil => rfl
  | append_singleton blocks b ih =>
    obtain ⟨hnodup, hfresh⟩ := (nodup_ids_append blocks b).mp h
    rw [firstIds_append, if_neg (mt mem_firstIds.mp hfresh), ih hnodup, List.map_append]
    rfl

theorem chain_keys (W : Words) (n : Nat) :
    (readDocuments W [chainDocument n]).tasks.map Prod.fst = (List.range n).map chainId := by
  have hids : (documentBlocks W [chainDocument n]).map (·.id) = (List.range n).map chainId := by
    rw [chain_blocks, List.map_map]
    rfl
  rw [tasks_keys, firstIds_of_nodup, hids]
  rw [hids]
  exact List.nodup_range.map fun i j h => chainId_injective h

/-- A chain of more tasks than there are frames overflows the stack, in any order. -/
theorem chain_overflows (W : Words) (order : SetOrder) (digests : TaskDigests) {frames n : Nat}
    (hlong : frames < n) :
    validateTaskDocuments W order digests frames [chainDocument n] = .error .recursionError := by
  obtain ⟨m, rfl⟩ : ∃ m, n = m + 1 := ⟨n - 1, by omega⟩
  have hkeys := chain_keys W (m + 1)
  have hpath : List.IsChain (fun a b =>
      (nextTasks order (readDocuments W [chainDocument (m + 1)]).tasks a).head? = some b)
        ((List.range (m + 1)).map chainId) := by
    refine List.isChain_iff_getElem.mpr fun i hi => ?_
    rw [List.length_map, List.length_range] at hi
    simpa using chain_head W order hi
  rw [List.range_succ_eq_map, List.map_cons] at hkeys hpath
  have hsearch : Graph.search (nextTasks order (readDocuments W [chainDocument (m + 1)]).tasks)
      frames ([] ++ chainId 0 :: ((List.range m).map Nat.succ).map chainId) = none := by
    refine Graph.search_overflows (mt (cyclic_iff order).mp (chain_acyclic W _)) hpath ?_ ?_
    · rintro u - ⟨e, he, -⟩
      cases he
    · rw [List.length_map, List.length_map, List.length_range]
      exact hlong
  have htasks : (readDocuments W [chainDocument (m + 1)]).tasks ≠ [] := by
    intro hnil
    rw [hnil] at hkeys
    cases hkeys
  rw [List.nil_append] at hsearch
  rw [validateTaskDocuments, if_neg htasks, hkeys]
  simp only [hsearch]

/-- A document of 1001 tasks, each of which depends on the next, has no cycle, and whatever
the stack already holds it ends the daemon. -/
theorem longChain_fatal : ¬ DependencyCycle asciiWords [chainDocument 1001] ∧
    ∀ inUse order digests runKey,
      validateTaskDocuments asciiWords order digests (recursionLimit - inUse)
          [chainDocument 1001] = .error .recursionError ∧
        tasksGateEnding runKey (.ok ()) (validateTaskGraph asciiWords order digests
            (recursionLimit - inUse) [chainDocument 1001]) =
          .error (.fatal s!"run_reconcile_failed:{runKey}:{recursionErrorText}") := by
  refine ⟨chain_acyclic _ _, fun inUse order digests runKey => ?_⟩
  have hlong : recursionLimit - inUse < 1001 := by
    unfold recursionLimit
    omega
  have hoverflow := chain_overflows asciiWords order digests hlong
  refine ⟨hoverflow, ?_⟩
  rw [validateTaskGraph, hoverflow]
  rfl

end HollysysController
