import HollysysController.CardBodies

/-! # The scratch directory of a worker

The code that is put into Hermes reads the scratch directory from the body of a card when it
spawns the worker. It takes the later one of two markers, so a record that quotes the marker of
the other kind hides its own block. -/

namespace HollysysController.Record

open Python (Value Text Double CodePoint Codec PyError codePoints codePoints_of find findFrom
  find_append find_of_prefix find_eq_none find_some rfind slice Occurs occurs_of_prefix
  infix_iff_occurs)
open Python.Json (JsonError dumps loads loads_rest strings keys write Quotable EndsLine Lies
  infix_write)

/-! ## The decoder -/

inductive SpawnError where
  /-- `invalid controller card body`. -/
  | invalid
  | json (e : JsonError)
  /-- The payload has no `get`. -/
  | attribute
  deriving DecidableEq, Repr

/-- `max` of two results of `find`. -/
def later : Option Nat → Option Nat → Option Nat
  | some m, some n => some (max m n)
  | some m, none => some m
  | none, n => n

/-- `str(payload.get("scratch_dir") or "")`. `text` is `str` of a value that is no text. -/
def candidate (text : Value → Text) : Value → Except SpawnError Text
  | .dict entries =>
    match Value.get entries "scratch_dir" with
    | some (.str s) => .ok s
    | some v => .ok (if v.truthy then text v else [])
    | none => .ok []
  | _ => .error .attribute

/-- The scratch directory of the block after a marker. -/
def scratchFrom (frames : Nat) (text : Value → Text) (body : Text) (markerAt : Nat) :
    Except SpawnError Text :=
  match findFrom jsonFence body markerAt, rfind fence body with
  | some start, some stop =>
    if stripText (body.drop (stop + fence.length)) ≠ [] then .error .invalid
    else
      match loads frames (stripText (slice body (start + jsonFence.length) stop)) with
      | .error e => .error (.json e)
      | .ok payload => candidate text payload
  | _, _ => .error .invalid

/-- What `patch_worker_run_scratch` makes the spawn of a worker read of a body. -/
def workerScratchDir (frames : Nat) (text : Value → Text) (body : Option Text) :
    Except SpawnError Text :=
  let body := body.getD []
  match later (find (codePoints cardMarker) body) (find (codePoints exceptionMarker) body) with
  | none => .error .invalid
  | some markerAt => scratchFrom frames text body markerAt

/-! ## Where the decoder looks -/

section Looks

variable {marker : String} {other prose payload s : Text} {text : Value → Text} {frames p : Nat}

/-- The text of a body before the line of its payload. -/
def beforePayload (marker : String) (prose : Text) : Text :=
  codePoints marker ++ (codePoints "\n\n" ++ (prose ++ jsonFence))

/-- The text after the line of the payload. -/
def afterPayload : Text := fence ++ codePoints "\n"

theorem bodyOf_eq (marker : String) (prose payload : Text) :
    bodyOf marker prose payload =
      beforePayload marker prose ++ .char '\n' :: (payload ++ .char '\n' :: afterPayload) := by
  have hline : codePoints "\n" = [.char '\n'] := rfl
  simp only [bodyOf, beforePayload, afterPayload, hline, List.append_assoc, List.cons_append,
    List.nil_append]

/-- The marker of the other kind is found in the payload, when it is there. -/
theorem find_other (hpat : Quotable other) (hbefore : ¬ other <:+: beforePayload marker prose)
    (hafter : ¬ other <:+: afterPayload) :
    find other (bodyOf marker prose payload) =
        (find other (payload ++ .char '\n' :: afterPayload)).map
          ((beforePayload marker prose).length + 1 + ·) ∧
      (find other (payload ++ .char '\n' :: afterPayload) = none ↔ ¬ other <:+: payload) := by
  have hline : .char '\n' ∉ other := fun hmem => (hpat.plain _ hmem).2.2.1 rfl
  refine ⟨by rw [bodyOf_eq, Python.find_cut hline hbefore], ?_⟩
  rw [find_eq_none, not_iff_not]
  constructor
  · intro h
    obtain ⟨rest, hocc⟩ := infix_iff_occurs.mp h
    rcases Python.occurs_cut hline hocc with ⟨r, hinside, -⟩ | htail
    · exact infix_iff_occurs.mpr ⟨r, hinside⟩
    · exact absurd (infix_iff_occurs.mpr ⟨rest, htail⟩) hafter
  · exact List.infix_append_of_infix_left

theorem body_stop_eq (marker : String) (prose payload : Text) :
    rfind fence (bodyOf marker prose payload) =
      some ((beforePayload marker prose).length + 1 + (payload.length + 1)) := by
  have hone : (codePoints "\n").length = 1 := rfl
  rw [body_stop, beforePayload]
  simp only [List.length_append, hone, Option.some.injEq]
  omega

theorem body_tail_eq (marker : String) (prose payload : Text) :
    (bodyOf marker prose payload).drop
      ((beforePayload marker prose).length + 1 + (payload.length + 1) + fence.length) =
      codePoints "\n" := by
  have hone : (codePoints "\n").length = 1 := rfl
  rw [← body_tail marker prose payload, beforePayload]
  congr 1
  simp only [List.length_append, hone]
  omega

/-- What the decoder reads when it starts in the payload. -/
theorem slice_payload {k : Nat} {r : Text}
    (h : (payload ++ .char '\n' :: afterPayload).drop k = r ++ .char '\n' :: afterPayload) :
    slice (bodyOf marker prose payload) ((beforePayload marker prose).length + 1 + k)
      ((beforePayload marker prose).length + 1 + (payload.length + 1)) =
        r ++ [CodePoint.char '\n'] := by
  have hlength := congrArg List.length h
  rw [List.length_drop, List.length_append, List.length_append, List.length_cons] at hlength
  have hsplit : ∀ s : Text, s ++ .char '\n' :: afterPayload =
      (s ++ [CodePoint.char '\n']) ++ afterPayload := by simp
  have hdrop : (payload ++ [CodePoint.char '\n']).drop k = r ++ [CodePoint.char '\n'] := by
    rw [hsplit, hsplit, List.drop_append_of_le_length (by simp; omega)] at h
    exact (List.append_inj h (by simp; omega)).1
  have hbody : bodyOf marker prose payload =
      (beforePayload marker prose ++ [CodePoint.char '\n']) ++
        ((payload ++ [CodePoint.char '\n']) ++ afterPayload) := by
    rw [bodyOf_eq]
    simp
  have hfirst : (beforePayload marker prose).length + 1 =
      (beforePayload marker prose ++ [CodePoint.char '\n']).length := by simp
  have hsecond : payload.length + 1 = (payload ++ [CodePoint.char '\n']).length := by simp
  rw [slice, hbody, hfirst, hsecond, List.take_length_add_append, List.take_left,
    ← List.drop_drop, List.drop_left, hdrop]

/-- Nothing but the line break after a brace is stripped from the end. -/
theorem stripText_line (y : Text) :
    stripText ((y ++ [CodePoint.char '\x7d']) ++ [CodePoint.char '\n']) =
      (y ++ [CodePoint.char '\x7d']).dropWhile CodePoint.isSpace := by
  have hspace : (CodePoint.char '\n').isSpace = true := by decide
  have hclose : (CodePoint.char '\x7d').isSpace = false := by decide
  have hdrop : ∀ t : Text, (y ++ .char '\x7d' :: t).dropWhile CodePoint.isSpace =
      y.dropWhile CodePoint.isSpace ++ .char '\x7d' :: t := by
    intro t
    rw [List.dropWhile_append]
    split
    case isTrue h => simp [List.isEmpty_iff.mp h, hclose]
    case isFalse => rfl
  have hsplit : (y ++ [CodePoint.char '\x7d']) ++ [CodePoint.char '\n'] =
      y ++ [CodePoint.char '\x7d', CodePoint.char '\n'] := by simp
  rw [stripText, hsplit, hdrop, hdrop]
  simp [hspace, hclose]

theorem jsonFence_quotable : Quotable jsonFence where
  long := by decide
  head := .inr rfl
  plain := by
    have hall : jsonFence = [.char '\x60', .char '\x60', .char '\x60', .char 'j', .char 's',
      .char 'o', .char 'n'] := rfl
    rw [hall]
    decide

/-- The rest of a model after a pattern in one of its strings. -/
theorem rest_of_string {repr : Double → Text} {entry : Text × Value}
    {entries : List (Text × Value)} {r : Text}
    (hregular : Python.Json.Regular (.dict (entry :: entries)))
    (hkeys : ∀ k ∈ keys (.dict (entry :: entries)), ¬ jsonFence <:+: k)
    (h : Occurs jsonFence (write repr 0 (.dict (entry :: entries))) r) :
    ∃ after t y : Text, r = after.flatMap Python.Json.escape ++ .char '"' :: t ∧ EndsLine t ∧
      r = y ++ [CodePoint.char '\x7d'] := by
  have hlies := jsonFence_quotable.lies repr (.dict (entry :: entries)) 0 (t := []) hregular
    (.inr ⟨_, _, rfl⟩) (by rwa [List.append_nil])
  rcases hlies with ⟨s, -, after, t, -, hend, hr⟩ | ⟨k, hk, hinfix⟩ | hnil
  · obtain ⟨w, hw⟩ := write_model repr entry entries
    obtain ⟨before, hbefore⟩ := h
    rw [hw] at hbefore
    refine ⟨after, t, r.dropLast, hr, hend, ?_⟩
    have hne : r ≠ [] := by
      rw [hr]
      simp
    have hlast := congrArg (List.getLast? ·) hbefore
    simp only [List.getLast?_append, List.getLast?_singleton, Option.some_or,
      List.getLast?_eq_some_getLast hne] at hlast
    rw [Option.some.inj hlast]
    exact (List.dropLast_append_getLast hne).symm
  · exact absurd hinfix (hkeys k hk)
  · have hle := Python.Json.occurs_length hnil
    exact absurd hle (by decide)

/-- **A block that begins in the payload is never read.** -/
theorem scratchFrom_payload {repr : Double → Text} {entry : Text × Value}
    {entries : List (Text × Value)} (hregular : Python.Json.Regular (.dict (entry :: entries)))
    (hkeys : ∀ k ∈ keys (.dict (entry :: entries)), ¬ jsonFence <:+: k) :
    scratchFrom frames text
        (bodyOf marker prose (write repr 0 (.dict (entry :: entries))))
        ((beforePayload marker prose).length + 1 + p) ≠ .ok s := by
  intro h
  have hrest := fun r (hocc : Occurs jsonFence (write repr 0 (.dict (entry :: entries))) r) =>
    rest_of_string hregular hkeys hocc
  generalize write repr 0 (.dict (entry :: entries)) = payload at h hrest
  unfold scratchFrom at h
  split at h
  case h_2 => cases h
  case h_1 start stop hstart hstop =>
    obtain rfl := Option.some.inj ((body_stop_eq marker prose payload).symm.trans hstop)
    unfold findFrom at hstart
    split at hstart
    · cases hstart
    obtain ⟨q, hq, rfl⟩ := Option.map_eq_some_iff.mp hstart
    have hbody : (bodyOf marker prose payload).drop
        ((beforePayload marker prose).length + 1 + p) =
        (payload ++ .char '\n' :: afterPayload).drop p := by
      rw [bodyOf_eq, Nat.add_assoc, ← List.drop_drop, List.drop_left, Nat.add_comm 1 p,
        List.drop_succ_cons]
    rw [hbody] at hq
    have hocc := occurs_of_prefix (find_some hq).1
    rw [List.drop_drop] at hocc
    rcases Python.occurs_cut (by decide) hocc.of_drop with ⟨r, hinside, hdrop⟩ | hafter
    · obtain ⟨after, t, y, hr, hend, hy⟩ := hrest r hinside
      have hslice : slice (bodyOf marker prose payload) _ _ = _ := slice_payload hdrop
      rw [show (beforePayload marker prose).length + 1 + (p + (q + jsonFence.length)) =
        (beforePayload marker prose).length + 1 + p + q + jsonFence.length by omega] at hslice
      have hblank : ¬ stripText (codePoints "\n") ≠ [] := by decide
      rw [body_tail_eq, if_neg hblank, hslice, hy, stripText_line, ← hy, hr] at h
      have hnever := fun v (h : loads frames _ = .ok v) => loads_rest after hend v h
      split at h
      · cases h
      · rename_i hloads
        exact hnever _ hloads
    · have hle := Python.Json.occurs_length hafter
      exact absurd hle (by decide)

/-- The block of the body itself is read. -/
theorem scratchFrom_zero {w : Text} {v : Value}
    (hcalm : calm false (codePoints marker ++ (codePoints "\n\n" ++ prose)) = some false)
    (hloads : loads frames (.char '\x7b' :: w ++ [CodePoint.char '\x7d']) = .ok v) :
    scratchFrom frames text (bodyOf marker prose (.char '\x7b' :: w ++ [CodePoint.char '\x7d'])) 0 =
      candidate text v := by
  have hblank : ¬ stripText (codePoints "\n") ≠ [] := by decide
  simp only [scratchFrom, body_block hcalm, body_stop, body_tail, if_neg hblank, body_slice,
    stripText_block, hloads]

end Looks

/-! ## The law -/

/-- A string of the value contains the marker. -/
def Mentions (marker : String) (v : Value) : Prop := ∃ s ∈ strings v, codePoints marker <:+: s

instance (marker : String) (v : Value) : Decidable (Mentions marker v) :=
  decidable_of_iff ((strings v).any fun s => (find (codePoints marker) s).isSome) (by
    simp only [List.any_eq_true, Mentions]
    refine exists_congr fun s => and_congr_right fun _ => ?_
    rw [← not_iff_not, ← find_eq_none, Bool.not_eq_true, Option.isSome_eq_false_iff,
      Option.isNone_iff_eq_none])

section Law

variable {L : Leaves} {α : Type} {c : Codec α} {a : α} {marker other : String}
  {prose body s : Text} {text : Value → Text} {frames : Nat}

/-- What the bodies of one kind have in common: a text before the payload without the marker of
the other kind, and field names without it. -/
structure Bodies (c : Codec α) (a : α) (marker other : String) (prose : Text) : Prop where
  model : ∃ entry entries, c.dump a = .dict (entry :: entries)
  calm : calm false (codePoints marker ++ (codePoints "\n\n" ++ prose)) = some false
  quotable : Quotable (codePoints other)
  before : ¬ codePoints other <:+: beforePayload marker prose
  after : ¬ codePoints other <:+: afterPayload
  names : ∀ name ∈ c.names, ¬ codePoints other <:+: codePoints name ∧
    ¬ jsonFence <:+: codePoints name

theorem Bodies.keys_free (h : Bodies c a marker other prose) :
    ∀ k ∈ keys (c.dump a), ¬ codePoints other <:+: k ∧ ¬ jsonFence <:+: k := by
  intro k hk
  obtain ⟨name, hname, rfl⟩ := List.mem_map.mp (c.keys_dump a k hk)
  exact h.names name hname

/-- The marker of the other kind is in the text of a record exactly when a string has it. -/
theorem Bodies.mentions (h : Bodies c a marker other prose) (repr : Double → Text) :
    codePoints other <:+: write repr 0 (c.dump a) ↔ Mentions other (c.dump a) := by
  constructor
  · intro hinfix
    obtain ⟨rest, hocc⟩ := infix_iff_occurs.mp hinfix
    obtain ⟨entry, entries, hdump⟩ := h.model
    have hlies := h.quotable.lies repr (c.dump a) 0 (t := []) (c.regular a)
      (.inr ⟨entry, entries, hdump⟩) (by rwa [List.append_nil])
    rcases hlies with ⟨s, hs, after, t, hin, -, -⟩ | ⟨k, hk, hin⟩ | hnil
    · exact ⟨s, hs, infix_iff_occurs.mpr ⟨after, hin⟩⟩
    · exact absurd hin (h.keys_free k hk).1
    · have hle := Python.Json.occurs_length hnil
      have hlong := h.quotable.long
      rw [List.length_nil] at hle
      omega
  · rintro ⟨s, hs, hinfix⟩
    exact infix_write (fun x hx => (h.quotable.plain x hx).1) repr (c.dump a) 0 hs hinfix

theorem later_left (o : Option Nat) : later (some 0) o = some (o.getD 0) := by
  cases o with
  | none => rfl
  | some n => exact congrArg some (Nat.zero_max n)

theorem later_right (o : Option Nat) : later o (some 0) = some (o.getD 0) := by
  cases o with
  | none => rfl
  | some n => exact congrArg some (Nat.max_zero n)

theorem Bodies.find_other (h : Bodies c a marker other prose) (payload : Text) :
    find (codePoints other) (bodyOf marker prose payload) =
        (find (codePoints other) (payload ++ .char '\n' :: afterPayload)).map
          ((beforePayload marker prose).length + 1 + ·) ∧
      (find (codePoints other) (payload ++ .char '\n' :: afterPayload) = none ↔
        ¬ codePoints other <:+: payload) :=
  Record.find_other h.quotable h.before h.after

/-- A record that mentions the other marker hides its block. -/
theorem Bodies.hidden (h : Bodies c a marker other prose)
    (hmentions : Mentions other (c.dump a)) (repr : Double → Text) :
    let body := bodyOf marker prose (write repr 0 (c.dump a))
    scratchFrom frames text body ((find (codePoints other) body).getD 0) ≠ .ok s := by
  obtain ⟨hfind, hnone⟩ := h.find_other (write repr 0 (c.dump a))
  have hinfix := (h.mentions repr).mpr hmentions
  cases hp : find (codePoints other) (write repr 0 (c.dump a) ++ .char '\n' :: afterPayload) with
  | none => exact absurd hinfix (hnone.mp hp)
  | some p =>
    obtain ⟨entry, entries, hdump⟩ := h.model
    have hregular := c.regular a
    have hkeys := fun k hk => (h.keys_free k hk).2
    rw [hp, Option.map_some] at hfind
    simp only [hfind, Option.getD_some]
    rw [hdump] at hregular hkeys ⊢
    exact scratchFrom_payload hregular hkeys

/-- **The decoder reads a record exactly when it does not mention the other marker.** -/
theorem Bodies.read_iff (h : Bodies c a marker other prose) (hframes : c.levels ≤ frames)
    {payload : Text} (htext : dumps L.floatText (c.dump a) = .ok payload)
    (hscratch : candidate text (c.dump a) = .ok s) :
    scratchFrom frames text (bodyOf marker prose payload)
        ((find (codePoints other) (bodyOf marker prose payload)).getD 0) = .ok s ↔
      ¬ Mentions other (c.dump a) := by
  have hloads := Python.Json.loads_dumps (c.regular a) ((c.depth_le a).trans hframes) htext
  unfold dumps at htext
  split at htext
  case isFalse => cases htext
  case isTrue =>
    obtain rfl := Except.ok.inj htext
    constructor
    · intro hread hmentions
      exact h.hidden hmentions L.floatText hread
    · intro hmentions
      obtain ⟨hfind, hnone⟩ := h.find_other (write L.floatText 0 (c.dump a))
      have hfree := hnone.mpr fun hinfix => hmentions ((h.mentions L.floatText).mp hinfix)
      rw [hfree, Option.map_none] at hfind
      rw [hfind, Option.getD_none]
      obtain ⟨entry, entries, hdump⟩ := h.model
      obtain ⟨w, hw⟩ := write_model L.floatText entry entries
      rw [← hdump] at hw
      rw [hw] at hloads ⊢
      rw [scratchFrom_zero h.calm hloads, hscratch]

/-! ## The bodies of cards and exceptions -/

theorem cardMarker_quotable : Quotable (codePoints cardMarker) where
  long := by decide
  head := .inl rfl
  plain := by
    rw [cardMarker, codePoints_of rfl]
    decide

theorem exceptionMarker_quotable : Quotable (codePoints exceptionMarker) where
  long := by decide
  head := .inl rfl
  plain := by
    rw [exceptionMarker, codePoints_of rfl]
    decide

theorem cardRules_free : ¬ codePoints exceptionMarker <:+: cardRules ++ jsonFence := by
  rw [← find_eq_none, cardRules, exceptionMarker, jsonFence]
  repeat rw [codePoints_of rfl]
  decide +kernel

theorem cardProse_free (card : CardRecord L) :
    ¬ codePoints exceptionMarker <:+: beforePayload cardMarker (cardProse card) := by
  intro hinfix
  obtain ⟨rest, hocc⟩ := infix_iff_occurs.mp hinfix
  have hhead : ∃ tail, codePoints exceptionMarker = .char '[' :: tail := ⟨_, rfl⟩
  have hstage : .char '[' ∉ codePoints card.stage.value := by
    cases card.stage <;> decide
  have hmode : .char '[' ∉ codePoints card.mode.value := by
    cases card.mode <;> decide
  have hiteration : .char '[' ∉ Python.Json.intText card.iteration.val :=
    Python.Json.intText_plain _ rfl (by decide)
  have hsplit : beforePayload cardMarker (cardProse card) =
      codePoints cardMarker ++ .char '\n' :: (codePoints "\n执行阶段：`" ++
        (codePoints card.stage.value ++ (codePoints "`，模式：`" ++
          (codePoints card.mode.value ++ (codePoints "`，迭代：`" ++
            (Python.Json.intText card.iteration.val ++ (cardRules ++ jsonFence))))))) := by
    simp only [beforePayload, cardProse, List.append_assoc]
    rfl
  rw [hsplit] at hocc
  rcases exceptionMarker_quotable.cut (.inr (.inl rfl)) hocc with ⟨r, hinside, -⟩ | hrest
  · exact absurd (Python.Json.occurs_length hinside) (by decide)
  · obtain ⟨tail, htail⟩ := hhead
    rw [htail] at hrest
    have hrules := Python.occurs_skip hiteration (Python.occurs_skip (by decide)
      (Python.occurs_skip hmode (Python.occurs_skip (by decide)
        (Python.occurs_skip hstage (Python.occurs_skip (by decide) hrest)))))
    rw [← htail] at hrules
    exact cardRules_free (infix_iff_occurs.mpr ⟨rest, hrules⟩)

theorem exceptionProse_free :
    ¬ codePoints cardMarker <:+: beforePayload exceptionMarker exceptionProse := by
  rw [← find_eq_none, beforePayload, exceptionMarker, cardMarker, exceptionProse, jsonFence,
    codePoints_of rfl, codePoints_of rfl, codePoints_of rfl, codePoints_of rfl, codePoints_of rfl]
  decide +kernel

/-- No name of a field has the first character of a marker or of the fence. -/
theorem names_plain :
    ∀ name ∈ (cardRecord sampleLeaves).names ++ (exceptionCardRecord sampleLeaves).names,
      .char '[' ∉ codePoints name ∧ .char '\x60' ∉ codePoints name := by
  have hbytes : ∀ name ∈
      (cardRecord sampleLeaves).names ++ (exceptionCardRecord sampleLeaves).names,
      (name.toByteArray.data.toList.all fun b => b != 91 && b != 96) = true := by
    decide +kernel
  intro name hname
  have hfree := List.all_eq_true.mp (hbytes name hname)
  constructor
  · intro h
    exact absurd (hfree '['.val.toUInt8 (Python.byte_of_mem rfl h)) (by decide)
  · intro h
    exact absurd (hfree '\x60'.val.toUInt8 (Python.byte_of_mem rfl h)) (by decide)

theorem name_free {name : String} {marker tail : Text} (hmarker : marker = .char '[' :: tail)
    (hname : name ∈ (cardRecord sampleLeaves).names ++ (exceptionCardRecord sampleLeaves).names) :
    ¬ marker <:+: codePoints name ∧ ¬ jsonFence <:+: codePoints name := by
  obtain ⟨hbracket, hquote⟩ := names_plain name hname
  constructor
  · intro h
    exact hbracket (h.subset (by simp [hmarker]))
  · intro h
    have hfirst : .char '\x60' ∈ jsonFence := List.mem_cons_self
    exact hquote (h.subset hfirst)

theorem cardBodies (card : CardRecord L) :
    Bodies (cardRecord L) card cardMarker exceptionMarker (cardProse card) where
  model := ⟨_, _, rfl⟩
  calm := cardProse_calm card
  quotable := exceptionMarker_quotable
  before := cardProse_free card
  after := by decide
  names name hname := name_free rfl (List.mem_append_left _ hname)

theorem exceptionBodies (record : ExceptionCardRecord L) :
    Bodies (exceptionCardRecord L) record exceptionMarker cardMarker exceptionProse where
  model := ⟨_, _, rfl⟩
  calm := exceptionMarker_calm
  quotable := cardMarker_quotable
  before := exceptionProse_free
  after := by decide
  names name hname := name_free rfl (List.mem_append_right _ hname)

theorem find_marker (marker : String) (prose payload : Text) :
    find (codePoints marker) (bodyOf marker prose payload) = some 0 :=
  find_of_prefix (List.prefix_append _ _)

theorem workerScratchDir_later {body : Text}
    (h : later (find (codePoints cardMarker) body) (find (codePoints exceptionMarker) body) =
      some p) :
    workerScratchDir frames text (some body) = scratchFrom frames text body p := by
  simp only [workerScratchDir, Option.getD_some, h]

theorem workerScratchDir_card (card : CardRecord L) (payload : Text) :
    workerScratchDir frames text (some (bodyOf cardMarker (cardProse card) payload)) =
      scratchFrom frames text (bodyOf cardMarker (cardProse card) payload)
        ((find (codePoints exceptionMarker)
          (bodyOf cardMarker (cardProse card) payload)).getD 0) :=
  workerScratchDir_later (by rw [find_marker, later_left])

theorem workerScratchDir_exception (payload : Text) :
    workerScratchDir frames text (some (bodyOf exceptionMarker exceptionProse payload)) =
      scratchFrom frames text (bodyOf exceptionMarker exceptionProse payload)
        ((find (codePoints cardMarker)
          (bodyOf exceptionMarker exceptionProse payload)).getD 0) :=
  workerScratchDir_later (by rw [find_marker, later_right])

/-- **When the spawn of a worker finds the scratch directory of its card**: exactly when no
string of the record contains the marker of the other kind. -/
theorem workerScratchDir_iff (hframes : 5 ≤ frames) :
    (∀ (card : CardRecord L) (body : Text), renderCardBody L card = .ok body →
      (workerScratchDir frames text (some body) = .ok (codePoints card.scratchDir.val.val) ↔
        ¬ Mentions exceptionMarker ((cardRecord L).dump card))) ∧
    ∀ (record : ExceptionCardRecord L) (body : Text), renderExceptionBody L record = .ok body →
      (workerScratchDir frames text (some body) = .ok (codePoints record.scratchDir.val.val) ↔
        ¬ Mentions cardMarker ((exceptionCardRecord L).dump record)) := by
  have hrendered : ∀ {v : Value} {f : Text → Text} {body : Text},
      (dumps L.floatText v).map f = .ok body →
        ∃ payload, dumps L.floatText v = .ok payload ∧ body = f payload := by
    intro v f body h
    cases hdumps : dumps L.floatText v with
    | error e =>
      rw [hdumps] at h
      cases h
    | ok payload =>
      rw [hdumps] at h
      exact ⟨payload, rfl, (Except.ok.inj h).symm⟩
  constructor
  · intro card body hbody
    obtain ⟨payload, hdumps, rfl⟩ := hrendered hbody
    rw [workerScratchDir_card]
    exact (cardBodies card).read_iff hframes hdumps rfl
  · intro record body hbody
    obtain ⟨payload, hdumps, rfl⟩ := hrendered hbody
    rw [workerScratchDir_exception]
    exact (exceptionBodies record).read_iff (le_trans (show 4 ≤ 5 by decide) hframes) hdumps rfl

end Law

/-! ## Samples -/

theorem workerScratchDir_iff_sample :
    ∃ body, renderCardBody sampleLeaves sampleCard = .ok body ∧
      workerScratchDir 1000 (fun _ => []) (some body) = .ok (codePoints "/opt/data/scratch/a") :=
  have hwritten := renderCardBody_written (c := sampleCard) (by decide +kernel)
  ⟨_, hwritten, ((workerScratchDir_iff (by decide)).1 sampleCard _ hwritten).mpr
    (by decide +kernel)⟩

/-- An exception about a card whose body could not be parsed. -/
def sampleException : ExceptionCardRecord sampleLeaves where
  run := sampleRun
  parentCardId := ⟨"t_2", by decide +kernel⟩
  idempotencyKey := ⟨"exception", by decide +kernel⟩
  reason := ⟨"missing [hollysys-controller-card:v4]", by decide +kernel⟩
  scratchDir := ⟨⟨"/opt/data/scratch/b", by decide +kernel⟩, by decide +kernel⟩

/-- The worker of the exception has no scratch directory. -/
theorem sampleException_hidden :
    ∃ body, renderExceptionBody sampleLeaves sampleException = .ok body ∧
      ∀ s, workerScratchDir 1000 (fun _ => []) (some body) ≠ .ok s := by
  have hwritten : dumps sampleLeaves.floatText
      ((exceptionCardRecord sampleLeaves).dump sampleException) = .ok _ :=
    if_pos (by decide +kernel)
  refine ⟨_, by rw [renderExceptionBody, hwritten]; rfl, fun s => ?_⟩
  have hreason : Mentions cardMarker ((exceptionCardRecord sampleLeaves).dump sampleException) :=
    ⟨codePoints sampleException.reason.val, List.mem_of_getElem? (i := 36) rfl,
      codePoints "missing ", [], by decide +kernel⟩
  rw [workerScratchDir_exception]
  exact (exceptionBodies sampleException).hidden hreason sampleLeaves.floatText

end HollysysController.Record
