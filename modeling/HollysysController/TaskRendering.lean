import HollysysController.TasksGrammar

/-! # Written tasks

The plainest text of a task, and that the validator reads documents of such texts back. -/

namespace HollysysController

open Python

variable {W : Words}

/-- A task as it is written: the digits of its id and the text in its brackets. -/
structure WrittenTask where
  digits : List Char
  brackets : List Char
  digits_long : 3 ≤ digits.length
  digits_digit : ∀ d ∈ digits, d.isDigit = true
  brackets_plain : ∀ c ∈ brackets, c ≠ ']' ∧ c ≠ '\n'

namespace WrittenTask

variable (t : WrittenTask)

def id : String := String.ofList ('T' :: t.digits)

def headerLine : List Char := "- [ ] T".toList ++ t.digits

def actionLine : List Char := "  - 动作：modify".toList

def dependencyLine : List Char := "  - depends_on：[".toList ++ (t.brackets ++ "]\n".toList)

def text : List Char := t.headerLine ++ '\n' :: (actionLine ++ '\n' :: t.dependencyLine)

def block : TaskBlock := ⟨t.id, t.text⟩

theorem digit_not_newline {c : Char} (h : c.isDigit = true) : c ≠ '\n' := by
  rintro rfl
  revert h
  decide

theorem header_line_plain : ∀ c ∈ t.headerLine, c ≠ '\n' := by
  intro c hc
  rcases List.mem_append.mp hc with hc | hc
  · exact (by simp : ∀ c ∈ "- [ ] T".toList, c ≠ '\n') c hc
  · exact digit_not_newline (t.digits_digit c hc)

/-- The header is found at the start of the line. -/
theorem header_match {prev : Option Char} (hprev : prev = none ∨ prev = some '\n')
    (rest : List Char) :
    matchAt W taskHeader prev (t.headerLine ++ '\n' :: rest) =
      some { text := t.headerLine, group := 'T' :: t.digits, inside := false } := by
  have hend : matchAt W [.many 0 (· != '\n'), .lineEnd] (before (some 'T') t.digits)
      ('\n' :: rest) = some {} := by
    simp [matchAt, greedy]
  have hlast : W.at? (before (some 'T') t.digits) = true :=
    TaskId.before ⟨t.digits, rfl, t.digits_long, t.digits_digit⟩ none
  have hnewline : W.word '\n' = false := W.space '\n' (by decide)
  have hafter : matchAt W [.closed, .boundary, .many 0 (· != '\n'), .lineEnd]
      (before (some 'T') t.digits) ('\n' :: rest) = some { inside := true } := by
    have hbound : W.at? (before (some 'T') t.digits) ≠ W.at? ('\n' :: rest).head? := by
      simp [hlast, hnewline]
    rw [matchAt, matchAt_boundary hbound, hend]
    rfl
  have hdigits : matchAt W (.many 3 Char.isDigit :: [.closed, .boundary, .many 0 (· != '\n'),
      .lineEnd]) (some 'T') (t.digits ++ '\n' :: rest) =
        some { text := t.digits, group := t.digits, inside := true } := by
    have hstop : ∀ c, ('\n' :: rest).head? = some c → c.isDigit = false := by
      rintro c ⟨⟩
      decide
    rw [matchAt_many, greedy_whole t.digits_digit hstop t.digits_long hafter,
      Caught.append_inside rfl]
    simp
  have hid : matchAt W (.opened :: taskIdItems ++ [Item.closed, .boundary, .many 0 (· != '\n'),
      .lineEnd]) (some ' ') ('T' :: t.digits ++ '\n' :: rest) =
        some { text := 'T' :: t.digits, group := 'T' :: t.digits, inside := false } := by
    show (matchAt W (.one (· == 'T') :: .many 3 Char.isDigit :: [.closed, .boundary,
      .many 0 (· != '\n'), .lineEnd]) (some ' ') ('T' :: (t.digits ++ '\n' :: rest))).map _ = _
    rw [matchAt_one rfl, hdigits]
    rfl
  show matchAt W (.lineStart :: (literal "- [ ] " ++ (.opened :: taskIdItems ++ [Item.closed,
    .boundary, .many 0 (· != '\n'), .lineEnd]))) prev
    ("- [ ] ".toList ++ ('T' :: t.digits ++ '\n' :: rest)) = _
  rw [matchAt_lineStart hprev, literal, matchAt_literal]
  show (matchAt W _ (some ' ') _).map _ = _
  rw [hid, Option.map_some, Caught.append_outside rfl]
  rfl

/-- The words before the bracketed text, as they are matched one after the other. -/
theorem dependency_words (rest : List Char) :
    "  - depends_on：[".toList ++ rest =
      "  ".toList ++ ("- depends_on".toList ++ ("：[".toList ++ rest)) := by
  simp

theorem dependency_name (prev : Option Char) : before prev "- depends_on".toList = some 'n' := by
  simp [before]

/-- What stands before the bracketed text. -/
theorem dependency_front {items : List Item} {rest : List Char} {m : Caught}
    (h : matchAt W items (some '[') rest = some m) (hm : m.inside = false) :
    matchAt W (.lineStart :: .many 1 isSpace :: (literal "- depends_on" ++
        (colonItem :: .many 0 isSpace :: (literal "[" ++ items)))) (some '\n')
        ("  - depends_on：[".toList ++ rest) =
      some { m with text := "  - depends_on：[".toList ++ m.text } := by
  have hcolon : matchAt W (colonItem :: .many 0 isSpace :: (literal "[" ++ items)) (some 'n')
      ("：[".toList ++ rest) = some { m with text := "：[".toList ++ m.text } := by
    simp [colonItem, matchAt, greedy, literal, isSpace, h, Caught.cons, hm]
  have hname : matchAt W (literal "- depends_on" ++
      (colonItem :: .many 0 isSpace :: (literal "[" ++ items))) (some ' ')
        ("- depends_on".toList ++ ("：[".toList ++ rest)) =
          some { m with text := "- depends_on".toList ++ ("：[".toList ++ m.text) } := by
    rw [literal, matchAt_literal, dependency_name, hcolon, Option.map_some,
      Caught.append_outside (by exact hm)]
  have hspaces : ∀ d ∈ "  ".toList, isSpace d = true := by simp [isSpace]
  have hstop : ∀ c, ("- depends_on".toList ++ ("：[".toList ++ rest)).head? = some c →
      isSpace c = false := by
    simp [isSpace]
  rw [matchAt_lineStart (.inr rfl), matchAt_many]
  simp only [dependency_words]
  rw [greedy_whole hspaces hstop (by decide) hname, Caught.append_outside (by exact hm)]

theorem dependency_match :
    matchAt W taskDependency (some '\n') t.dependencyLine =
      some { text := t.dependencyLine, group := t.brackets, inside := false } := by
  have hend : matchAt W (literal "]" ++ [Item.many 0 isSpace, .lineEnd])
      (before (some '[') t.brackets) "]\n".toList = some { text := "]\n".toList } := by
    simp [matchAt, literal, greedy, isSpace, Caught.cons]
  have hstop : ∀ c, "]\n".toList.head? = some c → (c != ']') = false := by
    rintro c ⟨⟩
    decide
  have hplain : ∀ c ∈ t.brackets, (c != ']') = true := fun c hc => by
    simpa using (t.brackets_plain c hc).1
  have hbrackets : matchAt W ([Item.opened, .many 0 (· != ']'), .closed] ++ literal "]" ++
      [Item.many 0 isSpace, .lineEnd]) (some '[') (t.brackets ++ "]\n".toList) =
        some { text := t.brackets ++ "]\n".toList, group := t.brackets, inside := false } := by
    have hclosed : matchAt W (.closed :: (literal "]" ++ [Item.many 0 isSpace, .lineEnd]))
        (before (some '[') t.brackets) "]\n".toList =
          some { text := "]\n".toList, group := [], inside := true } := by
      rw [matchAt, hend]
      rfl
    show (matchAt W
      (.many 0 (· != ']') :: .closed :: (literal "]" ++ [Item.many 0 isSpace, .lineEnd]))
      (some '[') (t.brackets ++ "]\n".toList)).map _ = _
    rw [matchAt_many, greedy_whole hplain hstop (Nat.zero_le _) hclosed, Caught.append_inside rfl]
    simp
  exact dependency_front hbrackets rfl

theorem dependencyLine_texts (pos : Nat) :
    scan W taskDependency 0 pos (some '\n') t.dependencyLine =
      [⟨pos, { text := t.dependencyLine, group := t.brackets, inside := false }⟩] := by
  have hne : t.dependencyLine ≠ [] := List.cons_ne_nil _ _
  have hscan := @scan_match W taskDependency pos (some '\n') t.dependencyLine [] _ hne
    (by rw [List.append_nil]; exact t.dependency_match (W := W)) rfl
  rw [List.append_nil] at hscan
  rw [hscan]
  rfl

theorem dependency_not_space {prev : Option Char} {c : Char} (hc : isSpace c = false)
    (rest : List Char) : matchAt W taskDependency prev (c :: rest) = none := by
  have hspaces : ∀ items, greedy isSpace (matchAt W items) 1 prev (c :: rest) = none := by
    intro items
    simp [greedy, hc]
  show (if prev = none ∨ prev = some '\n' then greedy isSpace (matchAt W _) 1 prev (c :: rest)
    else none) = none
  rw [hspaces, ite_self]

/-- Giving a space back does not help what needs a hyphen. -/
theorem greedy_indent {after : Option Char → List Char → Option Caught} {l : List Char}
    (hspace : ∀ prev u, after prev (' ' :: u) = none) (hword : ∀ prev, after prev ('-' :: l) = none) :
    greedy isSpace after 1 (some '\n') (' ' :: ' ' :: '-' :: l) = none := by
  have hs : isSpace ' ' = true := by decide
  have hstop : isSpace '-' = false := by decide
  simp [greedy, hs, hstop, hspace, hword]

theorem dependency_not_action (rest : List Char) :
    matchAt W taskDependency (some '\n') (actionLine ++ rest) = none := by
  have hline : actionLine ++ rest = ' ' :: ' ' :: '-' :: (" 动作：modify".toList ++ rest) := by
    unfold actionLine
    simp
  have hword : ∀ items prev, matchAt W (literal "- depends_on" ++ items) prev
      ('-' :: (" 动作：modify".toList ++ rest)) = none := by
    simp [literal, matchAt]
  have hspace : ∀ items prev (u : List Char),
      matchAt W (literal "- depends_on" ++ items) prev (' ' :: u) = none := by
    simp [literal, matchAt]
  have hitems : taskDependency = .lineStart :: .many 1 isSpace :: (literal "- depends_on" ++
      (colonItem :: .many 0 isSpace :: (literal "[" ++
        ([Item.opened, .many 0 (· != ']'), .closed] ++ literal "]" ++
          [Item.many 0 isSpace, .lineEnd])))) := by
    simp [taskDependency]
  rw [hline, hitems, matchAt_lineStart (.inr rfl), matchAt_many]
  exact greedy_indent (hspace _) (hword _)

theorem actionLine_cons : actionLine = ' ' :: " - 动作：modify".toList := by
  unfold actionLine
  simp

/-- The bracketed text is the only one that is found. -/
theorem dependencyTexts_block : t.block.dependencyTexts W = [Python.strip t.brackets] := by
  have hline : t.headerLine = '-' :: (" [ ] T".toList ++ t.digits) := by
    unfold headerLine
    simp
  have hplain := t.header_line_plain
  have hnone := dependency_not_action (W := W) ('\n' :: t.dependencyLine)
  rw [hline] at hplain
  rw [actionLine_cons] at hnone
  show (scan W taskDependency 0 0 none
    (t.headerLine ++ '\n' :: (actionLine ++ '\n' :: t.dependencyLine))).map _ = _
  rw [hline, scan_line rfl (dependency_not_space (by decide) _) hplain, actionLine_cons,
    scan_line rfl hnone (by simp), dependencyLine_texts]
  rfl

/-! ## Documents of written tasks -/

theorem header_not_space {c : Char} (hc : c ≠ '-') (prev : Option Char) (rest : List Char) :
    matchAt W taskHeader prev (c :: rest) = none := by
  have hhyphen : ∀ items, matchAt W (.one (· == '-') :: items) prev (c :: rest) = none := by
    intro items
    simp [matchAt, hc]
  show (if prev = none ∨ prev = some '\n' then matchAt W (.one (· == '-') :: _) prev (c :: rest)
    else none) = none
  rw [hhyphen, ite_self]

def header : Caught := { text := t.headerLine, group := 'T' :: t.digits, inside := false }

/-- A block has one header, at its start. -/
theorem scan_header {pos : Nat} {prev : Option Char} (hprev : prev = none ∨ prev = some '\n')
    (rest : List Char) :
    scan W taskHeader 0 pos prev (t.text ++ rest) =
      ⟨pos, t.header⟩ :: scan W taskHeader 0 (pos + t.text.length) (some '\n') rest := by
  have hheader : t.text ++ rest =
      t.headerLine ++ '\n' :: (actionLine ++ '\n' :: (t.dependencyLine ++ rest)) := by
    simp only [text, List.append_assoc, List.cons_append]
  have hdependency : t.dependencyLine ++ rest =
      ' ' :: (" - depends_on：[".toList ++ (t.brackets ++ [']'])) ++ '\n' :: rest := by
    unfold dependencyLine
    simp
  have hplain : ∀ d ∈ ' ' :: (" - depends_on：[".toList ++ (t.brackets ++ [']'])), d ≠ '\n' := by
    intro d hd
    rw [← List.cons_append, List.mem_append, List.mem_append] at hd
    rcases hd with hd | hd | hd
    · exact (by simp : ∀ d ∈ ' ' :: " - depends_on：[".toList, d ≠ '\n') d hd
    · exact (t.brackets_plain d hd).2
    · exact (by simp : ∀ d ∈ [']'], d ≠ '\n') d hd
  have hne : t.headerLine ≠ [] := List.append_ne_nil_of_left_ne_nil (by decide) _
  obtain ⟨d, hd, hnewline⟩ : ∃ d, before prev t.headerLine = some d ∧ d ≠ '\n' :=
    before_all t.header_line_plain hne
  have hnone := header_not_space (W := W) (by decide : ' ' ≠ '-') (some '\n')
  rw [hheader, scan_match hne (t.header_match hprev _) rfl, hd,
    scan_none (matchAt_midLine rfl hnewline), actionLine_cons, scan_line rfl (hnone _) (by simp),
    hdependency, scan_line rfl (hnone _) hplain]
  congr 2
  have hlength := congrArg List.length hheader
  rw [actionLine_cons, hdependency] at hlength
  simp only [List.length_append, List.length_cons] at hlength ⊢
  omega

end WrittenTask

/-- Each entry with the one after it. -/
def withNext {α β : Type} (g : α → Option α → β) : List α → List β
  | [] => []
  | a :: as => g a as.head? :: withNext g as

theorem zipIdx_next {α β : Type} (g : α → Option α → β) (as : List α) :
    (as.zipIdx.map fun (a, index) => g a as[index + 1]?) = withNext g as := by
  have hfrom : ∀ (front back : List α),
      ((back.zipIdx front.length).map fun (a, index) => g a (front ++ back)[index + 1]?) =
        withNext g back := by
    intro front back
    induction back generalizing front with
    | nil => rfl
    | cons a back ih =>
      have htail := ih (front ++ [a])
      rw [List.append_assoc, List.length_append] at htail
      rw [List.zipIdx_cons, List.map_cons, withNext]
      congr 1
      simp only [List.getElem?_append_right (Nat.le_succ _), Nat.succ_sub (Nat.le_refl _),
        Nat.sub_self, Nat.succ_eq_add_one]
      cases back <;> rfl
  exact hfrom [] as

/-- The block of a header, up to the next one. -/
def blockAt (document : List Char) (header : Python.Found) (following : Option Python.Found) : TaskBlock :=
  let stop := match following with
    | some following => following.start
    | none => document.length
  { id := String.ofList header.caught.group
    text := (document.drop header.start).take (stop - header.start) }

def headersFrom : Nat → List WrittenTask → List Python.Found
  | _, [] => []
  | pos, t :: ts => ⟨pos, t.header⟩ :: headersFrom (pos + t.text.length) ts

/-- The document of some tasks. -/
def writtenDocument (ts : List WrittenTask) : String := String.ofList (ts.flatMap (·.text))

theorem scan_headers (ts : List WrittenTask) {pos : Nat} {prev : Option Char}
    (hprev : prev = none ∨ prev = some '\n') :
    scan W taskHeader 0 pos prev (ts.flatMap (·.text)) = headersFrom pos ts := by
  induction ts generalizing pos prev with
  | nil => rfl
  | cons t ts ih => rw [List.flatMap_cons, t.scan_header hprev, ih (.inr rfl), headersFrom]

theorem withNext_blocks (front : List Char) (ts : List WrittenTask) :
    withNext (blockAt (front ++ ts.flatMap (·.text))) (headersFrom front.length ts) =
      ts.map (·.block) := by
  induction ts generalizing front with
  | nil => rfl
  | cons t ts ih =>
    have htail := ih (front ++ t.text)
    rw [List.length_append, List.append_assoc] at htail
    rw [headersFrom, withNext, List.flatMap_cons, htail, List.map_cons]
    congr 1
    cases ts with
    | nil => simp [blockAt, headersFrom, WrittenTask.block, WrittenTask.header, WrittenTask.id]
    | cons u ts => simp [blockAt, headersFrom, WrittenTask.block, WrittenTask.header, WrittenTask.id]

/-- **Written tasks are read back**, each as a block of its own. -/
theorem taskBlocks_written (W : Words) (ts : List WrittenTask) :
    taskBlocks W (writtenDocument ts) = ts.map (·.block) := by
  have hheaders : finditer W taskHeader (ts.flatMap (·.text)) = headersFrom 0 ts :=
    scan_headers ts (.inl rfl)
  rw [taskBlocks, writtenDocument, String.toList_ofList, hheaders]
  exact (zipIdx_next (blockAt (ts.flatMap WrittenTask.text)) (headersFrom 0 ts)).trans
    (withNext_blocks [] ts)

end HollysysController
