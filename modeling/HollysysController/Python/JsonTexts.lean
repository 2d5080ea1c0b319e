import HollysysController.Python.Json
import HollysysController.Python.Search

/-! # Where a pattern lies in a JSON text

A pattern without special characters that occurs in the text of a value lies in one of its
strings. What follows it there is the rest of the string, its quote, and the end of a line, and
that is no JSON text of its own. -/

namespace Python.Json

/-! ## The strings of a value -/

mutual
/-- The strings of a value, without the keys of its dictionaries. -/
def strings : Value → List Text
  | .str s => [s]
  | .list items => stringsItems items
  | .dict entries => stringsEntries entries
  | _ => []

def stringsItems : List Value → List Text
  | [] => []
  | v :: items => strings v ++ stringsItems items

def stringsEntries : List (Text × Value) → List Text
  | [] => []
  | (_, v) :: entries => strings v ++ stringsEntries entries
end

mutual
/-- The keys of the dictionaries in a value. -/
def keys : Value → List Text
  | .list items => keysItems items
  | .dict entries => keysEntries entries
  | _ => []

def keysItems : List Value → List Text
  | [] => []
  | v :: items => keys v ++ keysItems items

def keysEntries : List (Text × Value) → List Text
  | [] => []
  | (key, v) :: entries => key :: (keys v ++ keysEntries entries)
end

/-! ## Patterns -/

/-- A pattern that a JSON text contains in strings only. -/
structure Quotable (pat : Text) : Prop where
  long : 2 < pat.length
  head : pat.head? = some (.char '[') ∨ pat.head? = some (.char '\x60')
  plain : ∀ x ∈ pat, escape x = [x] ∧ x ≠ .char '"' ∧ x ≠ .char '\n' ∧ x ≠ .char ','

/-- The end of a line after a value. -/
def EndsLine (t : Text) : Prop :=
  ∃ rest, t = .char '\n' :: rest ∨ t = .char ',' :: .char '\n' :: rest

/-- What follows a pattern that lies in a string: the rest of the string, and the line. -/
def InString (v : List Text) (pat rest : Text) : Prop :=
  ∃ s ∈ v, ∃ after t, Occurs pat s after ∧ EndsLine t ∧
    rest = after.flatMap escape ++ .char '"' :: t

section Patterns

variable {pat rest t s : Text} {level : Nat}

theorem newLine_ends (level : Nat) (t : Text) : EndsLine (newLine level ++ t) :=
  ⟨_, .inl rfl⟩

theorem writeItems_ends (repr : Double → Text) (items : List Value) (ht : EndsLine t) :
    EndsLine (writeItems repr level items ++ t) := by
  cases items with
  | nil => exact ht
  | cons v items => exact ⟨_, .inr rfl⟩

theorem writeEntries_ends (repr : Double → Text) (entries : List (Text × Value))
    (ht : EndsLine t) : EndsLine (writeEntries repr level entries ++ t) := by
  cases entries with
  | nil => exact ht
  | cons e entries => exact ⟨_, .inr rfl⟩

theorem hexDigit_ne {n : Nat} (h : n < 16) : hexDigit n ≠ '[' ∧ hexDigit n ≠ '\x60' := by
  have hall : ∀ n : Fin 16, hexDigit n.val ≠ '[' ∧ hexDigit n.val ≠ '\x60' := by decide
  exact hall ⟨n, h⟩

/-- A character is escaped by a letter or by its number, or stands for itself. -/
theorem escape_char (c : Char) :
    (∃ e ∈ ['"', '\\', 'n', 'r', 't', 'b', 'f'], escape (.char c) = [.char '\\', .char e]) ∨
      c.toNat < 32 ∧ escape (.char c) = codePoints "\\u00" ++
        [CodePoint.char (hexDigit (c.toNat / 16)), .char (hexDigit (c.toNat % 16))] ∨
      c ≠ '"' ∧ c ≠ '\\' ∧ c ≠ '\r' ∧ escape (.char c) = [.char c] := by
  by_cases hquote : c = '"'
  · exact .inl ⟨'"', by decide, by rw [hquote]; rfl⟩
  by_cases hslash : c = '\\'
  · exact .inl ⟨'\\', by decide, by rw [hslash]; rfl⟩
  by_cases hline : c = '\n'
  · exact .inl ⟨'n', by decide, by rw [hline]; rfl⟩
  by_cases hreturn : c = '\r'
  · exact .inl ⟨'r', by decide, by rw [hreturn]; rfl⟩
  by_cases htab : c = '\t'
  · exact .inl ⟨'t', by decide, by rw [htab]; rfl⟩
  by_cases hback : c = '\x08'
  · exact .inl ⟨'b', by decide, by rw [hback]; rfl⟩
  by_cases hfeed : c = '\x0c'
  · exact .inl ⟨'f', by decide, by rw [hfeed]; rfl⟩
  refine .inr ?_
  simp only [escape, hquote, hslash, hline, hreturn, htab, hback, hfeed, if_false]
  by_cases hcontrol : c.toNat < 32
  · exact .inl ⟨hcontrol, if_pos hcontrol⟩
  · exact .inr ⟨hquote, hslash, hreturn, if_neg hcontrol⟩

/-- A character stands for itself, or a backslash begins its escape. -/
theorem escape_cases (x : CodePoint) :
    escape x = [x] ∧ x ≠ .char '"' ∧ x ≠ .char '\\' ∨
      ∃ s, escape x = .char '\\' :: s ∧ .char '[' ∉ s ∧ .char '\x60' ∉ s := by
  cases x with
  | surrogate n => exact .inl ⟨rfl, by simp, by simp⟩
  | char c =>
    rcases escape_char c with ⟨e, he, hescape⟩ | ⟨hcontrol, hescape⟩ |
      ⟨hquote, hslash, -, hescape⟩
    · have hletters : ∀ e ∈ ['"', '\\', 'n', 'r', 't', 'b', 'f'], e ≠ '[' ∧ e ≠ '\x60' := by simp
      obtain ⟨hbracket, hfence⟩ := hletters e he
      exact .inr ⟨[.char e], hescape, by simpa using hbracket.symm, by simpa using hfence.symm⟩
    · have hhigh := hexDigit_ne (n := c.toNat / 16) (by omega)
      have hlow := hexDigit_ne (n := c.toNat % 16) (by omega)
      refine .inr ⟨codePoints "u00" ++ [CodePoint.char (hexDigit (c.toNat / 16)),
        .char (hexDigit (c.toNat % 16))], hescape, ?_, ?_⟩
      · have hunit : .char '[' ∉ codePoints "u00" := by decide
        simp [hunit, hhigh.1.symm, hlow.1.symm]
      · have hunit : .char '\x60' ∉ codePoints "u00" := by decide
        simp [hunit, hhigh.2.symm, hlow.2.symm]
    · exact .inl ⟨hescape, by simpa using hquote, by simpa using hslash⟩

theorem occurs_length (h : Occurs pat s rest) : pat.length ≤ s.length := by
  obtain ⟨before, rfl⟩ := h
  simp only [List.length_append]
  omega

theorem Quotable.skip (hpat : Quotable pat) (hbracket : .char '[' ∉ s)
    (htick : .char '\x60' ∉ s) (h : Occurs pat (s ++ t) rest) : Occurs pat t rest := by
  cases pat with
  | nil => rcases hpat.head with h | h <;> cases h
  | cons c pat =>
    refine occurs_skip ?_ h
    rcases hpat.head with h | h <;> rwa [Option.some.inj h]

theorem Quotable.cut (hpat : Quotable pat) {c : CodePoint}
    (hc : c = .char '"' ∨ c = .char '\n' ∨ c = .char ',') (h : Occurs pat (s ++ c :: t) rest) :
    (∃ r, Occurs pat s r ∧ rest = r ++ c :: t) ∨ Occurs pat t rest := by
  refine occurs_cut (fun hmem => ?_) h
  obtain ⟨-, hquote, hline, hcomma⟩ := hpat.plain c hmem
  rcases hc with hc | hc | hc
  · exact hquote hc
  · exact hline hc
  · exact hcomma hc

theorem Quotable.skip_newLine (hpat : Quotable pat) (level : Nat)
    (h : Occurs pat (newLine level ++ t) rest) : Occurs pat t rest := by
  refine hpat.skip ?_ ?_ h <;> simp [newLine]

theorem escape_prefix (hpat : ∀ x ∈ pat, escape x = [x]) (h : pat ++ rest = s.flatMap escape) :
    ∃ after, s = pat ++ after ∧ rest = after.flatMap escape := by
  induction pat generalizing s with
  | nil => exact ⟨s, rfl, h⟩
  | cons x pat ih =>
    have hx := hpat x List.mem_cons_self
    cases s with
    | nil => simp at h
    | cons y s =>
      rw [List.flatMap_cons, List.cons_append] at h
      rcases escape_cases y with ⟨hy, -⟩ | ⟨stuff, hy, -⟩
      · rw [hy, List.singleton_append] at h
        obtain ⟨rfl, htail⟩ := List.cons.inj h
        obtain ⟨after, rfl, hrest⟩ := ih (fun z hz => hpat z (List.mem_cons_of_mem _ hz)) htail
        exact ⟨after, rfl, hrest⟩
      · rw [hy, List.cons_append] at h
        rw [(List.cons.inj h).1] at hx
        cases hx

/-- A pattern in the text of a string lies in the string. -/
theorem Quotable.occurs_escapes (hpat : Quotable pat)
    (h : Occurs pat (s.flatMap escape) rest) :
    ∃ after, Occurs pat s after ∧ rest = after.flatMap escape := by
  induction s with
  | nil =>
    have hlong := hpat.long
    have hle := occurs_length h
    rw [List.flatMap_nil, List.length_nil] at hle
    omega
  | cons y s ih =>
    have hdeeper : Occurs pat (s.flatMap escape) rest →
        ∃ after, Occurs pat (y :: s) after ∧ rest = after.flatMap escape := by
      intro hocc
      obtain ⟨after, ⟨before, hs⟩, hrest⟩ := ih hocc
      exact ⟨after, ⟨y :: before, by rw [hs, List.cons_append]⟩, hrest⟩
    rcases escape_cases y with ⟨hy, -⟩ | ⟨stuff, hy, hbracket, htick⟩
    · obtain ⟨before, hbefore⟩ := h
      cases before with
      | nil =>
        obtain ⟨after, hs, hrest⟩ := escape_prefix (fun x hx => (hpat.plain x hx).1)
          hbefore.symm
        exact ⟨after, ⟨[], hs⟩, hrest⟩
      | cons c before =>
        rw [List.flatMap_cons, hy] at hbefore
        exact hdeeper ⟨before, (List.cons.inj hbefore).2⟩
    · rw [List.flatMap_cons, hy] at h
      exact hdeeper (hpat.skip (by simp [hbracket]) (by simp [htick]) h)

theorem InString.mono {xs ys : List Text} (h : InString xs pat rest)
    (hsub : ∀ s ∈ xs, s ∈ ys) : InString ys pat rest := by
  obtain ⟨s, hs, after, t, hocc⟩ := h
  exact ⟨s, hsub s hs, after, t, hocc⟩

/-- A pattern in a quoted string lies in the string, or after it. -/
theorem Quotable.occurs_quoted (hpat : Quotable pat) (h : Occurs pat (quoted s ++ t) rest) :
    (∃ after, Occurs pat s after ∧ rest = after.flatMap escape ++ .char '"' :: t) ∨
      Occurs pat t rest := by
  have hsplit : quoted s ++ t = [CodePoint.char '"'] ++ (s.flatMap escape ++ .char '"' :: t) := by
    simp [quoted]
  rw [hsplit] at h
  rcases hpat.cut (.inl rfl) (hpat.skip (by decide) (by decide) h) with
    ⟨r, hocc, hrest⟩ | hafter
  · obtain ⟨after, hs, rfl⟩ := hpat.occurs_escapes hocc
    exact .inl ⟨after, hs, hrest⟩
  · exact .inr hafter

theorem intText_plain (n : Int) {c : Char} (hdigit : c.isDigit = false) (hminus : c ≠ '-') :
    .char c ∉ intText n := by
  intro hmem
  rcases List.mem_append.mp hmem with hsign | hdigits
  · split at hsign
    · exact hminus (CodePoint.char.inj (List.mem_singleton.mp hsign))
    · cases hsign
  · obtain ⟨d, hd, hdc⟩ := List.mem_map.mp hdigits
    have hall : d.isDigit = true := Nat.isDigit_of_mem_toDigits (by decide) (by decide) hd
    rw [CodePoint.char.inj hdc, hdigit] at hall
    cases hall

/-- Where a pattern lies: in a string of the value, in one of its keys, or after it. -/
def Lies (pat : Text) (strings keys : List Text) (t rest : Text) : Prop :=
  InString strings pat rest ∨ (∃ k ∈ keys, pat <:+: k) ∨ Occurs pat t rest

/-- A pattern in a text of two parts. -/
theorem Lies.append {xs ys ks ls : List Text} {u : Text} (h : Lies pat xs ks t rest)
    (hnext : Occurs pat t rest → Lies pat ys ls u rest) :
    Lies pat (xs ++ ys) (ks ++ ls) u rest := by
  rcases h with hstring | ⟨k, hk, hinfix⟩ | hafter
  · exact .inl (hstring.mono fun s hs => List.mem_append_left _ hs)
  · exact .inr (.inl ⟨k, List.mem_append_left _ hk, hinfix⟩)
  · rcases hnext hafter with hstring | ⟨k, hk, hinfix⟩ | hrest
    · exact .inl (hstring.mono fun s hs => List.mem_append_right _ hs)
    · exact .inr (.inl ⟨k, List.mem_append_right _ hk, hinfix⟩)
    · exact .inr (.inr hrest)

/-- A pattern in a key with its value, or after them. -/
theorem Quotable.lies_key (hpat : Quotable pat) {xs ks : List Text} {key u : Text}
    (hnext : Occurs pat t rest → Lies pat xs ks u rest)
    (h : Occurs pat (quoted key ++ (codePoints ": " ++ t)) rest) :
    Lies pat xs (key :: ks) u rest := by
  rcases hpat.occurs_quoted h with ⟨after, hinside, -⟩ | hrest
  · exact .inr (.inl ⟨key, List.mem_cons_self, infix_iff_occurs.mpr ⟨after, hinside⟩⟩)
  · have hlies : Lies pat [] [key] t rest :=
      .inr (.inr (hpat.skip (by decide) (by decide) hrest))
    exact hlies.append hnext

mutual
/-- **Where a pattern lies in the text of a value.** -/
theorem Quotable.lies (hpat : Quotable pat) (repr : Double → Text) : ∀ (v : Value) (level : Nat)
    {t rest : Text}, Regular v → EndsLine t ∨ (∃ entry entries, v = .dict (entry :: entries)) →
    Occurs pat (write repr level v ++ t) rest → Lies pat (strings v) (keys v) t rest
  | .none, _, _, _, _, _, h =>
    .inr (.inr (hpat.skip (s := codePoints "null") (by decide) (by decide) h))
  | .bool true, _, _, _, _, _, h =>
    .inr (.inr (hpat.skip (s := codePoints "true") (by decide) (by decide) h))
  | .bool false, _, _, _, _, _, h =>
    .inr (.inr (hpat.skip (s := codePoints "false") (by decide) (by decide) h))
  | .int n, _, _, _, _, _, h =>
    .inr (.inr (hpat.skip (intText_plain n rfl (by decide)) (intText_plain n rfl (by decide)) h))
  | .float _, _, _, _, hregular, _, _ => hregular.elim
  | .str s, _, t, rest, _, hend, h => by
    rcases hend with hend | ⟨entry, entries, hdict⟩
    · rcases hpat.occurs_quoted h with ⟨after, hs, hrest⟩ | hafter
      · exact .inl ⟨s, List.mem_singleton_self s, after, t, hs, hend, hrest⟩
      · exact .inr (.inr hafter)
    · cases hdict
  | .list [], _, t, rest, _, hend, h => by
    rcases hend with ⟨r, hline⟩ | ⟨entry, entries, hdict⟩
    · have hsep : ∃ c r, t = c :: r ∧ (c = .char '"' ∨ c = .char '\n' ∨ c = .char ',') := by
        rcases hline with rfl | rfl
        · exact ⟨_, _, rfl, .inr (.inl rfl)⟩
        · exact ⟨_, _, rfl, .inr (.inr rfl)⟩
      obtain ⟨c, r, rfl, hc⟩ := hsep
      rcases hpat.cut hc h with ⟨r', hinside, -⟩ | ⟨before, hafter⟩
      · have hle : pat.length ≤ 2 := occurs_length hinside
        have hlong := hpat.long
        omega
      · exact .inr (.inr ⟨c :: before, by rw [hafter, List.cons_append]⟩)
    · cases hdict
  | .list (v :: items), level, t, rest, hregular, _, h => by
    simp only [Regular, RegularItems] at hregular
    have hsplit : write repr level (.list (v :: items)) ++ t =
        [CodePoint.char '['] ++ CodePoint.char '\n' ::
          (List.replicate (2 * (level + 1)) (CodePoint.char ' ') ++
          (write repr (level + 1) v ++ (writeItems repr (level + 1) items ++
            (newLine level ++ .char ']' :: t)))) := by
      simp [write, newLine]
    rw [hsplit] at h
    rcases hpat.cut (.inr (.inl rfl)) h with ⟨r, hinside, -⟩ | hrest
    · have hle : pat.length ≤ 1 := occurs_length hinside
      have hlong := hpat.long
      omega
    · have hends := newLine_ends level (.char ']' :: t)
      refine (hpat.lies repr v (level + 1) hregular.1 (.inl (writeItems_ends repr items hends))
        (hpat.skip (by simp) (by simp) hrest)).append fun hitems => ?_
      rcases hpat.lies_items repr items (level + 1) hregular.2 hends hitems with
        hstring | hkey | hafter
      · exact .inl hstring
      · exact .inr (.inl hkey)
      · exact .inr (.inr (hpat.skip (s := [.char ']']) (by decide) (by decide)
          (hpat.skip_newLine level hafter)))
  | .dict [], _, _, _, _, _, h =>
    .inr (.inr (hpat.skip (s := codePoints "\x7b\x7d") (by decide) (by decide) h))
  | .dict ((key, v) :: entries), level, t, rest, hregular, _, h => by
    simp only [Regular, RegularEntries] at hregular
    have hsplit : write repr level (.dict ((key, v) :: entries)) ++ t =
        [CodePoint.char '\x7b'] ++ (newLine (level + 1) ++ (quoted key ++ (codePoints ": " ++
          (write repr (level + 1) v ++ (writeEntries repr (level + 1) entries ++
            (newLine level ++ .char '\x7d' :: t)))))) := by
      simp [write]
    rw [hsplit] at h
    have hends := newLine_ends level (.char '\x7d' :: t)
    refine hpat.lies_key (fun hvalue => ?_)
      (hpat.skip_newLine (level + 1) (hpat.skip (by decide) (by decide) h))
    refine (hpat.lies repr v (level + 1) hregular.2.1 (.inl (writeEntries_ends repr entries hends))
      hvalue).append fun hentries => ?_
    rcases hpat.lies_entries repr entries (level + 1) hregular.2.2 hends hentries with
      hstring | hkey | hafter
    · exact .inl hstring
    · exact .inr (.inl hkey)
    · exact .inr (.inr (hpat.skip (s := [.char '\x7d']) (by decide) (by decide)
        (hpat.skip_newLine level hafter)))

theorem Quotable.lies_items (hpat : Quotable pat) (repr : Double → Text) :
    ∀ (items : List Value) (level : Nat) {t rest : Text}, RegularItems items → EndsLine t →
    Occurs pat (writeItems repr level items ++ t) rest →
    Lies pat (stringsItems items) (keysItems items) t rest
  | [], _, _, _, _, _, h => .inr (.inr h)
  | v :: items, level, t, rest, hregular, hend, h => by
    simp only [RegularItems] at hregular
    have hsplit : writeItems repr level (v :: items) ++ t =
        [CodePoint.char ','] ++ (newLine level ++ (write repr level v ++
          (writeItems repr level items ++ t))) := by
      simp [writeItems]
    rw [hsplit] at h
    exact (hpat.lies repr v level hregular.1 (.inl (writeItems_ends repr items hend))
      (hpat.skip_newLine level (hpat.skip (by decide) (by decide) h))).append
      fun hitems => hpat.lies_items repr items level hregular.2 hend hitems

theorem Quotable.lies_entries (hpat : Quotable pat) (repr : Double → Text) :
    ∀ (entries : List (Text × Value)) (level : Nat) {t rest : Text}, RegularEntries entries →
    EndsLine t → Occurs pat (writeEntries repr level entries ++ t) rest →
    Lies pat (stringsEntries entries) (keysEntries entries) t rest
  | [], _, _, _, _, _, h => .inr (.inr h)
  | (key, v) :: entries, level, t, rest, hregular, hend, h => by
    simp only [RegularEntries] at hregular
    have hsplit : writeEntries repr level ((key, v) :: entries) ++ t =
        [CodePoint.char ','] ++ (newLine level ++ (quoted key ++ (codePoints ": " ++
          (write repr level v ++ (writeEntries repr level entries ++ t))))) := by
      simp [writeEntries]
    rw [hsplit] at h
    refine hpat.lies_key (fun hvalue => ?_)
      (hpat.skip_newLine level (hpat.skip (by decide) (by decide) h))
    exact (hpat.lies repr v level hregular.1 (.inl (writeEntries_ends repr entries hend))
      hvalue).append fun hentries => hpat.lies_entries repr entries level hregular.2 hend hentries
end

theorem flatMap_escape_plain (hpat : ∀ x ∈ pat, escape x = [x]) : pat.flatMap escape = pat := by
  induction pat with
  | nil => rfl
  | cons x pat ih =>
    rw [List.flatMap_cons, hpat x List.mem_cons_self,
      ih fun y hy => hpat y (List.mem_cons_of_mem _ hy), List.singleton_append]

mutual
/-- A pattern in a string lies in the text of the value. -/
theorem infix_write (hpat : ∀ x ∈ pat, escape x = [x]) (repr : Double → Text) :
    ∀ (v : Value) (level : Nat), s ∈ strings v → pat <:+: s → pat <:+: write repr level v
  | .str s', _, hs, h => by
    obtain rfl := List.mem_singleton.mp hs
    obtain ⟨a, b, rfl⟩ := h
    refine ⟨.char '"' :: a.flatMap escape, b.flatMap escape ++ [CodePoint.char '"'], ?_⟩
    rw [write, quoted, List.flatMap_append, List.flatMap_append, flatMap_escape_plain hpat]
    simp
  | .list (v :: items), level, hs, h => by
    rw [write]
    refine List.infix_append_of_infix_left (List.infix_append_of_infix_left ?_)
    rcases List.mem_append.mp hs with hv | hitems
    · exact List.infix_append_of_infix_left
        (List.infix_append_of_infix_right (infix_write hpat repr v (level + 1) hv h))
    · exact List.infix_append_of_infix_right
        (infix_writeItems hpat repr items (level + 1) hitems h)
  | .dict ((key, v) :: entries), level, hs, h => by
    rw [write]
    refine List.infix_append_of_infix_left (List.infix_append_of_infix_left ?_)
    rcases List.mem_append.mp hs with hv | hentries
    · exact List.infix_append_of_infix_left
        (List.infix_append_of_infix_right (infix_write hpat repr v (level + 1) hv h))
    · exact List.infix_append_of_infix_right
        (infix_writeEntries hpat repr entries (level + 1) hentries h)

theorem infix_writeItems (hpat : ∀ x ∈ pat, escape x = [x]) (repr : Double → Text) :
    ∀ (items : List Value) (level : Nat), s ∈ stringsItems items → pat <:+: s →
    pat <:+: writeItems repr level items
  | v :: items, level, hs, h => by
    rw [writeItems]
    rcases List.mem_append.mp hs with hv | hitems
    · exact List.infix_append_of_infix_left
        (List.infix_append_of_infix_right (infix_write hpat repr v level hv h))
    · exact List.infix_append_of_infix_right
        (infix_writeItems hpat repr items level hitems h)

theorem infix_writeEntries (hpat : ∀ x ∈ pat, escape x = [x]) (repr : Double → Text) :
    ∀ (entries : List (Text × Value)) (level : Nat), s ∈ stringsEntries entries → pat <:+: s →
    pat <:+: writeEntries repr level entries
  | (key, v) :: entries, level, hs, h => by
    rw [writeEntries]
    rcases List.mem_append.mp hs with hv | hentries
    · exact List.infix_append_of_infix_left
        (List.infix_append_of_infix_right (infix_write hpat repr v level hv h))
    · exact List.infix_append_of_infix_right
        (infix_writeEntries hpat repr entries level hentries h)
end

end Patterns

/-! ## The rest of a string -/

section Rests

variable {frames : Nat} {r r' : Reader} {c : Char} {s t : Text}

/-- The reader is in no string. What is left of a word are its letters. -/
def Reader.Outside (r : Reader) : Prop :=
  match r.place with
  | .text _ _ _ => False
  | .word rest _ => ∀ c ∈ rest, c.isAlpha = true
  | _ => True

theorem give_outside (v : Value) (stack : List Frame) : (give v stack).Outside := by
  cases stack with
  | nil => trivial
  | cons frame stack => cases frame <;> trivial

theorem stepAfter_outside {stack : List Frame} (h : stepAfter stack c = .ok r) : r.Outside := by
  unfold stepAfter at h
  split at h
  · split_ifs at h <;> obtain rfl := Except.ok.inj h
    · trivial
    · exact give_outside _ _
  · split_ifs at h <;> obtain rfl := Except.ok.inj h
    · trivial
    · exact give_outside _ _
  · cases h

theorem beginValue_outside {stack : List Frame} (hc : c ≠ '"')
    (h : beginValue frames stack c = .ok r) : r.Outside := by
  have hopen : ∀ {f : Frame} {p : Place}, (p = .item ∨ p = .firstKey) →
      openFrame frames stack f p = .ok r → r.Outside := by
    intro f p hp hopen
    unfold openFrame at hopen
    split_ifs at hopen
    obtain rfl := Except.ok.inj hopen
    rcases hp with rfl | rfl <;> trivial
  unfold beginValue at h
  rw [if_neg hc] at h
  split_ifs at h
  · exact hopen (.inr rfl) h
  · exact hopen (.inl rfl) h
  · obtain rfl := Except.ok.inj h
    trivial
  · obtain rfl := Except.ok.inj h
    trivial
  · obtain rfl := Except.ok.inj h
    trivial
  · cases hword : words.find? (·.1 = c) with
    | none => simp [hword] at h
    | some word =>
      rw [hword] at h
      obtain rfl := Except.ok.inj h
      have hmem := List.mem_of_find?_eq_some hword
      have hall : ∀ w ∈ words, ∀ c ∈ w.2.1, c.isAlpha = true := by simp [words]
      exact hall word hmem

theorem stepBetween_outside (hr : r.Outside) (hc : c ≠ '"')
    (h : stepBetween frames r c = .ok r') : r'.Outside := by
  unfold stepBetween at h
  split at h
  · obtain rfl := Except.ok.inj h
    exact hr
  · split at h
    · exact beginValue_outside hc h
    · split_ifs at h
      · exact stepAfter_outside h
      · exact beginValue_outside hc h
    · split_ifs at h
      exact stepAfter_outside h
    · cases h
    · split_ifs at h
      obtain rfl := Except.ok.inj h
      trivial
    · exact stepAfter_outside h
    all_goals cases h

/-- A reader that is in no string stays so, until a quote. -/
theorem step_outside {x : CodePoint} (hr : r.Outside) (hx : x ≠ .char '"')
    (h : step frames r x = .ok r') : r'.Outside := by
  have hchar : ∀ {d : Char}, x = .char d → d ≠ '"' := by
    rintro d rfl rfl
    exact hx rfl
  cases hplace : r.place with
  | text asKey read place =>
    rw [Reader.Outside, hplace] at hr
    exact hr.elim
  | numeral n place =>
    simp only [step, hplace] at h
    cases x with
    | surrogate n => cases h
    | char d =>
      simp only at h
      split at h
      · obtain rfl := Except.ok.inj h
        trivial
      · split at h
        · obtain rfl := Except.ok.inj h
          show ∀ c ∈ ['n', 'f', 'i', 'n', 'i', 't', 'y'], c.isAlpha = true
          simp
        · cases hv : n.value place with
          | error e => simp [hv, bind, Except.bind] at h
          | ok v =>
            simp only [hv, bind, Except.bind] at h
            exact stepBetween_outside (give_outside _ _) (hchar rfl) h
  | word rest v =>
    rw [Reader.Outside, hplace] at hr
    simp only [step, hplace] at h
    cases rest with
    | nil => cases h
    | cons expected rest =>
      simp only at h
      split_ifs at h with hexpected hrest
      · obtain rfl := Except.ok.inj h
        exact give_outside _ _
      · obtain rfl := Except.ok.inj h
        exact fun c hc => hr c (List.mem_cons_of_mem _ hc)
  | value | item | firstKey | key | colon | after | done v =>
    simp only [step, hplace] at h
    cases x with
    | surrogate n => cases h
    | char d => exact stepBetween_outside hr (hchar rfl) h

theorem stepAfter_quote (stack : List Frame) : ∀ r', stepAfter stack '"' ≠ .ok r' := by
  intro r' h
  unfold stepAfter at h
  split at h <;> revert h <;> simp

theorem stepBetween_quote (h : stepBetween frames r '"' = .ok r') :
    ∃ asKey, r'.place = .text asKey [] (.plain false) := by
  have hblank : ¬ isBlank '"' = true := by decide
  rw [stepBetween, if_neg hblank] at h
  split at h
  · obtain rfl := Except.ok.inj h
    exact ⟨false, rfl⟩
  · obtain rfl := Except.ok.inj h
    exact ⟨false, rfl⟩
  · obtain rfl := Except.ok.inj h
    exact ⟨true, rfl⟩
  · obtain rfl := Except.ok.inj h
    exact ⟨true, rfl⟩
  · cases h
  · exact absurd h (stepAfter_quote _ _)
  all_goals cases h

theorem stepBetween_slash : ∀ r', stepBetween frames r '\\' ≠ .ok r' := by
  intro r' h
  have hbegin : ∀ stack r', beginValue frames stack '\\' ≠ .ok r' := fun _ _ h => by cases h
  have hblank : ¬ isBlank '\\' = true := by decide
  rw [stepBetween, if_neg hblank] at h
  split at h
  · exact hbegin _ _ h
  · rw [if_neg (by decide)] at h
    exact hbegin _ _ h
  · cases h
  · cases h
  · cases h
  · unfold stepAfter at h
    split at h <;> revert h <;> simp
  all_goals cases h

/-- A quote or a backslash ends what stands before it. -/
theorem step_special (hr : r.Outside) (hc : c = '"' ∨ c = '\\')
    (h : step frames r (.char c) = .ok r') : ∃ r₀, stepBetween frames r₀ c = .ok r' := by
  cases hplace : r.place with
  | text asKey read place =>
    rw [Reader.Outside, hplace] at hr
    exact hr.elim
  | numeral n place =>
    have hnext : numeralNext n place c = none := by
      rcases hc with rfl | rfl <;> cases place <;> rfl
    have hminus : ¬ (place = .minus ∧ c = 'I') := by
      rintro ⟨-, rfl⟩
      rcases hc with h | h <;> cases h
    simp only [step, hplace, hnext, if_neg hminus] at h
    cases hv : n.value place with
    | error e => simp [hv, bind, Except.bind] at h
    | ok v =>
      simp only [hv, bind, Except.bind] at h
      exact ⟨_, h⟩
  | word rest v =>
    rw [Reader.Outside, hplace] at hr
    simp only [step, hplace] at h
    cases rest with
    | nil => cases h
    | cons expected rest =>
      simp only at h
      split_ifs at h with hexpected hrest
      all_goals
        have halpha := hr expected List.mem_cons_self
        rw [← CodePoint.char.inj hexpected] at halpha
        rcases hc with rfl | rfl <;> exact absurd halpha (by decide)
  | value | item | firstKey | key | colon | after | done v =>
    simp only [step, hplace] at h
    exact ⟨r, h⟩

/-- A string does not go on past the end of a line. -/
theorem run_line {asKey high : Bool} {read : Text}
    (hplace : r.place = .text asKey read (.plain high)) (ht : EndsLine t) : ∀ r', run frames r t ≠ .ok r' := by
  intro r' h
  have hline : ∀ (r : Reader) (asKey high : Bool) (read rest : Text),
      r.place = .text asKey read (.plain high) → run frames r (.char '\n' :: rest) ≠ .ok r' := by
    intro r asKey high read rest hplace h
    have hstep : step frames r (.char '\n') = .error .value := by
      rw [step, hplace]
      rfl
    rw [run, hstep] at h
    cases h
  obtain ⟨rest, rfl | rfl⟩ := ht
  · exact hline r asKey high read rest hplace h
  · have hcomma : step frames r (.char ',') = .ok
        { stack := r.stack, place := .text asKey (.char ',' :: read) (.plain false) } := by
      rw [step, hplace]
      rfl
    rw [run_of_step hcomma] at h
    exact hline _ asKey false _ rest rfl h

/-- **The rest of a string is no JSON text**, nor the start of one. -/
theorem run_rest (hr : r.Outside) (s : Text) (ht : EndsLine t) :
    ∀ r', run frames r (s.flatMap escape ++ .char '"' :: t) ≠ .ok r' := by
  induction s generalizing r with
  | nil =>
    intro r' h
    rw [List.flatMap_nil, List.nil_append, run] at h
    cases hstep : step frames r (.char '"') with
    | error e => simp [hstep, bind, Except.bind] at h
    | ok r₁ =>
      obtain ⟨r₀, hbetween⟩ := step_special hr (.inl rfl) hstep
      obtain ⟨asKey, hplace⟩ := stepBetween_quote hbetween
      simp only [hstep, bind, Except.bind] at h
      exact run_line hplace ht r' h
  | cons x s ih =>
    intro r' h
    rcases escape_cases x with ⟨hx, hquote, -⟩ | ⟨stuff, hx, -⟩
    · rw [List.flatMap_cons, hx, List.append_assoc, List.singleton_append, run] at h
      cases hstep : step frames r x with
      | error e => simp [hstep, bind, Except.bind] at h
      | ok r₁ =>
        simp only [hstep, bind, Except.bind] at h
        exact ih (step_outside hr hquote hstep) r' h
    · rw [List.flatMap_cons, hx, List.append_assoc, List.cons_append, run] at h
      cases hstep : step frames r (.char '\\') with
      | error e => simp [hstep, bind, Except.bind] at h
      | ok r₁ =>
        obtain ⟨r₀, hbetween⟩ := step_special hr (.inr rfl) hstep
        exact stepBetween_slash r₁ hbetween

theorem loads_run {text : Text} {v : Value} (h : loads frames text = .ok v) :
    ∃ r, run frames {} text = .ok r := by
  rw [loads] at h
  cases hrun : run frames {} text with
  | error e =>
    rw [hrun] at h
    cases h
  | ok r => exact ⟨r, rfl⟩

/-- No value is read from the rest of a string, with or without the spaces before it. -/
theorem loads_rest (s : Text) (ht : EndsLine t) :
    ∀ v, loads frames ((s.flatMap escape ++ .char '"' :: t).dropWhile CodePoint.isSpace) ≠
      .ok v := by
  induction s with
  | nil =>
    intro v h
    have hquote : (CodePoint.char '"').isSpace = false := by decide
    rw [List.flatMap_nil, List.nil_append, List.dropWhile_cons, if_neg (by simp [hquote])] at h
    obtain ⟨r, hrun⟩ := loads_run h
    exact run_rest (r := {}) trivial [] ht r hrun
  | cons x s ih =>
    intro v h
    by_cases hspace : escape x = [x] ∧ x.isSpace = true
    · rw [List.flatMap_cons, hspace.1, List.append_assoc, List.singleton_append,
        List.dropWhile_cons, if_pos hspace.2] at h
      exact ih v h
    · have hkeep : ((x :: s).flatMap escape ++ .char '"' :: t).dropWhile CodePoint.isSpace =
          (x :: s).flatMap escape ++ .char '"' :: t := by
        rcases escape_cases x with ⟨hx, -⟩ | ⟨stuff, hx, -⟩
        · have hno : ¬ x.isSpace = true := fun hyes => hspace ⟨hx, hyes⟩
          rw [List.flatMap_cons, hx, List.append_assoc, List.singleton_append,
            List.dropWhile_cons, if_neg hno]
        · have hslash : (CodePoint.char '\\').isSpace = false := by decide
          rw [List.flatMap_cons, hx, List.append_assoc, List.cons_append, List.dropWhile_cons,
            if_neg (by simp [hslash])]
      rw [hkeep] at h
      obtain ⟨r, hrun⟩ := loads_run h
      exact run_rest (r := {}) trivial (x :: s) ht r hrun

end Rests

end Python.Json
