import HollysysController.Python.Json

/-! # JSON on one line

`json.dumps` without spaces and with every character beyond ASCII escaped, as it is sent over a
socket: the text is one line of printable characters, and `json.loads` reads it back. -/

namespace Python.Json

/-! ## Writing -/

/-- `\\u` and four digits: a unit of UTF-16. -/
def unitText (n : Nat) : Text :=
  [.char '\\', .char 'u', .char (hexDigit (n / 4096)), .char (hexDigit (n / 256 % 16)),
    .char (hexDigit (n / 16 % 16)), .char (hexDigit (n % 16))]

/-- The escapes of `ensure_ascii=True`. -/
def asciiEscape : CodePoint → Text
  | .surrogate n => unitText (0xD800 + n.val)
  | .char c =>
    if c = '"' then codePoints "\\\""
    else if c = '\\' then codePoints "\\\\"
    else if c = '\n' then codePoints "\\n"
    else if c = '\r' then codePoints "\\r"
    else if c = '\t' then codePoints "\\t"
    else if c = '\x08' then codePoints "\\b"
    else if c = '\x0c' then codePoints "\\f"
    else if 32 ≤ c.toNat ∧ c.toNat < 127 then [.char c]
    else if c.toNat < 0x10000 then unitText c.toNat
    else unitText (0xD800 + (c.toNat - 0x10000) / 0x400) ++
      unitText (0xDC00 + (c.toNat - 0x10000) % 0x400)

def asciiQuoted (s : Text) : Text := .char '"' :: s.flatMap asciiEscape ++ [CodePoint.char '"']

mutual
/-- `json.dumps(value, ensure_ascii=True, separators=(",", ":"))`, with `repr` for floats. -/
def compact (repr : Double → Text) : Value → Text
  | .none => codePoints "null"
  | .bool true => codePoints "true"
  | .bool false => codePoints "false"
  | .int n => intText n
  | .float x => repr x
  | .str s => asciiQuoted s
  | .list [] => codePoints "[]"
  | .list (v :: items) =>
    .char '[' :: compact repr v ++ compactItems repr items ++ [CodePoint.char ']']
  | .dict [] => codePoints "\x7b\x7d"
  | .dict ((key, v) :: entries) =>
    .char '\x7b' :: asciiQuoted key ++ .char ':' :: compact repr v ++
      compactEntries repr entries ++ [CodePoint.char '\x7d']

def compactItems (repr : Double → Text) : List Value → Text
  | [] => []
  | v :: items => .char ',' :: compact repr v ++ compactItems repr items

def compactEntries (repr : Double → Text) : List (Text × Value) → Text
  | [] => []
  | (key, v) :: entries =>
    .char ',' :: asciiQuoted key ++ .char ':' :: compact repr v ++ compactEntries repr entries
end

/-- The text has an encoding: no half of a surrogate pair. -/
def Scalar (s : Text) : Prop := ∀ x ∈ s, ∃ c, x = .char c

theorem scalar_codePoints (s : String) : Scalar (codePoints s) := by
  intro x hx
  obtain ⟨c, -, rfl⟩ := List.mem_map.mp hx
  exact ⟨c, rfl⟩

mutual
/-- The strings and keys have an encoding. -/
def Encodable : Value → Prop
  | .str s => Scalar s
  | .list items => EncodableItems items
  | .dict entries => EncodableEntries entries
  | _ => True

def EncodableItems : List Value → Prop
  | [] => True
  | v :: items => Encodable v ∧ EncodableItems items

def EncodableEntries : List (Text × Value) → Prop
  | [] => True
  | (key, v) :: entries => Scalar key ∧ Encodable v ∧ EncodableEntries entries
end

/-! ## Strings -/

section Compact

variable {frames : Nat} {stack : List Frame} {p : Place} {c : Char}

/-- The four digits of a unit are read. -/
theorem run_unit {n : Nat} (h : n < 0x10000) (asKey high : Bool) (read : Text) :
    run frames { stack, place := .text asKey read (.plain high) } (unitText n) =
      .ok
        { stack
          place := .text asKey (addUnit high read n).1 (.plain (addUnit high read n).2) } := by
  have hdigit : ∀ m, hexValue (hexDigit (m % 16)) = some (m % 16) := fun m =>
    hexValue_hexDigit (Nat.mod_lt _ (by decide))
  have hfirst : hexValue (hexDigit (n / 4096)) = some (n / 4096) := hexValue_hexDigit (by omega)
  have hunit : ((n / 4096 * 16 + n / 256 % 16) * 16 + n / 16 % 16) * 16 + n % 16 = n := by omega
  simp [unitText, run, step, stepText, hfirst, hdigit, hunit, bind, Except.bind]

theorem toNat_cases (c : Char) : c.toNat < 0xD800 ∨ 0xE000 ≤ c.toNat ∧ c.toNat < 0x110000 := by
  have h := c.valid
  simp only [UInt32.isValidChar, Nat.isValidChar] at h
  have hnat : c.val.toNat = c.toNat := rfl
  omega

/-- A character is read as it was written. -/
theorem run_asciiEscape (asKey : Bool) (read : Text) (c : Char) :
    run frames { stack, place := .text asKey read (.plain false) } (asciiEscape (.char c)) =
      .ok { stack, place := .text asKey (.char c :: read) (.plain false) } := by
  by_cases hquote : c = '"'
  · subst hquote
    rfl
  by_cases hslash : c = '\\'
  · subst hslash
    rfl
  by_cases hline : c = '\n'
  · subst hline
    rfl
  by_cases hreturn : c = '\r'
  · subst hreturn
    rfl
  by_cases htab : c = '\t'
  · subst htab
    rfl
  by_cases hback : c = '\x08'
  · subst hback
    rfl
  by_cases hfeed : c = '\x0c'
  · subst hfeed
    rfl
  have hrange := toNat_cases c
  by_cases hplain : 32 ≤ c.toNat ∧ c.toNat < 127
  · have hescape : asciiEscape (.char c) = [.char c] := by
      simp [asciiEscape, hquote, hslash, hline, hreturn, htab, hback, hfeed, hplain]
    have hcontrol : ¬ c.toNat < 32 := by omega
    rw [hescape]
    simp [run, step, stepText, hquote, hslash, hcontrol, bind, Except.bind]
  by_cases hsmall : c.toNat < 0x10000
  · have hescape : asciiEscape (.char c) = unitText c.toNat := by
      simp [asciiEscape, hquote, hslash, hline, hreturn, htab, hback, hfeed, hplain, hsmall]
    have hadd : addUnit false read c.toNat = (.char c :: read, false) := by
      unfold addUnit
      rw [if_neg (by omega), if_neg (by omega), Char.ofNat_toNat]
    rw [hescape, run_unit hsmall, hadd]
  · -- the two halves of a surrogate pair
    have hescape : asciiEscape (.char c) = unitText (0xD800 + (c.toNat - 0x10000) / 0x400) ++
        unitText (0xDC00 + (c.toNat - 0x10000) % 0x400) := by
      simp [asciiEscape, hquote, hslash, hline, hreturn, htab, hback, hfeed, hplain, hsmall]
    have hhigh : addUnit false read (0xD800 + (c.toNat - 0x10000) / 0x400) =
        (.surrogate (Fin.ofNat 2048 ((c.toNat - 0x10000) / 0x400)) :: read, true) := by
      unfold addUnit
      rw [if_neg (by omega), if_pos (by omega)]
      simp
    have hvalue : 0x10000 + (Fin.ofNat 2048 ((c.toNat - 0x10000) / 0x400)).val * 0x400 +
        (0xDC00 + (c.toNat - 0x10000) % 0x400 - 0xDC00) = c.toNat := by
      have hval : (Fin.ofNat 2048 ((c.toNat - 0x10000) / 0x400)).val =
          (c.toNat - 0x10000) / 0x400 := Nat.mod_eq_of_lt (by omega)
      rw [hval]
      omega
    have hlow : addUnit true (.surrogate (Fin.ofNat 2048 ((c.toNat - 0x10000) / 0x400)) :: read)
        (0xDC00 + (c.toNat - 0x10000) % 0x400) = (.char c :: read, false) := by
      unfold addUnit
      rw [if_pos (by omega)]
      simp only [hvalue, Char.ofNat_toNat]
    rw [hescape, run_of (run_unit (by omega) asKey false read), hhigh,
      run_unit (by omega) asKey true, hlow]

theorem run_asciiEscapes (asKey : Bool) (read : Text) {s : Text} (hs : Scalar s) :
    run frames { stack, place := .text asKey read (.plain false) } (s.flatMap asciiEscape) =
      .ok { stack, place := .text asKey (s.reverse ++ read) (.plain false) } := by
  induction s generalizing read with
  | nil => rfl
  | cons x s ih =>
    obtain ⟨c, rfl⟩ := hs x List.mem_cons_self
    rw [List.flatMap_cons, run_of (run_asciiEscape asKey read c),
      ih _ fun x hx => hs x (List.mem_cons_of_mem _ hx)]
    simp

theorem run_asciiText (asKey : Bool) {s : Text} (hs : Scalar s) :
    run frames { stack, place := .text asKey [] (.plain false) }
      (s.flatMap asciiEscape ++ [CodePoint.char '"']) = .ok (endText stack asKey s.reverse) := by
  rw [run_of (run_asciiEscapes asKey [] hs), List.append_nil]
  rfl

theorem run_asciiQuoted (h : p.starts) {s : Text} (hs : Scalar s) :
    run frames { stack, place := p } (asciiQuoted s) = .ok (give (.str s) stack) := by
  have hstep : step frames { stack, place := p } (.char '"') =
      .ok { stack, place := .text false [] (.plain false) } :=
    (step_start h (by decide) (by decide)).trans rfl
  rw [asciiQuoted, List.cons_append, run_of_step hstep, run_asciiText false hs]
  simp [endText]

theorem run_asciiKey (h : p = .firstKey ∨ p = .key) (entries : List (Text × Value)) (key : Text)
    {s : Text} (hs : Scalar s) :
    run frames { stack := .dict entries key :: stack, place := p } (asciiQuoted s) =
      .ok { stack := .dict entries s :: stack, place := .colon } := by
  have hstep : step frames { stack := .dict entries key :: stack, place := p } (.char '"') =
      .ok { stack := .dict entries key :: stack, place := .text true [] (.plain false) } := by
    rcases h with rfl | rfl <;> rfl
  rw [asciiQuoted, List.cons_append, run_of_step hstep, run_asciiText true hs]
  simp [endText]

/-! ## What was written is read back -/

/-- What follows a value on the line. -/
def Closes (c : Char) : Prop := c = ',' ∨ c = ']' ∨ c = '\x7d'

/-- A numeral ends where the array or object goes on or ends. -/
theorem Ended.closes {v : Value} {r : Reader} (h : Ended v stack r) (hc : Closes c) (t : Text) :
    Json.run frames r (.char c :: t) = Json.run frames (give v stack) (.char c :: t) := by
  rcases h with rfl | ⟨n, place, hplace, hvalue, rfl⟩
  · rfl
  · have hbetween : (give v stack).place.between = true := by
      cases stack with
      | nil => rfl
      | cons frame stack => cases frame <;> rfl
    have hnext : numeralNext n place c = none := by
      rcases hc with rfl | rfl | rfl <;> rcases hplace with rfl | rfl <;> rfl
    have hminus : ¬ (place = .minus ∧ c = 'I') := by
      rintro ⟨rfl, -⟩
      rcases hplace with h | h <;> cases h
    have hstep : step frames { stack, place := .numeral n place } (.char c) =
        step frames (give v stack) (.char c) := by
      rw [step_between hbetween]
      simp only [step, hnext, if_neg hminus, hvalue, bind, Except.bind]
    rw [Json.run, Json.run, hstep]

/-- The text begins with a character that follows a value. -/
def Follows (t : Text) : Prop := ∃ c rest, Closes c ∧ t = .char c :: rest

theorem Follows.run {v : Value} {r : Reader} {t : Text} (ht : Follows t) (h : Ended v stack r) :
    Json.run frames r t = Json.run frames (give v stack) t := by
  obtain ⟨c, rest, hc, rfl⟩ := ht
  exact h.closes hc rest

theorem compactItems_follows (repr : Double → Text) (items : List Value) :
    Follows (compactItems repr items ++ [CodePoint.char ']']) := by
  cases items with
  | nil => exact ⟨']', [], .inr (.inl rfl), rfl⟩
  | cons v items => exact ⟨',', _, .inl rfl, rfl⟩

theorem compactEntries_follows (repr : Double → Text) (entries : List (Text × Value)) :
    Follows (compactEntries repr entries ++ [CodePoint.char '\x7d']) := by
  cases entries with
  | nil => exact ⟨'\x7d', [], .inr (.inr rfl), rfl⟩
  | cons e entries => exact ⟨',', _, .inl rfl, rfl⟩

mutual
/-- A value is read back from its line. -/
theorem run_compact (repr : Double → Text) : ∀ (v : Value) (stack : List Frame) (p : Place),
    p.starts → Regular v → Encodable v → Written v = true → stack.length + depth v ≤ frames →
    ∃ r, run frames { stack, place := p } (compact repr v) = .ok r ∧ Ended v stack r
  | .none, _, _, hp, _, _, _, _ =>
    ⟨_, run_word hp (show ('n', ['u', 'l', 'l'], .none) ∈ words by simp [words]) (by simp),
      .inl rfl⟩
  | .bool true, _, _, hp, _, _, _, _ =>
    ⟨_, run_word hp (show ('t', ['r', 'u', 'e'], .bool true) ∈ words by simp [words])
      (by simp), .inl rfl⟩
  | .bool false, _, _, hp, _, _, _, _ =>
    ⟨_, run_word hp (show ('f', ['a', 'l', 's', 'e'], .bool false) ∈ words by simp [words])
      (by simp), .inl rfl⟩
  | .int n, _, _, hp, _, _, hwritten, _ => by
    obtain ⟨numeral, place, hplace, hvalue, hrun⟩ :=
      run_intText frames hp (of_decide_eq_true hwritten)
    exact ⟨_, hrun, .inr ⟨numeral, place, hplace, hvalue, rfl⟩⟩
  | .float _, _, _, _, hregular, _, _, _ => hregular.elim
  | .str s, _, _, hp, _, hencodable, _, _ => ⟨_, run_asciiQuoted hp hencodable, .inl rfl⟩
  | .list [], stack, p, hp, _, _, _, hdepth => by
    refine ⟨_, ?_, .inl rfl⟩
    have hopen : step frames { stack, place := p } (.char '[') =
        .ok { stack := .list [] :: stack, place := .item } := by
      refine (step_start hp (by decide) (by decide)).trans (openFrame_ok ?_)
      simp only [depth, depthItems] at hdepth
      omega
    exact run_of_step hopen _
  | .list (v :: items), stack, p, hp, hregular, hencodable, hwritten, hdepth => by
    refine ⟨_, ?_, .inl rfl⟩
    simp only [Regular, RegularItems] at hregular
    simp only [Encodable, EncodableItems] at hencodable
    simp only [Written, WrittenItems, Bool.and_eq_true] at hwritten
    simp only [depth, depthItems] at hdepth
    have hopen : step frames { stack, place := p } (.char '[') =
        .ok { stack := .list [] :: stack, place := .item } :=
      (step_start hp (by decide) (by decide)).trans (openFrame_ok (by omega))
    obtain ⟨r, hrun, hended⟩ := run_compact repr v (.list [] :: stack) .item (.inr rfl)
      hregular.1 hencodable.1 hwritten.1 (by rw [List.length_cons]; omega)
    simp only [compact, List.append_assoc, List.cons_append]
    rw [run_of_step hopen, run_of hrun, (compactItems_follows repr items).run hended]
    exact run_compactItems repr items stack [v] hregular.2 hencodable.2 hwritten.2 (by omega)
  | .dict [], stack, p, hp, _, _, _, hdepth => by
    refine ⟨_, ?_, .inl rfl⟩
    have hopen : step frames { stack, place := p } (.char '\x7b') =
        .ok { stack := .dict [] [] :: stack, place := .firstKey } := by
      refine (step_start hp (by decide) (by decide)).trans (openFrame_ok ?_)
      simp only [depth, depthEntries] at hdepth
      omega
    exact run_of_step hopen _
  | .dict ((key, v) :: entries), stack, p, hp, hregular, hencodable, hwritten, hdepth => by
    refine ⟨_, ?_, .inl rfl⟩
    simp only [Regular, RegularEntries] at hregular
    simp only [Encodable, EncodableEntries] at hencodable
    simp only [Written, WrittenEntries, Bool.and_eq_true] at hwritten
    simp only [depth, depthEntries] at hdepth
    have hopen : step frames { stack, place := p } (.char '\x7b') =
        .ok { stack := .dict [] [] :: stack, place := .firstKey } :=
      (step_start hp (by decide) (by decide)).trans (openFrame_ok (by omega))
    have hcolon : step frames { stack := .dict [] key :: stack, place := .colon } (.char ':') =
        .ok { stack := .dict [] key :: stack, place := .value } := rfl
    obtain ⟨r, hrun, hended⟩ := run_compact repr v (.dict [] key :: stack) .value (.inl rfl)
      hregular.2.1 hencodable.2.1 hwritten.1 (by rw [List.length_cons]; omega)
    simp only [compact, List.append_assoc, List.cons_append]
    rw [run_of_step hopen, run_of (run_asciiKey (.inl rfl) _ _ hencodable.1), run_of_step hcolon,
      run_of hrun, (compactEntries_follows repr entries).run hended]
    exact run_compactEntries repr entries stack [(key, v)] key hregular.1 hregular.2.2
      hencodable.2.2 hwritten.2 (by omega)

theorem run_compactItems (repr : Double → Text) : ∀ (items : List Value) (stack : List Frame)
    (read : List Value), RegularItems items → EncodableItems items → WrittenItems items = true →
    stack.length + 1 + depthItems items ≤ frames →
    run frames { stack := .list read :: stack, place := .after }
        (compactItems repr items ++ [CodePoint.char ']']) =
      .ok (give (.list (read.reverse ++ items)) stack)
  | [], stack, read, _, _, _, _ => by
    rw [compactItems, List.nil_append, List.append_nil]
    rfl
  | v :: items, stack, read, hregular, hencodable, hwritten, hdepth => by
    simp only [RegularItems] at hregular
    simp only [EncodableItems] at hencodable
    simp only [WrittenItems, Bool.and_eq_true] at hwritten
    simp only [depthItems] at hdepth
    have hcomma : step frames { stack := .list read :: stack, place := .after } (.char ',') =
        .ok { stack := .list read :: stack, place := .value } := rfl
    obtain ⟨r, hrun, hended⟩ := run_compact repr v (.list read :: stack) .value (.inl rfl)
      hregular.1 hencodable.1 hwritten.1 (by rw [List.length_cons]; omega)
    simp only [compactItems, List.append_assoc, List.cons_append]
    rw [run_of_step hcomma, run_of hrun, (compactItems_follows repr items).run hended]
    have hrest := run_compactItems repr items stack (v :: read) hregular.2 hencodable.2
      hwritten.2 (by omega)
    rwa [List.reverse_cons, List.append_assoc] at hrest

theorem run_compactEntries (repr : Double → Text) : ∀ (entries : List (Text × Value))
    (stack : List Frame) (read : List (Text × Value)) (last : Text),
    ((read ++ entries).map (·.1)).Nodup → RegularEntries entries → EncodableEntries entries →
    WrittenEntries entries = true → stack.length + 1 + depthEntries entries ≤ frames →
    run frames { stack := .dict read last :: stack, place := .after }
        (compactEntries repr entries ++ [CodePoint.char '\x7d']) =
      .ok (give (.dict (read ++ entries)) stack)
  | [], stack, read, last, _, _, _, _, _ => by
    rw [compactEntries, List.nil_append, List.append_nil]
    rfl
  | (key, v) :: entries, stack, read, last, hkeys, hregular, hencodable, hwritten, hdepth => by
    simp only [RegularEntries] at hregular
    simp only [EncodableEntries] at hencodable
    simp only [WrittenEntries, Bool.and_eq_true] at hwritten
    simp only [depthEntries] at hdepth
    have hcomma : step frames { stack := .dict read last :: stack, place := .after }
        (.char ',') = .ok { stack := .dict read last :: stack, place := .key } := rfl
    have hcolon : step frames { stack := .dict read key :: stack, place := .colon } (.char ':') =
        .ok { stack := .dict read key :: stack, place := .value } := rfl
    obtain ⟨r, hrun, hended⟩ := run_compact repr v (.dict read key :: stack) .value (.inl rfl)
      hregular.1 hencodable.2.1 hwritten.1 (by rw [List.length_cons]; omega)
    have hnew : key ∉ read.map (·.1) := by
      intro hmem
      rw [List.map_append, List.nodup_append] at hkeys
      exact hkeys.2.2 key hmem key List.mem_cons_self rfl
    simp only [compactEntries, List.append_assoc, List.cons_append]
    rw [run_of_step hcomma, run_of (run_asciiKey (.inr rfl) _ _ hencodable.1), run_of_step hcolon,
      run_of hrun, (compactEntries_follows repr entries).run hended]
    simp only [give, setEntry_new hnew]
    have hrest := run_compactEntries repr entries stack (read ++ [(key, v)]) key
      (by rwa [List.append_assoc]) hregular.2 hencodable.2.2 hwritten.2 (by omega)
    rwa [List.append_assoc] at hrest
end

/-- **`loads` reads back what is sent on a line.** -/
theorem loads_compact (repr : Double → Text) {v : Value} (hregular : Regular v)
    (hencodable : Encodable v) (hwritten : Written v = true) (hdepth : depth v ≤ frames) :
    loads frames (compact repr v) = .ok v := by
  obtain ⟨r, hrun, hended⟩ : ∃ r, run frames {} (compact repr v) = .ok r ∧ Ended v [] r :=
    run_compact repr v [] .value (.inl rfl) hregular hencodable hwritten (by simpa using hdepth)
  rw [loads, hrun]
  exact hended.finish

end Compact

/-! ## One line -/

/-- The characters of a line that is sent. -/
def Printable (t : Text) : Prop := ∀ x ∈ t, ∃ c : Char, x = .char c ∧ 32 ≤ c.toNat ∧ c.toNat < 127

theorem Printable.append {s t : Text} (hs : Printable s) (ht : Printable t) :
    Printable (s ++ t) := fun x hx => (List.mem_append.mp hx).elim (hs x) (ht x)

theorem Printable.cons {c : Char} {t : Text} (hc : 32 ≤ c.toNat ∧ c.toNat < 127)
    (ht : Printable t) : Printable (.char c :: t) := fun x hx =>
  (List.mem_cons.mp hx).elim (fun h => ⟨c, h, hc⟩) (ht x)

theorem printable_nil : Printable [] := nofun

theorem Printable.ite {p : Prop} [Decidable p] {s t : Text} (hs : p → Printable s)
    (ht : ¬ p → Printable t) : Printable (if p then s else t) := by
  split
  · exact hs ‹_›
  · exact ht ‹_›

theorem printable_map {l : List Char} (h : ∀ c ∈ l, 32 ≤ c.toNat ∧ c.toNat < 127) :
    Printable (l.map .char) := by
  intro x hx
  obtain ⟨c, hc, rfl⟩ := List.mem_map.mp hx
  exact ⟨c, rfl, h c hc⟩

theorem printable_literal {l : List Char}
    (h : (l.all fun c => decide (32 ≤ c.toNat ∧ c.toNat < 127)) = true) : Printable (l.map .char) :=
  printable_map fun c hc => of_decide_eq_true (List.all_eq_true.mp h c hc)

theorem hexDigit_printable {n : Nat} (h : n < 16) :
    32 ≤ (hexDigit n).toNat ∧ (hexDigit n).toNat < 127 := by
  have hall : ∀ n : Fin 16, 32 ≤ (hexDigit n.val).toNat ∧ (hexDigit n.val).toNat < 127 := by decide
  exact hall ⟨n, h⟩

theorem unitText_printable {n : Nat} (h : n < 0x10000) : Printable (unitText n) :=
  .cons (by decide) <| .cons (by decide) <| .cons (hexDigit_printable (by omega)) <|
    .cons (hexDigit_printable (by omega)) <| .cons (hexDigit_printable (by omega)) <|
      .cons (hexDigit_printable (by omega)) printable_nil

theorem asciiEscape_printable (x : CodePoint) : Printable (asciiEscape x) := by
  cases x with
  | surrogate n => exact unitText_printable (by have := n.isLt; omega)
  | char c =>
    have hrange := toNat_cases c
    rw [asciiEscape]
    refine .ite (fun _ => printable_literal (by decide)) fun _ => ?_
    refine .ite (fun _ => printable_literal (by decide)) fun _ => ?_
    refine .ite (fun _ => printable_literal (by decide)) fun _ => ?_
    refine .ite (fun _ => printable_literal (by decide)) fun _ => ?_
    refine .ite (fun _ => printable_literal (by decide)) fun _ => ?_
    refine .ite (fun _ => printable_literal (by decide)) fun _ => ?_
    refine .ite (fun _ => printable_literal (by decide)) fun _ => ?_
    refine .ite (fun hplain => .cons hplain printable_nil) fun _ => ?_
    refine .ite (fun hunit => unitText_printable hunit) fun _ => ?_
    exact (unitText_printable (by omega)).append (unitText_printable (by omega))

theorem asciiQuoted_printable (s : Text) : Printable (asciiQuoted s) := by
  refine .append (.cons (by decide) fun x hx => ?_) (.cons (by decide) printable_nil)
  obtain ⟨y, -, hy⟩ := List.mem_flatMap.mp hx
  exact asciiEscape_printable y x hy

theorem intText_printable (n : Int) : Printable (intText n) := by
  refine .append ?_ (printable_map fun c hc => ?_)
  · split
    · exact .cons (by decide) printable_nil
    · exact printable_nil
  · have hdigit := Nat.isDigit_of_mem_toDigits (by decide) (by decide) hc
    simp only [Char.isDigit, Bool.and_eq_true, decide_eq_true_eq, ge_iff_le, UInt32.le_iff_toNat_le]
      at hdigit
    have hnat : c.val.toNat = c.toNat := rfl
    have hlow : '0'.val.toNat = 48 := rfl
    have hhigh : '9'.val.toNat = 57 := rfl
    omega

mutual
/-- What is sent is one line of printable characters. -/
theorem compact_printable (repr : Double → Text) : ∀ v : Value, Regular v →
    Printable (compact repr v)
  | .none, _ => printable_literal (l := ['n', 'u', 'l', 'l']) (by decide)
  | .bool true, _ => printable_literal (l := ['t', 'r', 'u', 'e']) (by decide)
  | .bool false, _ => printable_literal (l := ['f', 'a', 'l', 's', 'e']) (by decide)
  | .int n, _ => intText_printable n
  | .float _, h => h.elim
  | .str s, _ => asciiQuoted_printable s
  | .list [], _ => printable_literal (l := ['[', ']']) (by decide)
  | .list (v :: items), h => by
    simp only [Regular, RegularItems] at h
    exact .append (.append (.cons (by decide) (compact_printable repr v h.1))
      (compactItems_printable repr items h.2)) (.cons (by decide) printable_nil)
  | .dict [], _ => printable_literal (l := ['\x7b', '\x7d']) (by decide)
  | .dict ((key, v) :: entries), h => by
    simp only [Regular, RegularEntries] at h
    refine .append (.append (.cons (by decide) (.append (asciiQuoted_printable key)
      (.cons (by decide) (compact_printable repr v h.2.1)))) ?_) (.cons (by decide) printable_nil)
    exact compactEntries_printable repr entries h.2.2

theorem compactItems_printable (repr : Double → Text) : ∀ items : List Value,
    RegularItems items → Printable (compactItems repr items)
  | [], _ => printable_nil
  | v :: items, h => .append (.cons (by decide) (compact_printable repr v h.1))
      (compactItems_printable repr items h.2)

theorem compactEntries_printable (repr : Double → Text) : ∀ entries : List (Text × Value),
    RegularEntries entries → Printable (compactEntries repr entries)
  | [], _ => printable_nil
  | (key, v) :: entries, h => by
    refine .append (.cons (by decide) (.append (asciiQuoted_printable key) (.cons (by decide) ?_)))
      (compactEntries_printable repr entries h.2)
    exact compact_printable repr v h.1
end

end Python.Json
