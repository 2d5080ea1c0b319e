import HollysysController.Python.JsonTexts

/-! # A JSON document as a file

The text of a value is made of characters, and none of them is a carriage return that a file
in text mode would lose. It is read back with the line break that ends the file. -/

namespace Python.Json

/-- A text that a file in text mode gives back. -/
def Filed (t : Text) : Prop := ∀ x ∈ t, ∃ c : Char, x = .char c ∧ c ≠ '\r'

/-- The texts are made of characters. -/
def Spelled (texts : List Text) : Prop := ∀ s ∈ texts, ∀ x ∈ s, ∃ c : Char, x = .char c

section Files

variable {s t : Text} {v : Value} {repr : Double → Text}

theorem Filed.append (hs : Filed s) (ht : Filed t) : Filed (s ++ t) :=
  fun x hx => (List.mem_append.mp hx).elim (hs x) (ht x)

theorem Filed.cons {c : Char} (hc : c ≠ '\r') (ht : Filed t) : Filed (.char c :: t) :=
  fun x hx => (List.mem_cons.mp hx).elim (fun h => ⟨c, h, hc⟩) (ht x)

theorem filed_nil : Filed [] := nofun

theorem filed_map {l : List Char} (h : '\r' ∉ l) : Filed (l.map .char) := by
  intro x hx
  obtain ⟨c, hc, rfl⟩ := List.mem_map.mp hx
  exact ⟨c, rfl, fun hreturn => h (hreturn ▸ hc)⟩

/-- The characters of a filed text. -/
theorem Filed.chars (h : Filed t) : ∃ chars : List Char, t = chars.map .char ∧ '\r' ∉ chars := by
  induction t with
  | nil => exact ⟨[], rfl, List.not_mem_nil⟩
  | cons x t ih =>
    obtain ⟨c, rfl, hc⟩ := h x List.mem_cons_self
    obtain ⟨chars, rfl, hfree⟩ := ih fun y hy => h y (List.mem_cons_of_mem _ hy)
    exact ⟨c :: chars, rfl, by simp [hc.symm, hfree]⟩

theorem hexDigit_filed {n : Nat} (h : n < 16) : hexDigit n ≠ '\r' := by
  have hall : ∀ n : Fin 16, hexDigit n.val ≠ '\r' := by decide
  exact hall ⟨n, h⟩

theorem escape_filed (c : Char) : Filed (escape (.char c)) := by
  rcases escape_char c with ⟨e, he, hescape⟩ | ⟨hcontrol, hescape⟩ | ⟨-, -, hreturn, hescape⟩
  · have hletters : ∀ e ∈ ['"', '\\', 'n', 'r', 't', 'b', 'f'], e ≠ '\r' := by simp
    rw [hescape]
    exact .cons (by decide) (.cons (hletters e he) filed_nil)
  · rw [hescape]
    exact .append (filed_map (l := ['\\', 'u', '0', '0']) (by decide))
      (.cons (hexDigit_filed (by omega)) (.cons (hexDigit_filed (by omega)) filed_nil))
  · rw [hescape]
    exact .cons hreturn filed_nil

theorem quoted_filed (hs : ∀ x ∈ s, ∃ c : Char, x = .char c) : Filed (quoted s) := by
  refine .append (.cons (by decide) fun x hx => ?_) (.cons (by decide) filed_nil)
  obtain ⟨y, hy, hmem⟩ := List.mem_flatMap.mp hx
  obtain ⟨c, rfl⟩ := hs y hy
  exact escape_filed c x hmem

theorem newLine_filed (level : Nat) : Filed (newLine level) := by
  refine .cons (by decide) fun x hx => ⟨' ', List.eq_of_mem_replicate hx, by decide⟩

theorem intText_filed (n : Int) : Filed (intText n) := by
  refine .append ?_ (filed_map fun hreturn => ?_)
  · split
    · exact .cons (by decide) filed_nil
    · exact filed_nil
  · have hdigit := Nat.isDigit_of_mem_toDigits (by decide) (by decide) hreturn
    exact absurd hdigit (by decide)

theorem spelled_append {k l : List Text} : Spelled (k ++ l) ↔ Spelled k ∧ Spelled l :=
  List.forall_mem_append

theorem spelled_cons {l : List Text} :
    Spelled (s :: l) ↔ (∀ x ∈ s, ∃ c : Char, x = .char c) ∧ Spelled l :=
  List.forall_mem_cons

theorem entry_filed {key : Text} {level : Nat} (hkey : ∀ x ∈ key, ∃ c : Char, x = .char c)
    (ht : Filed t) : Filed (newLine level ++ quoted key ++ codePoints ": " ++ t) :=
  .append (.append (.append (newLine_filed _) (quoted_filed hkey))
    (filed_map (l := [':', ' ']) (by decide))) ht

mutual
/-- The text of a value is filed. -/
theorem write_filed (repr : Double → Text) : ∀ (v : Value) (level : Nat), Regular v →
    Spelled (strings v) → Spelled (keys v) → Filed (write repr level v)
  | .none, _, _, _, _ => filed_map (l := ['n', 'u', 'l', 'l']) (by decide)
  | .bool true, _, _, _, _ => filed_map (l := ['t', 'r', 'u', 'e']) (by decide)
  | .bool false, _, _, _, _ => filed_map (l := ['f', 'a', 'l', 's', 'e']) (by decide)
  | .int n, _, _, _, _ => intText_filed n
  | .float _, _, h, _, _ => h.elim
  | .str s, _, _, hs, _ => quoted_filed (spelled_cons.mp hs).1
  | .list [], _, _, _, _ => filed_map (l := ['[', ']']) (by decide)
  | .list (v :: items), level, h, hs, hk => by
    obtain ⟨hv, hitems⟩ := h
    obtain ⟨hsv, hsitems⟩ := spelled_append.mp hs
    obtain ⟨hkv, hkitems⟩ := spelled_append.mp hk
    exact .append (.append (.append (.append (.cons (by decide) (newLine_filed _))
      (write_filed repr v _ hv hsv hkv)) (writeItems_filed repr items _ hitems hsitems hkitems))
      (newLine_filed _)) (.cons (by decide) filed_nil)
  | .dict [], _, _, _, _ => filed_map (l := ['\x7b', '\x7d']) (by decide)
  | .dict ((key, v) :: entries), level, h, hs, hk => by
    obtain ⟨hv, hentries⟩ := h.2
    obtain ⟨hsv, hsentries⟩ := spelled_append.mp hs
    obtain ⟨hkey, hkrest⟩ := spelled_cons.mp hk
    obtain ⟨hkv, hkentries⟩ := spelled_append.mp hkrest
    exact .append (.append (.append (.cons (by decide)
      (entry_filed hkey (write_filed repr v _ hv hsv hkv)))
      (writeEntries_filed repr entries _ hentries hsentries hkentries)) (newLine_filed _))
      (.cons (by decide) filed_nil)

theorem writeItems_filed (repr : Double → Text) : ∀ (items : List Value) (level : Nat),
    RegularItems items → Spelled (stringsItems items) → Spelled (keysItems items) →
    Filed (writeItems repr level items)
  | [], _, _, _, _ => filed_nil
  | v :: items, level, h, hs, hk => by
    obtain ⟨hsv, hsitems⟩ := spelled_append.mp hs
    obtain ⟨hkv, hkitems⟩ := spelled_append.mp hk
    exact .append (.append (.cons (by decide) (newLine_filed _))
      (write_filed repr v _ h.1 hsv hkv)) (writeItems_filed repr items _ h.2 hsitems hkitems)

theorem writeEntries_filed (repr : Double → Text) :
    ∀ (entries : List (Text × Value)) (level : Nat), RegularEntries entries →
    Spelled (stringsEntries entries) → Spelled (keysEntries entries) →
    Filed (writeEntries repr level entries)
  | [], _, _, _, _ => filed_nil
  | (key, v) :: entries, level, h, hs, hk => by
    obtain ⟨hsv, hsentries⟩ := spelled_append.mp hs
    obtain ⟨hkey, hkrest⟩ := spelled_cons.mp hk
    obtain ⟨hkv, hkentries⟩ := spelled_append.mp hkrest
    exact .append (.cons (by decide) (entry_filed hkey (write_filed repr v _ h.1 hsv hkv)))
      (writeEntries_filed repr entries _ h.2 hsentries hkentries)
end

/-- **`loads` inverts `dumps` with the line break of a file.** -/
theorem loads_dumps_line {frames : Nat} {text : Text} (hregular : Regular v)
    (hdepth : depth v ≤ frames) (h : dumps repr v = .ok text) :
    loads frames (text ++ [CodePoint.char '\n']) = .ok v := by
  unfold dumps at h
  split at h
  case isFalse => cases h
  case isTrue hwritten =>
    obtain rfl := Except.ok.inj h
    obtain ⟨r, hrun, hended⟩ : ∃ r, run frames {} (write repr 0 v) = .ok r ∧ Ended v [] r :=
      run_write repr v [] .value 0 (.inl rfl) hregular hwritten (by simpa using hdepth)
    have hline : run frames (give v []) [.char '\n'] = .ok (give v []) :=
      run_newLine rfl 0
    rw [loads, run_of hrun, hended.run (.inr rfl), hline]
    exact Ended.finish (.inl rfl)

end Files

end Python.Json
