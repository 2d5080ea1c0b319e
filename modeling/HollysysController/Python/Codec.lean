import HollysysController.Json.Fields
import HollysysController.Python.JsonTexts

/-! # Strict models

How the types of a strict model are dumped to JSON values and validated again. A codec carries
the proof that what it dumps is validated back; the codec of a model is put together from those
of its fields. -/

namespace Python

open Json

/-! ## Texts -/

/-- What a strict model makes of a text: it is stripped. -/
abbrev stripped (s : String) : String := JsonSchema.strip s

theorem dropWhile_dropWhile {α : Type} (p : α → Bool) (l : List α) :
    (l.dropWhile p).dropWhile p = l.dropWhile p := by
  induction l with
  | nil => rfl
  | cons a l ih =>
    by_cases ha : p a = true
    · simpa [ha] using ih
    · simp [ha]

/-- A list that begins with no space still does after spaces at its end are dropped. -/
theorem dropWhile_rdropWhile {α : Type} {p : α → Bool} {l : List α} (h : l.dropWhile p = l) :
    ((l.reverse.dropWhile p).reverse).dropWhile p = (l.reverse.dropWhile p).reverse := by
  cases l with
  | nil => rfl
  | cons a l =>
    have ha : p a = false := by
      by_contra hne
      rw [Bool.not_eq_false] at hne
      have hlength := congrArg List.length h
      rw [List.dropWhile_cons, if_pos hne] at hlength
      have hle := (List.dropWhile_suffix p (l := l)).length_le
      rw [List.length_cons] at hlength
      omega
    obtain ⟨u, hu⟩ : ∃ u, (l.reverse ++ [a]).dropWhile p = u ++ [a] := by
      rw [List.dropWhile_append]
      split
      · exact ⟨[], by simp [ha]⟩
      · exact ⟨_, rfl⟩
    rw [List.reverse_cons, hu, List.reverse_append, List.reverse_singleton,
      List.singleton_append, List.dropWhile_cons, if_neg (by simp [ha])]

theorem stripped_stripped (s : String) : stripped (stripped s) = stripped s := by
  unfold stripped JsonSchema.strip
  rw [String.toList_ofList]
  congr 1
  generalize s.toList = l
  have hleft := dropWhile_rdropWhile (dropWhile_dropWhile JsonSchema.isSpace l)
  rw [hleft, List.reverse_reverse, dropWhile_dropWhile]

/-- A text that a field with a constraint holds. -/
abbrev Held (p : String → Bool) := { s : String // stripped s = s ∧ p s = true }

/-! ## Codecs -/

structure Codec (α : Type) where
  dump : α → Value
  validate : Value → Option α
  /-- The arrays and objects that the values are written with, one in the other. -/
  levels : Nat
  /-- The names of the fields. -/
  names : List String
  validate_dump : ∀ a, validate (dump a) = some a
  regular : ∀ a, Regular (dump a)
  depth_le : ∀ a, depth (dump a) ≤ levels
  keys_dump : ∀ a, ∀ k ∈ keys (dump a), k ∈ names.map codePoints

namespace Codec

variable {α β : Type}

def textOf : Value → Option String
  | .str t => (encode t).map String.ofList
  | _ => none

theorem textOf_codePoints (s : String) : textOf (.str (codePoints s)) = some s := by
  rw [textOf, codePoints, encode_map, Option.map_some, String.ofList_toList]

/-- A text with a constraint. -/
def text (p : String → Bool) : Codec (Held p) where
  dump s := .str (codePoints s)
  validate v := (textOf v).bind fun s =>
    if h : p (stripped s) = true then some ⟨stripped s, stripped_stripped s, h⟩ else none
  levels := 0
  names := []
  validate_dump := by
    rintro ⟨s, hstrip, hp⟩
    simp only [textOf_codePoints, Option.bind_some, hstrip, dif_pos hp]
  regular _ := trivial
  depth_le _ := Nat.le_refl _
  keys_dump _ _ hk := by cases hk

/-- A type whose values are written as texts and read by a function of their own. -/
def leaf (written : α → String) (read : Value → Option α)
    (h : ∀ a, read (.str (codePoints (written a))) = some a) : Codec α where
  dump a := .str (codePoints (written a))
  validate := read
  levels := 0
  names := []
  validate_dump := h
  regular _ := trivial
  depth_le _ := Nat.le_refl _
  keys_dump _ _ hk := by cases hk

/-- The member of an enumeration that a text names. -/
def choice (members : List α) (value : α → String) (hall : ∀ a, a ∈ members)
    (hvalue : (members.map value).Nodup) : Codec α where
  dump a := .str (codePoints (value a))
  validate v := (textOf v).bind fun s => members.find? (value · == s)
  levels := 0
  names := []
  validate_dump a := by
    rw [textOf_codePoints, Option.bind_some]
    have hinj := List.inj_on_of_nodup_map hvalue
    obtain ⟨b, hb⟩ : ∃ b, members.find? (value · == value a) = some b :=
      Option.isSome_iff_exists.mp (List.find?_isSome.mpr ⟨a, hall a, by simp⟩)
    have hsame : value b = value a := by simpa using List.find?_some hb
    rw [hb, hinj (hall b) (hall a) hsame]
  regular _ := trivial
  depth_le _ := Nat.le_refl _
  keys_dump _ _ hk := by cases hk

/-- The one text of a literal. -/
def literal (s : String) : Codec Unit where
  dump _ := .str (codePoints s)
  validate v := if textOf v = some s then some () else none
  levels := 0
  names := []
  validate_dump _ := if_pos (textOf_codePoints s)
  regular _ := trivial
  depth_le _ := Nat.le_refl _
  keys_dump _ _ hk := by cases hk

/-- An integer with a lower bound. -/
def atLeast (read : Value → Option Int) (h : ∀ n, read (.int n) = some n) (least : Int) :
    Codec { n : Int // least ≤ n } where
  dump n := .int n
  validate v := (read v).bind fun n => if h : least ≤ n then some ⟨n, h⟩ else none
  levels := 0
  names := []
  validate_dump := by
    rintro ⟨n, hn⟩
    simp only [h, Option.bind_some, dif_pos hn]
  regular _ := trivial
  depth_le _ := Nat.le_refl _
  keys_dump _ _ hk := by cases hk

theorem regularItems_map {c : Codec α} (items : List α) : RegularItems (items.map c.dump) := by
  induction items with
  | nil => trivial
  | cons a items ih => exact ⟨c.regular a, ih⟩

theorem depthItems_map {c : Codec α} (items : List α) :
    depthItems (items.map c.dump) ≤ c.levels := by
  induction items with
  | nil => exact Nat.zero_le _
  | cons a items ih => exact max_le (c.depth_le a) ih

theorem mapM_dump {c : Codec α} (items : List α) :
    (items.map c.dump).mapM c.validate = some items := by
  induction items with
  | nil => rfl
  | cons a items ih => simp [List.mapM_cons, c.validate_dump, ih]

theorem keysItems_map {c : Codec α} (items : List α) :
    ∀ k ∈ keysItems (items.map c.dump), k ∈ c.names.map codePoints := by
  induction items with
  | nil =>
    intro k hk
    cases hk
  | cons a items ih =>
    intro k hk
    rcases List.mem_append.mp hk with hfirst | hrest
    · exact c.keys_dump a k hfirst
    · exact ih k hrest

def list (c : Codec α) : Codec (List α) where
  dump items := .list (items.map c.dump)
  validate
    | .list items => items.mapM c.validate
    | _ => none
  levels := c.levels + 1
  names := c.names
  validate_dump := mapM_dump
  regular := regularItems_map
  depth_le items := Nat.succ_le_succ (depthItems_map items)
  keys_dump := keysItems_map

/-- The values that a check lets through. -/
def checked (c : Codec α) (p : α → Bool) : Codec { a : α // p a = true } where
  dump a := c.dump a
  validate v := (c.validate v).bind fun a => if h : p a = true then some ⟨a, h⟩ else none
  levels := c.levels
  names := c.names
  validate_dump := by
    rintro ⟨a, ha⟩
    simp only [c.validate_dump, Option.bind_some, dif_pos ha]
  regular a := c.regular a
  depth_le a := c.depth_le a
  keys_dump a := c.keys_dump a

/-- A value or `None`. -/
def nullable (c : Codec α) (hsome : ∀ a, c.dump a ≠ .none) : Codec (Option α) where
  dump
    | none => .none
    | some a => c.dump a
  validate
    | .none => some none
    | v => (c.validate v).map some
  levels := c.levels
  names := c.names
  validate_dump := by
    intro a
    cases a with
    | none => rfl
    | some a =>
      have hne := hsome a
      have hback := c.validate_dump a
      cases hdump : c.dump a <;> simp_all
  regular := by
    intro a
    cases a with
    | none => trivial
    | some a => exact c.regular a
  depth_le := by
    intro a
    cases a with
    | none => exact Nat.zero_le _
    | some a => exact c.depth_le a
  keys_dump := by
    intro a k hk
    cases a with
    | none => cases hk
    | some a => exact c.keys_dump a k hk

/-- The same values under another type. -/
def convert (c : Codec α) (make : α → β) (parts : β → α) (h : ∀ b, make (parts b) = b) :
    Codec β where
  dump b := c.dump (parts b)
  validate v := (c.validate v).map make
  levels := c.levels
  names := c.names
  validate_dump b := by rw [c.validate_dump, Option.map_some, h]
  regular b := c.regular (parts b)
  depth_le b := c.depth_le (parts b)
  keys_dump b := c.keys_dump (parts b)

end Codec

/-! ## Models -/

/-- The values of the fields of a model. -/
def Tuple : List Type → Type
  | [] => Unit
  | t :: ts => t × Tuple ts

/-- The fields of a model, each with its name, its codec, and its default when it has one. -/
inductive Fields : List Type → Type 1 where
  | nil : Fields []
  | cons {α : Type} {ts : List Type} (name : String) (c : Codec α) (default : Option α)
      (rest : Fields ts) : Fields (α :: ts)

namespace Fields

variable {ts : List Type}

def names : {ts : List Type} → Fields ts → List String
  | _, nil => []
  | _, cons name _ _ rest => name :: rest.names

/-- The names of the fields, and those of the models in them. -/
def allNames : {ts : List Type} → Fields ts → List String
  | _, nil => []
  | _, cons name c _ rest => name :: (c.names ++ rest.allNames)

def levels : {ts : List Type} → Fields ts → Nat
  | _, nil => 0
  | _, cons _ c _ rest => max c.levels rest.levels

/-- `model_dump(mode="json")`. -/
def dump : {ts : List Type} → Fields ts → Tuple ts → List (Text × Value)
  | _, nil, _ => []
  | _, cons name c _ rest, (a, t) => (codePoints name, c.dump a) :: rest.dump t

/-- A field that is missing has its default, and one without a default is required. -/
def validate : {ts : List Type} → Fields ts → List (Text × Value) → Option (Tuple ts)
  | _, nil, _ => some ()
  | _, cons name c default rest, entries =>
    (match Value.get entries name with
      | some v => c.validate v
      | none => default).bind fun a => (rest.validate entries).map fun t => (a, t)

theorem dump_names : ∀ {ts : List Type} (fields : Fields ts) (t : Tuple ts),
    (fields.dump t).map (·.1) = fields.names.map codePoints
  | _, nil, _ => rfl
  | _, cons _ _ _ rest, (_, t) => congrArg _ (dump_names rest t)

theorem validate_dump : ∀ {ts : List Type} (fields : Fields ts) (t : Tuple ts)
    (before : List (Text × Value)), (before.map (·.1) ++ fields.names.map codePoints).Nodup →
    fields.validate (before ++ fields.dump t) = some t
  | _, nil, (), _, _ => rfl
  | _, cons name c default rest, (a, t), before, h => by
    have hnew : ∀ e ∈ before, decide (e.1 = codePoints name) = false := by
      intro e he
      have hne := (List.nodup_append.mp h).2.2 e.1 (List.mem_map_of_mem he) _ List.mem_cons_self
      simpa using hne
    have hget : Value.get (before ++ (codePoints name, c.dump a) :: rest.dump t) name =
        some (c.dump a) := by
      have hnone : before.find? (fun e => decide (e.1 = codePoints name)) = none :=
        List.find?_eq_none.mpr fun e he => by simp [hnew e he]
      rw [Value.get, List.find?_append, hnone, Option.none_or, List.find?_cons_of_pos (by simp)]
      rfl
    have hrest := validate_dump rest t (before ++ [(codePoints name, c.dump a)]) (by
      simpa [names] using h)
    rw [List.append_assoc, List.singleton_append] at hrest
    simp only [validate, dump, hget, c.validate_dump, Option.bind_some, hrest]
    rfl

theorem regular_dump : ∀ {ts : List Type} (fields : Fields ts) (t : Tuple ts),
    RegularEntries (fields.dump t)
  | _, nil, _ => trivial
  | _, cons _ c _ rest, (a, t) => ⟨c.regular a, regular_dump rest t⟩

theorem depth_dump : ∀ {ts : List Type} (fields : Fields ts) (t : Tuple ts),
    depthEntries (fields.dump t) ≤ fields.levels
  | _, nil, _ => Nat.zero_le _
  | _, cons _ c _ rest, (a, t) => max_le_max (c.depth_le a) (depth_dump rest t)

theorem keys_dump : ∀ {ts : List Type} (fields : Fields ts) (t : Tuple ts),
    ∀ k ∈ keysEntries (fields.dump t), k ∈ fields.allNames.map codePoints
  | _, nil, _, k, hk => by cases hk
  | _, cons name c _ rest, (a, t), k, hk => by
    rw [allNames, List.map_cons, List.map_append]
    rcases List.mem_cons.mp hk with rfl | hk
    · exact List.mem_cons_self
    · rcases List.mem_append.mp hk with hfirst | hrest
      · exact List.mem_cons_of_mem _ (List.mem_append_left _ (c.keys_dump a k hfirst))
      · exact List.mem_cons_of_mem _ (List.mem_append_right _ (keys_dump rest t k hrest))

end Fields

/-- A strict model: other fields are forbidden. -/
def Codec.model {ts : List Type} (fields : Fields ts) (h : fields.names.Nodup) :
    Codec (Tuple ts) where
  dump t := .dict (fields.dump t)
  validate
    | .dict entries =>
      if entries.all fun e => (fields.names.map codePoints).contains e.1 then
        fields.validate entries
      else none
    | _ => none
  levels := fields.levels + 1
  names := fields.allNames
  validate_dump t := by
    have hnames : (fields.dump t).all
        (fun e => (fields.names.map codePoints).contains e.1) = true := by
      rw [List.all_eq_true]
      intro e he
      rw [List.contains_iff_mem, ← fields.dump_names t]
      exact List.mem_map_of_mem he
    simp only [hnames, if_true]
    exact fields.validate_dump t [] (by simpa using h.map codePoints_injective)
  regular t :=
    ⟨by rw [fields.dump_names t]; exact h.map codePoints_injective, fields.regular_dump t⟩
  depth_le t := Nat.succ_le_succ (fields.depth_dump t)
  keys_dump := fields.keys_dump

end Python
