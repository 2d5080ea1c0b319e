import HollysysController.Json.Schema

/-! # Typed fields

The types a strict model gives its fields, what a model of them accepts, and the
schema that is written for them. Strings are stripped before they are looked at,
and nothing is converted: a value of another JSON type is refused. -/

namespace JsonSchema

/-! ## Stripping -/

/-- The characters of `White_Space`. -/
def isSpace (c : Char) : Bool :=
  let n := c.toNat
  (9 ≤ n && n ≤ 13) || n == 32 || n == 133 || n == 160 || n == 5760 || (8192 ≤ n && n ≤ 8202) ||
    n == 8232 || n == 8233 || n == 8239 || n == 8287 || n == 12288

def strip (s : String) : String :=
  String.ofList ((s.toList.dropWhile isSpace).reverse.dropWhile isSpace).reverse

mutual

/-- No string among the values has whitespace around it. -/
def Json.trimmed : Json → Bool
  | .str s => strip s == s
  | .arr xs => Json.trimmedItems xs
  | .obj fields => Json.trimmedFields fields
  | _ => true

def Json.trimmedItems : List Json → Bool
  | [] => true
  | x :: xs => Json.trimmed x && Json.trimmedItems xs

def Json.trimmedFields : List (String × Json) → Bool
  | [] => true
  | (_, v) :: rest => Json.trimmed v && Json.trimmedFields rest

end

theorem trimmedItems_iff {xs : List Json} :
    Json.trimmedItems xs = true ↔ ∀ x ∈ xs, x.trimmed = true := by
  induction xs with
  | nil => simp [Json.trimmedItems]
  | cons x xs ih => simp [Json.trimmedItems, ih]

theorem trimmed_get {j v : Json} {key : String} (h : j.trimmed = true)
    (hget : j.get key = some v) : v.trimmed = true := by
  cases j <;> first | cases hget | skip
  case obj fields =>
    simp only [Json.trimmed] at h
    induction fields with
    | nil => cases hget
    | cons entry rest ih =>
      obtain ⟨name, w⟩ := entry
      rw [Json.trimmedFields, Bool.and_eq_true] at h
      rw [Json.get, List.lookup_cons] at hget
      split at hget
      · cases hget
        exact h.1
      · exact ih h.2 hget

theorem trimmed_set {j v : Json} {key : String} (h : j.trimmed = true) (hv : v.trimmed = true) :
    (j.set key v).trimmed = true := by
  cases j <;> first | exact h | skip
  case obj fields =>
    simp only [Json.trimmed] at h
    simp only [Json.set, Json.trimmed]
    induction fields with
    | nil => simp [Json.setField, Json.trimmedFields, hv]
    | cons entry rest ih =>
      obtain ⟨name, w⟩ := entry
      rw [Json.trimmedFields, Bool.and_eq_true] at h
      by_cases hname : name = key
      · simp [Json.setField, hname, Json.trimmedFields, hv, h.2]
      · simp [Json.setField, hname, Json.trimmedFields, h.1, ih h.2]

/-! ## Types -/

/-- What the model leaves to others: which texts are URLs, and which are times, with the
instant and whether the text names its time zone. -/
structure Readers where
  isUrl : String → Bool
  datetime : String → Option (Nat × Bool)

inductive Ty where
  | text
  | nonEmpty
  | pattern (p : Pattern)
  | url
  | datetime
  | boolean
  | atLeast (n : Int)
  | above (n : Int)
  | literal (t : String)
  | enum (texts : List String)
  | list (least : Nat) (t : Ty)
  | nullable (t : Ty)
  /-- The fields of a model, each with whether it is required, and what its validator asks. -/
  | record (fields : List (String × Bool × Ty)) (check : Json → Bool)

namespace Ty

def names (fields : List (String × Bool × Ty)) : List String := fields.map (·.1)

def requiredNames (fields : List (String × Bool × Ty)) : List String :=
  (fields.filter (·.2.1)).map (·.1)

mutual

/-- The model accepts the value. -/
def accepts (r : Readers) : Ty → Json → Bool
  | text, j => JsonType.string.has j
  | nonEmpty, j =>
    match j with
    | .str s => strip s != ""
    | _ => false
  | pattern p, j =>
    match j with
    | .str s => p.holds (strip s)
    | _ => false
  | url, j =>
    match j with
    | .str s => r.isUrl s
    | _ => false
  | datetime, j =>
    match j with
    | .str s => (r.datetime s).isSome
    | _ => false
  | boolean, j => JsonType.boolean.has j
  | atLeast n, j =>
    match j with
    | .number q => q.den == 1 && decide ((n : Rat) ≤ q)
    | _ => false
  | above n, j =>
    match j with
    | .number q => q.den == 1 && decide ((n : Rat) < q)
    | _ => false
  | literal t, j =>
    match j with
    | .str s => s == t
    | _ => false
  | enum texts, j =>
    match j with
    | .str s => texts.contains s
    | _ => false
  | list least t, j =>
    match j with
    | .arr xs => decide (least ≤ xs.length) && xs.all (accepts r t ·)
    | _ => false
  | nullable t, j =>
    match j with
    | .null => true
    | j => accepts r t j
  | record fields check, j =>
    match j with
    | .obj entries =>
      (entries.all fun entry => (names fields).contains entry.1) &&
        acceptsFields r fields (.obj entries) && check (.obj entries)
    | _ => false

def acceptsFields (r : Readers) : List (String × Bool × Ty) → Json → Bool
  | [], _ => true
  | (name, required, t) :: rest, j =>
    (match j.get name with
      | some v => accepts r t v
      | none => !required) && acceptsFields r rest j

end

mutual

/-- The schema of the type. -/
def schema : Ty → Schema
  | text => .all [.type .string]
  | nonEmpty => .all [.minLength 1, .type .string]
  | pattern p => .all [.pattern p, .type .string]
  | url => .all [.minLength 1, .type .string]
  | datetime => .all [.type .string]
  | boolean => .all [.type .boolean]
  | atLeast n => .all [.minimum n, .type .integer]
  | above n => .all [.exclusiveMinimum n, .type .integer]
  | literal t => .all [.const t, .type .string]
  | enum texts => .all [.enum texts, .type .string]
  | list least t =>
    .all (.items (schema t) :: (if least = 0 then [.type .array] else [.minItems least, .type .array]))
  | nullable t => .anyOf [schema t, .all [.type .null]]
  | record fields _ =>
    .all [.closed (names fields), .properties (properties fields), .required (requiredNames fields),
      .type .object]

def properties : List (String × Bool × Ty) → List (String × Schema)
  | [] => []
  | (name, _, t) :: rest => (name, schema t) :: properties rest

end

variable {r : Readers}

theorem acceptsFields_iff {fields : List (String × Bool × Ty)} {j : Json} :
    acceptsFields r fields j = true ↔ ∀ f ∈ fields, match j.get f.1 with
      | some v => f.2.2.accepts r v = true
      | none => f.2.1 = false := by
  induction fields with
  | nil => simp [acceptsFields]
  | cons f fields ih =>
    obtain ⟨name, required, t⟩ := f
    rw [acceptsFields, Bool.and_eq_true, ih, List.forall_mem_cons]
    refine and_congr_left fun _ => ?_
    cases j.get name <;> simp

theorem length_pos {s : String} (hne : s ≠ "") : 1 ≤ s.length :=
  Nat.pos_of_ne_zero fun hzero => hne (String.length_eq_zero_iff.mp hzero)

mutual

/-- **The schema of a type accepts what its model accepts**, where no string has whitespace
around it. -/
theorem accepts_valid (hurl : r.isUrl "" = false) : ∀ (t : Ty) (j : Json), j.trimmed = true →
    t.accepts r j = true → t.schema.valid j = true
  | text, j, _, h => by simpa [schema, Schema.valid, Schema.validAll, accepts] using h
  | nonEmpty, j, htrim, h => by
    cases j <;> simp only [accepts, reduceCtorEq] at h
    case str s =>
      simp only [Json.trimmed, beq_iff_eq] at htrim
      rw [htrim] at h
      have := length_pos (s := s) (by simpa using h)
      simp [schema, Schema.valid, Schema.validAll, JsonType.has, this]
  | pattern p, j, htrim, h => by
    cases j <;> simp only [accepts, reduceCtorEq] at h
    case str s =>
      simp only [Json.trimmed, beq_iff_eq] at htrim
      rw [htrim] at h
      simp [schema, Schema.valid, Schema.validAll, JsonType.has, h]
  | url, j, _, h => by
    cases j <;> simp only [accepts, reduceCtorEq] at h
    case str s _ =>
      have := length_pos (s := s) fun heq => by simp [heq, hurl] at h
      simp [schema, Schema.valid, Schema.validAll, JsonType.has, this]
  | datetime, j, _, h => by
    cases j <;> simp only [accepts, reduceCtorEq] at h
    case str s => simp [schema, Schema.valid, Schema.validAll, JsonType.has]
  | boolean, j, _, h => by simpa [schema, Schema.valid, Schema.validAll, accepts] using h
  | atLeast n, j, _, h => by
    cases j <;> simp only [accepts, reduceCtorEq] at h
    case number q =>
      simp only [Bool.and_eq_true, decide_eq_true_eq] at h
      simp [schema, Schema.valid, Schema.validAll, JsonType.has, h.2, h.1]
  | above n, j, _, h => by
    cases j <;> simp only [accepts, reduceCtorEq] at h
    case number q =>
      simp only [Bool.and_eq_true, decide_eq_true_eq] at h
      simp [schema, Schema.valid, Schema.validAll, JsonType.has, h.2, h.1]
  | literal t, j, _, h => by
    cases j <;> simp only [accepts, reduceCtorEq] at h
    case str s => simp [schema, Schema.valid, Schema.validAll, JsonType.has, h]
  | enum texts, j, _, h => by
    cases j <;> simp only [accepts, reduceCtorEq] at h
    case str s _ =>
      have h : s ∈ texts := by simpa using h
      simp [schema, Schema.valid, Schema.validAll, JsonType.has, h]
  | list least t, j, htrim, h => by
    cases j <;> simp only [accepts, reduceCtorEq] at h
    case arr xs =>
      simp only [Bool.and_eq_true, decide_eq_true_eq, List.all_eq_true] at h
      rw [Json.trimmed, trimmedItems_iff] at htrim
      have hitems : xs.all (t.schema.valid ·) = true :=
        List.all_eq_true.mpr fun x hx => accepts_valid hurl t x (htrim x hx) (h.2 x hx)
      by_cases hleast : least = 0
      · simp [schema, Schema.valid, Schema.validAll, JsonType.has, hleast, hitems]
      · simp [schema, Schema.valid, Schema.validAll, JsonType.has, hleast, hitems, h.1]
  | nullable t, j, htrim, h => by
    by_cases hnull : j = .null
    · subst hnull
      simp [schema, Schema.valid, Schema.validAny, Schema.validAll, JsonType.has]
    · have h : t.accepts r j = true := by
        cases j <;> first | exact absurd rfl hnull | exact h
      simp [schema, Schema.valid, Schema.validAny, accepts_valid hurl t j htrim h]
  | record fields check, j, htrim, h => by
    cases j <;> simp only [accepts, reduceCtorEq] at h
    case obj entries =>
      simp only [Bool.and_eq_true] at h
      obtain ⟨⟨hclosed, hfields⟩, -⟩ := h
      have hprops := acceptsFields_valid hurl fields (.obj entries) htrim hfields
      have hrequired : (requiredNames fields).all fun name =>
          ((Json.obj entries).get name).isSome := by
        rw [List.all_eq_true]
        intro name hname
        obtain ⟨f, hf, rfl⟩ := List.mem_map.mp hname
        obtain ⟨hf, hreq⟩ := List.mem_filter.mp hf
        have := acceptsFields_iff.mp hfields f hf
        cases hget : (Json.obj entries).get f.1 with
        | none => simp [hget, hreq] at this
        | some v => rfl
      simp [schema, Schema.valid, Schema.validAll, JsonType.has, hprops, hrequired]
      simpa using hclosed

theorem acceptsFields_valid (hurl : r.isUrl "" = false) : ∀ (fields : List (String × Bool × Ty))
    (j : Json), j.trimmed = true → acceptsFields r fields j = true →
      Schema.validProps (properties fields) j = true
  | [], _, _, _ => rfl
  | (name, required, t) :: rest, j, htrim, h => by
    rw [acceptsFields, Bool.and_eq_true] at h
    rw [properties, Schema.validProps, acceptsFields_valid hurl rest j htrim h.2, Bool.and_true]
    cases hget : j.get name with
    | none => rfl
    | some v =>
      have h := h.1
      rw [hget] at h
      exact accepts_valid hurl t v (trimmed_get htrim hget) h

end

end Ty

end JsonSchema
