import Mathlib.Data.Rat.Defs
import Mathlib.Data.List.Nodup

/-! # JSON Schema

JSON values and the keywords of the 2020-12 draft that say something about them.
A keyword holds of every value of a type it does not speak about; annotations
such as `title`, `default` and `format` say nothing. -/

namespace JsonSchema

/-! ## Values -/

inductive Json where
  | null
  | bool (b : Bool)
  | number (q : Rat)
  | str (s : String)
  | arr (items : List Json)
  | obj (fields : List (String × Json))

namespace Json

/-- The member of an object. -/
def get (key : String) : Json → Option Json
  | obj fields => fields.lookup key
  | _ => none

/-- The members with one of them replaced, or added at the end. -/
def setField (key : String) (v : Json) : List (String × Json) → List (String × Json)
  | [] => [(key, v)]
  | (name, old) :: rest =>
    if name = key then (name, v) :: rest else (name, old) :: setField key v rest

/-- The object with one member replaced. -/
def set (j : Json) (key : String) (v : Json) : Json :=
  match j with
  | obj fields => obj (setField key v fields)
  | j => j

theorem lookup_setField (key key' : String) (v : Json) (fields : List (String × Json)) :
    (setField key v fields).lookup key' = if key' = key then some v else fields.lookup key' := by
  induction fields with
  | nil =>
    by_cases hkey : key' = key
    · simp [setField, hkey]
    · have hne : (key' == key) = false := by simpa using hkey
      simp [setField, List.lookup_cons, hkey, hne]
  | cons entry rest ih =>
    obtain ⟨name, old⟩ := entry
    by_cases hname : name = key
    · subst hname
      by_cases hkey : key' = name
      · simp [setField, hkey]
      · have hne : (key' == name) = false := by simpa using hkey
        simp [setField, List.lookup_cons, hkey, hne]
    · rw [setField, if_neg hname]
      by_cases hkey : key' = name
      · subst hkey
        simp [hname]
      · have hne : (key' == name) = false := by simpa using hkey
        simp [List.lookup_cons, hne, ih]

theorem get_set {key key' : String} {v j : Json} (hobj : ∃ fields, j = obj fields) :
    (j.set key v).get key' = if key' = key then some v else j.get key' := by
  obtain ⟨fields, rfl⟩ := hobj
  exact lookup_setField key key' v fields

theorem get_set_self {key : String} {v j : Json} (hobj : ∃ fields, j = obj fields) :
    (j.set key v).get key = some v := by
  rw [get_set hobj, if_pos rfl]

theorem get_set_ne {key key' : String} {v j : Json} (hne : key' ≠ key) :
    (j.set key v).get key' = j.get key' := by
  cases j with
  | obj fields =>
    rw [get_set ⟨fields, rfl⟩, if_neg hne]
  | _ => rfl

theorem set_obj {key : String} {v j : Json} (hobj : ∃ fields, j = obj fields) :
    ∃ fields, j.set key v = obj fields := by
  obtain ⟨fields, rfl⟩ := hobj
  exact ⟨_, rfl⟩

mutual

/-- Equality of values. The members of an object have no order. -/
def same : Json → Json → Bool
  | null, null => true
  | bool a, bool b => a == b
  | number a, number b => a == b
  | str a, str b => a == b
  | arr xs, arr ys => sameItems xs ys
  | obj xs, obj ys => xs.length == ys.length && sameFields xs ys
  | _, _ => false

def sameItems : List Json → List Json → Bool
  | [], [] => true
  | x :: xs, y :: ys => same x y && sameItems xs ys
  | _, _ => false

def sameFields : List (String × Json) → List (String × Json) → Bool
  | [], _ => true
  | (key, x) :: xs, ys =>
    (match ys.lookup key with
      | some y => same x y
      | none => false) && sameFields xs ys

end

/-- No two of the values are the same. -/
def distinct : List Json → Bool
  | [] => true
  | x :: xs => xs.all (!same x ·) && distinct xs

theorem distinct_str {texts : List String} (h : texts.Nodup) :
    distinct (texts.map str) = true := by
  induction texts with
  | nil => rfl
  | cons t texts ih =>
    rw [List.nodup_cons] at h
    rw [List.map_cons, distinct, ih h.2, Bool.and_true, List.all_map, List.all_eq_true]
    intro t' ht'
    have hne : t ≠ t' := fun heq => h.1 (heq ▸ ht')
    simp [same, hne]

end Json

/-! ## Schemas -/

inductive JsonType where
  | null | boolean | integer | string | array | object
  deriving DecidableEq, Repr

def JsonType.has : JsonType → Json → Bool
  | null, .null => true
  | boolean, .bool _ => true
  | integer, .number q => q.den == 1
  | string, .str _ => true
  | array, .arr _ => true
  | object, .obj _ => true
  | _, _ => false

/-- A regular expression, and what it matches. -/
structure Pattern where
  text : String
  holds : String → Bool

inductive Schema where
  /-- Keywords side by side, and `allOf`. -/
  | all (schemas : List Schema)
  | anyOf (schemas : List Schema)
  /-- `if`, `then` and `else`. -/
  | cond (test yes no : Schema)
  | type (t : JsonType)
  | const (text : String)
  | enum (texts : List String)
  | pattern (p : Pattern)
  | minLength (n : Nat)
  | minimum (n : Int)
  | exclusiveMinimum (n : Int)
  | items (s : Schema)
  | minItems (n : Nat)
  | uniqueItems
  | properties (ps : List (String × Schema))
  /-- `additionalProperties: false` beside the properties of these names. -/
  | closed (names : List String)
  | required (names : List String)

namespace Schema

mutual

def valid : Schema → Json → Bool
  | all schemas, j => validAll schemas j
  | anyOf schemas, j => validAny schemas j
  | cond test yes no, j => if valid test j then valid yes j else valid no j
  | type t, j => t.has j
  | const text, j =>
    match j with
    | .str s => s == text
    | _ => false
  | enum texts, j =>
    match j with
    | .str s => texts.contains s
    | _ => false
  | pattern p, j =>
    match j with
    | .str s => p.holds s
    | _ => true
  | minLength n, j =>
    match j with
    | .str s => decide (n ≤ s.length)
    | _ => true
  | minimum n, j =>
    match j with
    | .number q => decide ((n : Rat) ≤ q)
    | _ => true
  | exclusiveMinimum n, j =>
    match j with
    | .number q => decide ((n : Rat) < q)
    | _ => true
  | items s, j =>
    match j with
    | .arr xs => xs.all (valid s ·)
    | _ => true
  | minItems n, j =>
    match j with
    | .arr xs => decide (n ≤ xs.length)
    | _ => true
  | uniqueItems, j =>
    match j with
    | .arr xs => Json.distinct xs
    | _ => true
  | properties ps, j => validProps ps j
  | closed names, j =>
    match j with
    | .obj fields => fields.all fun entry => names.contains entry.1
    | _ => true
  | required names, j =>
    match j with
    | .obj _ => names.all fun name => (j.get name).isSome
    | _ => true

def validAll : List Schema → Json → Bool
  | [], _ => true
  | s :: schemas, j => valid s j && validAll schemas j

def validAny : List Schema → Json → Bool
  | [], _ => false
  | s :: schemas, j => valid s j || validAny schemas j

def validProps : List (String × Schema) → Json → Bool
  | [], _ => true
  | (name, s) :: ps, j =>
    (match j.get name with
      | some v => valid s v
      | none => true) && validProps ps j

end

theorem validAll_iff {schemas : List Schema} {j : Json} :
    validAll schemas j = true ↔ ∀ s ∈ schemas, s.valid j = true := by
  induction schemas with
  | nil => simp [validAll]
  | cons s schemas ih => simp [validAll, ih]

theorem validProps_iff {ps : List (String × Schema)} {j : Json} :
    validProps ps j = true ↔
      ∀ p ∈ ps, ∀ v, j.get p.1 = some v → p.2.valid v = true := by
  induction ps with
  | nil => simp [validProps]
  | cons p ps ih =>
    obtain ⟨name, s⟩ := p
    rw [validProps, Bool.and_eq_true, ih, List.forall_mem_cons]
    refine and_congr_left fun _ => ?_
    cases hget : j.get name with
    | none => simp
    | some v => simp

end Schema

end JsonSchema
