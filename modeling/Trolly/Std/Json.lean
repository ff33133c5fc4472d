import Mathlib.Init

/-! The part of `serde_json` that the parsers read: values, not their text.
Turning text into a value is left to the crate, as a parameter of every parser. -/
namespace SerdeJson

/-- `serde_json::Number`: an unsigned, a negative or a floating-point number. -/
inductive Number where
  | posInt (n : UInt64)
  | negInt (n : Int64)
  | float (text : String)

/-- `serde_json::Value`; the keys of an object that the crate builds are distinct. -/
inductive Value where
  | null
  | bool (b : Bool)
  | number (n : Number)
  | string (s : String)
  | array (items : List Value)
  | object (fields : List (String × Value))

namespace Value

/-- `Value::get` with a string index: nothing unless the value is an object. -/
def get (v : Value) (key : String) : Option Value :=
  match v with
  | object fields => fields.lookup key
  | _ => none

def asStr : Value → Option String
  | string s => some s
  | _ => none

def asBool : Value → Option Bool
  | bool b => some b
  | _ => none

def asArray : Value → Option (List Value)
  | array items => some items
  | _ => none

def asU64 : Value → Option UInt64
  | number (.posInt n) => some n
  | _ => none

def asI64 : Value → Option Int64
  | number (.posInt n) => if n ≤ Int64.maxValue.toUInt64 then some n.toInt64 else none
  | number (.negInt n) => some n
  | _ => none

end Value

/-! The derived readers. A struct is read from an object by name, where a repeated name is an
error and an unknown one is ignored, or from an array of exactly its fields. -/

def valuesOf (fields : List (String × Value)) (name : String) : List Value :=
  (fields.filter (fun field => field.1 == name)).map Prod.snd

def requiredField {T : Type} (fields : List (String × Value)) (name : String)
    (read : Value → Option T) : Option T :=
  match valuesOf fields name with
  | [v] => read v
  | _ => none

/-- An `Option` field that is missing is `None`. -/
def optionField {T : Type} (fields : List (String × Value)) (name : String)
    (read : Value → Option (Option T)) : Option (Option T) :=
  match valuesOf fields name with
  | [] => some none
  | [v] => read v
  | _ => none

def optionString : Value → Option (Option String)
  | .null => some none
  | .string s => some (some s)
  | _ => none

def optionU64 : Value → Option (Option UInt64)
  | .null => some none
  | v => v.asU64.map some

/-- An internally tagged value: its tag, given once as a text, and the content without it. -/
def takeTag (name : String) : Value → Option (String × Value)
  | .object fields => do
    let tag ← requiredField fields name Value.asStr
    some (tag, .object (fields.filter (fun field => field.1 != name)))
  | .array (tag :: content) => do
    let tag ← tag.asStr
    some (tag, .array content)
  | _ => none

/-- A field under `skip_serializing_if = "Option::is_none"`. -/
def presentField {T : Type} (name : String) (write : T → Value) : Option T → List (String × Value)
  | none => []
  | some x => [(name, write x)]

/-- Texts and unsigned integers in arrays and objects, nested at most so deep. -/
def Value.Plain : Nat → Value → Prop
  | _, .string _ => True
  | _, .number (.posInt _) => True
  | depth + 1, .array items => ∀ v ∈ items, Value.Plain depth v
  | depth + 1, .object fields => ∀ field ∈ fields, Value.Plain depth field.2
  | _, _ => False

/-- What a plain value is, and what it contains. -/
theorem Value.Plain.shape {depth : Nat} {v : Value} (plain : v.Plain depth) :
    (∃ s, v = .string s) ∨ (∃ n, v = .number (.posInt n)) ∨
      ∃ below, depth = below + 1 ∧
        ((∃ items, v = .array items ∧ ∀ item ∈ items, item.Plain below) ∨
          ∃ fields, v = .object fields ∧ ∀ field ∈ fields, field.2.Plain below) := by
  cases v with
  | string s => exact Or.inl ⟨s, rfl⟩
  | number number =>
    cases number with
    | posInt n => exact Or.inr (Or.inl ⟨n, rfl⟩)
    | _ => cases depth <;> exact plain.elim
  | array items =>
    cases depth with
    | zero => exact plain.elim
    | succ below => exact Or.inr (Or.inr ⟨below, rfl, Or.inl ⟨items, rfl, plain⟩⟩)
  | object fields =>
    cases depth with
    | zero => exact plain.elim
    | succ below => exact Or.inr (Or.inr ⟨below, rfl, Or.inr ⟨fields, rfl, plain⟩⟩)
  | _ => cases depth <;> exact plain.elim

section Fields

variable {fields : List (String × Value)} {name : String}

@[simp] theorem valuesOf_nil (name : String) : valuesOf [] name = [] := rfl

@[simp] theorem valuesOf_cons (key : String) (v : Value) (fields : List (String × Value))
    (name : String) : valuesOf ((key, v) :: fields) name =
      if key = name then v :: valuesOf fields name else valuesOf fields name := by
  by_cases same : key = name <;> simp [valuesOf, same]

theorem valuesOf_absent (absent : ∀ field ∈ fields, field.1 ≠ name) :
    valuesOf fields name = [] := by
  simpa [valuesOf] using absent

theorem takeTag_cons {tag : String} (absent : ∀ field ∈ fields, field.1 ≠ name) :
    takeTag name (.object ((name, .string tag) :: fields)) = some (tag, .object fields) := by
  have others : fields.filter (fun field => field.1 != name) = fields :=
    List.filter_eq_self.mpr (fun field member => bne_iff_ne.mpr (absent field member))
  simp [takeTag, requiredField, valuesOf_absent absent, Value.asStr, others]

end Fields

end SerdeJson
