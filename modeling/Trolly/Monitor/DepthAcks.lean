import Trolly.Monitor.DepthStreams
import Trolly.Std.Json

/-! Control frames on a depth socket. The last of the three readings, as a `NullResponse`,
ignores the fields it does not know and takes a missing `result` for a null one, so it accepts
rejections along with acknowledgements. -/
namespace Trolly.Monitor

open SerdeJson Trolly.Stream

variable {P Q : Type}

structure NullResponse where
  id : UInt64
  result : Option String

def nullResponseFromValue : Value → Option NullResponse
  | .object fields => do
    let id ← requiredField fields "id" Value.asU64
    let result ← optionField fields "result" optionString
    some ⟨id, result⟩
  | .array [id, result] => do
    let id ← id.asU64
    let result ← optionString result
    some ⟨id, result⟩
  | _ => none

/-- `StreamEnvelope`, a stream with the update it carries. -/
def envelopeFromValue (depthUpdate : Value → Option (DepthUpdate P Q)) :
    Value → Option (String × DepthUpdate P Q)
  | .object fields => do
    let stream ← requiredField fields "stream" Value.asStr
    let data ← requiredField fields "data" depthUpdate
    some (stream, data)
  | .array [stream, data] => do
    let stream ← stream.asStr
    let data ← depthUpdate data
    some (stream, data)
  | _ => none

/-- The three readings of one frame. `document` reads the text, with the fields of an object
in order and repeated ones kept; `depthUpdate` is how the order book crate reads an update. -/
def depthFormat (document : List UInt8 → Option Value)
    (depthUpdate : Value → Option (DepthUpdate P Q)) : DepthFormat P Q where
  envelope data := (document data).bind (envelopeFromValue depthUpdate)
  update data := (document data).bind depthUpdate
  nullResponse data := ((document data).bind nullResponseFromValue).map NullResponse.result

/-! What a control frame says. -/

def CarriesError (fields : List (String × Value)) : Prop :=
  ∃ name ∈ ["error", "code"], ∃ v ∈ valuesOf fields name, v ≠ .null

def IsIntegral : Value → Prop
  | .number (.posInt _) | .number (.negInt _) => True
  | _ => False

/-- An integral id, a result that is there and null, and no error. -/
def SuccessfulAck (v : Value) : Prop :=
  ∃ fields, v = .object fields ∧ (∃ id ∈ valuesOf fields "id", IsIntegral id) ∧
    .null ∈ valuesOf fields "result" ∧ ¬ CarriesError fields

/-- A reply to a request that failed, whatever else it carries. -/
def Rejection (v : Value) : Prop :=
  ∃ fields, v = .object fields ∧ valuesOf fields "id" ≠ [] ∧ CarriesError fields

section Readings

variable (depthUpdate : Value → Option (DepthUpdate P Q))

/-- Neither an envelope nor a bare update. -/
def NoUpdate (v : Value) : Prop := envelopeFromValue depthUpdate v = none ∧ depthUpdate v = none

/-- One unsigned id, and a result that is null or missing. -/
def AckShaped (fields : List (String × Value)) : Prop :=
  (∃ id, valuesOf fields "id" = [.number (.posInt id)]) ∧
    (valuesOf fields "result" = [] ∨ valuesOf fields "result" = [.null])

def readsAsAck (v : Value) : Prop := (nullResponseFromValue v).map NullResponse.result = some none

theorem asU64_eq_some {v : Value} {n : UInt64} (read : v.asU64 = some n) :
    v = .number (.posInt n) := by
  cases v with
  | number number =>
    cases number with
    | posInt m => exact congrArg (fun k => Value.number (.posInt k)) (Option.some.inj read)
    | _ => cases read
  | _ => cases read

theorem optionString_eq_none {v : Value} (read : optionString v = some none) : v = .null := by
  cases v with
  | null => rfl
  | string s => simp [optionString] at read
  | _ => cases read

theorem requiredField_eq_some {T : Type} {fields : List (String × Value)} {name : String}
    {read : Value → Option T} {x : T} (found : requiredField fields name read = some x) :
    ∃ v, valuesOf fields name = [v] ∧ read v = some x := by
  unfold requiredField at found
  split at found
  · rename_i v single
    exact ⟨v, single, found⟩
  · cases found

theorem optionField_eq_none {T : Type} {fields : List (String × Value)} {name : String}
    {read : Value → Option (Option T)} (found : optionField fields name read = some none) :
    valuesOf fields name = [] ∨ ∃ v, valuesOf fields name = [v] ∧ read v = some none := by
  unfold optionField at found
  split at found
  · rename_i missing
    exact Or.inl missing
  · rename_i v single
    exact Or.inr ⟨v, single, found⟩
  · cases found

/-- The third reading takes for an ack every ack-shaped object, and the bare pair. -/
theorem readsAsAck_iff (v : Value) :
    readsAsAck v ↔ (∃ fields, v = .object fields ∧ AckShaped fields) ∨
      ∃ id, v = .array [.number (.posInt id), .null] := by
  constructor
  · intro ack
    obtain ⟨response, read, noResult⟩ := Option.map_eq_some_iff.mp ack
    unfold nullResponseFromValue at read
    split at read
    · rename_i fields
      simp only [Option.bind_eq_bind, Option.bind_eq_some_iff] at read
      obtain ⟨id, unsigned, result, optional, built⟩ := read
      cases built
      subst noResult
      refine Or.inl ⟨fields, rfl, ?_, ?_⟩
      · obtain ⟨v, single, number⟩ := requiredField_eq_some unsigned
        exact ⟨id, asU64_eq_some number ▸ single⟩
      · rcases optionField_eq_none optional with missing | ⟨v, single, null⟩
        · exact Or.inl missing
        · exact Or.inr (optionString_eq_none null ▸ single)
    · rename_i first second
      simp only [Option.bind_eq_bind, Option.bind_eq_some_iff] at read
      obtain ⟨id, unsigned, result, optional, built⟩ := read
      cases built
      subst noResult
      exact Or.inr ⟨id, by rw [asU64_eq_some unsigned, optionString_eq_none optional]⟩
    · cases read
  · rintro (⟨fields, rfl, ⟨id, unsigned⟩, missing | null⟩ | ⟨id, rfl⟩)
    · simp [readsAsAck, nullResponseFromValue, requiredField, optionField, unsigned, missing,
        Value.asU64]
    · simp [readsAsAck, nullResponseFromValue, requiredField, optionField, unsigned, null,
        Value.asU64, optionString]
    · rfl

variable {document : List UInt8 → Option Value} {data : List UInt8} {v : Value}

/-- A frame that is no update is swallowed if it reads as an ack, and refused otherwise. -/
theorem parseDepthBytes_control (json : document data = some v) :
    (parseDepthBytes (depthFormat document depthUpdate) data = .ok none ↔
        NoUpdate depthUpdate v ∧ readsAsAck v) ∧
      ((∃ e, parseDepthBytes (depthFormat document depthUpdate) data = .error e) ↔
        NoUpdate depthUpdate v ∧ ¬ readsAsAck v) := by
  unfold parseDepthBytes NoUpdate readsAsAck
  simp only [depthFormat, json, Option.bind_some]
  cases envelopeFromValue depthUpdate v with
  | some envelope =>
    simp only [reduceCtorEq, false_and, iff_false]
    split <;> simp
  | none =>
    cases depthUpdate v with
    | some update => simp
    | none =>
      rcases (nullResponseFromValue v).map NullResponse.result with _ | _ | _ <;> simp

/-- A frame that cannot be mistaken: a rejection does not read as an update, and what falls
through to the third reading in the shape of an ack has its null result and carries no error. -/
structure Unmistakable (v : Value) : Prop where
  rejection : Rejection v → NoUpdate depthUpdate v
  ack : NoUpdate depthUpdate v → ∀ fields, v = .object fields → AckShaped fields →
    valuesOf fields "result" ≠ [] ∧ ¬ CarriesError fields
  pair : NoUpdate depthUpdate v → ∀ id, v ≠ .array [.number (.posInt id), .null]

/-- Only a successful acknowledgement is swallowed and every rejection is an error, for the
frames that cannot be mistaken and for no others. -/
theorem acks_told_apart_iff (json : document data = some v) :
    ((parseDepthBytes (depthFormat document depthUpdate) data = .ok none → SuccessfulAck v) ∧
      (Rejection v →
        ∃ e, parseDepthBytes (depthFormat document depthUpdate) data = .error e)) ↔
      Unmistakable depthUpdate v := by
  obtain ⟨swallowed, refused⟩ := parseDepthBytes_control depthUpdate json
  rw [swallowed, refused]
  constructor
  · rintro ⟨benign, rejected⟩
    refine ⟨fun rejection => (rejected rejection).1, ?_, ?_⟩
    · rintro noUpdate fields rfl shaped
      have ack : readsAsAck (.object fields) := (readsAsAck_iff _).mpr (.inl ⟨fields, rfl, shaped⟩)
      obtain ⟨fields', same, _, result, clean⟩ := benign ⟨noUpdate, ack⟩
      cases same
      exact ⟨List.ne_nil_of_mem result, clean⟩
    · rintro noUpdate id rfl
      have ack := (readsAsAck_iff (.array [.number (.posInt id), .null])).mpr (.inr ⟨id, rfl⟩)
      obtain ⟨fields, same, _⟩ := benign ⟨noUpdate, ack⟩
      cases same
  · intro unmistakable
    constructor
    · rintro ⟨noUpdate, ack⟩
      rcases (readsAsAck_iff v).mp ack with ⟨fields, rfl, shaped⟩ | ⟨id, rfl⟩
      · obtain ⟨present, clean⟩ := unmistakable.ack noUpdate fields rfl shaped
        obtain ⟨⟨id, unsigned⟩, missing | null⟩ := shaped
        · exact absurd missing present
        · exact ⟨fields, rfl, ⟨.number (.posInt id), by simp [unsigned], trivial⟩,
            by simp [null], clean⟩
      · exact absurd rfl (unmistakable.pair noUpdate id)
    · intro rejection
      have noUpdate := unmistakable.rejection rejection
      refine ⟨noUpdate, fun ack => ?_⟩
      obtain ⟨fields, rfl, _, error⟩ := rejection
      rcases (readsAsAck_iff _).mp ack with ⟨fields', same, shaped⟩ | ⟨id, pair⟩
      · cases same
        exact (unmistakable.ack noUpdate fields rfl shaped).2 error
      · cases pair

end Readings

/-! The reply to a subscription that the venue refuses. -/

def refusedText : String :=
  "\x7b\"error\":\x7b\"code\":2,\"msg\":\"Invalid request\"\x7d,\"id\":1\x7d"

def refusedReply : Value :=
  .object [("error", .object [("code", .number (.posInt 2)), ("msg", .string "Invalid request")]),
    ("id", .number (.posInt 1))]

def refusedDocument (data : List UInt8) : Option Value :=
  if data = Utf8.bytes refusedText then some refusedReply else none

/-- The reader of an update, on a frame that has none of its fields. -/
def noDepthUpdate (_ : Value) : Option (DepthUpdate Nat Nat) := none

/-- The refusal carries an error and is swallowed as benign. -/
theorem refusal_swallowed :
    refusedDocument (Utf8.bytes refusedText) = some refusedReply ∧ Rejection refusedReply ∧
      parseDepthBytes (depthFormat refusedDocument noDepthUpdate) (Utf8.bytes refusedText) =
        .ok none := by
  have json : refusedDocument (Utf8.bytes refusedText) = some refusedReply := if_pos rfl
  refine ⟨json, ⟨_, rfl, ?_, "error", by decide, _, .head _, by simp⟩, ?_⟩
  · simp [valuesOf]
  · refine (parseDepthBytes_control noDepthUpdate json).1.mpr ⟨⟨rfl, rfl⟩, ?_⟩
    rfl

theorem acks_told_apart_refused :
    ((parseDepthBytes (depthFormat refusedDocument noDepthUpdate) (Utf8.bytes refusedText) =
          .ok none → SuccessfulAck refusedReply) ∧
      (Rejection refusedReply → ∃ e, parseDepthBytes (depthFormat refusedDocument noDepthUpdate)
          (Utf8.bytes refusedText) = .error e)) ↔
      Unmistakable noDepthUpdate refusedReply :=
  acks_told_apart_iff noDepthUpdate (if_pos rfl)

end Trolly.Monitor
