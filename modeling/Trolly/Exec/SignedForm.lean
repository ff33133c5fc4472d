import Trolly.Exec.Orders

/-! What a receiver reads in the form of a signed order. Nothing in it is escaped, so it
comes back as it was exactly when no value has a byte with a meaning of its own. -/
namespace Trolly.Exec

open Utf8 FormUrlencoded SortedMap

/-- The form of a parameter map as a receiver decodes it. -/
def received (hmac : Hmac) (secretKey : String) (now : UInt64) (params : Params) :
    List (String × String) :=
  parse (bytes (signedParamsPayload (signFormParams hmac secretKey now params)))

/-- The form of `params` is read back as it is, is signed as it is read, and belongs to no
other parameters that `build` accepts. -/
structure RoundTrips {Request : Type} (build : Request → Except OrderBuilderError Params)
    (hmac : Hmac) (secretKey : String) (now : UInt64) (params : Params) : Prop where
  recovered : received hmac secretKey now params = (signFormParams hmac secretKey now params).entries
  once : ((received hmac secretKey now params).map Prod.fst).Nodup
  resigned : payloadOf ((received hmac secretKey now params).filter
    (fun entry => decide (entry.1 ≠ "signature"))) = signedParamsPayload (stamp params now)
  signedOnce : ∀ other params' now', build other = .ok params' →
    signedParamsPayload (stamp params' now') = signedParamsPayload (stamp params now) →
    params' = params
  sentOnce : ∀ other params' secretKey' now', build other = .ok params' →
    signedParamsPayload (signFormParams hmac secretKey' now' params') =
      signedParamsPayload (signFormParams hmac secretKey now params) →
    params' = params

def leading : Bool → List String
  | true => ["newClientOrderId"]
  | false => ["positionSide", "price", "quantity"]

/-- What the first and the last of an order's parameters tell about it. -/
structure Shaped (client : Bool) (type : OrderType) (entries : List (String × String)) : Prop where
  first : ∃ name value rest, entries = (name, value) :: rest ∧ name ∈ leading client
  last : ∃ front, entries = front ++ [("type", type.asStr)]

theorem leading_before {client : Bool} {name key : String} (leads : name ∈ leading client)
    (added : key = "timestamp" ∨ key = "signature") : name < key := by
  have all : ∀ client, ∀ name ∈ leading client, name < "timestamp" ∧ name < "signature" := by
    decide
  rcases added with rfl | rfl
  · exact (all client name leads).1
  · exact (all client name leads).2

theorem Shaped.insert {client : Bool} {type : OrderType} {entries : List (String × String)}
    (shaped : Shaped client type entries) {key : String} (value : String)
    (added : key = "timestamp" ∨ key = "signature") :
    Shaped client type (insertEntry key value entries) where
  first := by
    obtain ⟨name, first, rest, rfl, leads⟩ := shaped.first
    exact ⟨name, first, _, insertEntry_after (leading_before leads added) .., leads⟩
  last := by
    obtain ⟨front, rfl⟩ := shaped.last
    have before : key < "type" := by
      rcases added with rfl | rfl <;> decide
    exact ⟨_, insertEntry_append value front [] before⟩

theorem leading_byte {client : Bool} {name : String} (leads : name ∈ leading client)
    (tail : List UInt8) : client = decide ((bytes name ++ tail).head? = some 0x6E) := by
  cases client <;> simp only [leading, List.mem_cons, List.not_mem_nil, or_false] at leads
  · rcases leads with rfl | rfl | rfl <;> rfl
  · subst leads
    rfl

theorem Shaped.client_eq {client : Bool} {type : OrderType} {entries : List (String × String)}
    (shaped : Shaped client type entries) :
    client = decide ((join entries).head? = some 0x6E) := by
  obtain ⟨name, value, rest, rfl, leads⟩ := shaped.first
  obtain ⟨tail, split⟩ := join_cons (name, value) rest
  rw [split, pair, List.append_assoc]
  exact leading_byte leads _

theorem Shaped.type_eq {client : Bool} {type : OrderType} {entries : List (String × String)}
    (shaped : Shaped client type entries) :
    (join entries).reverse[1]? = some (if type = .limit then 0x49 else 0x45) := by
  obtain ⟨front, rfl⟩ := shaped.last
  obtain ⟨head, split⟩ := join_concat front ("type", type.asStr)
  rw [split, List.reverse_append]
  cases type <;> rfl

theorem Shaped.agree {client client' : Bool} {type type' : OrderType}
    {entries others : List (String × String)} (shaped : Shaped client type entries)
    (shaped' : Shaped client' type' others) (same : join entries = join others) :
    client = client' ∧ type = type' := by
  refine ⟨by rw [shaped.client_eq, shaped'.client_eq, same], ?_⟩
  have letters := shaped.type_eq
  rw [same, shaped'.type_eq] at letters
  cases type <;> cases type' <;> first | rfl | cases letters

def orderKeys : List String :=
  ["newClientOrderId", "positionSide", "price", "quantity", "side", "symbol", "timeInForce", "type"]

theorem isName_orderKeys : ∀ key ∈ "signature" :: "timestamp" :: orderKeys, IsName key := by
  decide

theorem orderKeys_fresh : ∀ key ∈ orderKeys, key ≠ "timestamp" ∧ key ≠ "signature" := by
  decide

theorem hexEncode_plain (bs : List UInt8) : Plain (bytes (hexEncode bs)) := by
  have digits : ∀ n < 16, (Nat.digitChar n).isAlphanum := by decide
  rw [hexEncode, bytes, String.toList_ofList]
  refine plain_of_alphanum (fun c member => ?_)
  obtain ⟨byte, -, pair⟩ := List.mem_flatMap.1 member
  have bound := byte.toNat_lt
  rcases List.mem_pair.1 pair with rfl | rfl
  · exact digits _ (by omega)
  · exact digits _ (by omega)

theorem timestampText_plain (now : UInt64) : Plain (bytes (timestampText now)) := by
  rw [timestampText, bytes, String.toList_ofList]
  refine plain_of_alphanum (fun c member => ?_)
  have digit : c.isDigit = true := Nat.isDigit_of_mem_toDigits (by decide) (by decide) member
  rw [Char.isAlphanum, digit, Bool.or_true]

/-- The parameters of a crate: which keys they have, given what their ends tell. -/
structure Regular {Request : Type} (build : Request → Except OrderBuilderError Params)
    (keys : Bool → OrderType → List String) : Prop where
  known : ∀ client type, ∀ key ∈ keys client type, key ∈ orderKeys
  shaped : ∀ request params, build request = .ok params → ∃ client type,
    params.entries.map Prod.fst = keys client type ∧ Shaped client type params.entries

section Regular

variable {Request : Type} {build : Request → Except OrderBuilderError Params}
  {keys : Bool → OrderType → List String} {request : Request} {params : Params}

theorem Regular.key_known (regular : Regular build keys) (accepted : build request = .ok params) :
    ∀ entry ∈ params.entries, entry.1 ∈ orderKeys := by
  intro entry member
  obtain ⟨client, type, same, -⟩ := regular.shaped request params accepted
  exact regular.known client type _ (same ▸ List.mem_map_of_mem member)

theorem Regular.unstamp (regular : Regular build keys) (accepted : build request = .ok params)
    (now : UInt64) : (stamp params now).entries.filter
      (fun entry => decide (entry.1 ≠ "timestamp")) = params.entries :=
  filter_insertEntry (fun key => decide (key ≠ "timestamp")) rfl (fun entry member =>
    decide_eq_true (orderKeys_fresh _ (regular.key_known accepted entry member)).1)

theorem Regular.stamp_known (regular : Regular build keys) (accepted : build request = .ok params)
    (now : UInt64) : ∀ entry ∈ (stamp params now).entries, entry.1 ∈ "timestamp" :: orderKeys := by
  intro entry member
  rcases mem_insertEntry member with rfl | old
  · exact List.mem_cons_self
  · exact List.mem_cons_of_mem _ (regular.key_known accepted entry old)

theorem Regular.unsign (regular : Regular build keys) (accepted : build request = .ok params)
    (hmac : Hmac) (secretKey : String) (now : UInt64) :
    (signFormParams hmac secretKey now params).entries.filter
      (fun entry => decide (entry.1 ≠ "signature")) = (stamp params now).entries := by
  have fresh : ∀ key ∈ "timestamp" :: orderKeys, key ≠ "signature" := by decide
  exact filter_insertEntry (fun key => decide (key ≠ "signature")) rfl (fun entry member =>
    decide_eq_true (fresh _ (regular.stamp_known accepted now entry member)))

theorem Regular.names (regular : Regular build keys) (accepted : build request = .ok params)
    (hmac : Hmac) (secretKey : String) (now : UInt64) :
    ∀ entry ∈ (signFormParams hmac secretKey now params).entries, IsName entry.1 := by
  intro entry member
  apply isName_orderKeys
  rcases mem_insertEntry member with rfl | old
  · exact List.mem_cons_self
  · exact List.mem_cons_of_mem _ (regular.stamp_known accepted now entry old)

theorem Regular.plain_iff (regular : Regular build keys) (accepted : build request = .ok params)
    (hmac : Hmac) (secretKey : String) (now : UInt64) :
    (∀ entry ∈ (signFormParams hmac secretKey now params).entries, Plain (bytes entry.2)) ↔
      ∀ entry ∈ params.entries, Plain (bytes entry.2) := by
  constructor
  · intro plain entry member
    rw [← regular.unstamp accepted now, ← regular.unsign accepted hmac secretKey now] at member
    exact plain entry (List.mem_filter.1 (List.mem_filter.1 member).1).1
  · intro plain entry member
    rcases mem_insertEntry member with rfl | signed
    · exact hexEncode_plain _
    · rcases mem_insertEntry signed with rfl | old
      · exact timestampText_plain now
      · exact plain entry old

end Regular

/-- Entries of two orders: if these are of one kind, the keys are the same. -/
structure Comparable (client client' : Bool) (type type' : OrderType)
    (entries others : List (String × String)) : Prop where
  shaped : Shaped client type entries
  shaped' : Shaped client' type' others
  keys : client = client' → type = type' → entries.map Prod.fst = others.map Prod.fst

section Comparable

variable {client client' : Bool} {type type' : OrderType} {entries others : List (String × String)}

theorem Comparable.insert (comparable : Comparable client client' type type' entries others)
    {key : String} (value value' : String) (added : key = "timestamp" ∨ key = "signature") :
    Comparable client client' type type' (insertEntry key value entries)
      (insertEntry key value' others) where
  shaped := comparable.shaped.insert value added
  shaped' := comparable.shaped'.insert value' added
  keys client type := insertEntry_keys (comparable.keys client type)

theorem Comparable.joined (comparable : Comparable client client' type type' entries others)
    (single : ∀ entry ∈ entries, 0x26 ∉ pair entry)
    (same : payloadOf others = payloadOf entries) : others = entries := by
  have texts := congrArg bytes same
  rw [bytes_payloadOf, bytes_payloadOf] at texts
  obtain ⟨rfl, rfl⟩ := comparable.shaped.agree comparable.shaped' texts.symm
  exact (join_injective (comparable.keys rfl rfl) single texts.symm).symm

end Comparable

section Main

variable {Request : Type} {build : Request → Except OrderBuilderError Params}
  {keys : Bool → OrderType → List String} {request : Request} {params : Params}

theorem Regular.stamped (regular : Regular build keys) (accepted : build request = .ok params)
    {other : Request} {params' : Params} (accepted' : build other = .ok params')
    (now now' : UInt64) : ∃ client client' type type',
      Comparable client client' type type' (stamp params now).entries
        (stamp params' now').entries := by
  obtain ⟨client, type, same, shaped⟩ := regular.shaped request params accepted
  obtain ⟨client', type', same', shaped'⟩ := regular.shaped other params' accepted'
  have comparable : Comparable client client' type type' params.entries params'.entries := by
    refine ⟨shaped, shaped', ?_⟩
    rintro rfl rfl
    rw [same, same']
  exact ⟨client, client', type, type',
    comparable.insert (timestampText now) (timestampText now') (.inl rfl)⟩

theorem Regular.stamp_injective (regular : Regular build keys)
    (accepted : build request = .ok params) {other : Request} {params' : Params}
    (accepted' : build other = .ok params')
    {now now' : UInt64} (same : (stamp params' now').entries = (stamp params now).entries) :
    params' = params := by
  apply ext_entries
  rw [← regular.unstamp accepted' now', ← regular.unstamp accepted now, same]

theorem Regular.signedOnce (regular : Regular build keys) (accepted : build request = .ok params)
    {now now' : UInt64} (single : ∀ entry ∈ (stamp params now).entries, 0x26 ∉ pair entry)
    {other : Request} {params' : Params} (accepted' : build other = .ok params')
    (same : signedParamsPayload (stamp params' now') = signedParamsPayload (stamp params now)) :
    params' = params := by
  obtain ⟨client, client', type, type', stamped⟩ := regular.stamped accepted accepted' now now'
  exact regular.stamp_injective accepted accepted' (stamped.joined single same)

theorem Regular.sentOnce (regular : Regular build keys) (accepted : build request = .ok params)
    {hmac : Hmac} {secretKey secretKey' : String} {now now' : UInt64}
    (single : ∀ entry ∈ (signFormParams hmac secretKey now params).entries, 0x26 ∉ pair entry)
    {other : Request} {params' : Params} (accepted' : build other = .ok params')
    (same : signedParamsPayload (signFormParams hmac secretKey' now' params') =
      signedParamsPayload (signFormParams hmac secretKey now params)) :
    params' = params := by
  obtain ⟨client, client', type, type', stamped⟩ := regular.stamped accepted accepted' now now'
  have signed : (signFormParams hmac secretKey' now' params').entries =
      (signFormParams hmac secretKey now params).entries :=
    (stamped.insert _ _ (.inr rfl)).joined single same
  have unsigned := regular.unsign accepted hmac secretKey now
  have unsigned' := regular.unsign accepted' hmac secretKey' now'
  exact regular.stamp_injective accepted accepted' (by rw [← unsigned', ← unsigned, signed])

/-- The form of an accepted order round-trips exactly when each of its values is plain. -/
theorem Regular.roundTrips_iff (regular : Regular build keys)
    (accepted : build request = .ok params) (hmac : Hmac) (secretKey : String) (now : UInt64) :
    RoundTrips build hmac secretKey now params ↔
      ∀ entry ∈ params.entries, Plain (bytes entry.2) := by
  have names := regular.names accepted hmac secretKey now
  have read : received hmac secretKey now params =
      parse (join (signFormParams hmac secretKey now params).entries) := by
    rw [received, signedParamsPayload, bytes_payloadOf]
  rw [← regular.plain_iff accepted hmac secretKey now, ← parse_join_iff names, ← read]
  constructor
  · exact fun roundTrips => roundTrips.recovered
  · intro recovered
    have plain := (parse_join_iff names).1 (read ▸ recovered)
    have single : ∀ entry ∈ (signFormParams hmac secretKey now params).entries,
        0x26 ∉ pair entry :=
      fun entry member => pair_single (names entry member) (plain entry member)
    have unsigned := regular.unsign accepted hmac secretKey now
    refine ⟨recovered, ?_, ?_, fun other params' now' accepted' same => ?_,
      fun other params' secretKey' now' accepted' same =>
        regular.sentOnce accepted single accepted' same⟩
    · rw [recovered]
      exact keys_nodup _
    · rw [recovered, unsigned]
      rfl
    · refine regular.signedOnce accepted (fun entry member => ?_) accepted' same
      rw [← unsigned] at member
      exact single entry (List.mem_filter.1 member).1

end Main

end Trolly.Exec
