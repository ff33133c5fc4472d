import Trolly.Lib.FormUrlencoded
import Trolly.Lib.SortedMap
import Trolly.Std.Text
import Mathlib.Data.String.Basic

/-! Signed parameters of the REST calls: `key=value` pairs in key order, joined by `&`,
and the hexadecimal HMAC of that text. -/
namespace Trolly.Exec

open Utf8 FormUrlencoded

abbrev Params := SortedMap String String

/-- `hex::encode`. -/
def hexEncode (bs : List UInt8) : String :=
  String.ofList (bs.flatMap (fun b => [Nat.digitChar (b.toNat / 16), Nat.digitChar (b.toNat % 16)]))

/-- HMAC-SHA256 of a key and a message. -/
abbrev Hmac := List UInt8 → List UInt8 → List UInt8

def signHmacSha256Hex (hmac : Hmac) (secretKey payload : String) : String :=
  hexEncode (hmac (bytes secretKey) (bytes payload))

/-- What is digested, behind its key: an HMAC that shows its input. -/
def undigested : Hmac := fun secretKey payload => secretKey ++ payload

def payloadOf (entries : List (String × String)) : String :=
  "&".intercalate (entries.map (fun entry => entry.1 ++ "=" ++ entry.2))

def signedParamsPayload (params : Params) : String := payloadOf params.entries

/-- `current_timestamp_ms().to_string()`. -/
def timestampText (now : UInt64) : String := String.ofList (Rust.natToChars now.toNat)

def stamp (params : Params) (now : UInt64) : Params := params.insert "timestamp" (timestampText now)

/-- The second half of `build_signed_form_params`: timestamp, then signature. -/
def signFormParams (hmac : Hmac) (secretKey : String) (now : UInt64) (params : Params) : Params :=
  (stamp params now).insert "signature"
    (signHmacSha256Hex hmac secretKey (signedParamsPayload (stamp params now)))

theorem bytes_payloadOf (entries : List (String × String)) :
    bytes (payloadOf entries) = join entries := by
  induction entries with
  | nil => rfl
  | cons entry rest ih =>
    have single : bytes (entry.1 ++ "=" ++ entry.2) = pair entry := by
      rw [bytes_append, bytes_append, List.append_assoc]
      rfl
    cases rest with
    | nil => rw [payloadOf, List.map_singleton, String.intercalate_singleton, single, join_single]
    | cons next rest =>
      rw [payloadOf, List.map_cons] at ih
      rw [payloadOf, List.map_cons, List.map_cons, String.intercalate_cons_cons, bytes_append,
        bytes_append, single, ih, join_cons_cons, List.append_assoc]
      rfl

end Trolly.Exec
