import JsonRpcClient.Core.Serde

/-!
# Errors (error.rs) and panics

`Error` keeps what a caller can tell apart: the variant and its data. The payloads of `SerdeError`
and `InvalidUTF8Str` are the third-party error values, which nothing here inspects, and a
`TransportError` carries the text it was made from.

`Outcome` is the result of a call that may return `Ok`, return `Err` or panic.
-/

namespace JsonRpc

/-- `JsonRpcErrorCode` (error.rs:13). -/
inductive JsonRpcErrorCode where
  | ParseError
  | InvalidRequest
  | MethodNotFound
  | InvalidParams
  | InternalError
  | ServerError (code : Int)
  | Other (code : Int)
deriving DecidableEq, Repr

/-- `From<i64> for JsonRpcErrorCode` (error.rs:30). -/
def JsonRpcErrorCode.ofI64 (code : Int) : JsonRpcErrorCode :=
  if code = -32700 then .ParseError
  else if code = -32600 then .InvalidRequest
  else if code = -32601 then .MethodNotFound
  else if code = -32602 then .InvalidParams
  else if code = -32603 then .InternalError
  else if -32099 ≤ code ∧ code ≤ -32000 then .ServerError code
  else .Other code

/-- `From<JsonRpcErrorCode> for i64` (error.rs:44). -/
def JsonRpcErrorCode.toI64 : JsonRpcErrorCode → Int
  | .ParseError => -32700
  | .InvalidRequest => -32600
  | .MethodNotFound => -32601
  | .InvalidParams => -32602
  | .InternalError => -32603
  | .ServerError code => code
  | .Other code => code

/-- No code is lost in the conversion. -/
theorem JsonRpcErrorCode.toI64_ofI64 (code : Int) : (ofI64 code).toI64 = code := by
  unfold ofI64
  repeat' split
  all_goals simp_all [toI64]

/-- A `std::time::Duration`, in nanoseconds. -/
abbrev Duration := Nat

/-- `Error` (error.rs:62). -/
inductive Error where
  | RpcError (id : Option RequestId) (code : JsonRpcErrorCode) (message : String)
      (data : Option RawValue)
  | SerdeError
  | InvalidParams
  | InvalidUTF8Str
  | RequestTimeout (after : Duration)
  | InvalidMessage (text : String)
  | TransportError (text : String)
  | NotificationsMissed (n : Nat)
deriving DecidableEq

/-- The crate's `Result` alias (result.rs). -/
abbrev Result := Except Error

/-- A `serde_json` failure propagated by `?` or `map_err(Error::SerdeError)`. -/
def serdeOk {α : Type} : Option α → Result α
  | some a => .ok a
  | none => .error .SerdeError

@[simp] theorem serdeOk_eq_ok {α : Type} {x : Option α} {a : α} : serdeOk x = .ok a ↔
    x = some a := by
  cases x <;> simp [serdeOk]

/-! ## `Outcome` -/

inductive Outcome (α : Type) where
  | ret (r : Result α)
  | panic

namespace Outcome
variable {α β : Type}

def ok (a : α) : Outcome α := .ret (.ok a)
def err (e : Error) : Outcome α := .ret (.error e)

/-- `?`: an `Err` or a panic ends the function. -/
def bind (x : Outcome α) (f : α → Outcome β) : Outcome β :=
  match x with
  | .ret (.ok a) => f a
  | .ret (.error e) => .ret (.error e)
  | .panic => .panic

/-- A checked operation: `none` is its panic. -/
def ofOption : Option α → Outcome α
  | some a => .ok a
  | none => .panic

instance : Monad Outcome where
  pure := ok
  bind := bind

@[simp] theorem pure_eq (a : α) : (pure a : Outcome α) = ok a := rfl
@[simp] theorem bind_eq (x : Outcome α) (f : α → Outcome β) : x >>= f = x.bind f := rfl
@[simp] theorem ok_bind (a : α) (f : α → Outcome β) : (ok a).bind f = f a := rfl
@[simp] theorem ret_ok_bind (a : α) (f : α → Outcome β) : (Outcome.ret (.ok a)).bind f = f a := rfl
@[simp] theorem err_bind (e : Error) (f : α → Outcome β) : (err e : Outcome α).bind f = err e := rfl
@[simp] theorem ret_error_bind (e : Error) (f : α → Outcome β) :
    (Outcome.ret (.error e) : Outcome α).bind f = err e := rfl
@[simp] theorem panic_bind (f : α → Outcome β) : (panic : Outcome α).bind f = panic := rfl
@[simp] theorem ofOption_some (a : α) : ofOption (some a) = ok a := rfl
@[simp] theorem ofOption_none : (ofOption none : Outcome α) = panic := rfl
@[simp] theorem ok_inj {a b : α} : ok a = ok b ↔ a = b := by simp [ok]

end Outcome

end JsonRpc
