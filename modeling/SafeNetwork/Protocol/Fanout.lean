import SafeNetwork.Protocol.Messages

/-! The loops that end every reduction of a close group's responses, against the spec's rule. -/
namespace SafeNetwork.Fanout

variable {ε α β : Type} (protocol : ProtocolError → ε)
  (kind : Response → Option (Except ProtocolError α)) (unexpected : ε)

/-- `for resp in responses.iter().flatten() { if let <kind>(result) = resp { result.clone()?; } }` -/
def firstProtocolError : List (Except ε Response) → Except ε Unit
  | [] => .ok ()
  | .ok resp :: rs =>
    match kind resp with
    | some (.error e) => .error (protocol e)
    | _ => firstProtocolError rs
  | .error _ :: rs => firstProtocolError rs

/-- `for resp in responses { let _ = resp?; }` -/
def firstSendError : List (Except ε Response) → Except ε Unit
  | [] => .ok ()
  | .ok _ :: rs => firstSendError rs
  | .error e :: _ => .error e

/-- The tail `get_spend`, `get_register` and `publish_register_*` share when nothing succeeded. -/
def errorOfResponses (responses : List (Except ε Response)) : Except ε β := do
  firstProtocolError protocol kind responses
  firstSendError responses
  throw unexpected

/-- The payload of a successful response of the expected kind. -/
def payload : Except ε Response → Option α
  | .ok resp => match kind resp with
    | some (.ok a) => some a
    | _ => none
  | .error _ => none

/-- The payloads of the successful responses of the expected kind, in order. -/
def payloads (responses : List (Except ε Response)) : List α := responses.filterMap (payload kind)

/-! ### The spec's rule: the first per-peer error, else the first transport error -/

/-- The protocol error a peer answered with, for a response of the expected kind. -/
def peerError : Except ε Response → Option ProtocolError
  | .ok resp => match kind resp with
    | some (.error e) => some e
    | _ => none
  | .error _ => none

def transportError : Except ε Response → Option ε
  | .ok _ => none
  | .error e => some e

def surfacedError (responses : List (Except ε Response)) : ε :=
  match responses.findSome? (peerError kind) with
  | some e => protocol e
  | none => (responses.findSome? transportError).getD unexpected

variable {protocol kind unexpected}

theorem firstProtocolError_eq (rs : List (Except ε Response)) :
    firstProtocolError protocol kind rs =
      match rs.findSome? (peerError kind) with
      | some e => .error (protocol e)
      | none => .ok () := by
  induction rs with
  | nil => rfl
  | cons r rs ih =>
    rcases r with _ | resp
    · simpa [firstProtocolError, peerError] using ih
    · rcases h : kind resp with _ | _ | _ <;> simp [firstProtocolError, peerError, h, ih]

theorem firstSendError_eq (rs : List (Except ε Response)) :
    firstSendError rs =
      match rs.findSome? transportError with
      | some e => .error e
      | none => .ok () := by
  induction rs with
  | nil => rfl
  | cons r rs ih => rcases r with _ | _ <;> simp [firstSendError, transportError, ih]

/-- The first payload is the one of the first response that carries one. -/
theorem head?_payloads (rs : List (Except ε Response)) :
    (payloads kind rs).head? = rs.findSome? (payload kind) := by
  induction rs with
  | nil => rfl
  | cons r rs ih => cases h : payload kind r <;> simp_all [payloads, List.filterMap_cons]

/-- The code's fallback loops surface exactly the error the spec names. -/
theorem errorOfResponses_eq (rs : List (Except ε Response)) :
    (errorOfResponses protocol kind unexpected rs : Except ε β) =
      .error (surfacedError protocol kind unexpected rs) := by
  simp only [errorOfResponses, surfacedError, firstProtocolError_eq, firstSendError_eq]
  rcases rs.findSome? (peerError kind) with _ | e
  · rcases rs.findSome? transportError with _ | e <;> rfl
  · rfl

end SafeNetwork.Fanout
