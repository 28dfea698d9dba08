import SafeNetwork.Protocol.Fanout

/-! The client's reductions of a close group's responses to register commands and queries. -/
namespace SafeNetwork.SnClient

open Fanout

/-- `sn_client::Error`, not in the source, by the variants the modelled code produces. -/
inductive ClientError
  | protocol (e : ProtocolError)
  | register (e : RegisterError)
  | network (e : NetworkError)
  | responseTimeout (e : Elapsed)
  | contentBranchDetected (branches : List (EntryHash × Entry))
  | unexpectedResponses
deriving DecidableEq

/-- What the client's `send_to_closest` returns: the lookup's failure, or one entry per peer. -/
abbrev ClientResponses := Except ClientError (List (Except ClientError Response))

def createRegisterResult : Response → Option (Except ProtocolError Unit)
  | .cmd (.createRegister result) => some result
  | _ => none

def editRegisterResult : Response → Option (Except ProtocolError Unit)
  | .cmd (.editRegister result) => some result
  | _ => none

def registerResult : Response → Option (Except ProtocolError Register)
  | .query (.getRegister result) => some result
  | _ => none

/-- `matches!(resp, Ok(Response::Cmd(<kind>(Ok(())))))` -/
def acknowledged (kind : Response → Option (Except ProtocolError Unit)) :
    Except ClientError Response → Bool
  | .ok resp => kind resp == some (.ok ())
  | .error _ => false

/-- `publish_register_create` and `publish_register_edit`, by the response kind they expect. -/
def publishRegister (kind : Response → Option (Except ProtocolError Unit))
    (sendToClosest : Request → ClientResponses) (cmd : RegisterCmd) : Except ClientError Unit := do
  let responses ← sendToClosest (.cmd (.register cmd))
  let allOk := responses.all (acknowledged kind)
  if allOk then .ok ()
  else errorOfResponses ClientError.protocol kind .unexpectedResponses responses

def publishRegisterCreate (sendToClosest : Request → ClientResponses) (cmd : RegisterCmd) :
    Except ClientError Unit :=
  publishRegister createRegisterResult sendToClosest cmd

def publishRegisterEdit (sendToClosest : Request → ClientResponses) (cmd : RegisterCmd) :
    Except ClientError Unit :=
  publishRegister editRegisterResult sendToClosest cmd

/-- `get_register`: the first register any peer returned, else the first error. -/
def getRegister (sendToClosest : Request → ClientResponses) (name : XorName) (tag : UInt64) :
    Except ClientError Register := do
  let address : RegisterAddress := ⟨name, tag⟩
  let responses ← sendToClosest (.query (.register (.get address)))
  match (payloads registerResult responses).head? with
  | some register => .ok register
  | none => errorOfResponses ClientError.protocol registerResult .unexpectedResponses responses

variable {kind : Response → Option (Except ProtocolError Unit)} {sendToClosest : Request → ClientResponses}
  {cmd : RegisterCmd}

/-- `Ok` when every entry is `Ok(())` of the expected kind, however many; else the spec's error. -/
theorem publishRegister_eq (rs : List (Except ClientError Response))
    (h : sendToClosest (.cmd (.register cmd)) = .ok rs) :
    publishRegister kind sendToClosest cmd =
      if rs.all (acknowledged kind) then .ok ()
      else .error (surfacedError ClientError.protocol kind .unexpectedResponses rs) := by
  simp only [publishRegister, h, bind, Except.bind]
  split_ifs
  · rfl
  · exact errorOfResponses_eq rs

/-- Any number of acknowledgements, none at all included, publishes an edit or a creation. -/
theorem publishRegister_acknowledged (n : Nat) (cmd : RegisterCmd) :
    publishRegisterEdit (fun _ => .ok (List.replicate n (.ok (.cmd (.editRegister (.ok ())))))) cmd =
        .ok () ∧
      publishRegisterCreate
        (fun _ => .ok (List.replicate n (.ok (.cmd (.createRegister (.ok ())))))) cmd = .ok () := by
  constructor
  · rw [publishRegisterEdit, publishRegister_eq _ rfl, if_pos]
    simp [acknowledged, editRegisterResult]
  · rw [publishRegisterCreate, publishRegister_eq _ rfl, if_pos]
    simp [acknowledged, createRegisterResult]

/-- `get_register` is the spec's first-success rule, and never masks a peer's protocol error. -/
theorem getRegister_reference (name : XorName) (tag : UInt64) (rs : List (Except ClientError Response))
    (h : sendToClosest (.query (.register (.get ⟨name, tag⟩))) = .ok rs) :
    getRegister sendToClosest name tag =
        (match rs.findSome? (payload registerResult) with
        | some register => .ok register
        | none => .error (surfacedError ClientError.protocol registerResult .unexpectedResponses rs)) ∧
      ∀ e, rs.findSome? (payload registerResult) = none → rs.findSome? (peerError registerResult) = some e →
        getRegister sendToClosest name tag = .error (.protocol e) := by
  have hg : getRegister sendToClosest name tag =
      match rs.findSome? (payload registerResult) with
      | some register => .ok register
      | none => .error (surfacedError ClientError.protocol registerResult .unexpectedResponses rs) := by
    simp only [getRegister, h, bind, Except.bind, head?_payloads]
    split
    · rfl
    · exact errorOfResponses_eq rs
  exact ⟨hg, fun e hnone he => by simp [hg, hnone, surfacedError, he]⟩

def zeroAddress : RegisterAddress := ⟨⟨List.replicate 32 0, rfl⟩, 0⟩

/-- One peer timed out, one has no such register, and one returned an empty register. -/
def mixedResponses : List (Except ClientError Response) :=
  [.error (.responseTimeout {}), .ok (.query (.getRegister (.error (.registerNotFound zeroAddress)))),
    .ok (.query (.getRegister (.ok ⟨.anyone, zeroAddress.name, 0, [], []⟩)))]

theorem getRegister_reference_mixed :
    getRegister (fun _ => .ok mixedResponses) zeroAddress.name zeroAddress.tag =
        .ok ⟨.anyone, zeroAddress.name, 0, [], []⟩ ∧
      getRegister (fun _ => .ok mixedResponses.dropLast) zeroAddress.name zeroAddress.tag =
        .error (.protocol (.registerNotFound zeroAddress)) :=
  ⟨(@getRegister_reference (fun _ => .ok mixedResponses) _ _ _ rfl).1.trans rfl,
    (@getRegister_reference (fun _ => .ok mixedResponses.dropLast) _ _ _ rfl).2 _ rfl rfl⟩

end SafeNetwork.SnClient
