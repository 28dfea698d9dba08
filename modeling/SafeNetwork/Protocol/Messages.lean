import SafeNetwork.Protocol.Types

/-! Requests, responses and the node's error type. -/
namespace SafeNetwork

/-- Responses carry results, so they are compared with their results' equality. -/
instance instDecidableEqExcept {ε α : Type} [DecidableEq ε] [DecidableEq α] :
    DecidableEq (Except ε α)
  | .ok a, .ok b => decidable_of_iff (a = b) (by simp)
  | .error a, .error b => decidable_of_iff (a = b) (by simp)
  | .ok _, .error _ => isFalse (by simp)
  | .error _, .ok _ => isFalse (by simp)

/-- `RegisterCmd`. `Create` carries what the client builds it from in `ClientRegister::sync`. -/
inductive RegisterCmd
  | create (owner : User) (permissions : Permissions) (name : XorName) (tag : UInt64)
  | edit (op : RegisterOp)
deriving DecidableEq

inductive RegisterQuery
  | get (address : RegisterAddress)
deriving DecidableEq

inductive Cmd
  | storeChunk (chunk : Chunk)
  | register (cmd : RegisterCmd)
  | dbc (signedSpend : SignedSpend) (sourceTx : DbcTransaction)
deriving DecidableEq

inductive Query
  | getChunk (address : ChunkAddress)
  | register (query : RegisterQuery)
  | getDbcSpend (address : DbcAddress)
deriving DecidableEq

inductive Event
  | doubleSpendAttempted (a b : SignedSpend)
deriving DecidableEq

inductive Request
  | cmd (cmd : Cmd)
  | query (query : Query)
  | event (event : Event)
deriving DecidableEq

inductive CmdResponse
  | storeChunk (result : Except ProtocolError Unit)
  | createRegister (result : Except ProtocolError Unit)
  | editRegister (result : Except ProtocolError Unit)
  | spend (result : Except ProtocolError Unit)
deriving DecidableEq

inductive QueryResponse
  | getChunk (result : Except ProtocolError Chunk)
  | getRegister (result : Except ProtocolError Register)
  | getDbcSpend (result : Except ProtocolError SignedSpend)
deriving DecidableEq

inductive Response
  | cmd (response : CmdResponse)
  | query (response : QueryResponse)
deriving DecidableEq

/-- A transport failure reported by the overlay. -/
structure NetworkError where
  code : Nat
deriving DecidableEq

/-- `tokio::time::error::Elapsed`. -/
structure Elapsed where
deriving DecidableEq

/-- The node's `Error`, by the variants the modelled code produces. -/
inductive Error
  | protocol (e : ProtocolError)
  | network (e : NetworkError)
  | responseTimeout (e : Elapsed)
deriving DecidableEq

end SafeNetwork
