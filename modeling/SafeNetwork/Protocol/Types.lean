import Mathlib.Data.Prod.Lex

/-! Identifiers, spends, transactions and register data carried by the protocol's messages. -/
namespace SafeNetwork

/-- Hashes, keys, signatures and amounts enter the model only through equality. -/
abbrev Hash := Nat
abbrev DbcId := Nat
abbrev BlindedAmount := Nat
abbrev PublicKey := Nat
abbrev SecretKey := Nat
abbrev Signature := Nat
abbrev PeerId := Nat
abbrev EntryHash := Nat
abbrev Entry := List UInt8

/-- `xor_name::XorName([u8; 32])`. -/
structure XorName where
  bytes : List UInt8
  size_eq : bytes.length = 32
deriving DecidableEq

structure ChunkAddress where
  name : XorName
deriving DecidableEq

structure DbcAddress where
  name : XorName
deriving DecidableEq

structure RegisterAddress where
  name : XorName
  tag : UInt64
deriving DecidableEq

structure Chunk where
  address : ChunkAddress
  value : List UInt8
deriving DecidableEq

/-- `sn_dbc::SignedSpend`, by the fields the node reads. -/
structure SignedSpend where
  dbcId : DbcId
  srcTxHash : Hash
  dstTxHash : Hash
  blindedAmount : BlindedAmount
  signature : Signature
deriving DecidableEq

/-- The derived `Ord` of `SignedSpend`: lexicographic in the fields. -/
def SignedSpend.key (s : SignedSpend) : Lex (Nat × Lex (Nat × Lex (Nat × Lex (Nat × Nat)))) :=
  toLex (s.dbcId, toLex (s.srcTxHash, toLex (s.dstTxHash, toLex (s.blindedAmount, s.signature))))

theorem SignedSpend.key_injective : Function.Injective SignedSpend.key := by
  rintro ⟨⟩ ⟨⟩ h
  simp_all [SignedSpend.key]

instance : LinearOrder SignedSpend := LinearOrder.lift' _ SignedSpend.key_injective

/-- `sn_dbc::DbcTransaction`, by the ids of its inputs and outputs. -/
structure DbcTransaction where
  inputs : List DbcId
  outputs : List DbcId
deriving DecidableEq

inductive User
  | anyone
  | key (pk : PublicKey)
deriving DecidableEq

structure UserRights where
  write : Bool
deriving DecidableEq

abbrev Permissions := List (User × UserRights)

inductive Action
  | read
  | write
deriving DecidableEq

/-- `crdts::merkle_reg::Node<Entry>`: an entry and the hashes of the entries it is written atop. -/
structure MerkleDagEntry where
  children : List EntryHash
  value : Entry
deriving DecidableEq

structure RegisterOp where
  address : RegisterAddress
  crdtOp : MerkleDagEntry
  source : User
  signature : Option Signature
deriving DecidableEq

/-- The spec's `sn_registers::Register`: owner, name, tag, permissions, DAG nodes newest first. -/
structure Register where
  owner : User
  name : XorName
  tag : UInt64
  permissions : Permissions
  dag : List (EntryHash × MerkleDagEntry)
deriving DecidableEq

/-- `sn_registers::Error`, the variants the modelled code raises. -/
inductive RegisterError
  | accessDenied (user : User)
  | missingSignature
  | invalidSignature
deriving DecidableEq

/-- Modelled from the spec: the protocol's error type is not in the source. -/
inductive ProtocolError
  | signedSrcTxHashDoesNotMatchProvidedSrcTxHash (signedSrcTxHash providedSrcTxHash : Hash)
  | spendSrcTxHashParentTxHashMismatch (signedSrcTxHash parentDstTxHash : Hash)
  | invalidSourceTxProvided (signedSrcTxHash providedSrcTxHash : Hash)
  | doubleSpendAttempt (new existing : SignedSpend)
  | spendNotFound (address : DbcAddress)
  | registerNotFound (address : RegisterAddress)
  | chunkNotFound (address : ChunkAddress)
  | unexpectedResponses
deriving DecidableEq

end SafeNetwork
