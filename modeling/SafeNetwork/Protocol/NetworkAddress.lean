import SafeNetwork.Protocol.Types

/-! `NetworkAddress`: its bytes, its record key, and the K-bucket key every distance is taken on. -/
namespace SafeNetwork

inductive NetworkAddress
  | peerId (bytes : List UInt8)
  | chunkAddress (chunkAddress : ChunkAddress)
  | dbcAddress (dbcAddress : DbcAddress)
  | registerAddress (registerAddress : RegisterAddress)
  | recordKey (bytes : List UInt8)
deriving DecidableEq

/-- libp2p's `RecordKey`: the bytes it was made from. -/
structure RecordKey where
  bytes : List UInt8
deriving DecidableEq

/-- `RecordKey::new`, from the bytes of anything that is `AsRef<[u8]>`. -/
def RecordKey.new (key : List UInt8) : RecordKey := ⟨key⟩

/-- What the address kinds and libp2p compute, none of it in the source. -/
structure AddressHashing where
  chunkXorname : ChunkAddress → XorName
  dbcXorname : DbcAddress → XorName
  registerXorname : RegisterAddress → XorName
  sha256 : List UInt8 → BitVec 256

/-- libp2p's `KBucketKey`: a preimage and its SHA-256 digest. -/
structure KBucketKey where
  preimage : List UInt8
  hash : BitVec 256
deriving DecidableEq

def KBucketKey.new (hashing : AddressHashing) (preimage : List UInt8) : KBucketKey :=
  ⟨preimage, hashing.sha256 preimage⟩

/-- `KBucketKey::distance`: the XOR of the digests. -/
def KBucketKey.distance (a b : KBucketKey) : BitVec 256 := a.hash ^^^ b.hash

namespace NetworkAddress

variable (hashing : AddressHashing)

def fromRecordKey (recordKey : RecordKey) : NetworkAddress := .recordKey recordKey.bytes

def asBytes : NetworkAddress → List UInt8
  | .peerId bytes | .recordKey bytes => bytes
  | .chunkAddress address => (hashing.chunkXorname address).bytes
  | .dbcAddress address => (hashing.dbcXorname address).bytes
  | .registerAddress address => (hashing.registerXorname address).bytes

def asRecordKey : NetworkAddress → Option RecordKey
  | .recordKey bytes => some (RecordKey.new bytes)
  | _ => none

def toRecordKey : NetworkAddress → RecordKey
  | .recordKey bytes => RecordKey.new bytes
  | .chunkAddress address => RecordKey.new (hashing.chunkXorname address).bytes
  | .registerAddress address => RecordKey.new (hashing.registerXorname address).bytes
  | .dbcAddress address => RecordKey.new (hashing.dbcXorname address).bytes
  | .peerId bytes => RecordKey.new bytes

def asKbucketKey (a : NetworkAddress) : KBucketKey := KBucketKey.new hashing (a.asBytes hashing)

def distance (a other : NetworkAddress) : BitVec 256 :=
  (a.asKbucketKey hashing).distance (other.asKbucketKey hashing)

/-- Every address is read back from its record key with its own K-bucket key and distances. -/
theorem toRecordKey_asBytes (a : NetworkAddress) :
    (a.toRecordKey hashing).bytes = a.asBytes hashing ∧
      (fromRecordKey (a.toRecordKey hashing)).asKbucketKey hashing = a.asKbucketKey hashing ∧
      (fromRecordKey (a.toRecordKey hashing)).distance hashing a = 0 ∧
      ∀ b, (fromRecordKey (a.toRecordKey hashing)).distance hashing b = a.distance hashing b := by
  have hbytes : (a.toRecordKey hashing).bytes = a.asBytes hashing := by cases a <;> rfl
  have hkey : (fromRecordKey (a.toRecordKey hashing)).asKbucketKey hashing =
      a.asKbucketKey hashing := by
    simp only [asKbucketKey, fromRecordKey, asBytes, hbytes]
  refine ⟨hbytes, hkey, ?_, fun b => by rw [distance, hkey, distance]⟩
  rw [distance, hkey, KBucketKey.distance, BitVec.xor_self]
  rfl

end NetworkAddress

end SafeNetwork
