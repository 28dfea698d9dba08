import SafeNetwork.Protocol.Types
import Mathlib.Data.Fintype.Card
import Mathlib.Logic.Equiv.List

/-! `RegisterOp` signing: the message is a 64-bit `DefaultHasher` digest in native byte order. -/
namespace SafeNetwork.Registers

/-- The target's byte order, which `to_ne_bytes` follows. -/
inductive Endian
  | little
  | big
deriving DecidableEq

/-- The bytes of `n`, least significant first, `k` of them. -/
def leBytes : Nat → Nat → List UInt8
  | 0, _ => []
  | k + 1, n => UInt8.ofNat n :: leBytes k (n / 256)

/-- `u64::to_le_bytes` -/
def toLeBytes (x : UInt64) : List UInt8 := leBytes 8 x.toNat

/-- `u64::to_be_bytes`: the same bytes, most significant first. -/
def toBeBytes (x : UInt64) : List UInt8 := (toLeBytes x).reverse

/-- `u64::to_ne_bytes` -/
def toNeBytes : Endian → UInt64 → List UInt8
  | .little => toLeBytes
  | .big => toBeBytes

/-- One target's hashers, neither in the source: `crdts`' node hash and `DefaultHasher` on an op. -/
structure Hashing where
  nodeHash : MerkleDagEntry → EntryHash
  defaultHasher : RegisterAddress → EntryHash → User → UInt64

/-- The `bls` operations, with BLS correctness: a key's signature verifies under its public key. -/
structure Bls where
  publicKey : SecretKey → PublicKey
  sign : SecretKey → List UInt8 → Signature
  verify : PublicKey → Signature → List UInt8 → Bool
  verify_sign : ∀ sk m, verify (publicKey sk) (sign sk m) m = true

/-- A signature verifies under a key for at most one message: BLS unforgeability, idealised. -/
def Bls.Binding (bls : Bls) : Prop :=
  ∀ pk sig m m', bls.verify pk sig m = true → bls.verify pk sig m' = true → m = m'

variable (hashing : Hashing) (bls : Bls) (endian : Endian)

def bytesForSigning (op : RegisterOp) : List UInt8 :=
  let hashValue := hashing.defaultHasher op.address (hashing.nodeHash op.crdtOp) op.source
  toNeBytes endian hashValue

def verifySignature (op : RegisterOp) (pk : PublicKey) : Except RegisterError Unit := do
  let bytes := bytesForSigning hashing endian op
  let sig ← match op.signature with
    | some sig => .ok sig
    | none => .error .missingSignature
  if !bls.verify pk sig bytes then .error .invalidSignature else .ok ()

/-- `sign_with`, without its `debug_assert!`. -/
def signWith (op : RegisterOp) (sk : SecretKey) : RegisterOp :=
  let op := { op with source := .key (bls.publicKey sk) }
  let bytes := bytesForSigning hashing endian op
  let signature := bls.sign sk bytes
  { op with signature := some signature }

def addSignature (op : RegisterOp) (publicKey : PublicKey) (signature : Signature) :
    Except RegisterError RegisterOp :=
  .ok { op with source := .key publicKey, signature := some signature }

/-- Signing through the public API: sign `bytes_for_signing`, then `add_signature`. -/
def signTwoStep (op : RegisterOp) (sk : SecretKey) : Except RegisterError RegisterOp :=
  let sig := bls.sign sk (bytesForSigning hashing endian op)
  addSignature op (bls.publicKey sk) sig

variable {hashing bls endian}

theorem leBytes_inj : ∀ k m n, leBytes k m = leBytes k n → m % 256 ^ k = n % 256 ^ k
  | 0, _, _, _ => by rw [pow_zero, Nat.mod_one, Nat.mod_one]
  | k + 1, m, n, h => by
    simp only [leBytes, List.cons.injEq] at h
    have hlow : m % 256 = n % 256 := congrArg UInt8.toNat h.1
    have hhigh := leBytes_inj k _ _ h.2
    rw [pow_succ', Nat.mod_mul, Nat.mod_mul, hlow, hhigh]

theorem toLeBytes_injective : Function.Injective toLeBytes := by
  intro x y h
  have := leBytes_inj 8 _ _ h
  rw [show (256 : Nat) ^ 8 = UInt64.size from rfl, Nat.mod_eq_of_lt x.toNat_lt_size,
    Nat.mod_eq_of_lt y.toNat_lt_size] at this
  exact UInt64.toNat.inj this

theorem toNeBytes_injective (endian : Endian) : Function.Injective (toNeBytes endian) := by
  cases endian with
  | little => exact toLeBytes_injective
  | big => exact fun x y h => toLeBytes_injective (List.reverse_injective h)

@[simp] theorem bytesForSigning_signature (op : RegisterOp) (sig : Option Signature) :
    bytesForSigning hashing endian { op with signature := sig } =
      bytesForSigning hashing endian op := rfl

theorem verifySignature_eq_ok (op : RegisterOp) (pk : PublicKey) :
    verifySignature hashing bls endian op pk = .ok () ↔
      ∃ sig, op.signature = some sig ∧ bls.verify pk sig (bytesForSigning hashing endian op) = true := by
  cases hs : op.signature with
  | none => simp [verifySignature, hs, bind, Except.bind]
  | some sig =>
    cases hv : bls.verify pk sig (bytesForSigning hashing endian op) <;>
      simp [verifySignature, hs, hv, bind, Except.bind]

/-- `sign_with` leaves an op that verifies under the signer's key. -/
theorem verifySignature_signWith (op : RegisterOp) (sk : SecretKey) :
    verifySignature hashing bls endian (signWith hashing bls endian op sk) (bls.publicKey sk) =
      .ok () :=
  (verifySignature_eq_ok _ _).2 ⟨_, rfl, bls.verify_sign _ _⟩

/-- `sign_with` sets the source to the signer, keeps the rest, and verifies: its `debug_assert!` holds. -/
theorem signWith_spec (op : RegisterOp) (sk : SecretKey) :
    (signWith hashing bls endian op sk).source = .key (bls.publicKey sk) ∧
      (signWith hashing bls endian op sk).address = op.address ∧
      (signWith hashing bls endian op sk).crdtOp = op.crdtOp ∧
      verifySignature hashing bls endian (signWith hashing bls endian op sk) (bls.publicKey sk) =
        .ok () :=
  ⟨rfl, rfl, rfl, verifySignature_signWith op sk⟩

/-- Under a binding scheme, a signature on one message fails on any other. -/
theorem Bls.Binding.verify_sign_ne (hb : bls.Binding) {sk : SecretKey} {m m' : List UInt8}
    (hne : m ≠ m') : bls.verify (bls.publicKey sk) (bls.sign sk m) m' = false :=
  Bool.eq_false_iff.2 fun h => hne (hb _ _ _ _ (bls.verify_sign sk m) h)

/-- Tag and one name byte tell `UInt64.size + 1` addresses apart. -/
def collidingAddress (i : Fin (UInt64.size + 1)) : RegisterAddress :=
  ⟨⟨UInt8.ofNat (i.val / UInt64.size) :: List.replicate 31 0, rfl⟩, UInt64.ofNat (i.val % UInt64.size)⟩

theorem collidingAddress_injective : Function.Injective collidingAddress := by
  intro i j h
  simp only [collidingAddress, RegisterAddress.mk.injEq, XorName.mk.injEq, List.cons.injEq] at h
  have hname : i.val / UInt64.size % 256 = j.val / UInt64.size % 256 := congrArg UInt8.toNat h.1.1
  have htag := congrArg UInt64.toNat h.2
  rw [UInt64.toNat_ofNat_of_lt (Nat.mod_lt _ (by decide)),
    UInt64.toNat_ofNat_of_lt (Nat.mod_lt _ (by decide))] at htag
  have hi := i.isLt
  have hj := j.isLt
  exact Fin.ext (by unfold UInt64.size at *; omega)

/-- A scheme that signs a message with its encoding: correct and binding. -/
def encodingBls : Bls where
  publicKey sk := sk
  sign _ m := Encodable.encode (m.map UInt8.toNat)
  verify _ sig m := sig == Encodable.encode (m.map UInt8.toNat)
  verify_sign _ _ := beq_self_eq_true _

theorem encodingBls_binding : encodingBls.Binding := by
  intro _ _ m m' h h'
  simp only [encodingBls, beq_iff_eq] at h h'
  exact List.map_injective_iff.2 (fun _ _ => UInt8.toNat.inj)
    (Encodable.encode_injective (h.symm.trans h'))

/-- A hasher with one digest for everything. -/
def constantHashing (d : UInt64) : Hashing := ⟨fun _ => 0, fun _ _ _ => d⟩

/-- An empty op on register `collidingAddress i`, signed by key `0` under the digest `d`. -/
def sampleSigned (d : UInt64) (endian : Endian) (i : Fin (UInt64.size + 1)) : RegisterOp :=
  signWith (constantHashing d) encodingBls endian ⟨collidingAddress i, ⟨[], []⟩, .anyone, none⟩ 0

/-- When `add_signature` changes the digest, the two-step op is not `sign_with`'s and fails to verify. -/
theorem signTwoStep_diverges (hb : bls.Binding) (op : RegisterOp) (sk : SecretKey)
    (hd : hashing.defaultHasher op.address (hashing.nodeHash op.crdtOp) op.source ≠
      hashing.defaultHasher op.address (hashing.nodeHash op.crdtOp) (.key (bls.publicKey sk))) :
    signTwoStep hashing bls endian op sk ≠ .ok (signWith hashing bls endian op sk) ∧
      ∀ op', signTwoStep hashing bls endian op sk = .ok op' →
        verifySignature hashing bls endian op' (bls.publicKey sk) = .error .invalidSignature := by
  have hbytes : bytesForSigning hashing endian op ≠
      bytesForSigning hashing endian { op with source := .key (bls.publicKey sk) } :=
    fun h => hd (toNeBytes_injective endian h)
  have hfail : ∀ op', signTwoStep hashing bls endian op sk = .ok op' →
      verifySignature hashing bls endian op' (bls.publicKey sk) = .error .invalidSignature := by
    rintro _ ⟨⟩
    simp only [bytesForSigning] at hbytes
    simp [verifySignature, bind, Except.bind, bytesForSigning, hb.verify_sign_ne hbytes]
  -- `sign_with`'s op verifies, the two-step one does not
  refine ⟨fun h => ?_, hfail⟩
  cases (verifySignature_signWith op sk).symm.trans (hfail _ h)

/-- An op whose source is not yet a key. -/
def unsignedOp : RegisterOp := ⟨collidingAddress 0, ⟨[], []⟩, .anyone, none⟩

/-- A hasher whose digest tells an unsigned source from a key. -/
def sourceHashing : Hashing := ⟨fun _ => 0, fun _ _ source => if source = .anyone then 0 else 1⟩

theorem signTwoStep_diverges_unsignedOp :
    encodingBls.Binding ∧
      sourceHashing.defaultHasher unsignedOp.address (sourceHashing.nodeHash unsignedOp.crdtOp)
          unsignedOp.source ≠
        sourceHashing.defaultHasher unsignedOp.address (sourceHashing.nodeHash unsignedOp.crdtOp)
          (.key (encodingBls.publicKey 0)) ∧
      signTwoStep sourceHashing encodingBls .little unsignedOp 0 ≠
          .ok (signWith sourceHashing encodingBls .little unsignedOp 0) ∧
        ∀ op', signTwoStep sourceHashing encodingBls .little unsignedOp 0 = .ok op' →
          verifySignature sourceHashing encodingBls .little op' (encodingBls.publicKey 0) =
            .error .invalidSignature :=
  ⟨encodingBls_binding, by decide, signTwoStep_diverges encodingBls_binding unsignedOp 0 (by decide)⟩

/-- Whatever the hasher, two addresses share a digest with the same node and source. -/
theorem exists_digest_collision (node : EntryHash) (source : User) :
    ∃ a b : RegisterAddress, a ≠ b ∧
      hashing.defaultHasher a node source = hashing.defaultHasher b node source := by
  obtain ⟨i, j, hij, h⟩ := Fintype.exists_ne_map_eq_of_card_lt
    (fun i => (⟨(hashing.defaultHasher (collidingAddress i) node source).toNat,
      UInt64.toNat_lt_size _⟩ : Fin UInt64.size))
    (by rw [Fintype.card_fin, Fintype.card_fin]; exact Nat.lt_succ_self _)
  exact ⟨_, _, collidingAddress_injective.ne hij, UInt64.toNat.inj (Fin.mk.inj_iff.1 h)⟩

/-- Whatever the hasher and scheme, one key signs ops on two registers with one signature. -/
theorem exists_forged_pair : ∃ (o1 o2 : RegisterOp) (pk : PublicKey),
    o1.signature = o2.signature ∧ verifySignature hashing bls endian o1 pk = .ok () ∧
      verifySignature hashing bls endian o2 pk = .ok () ∧ o1.address ≠ o2.address := by
  let node : MerkleDagEntry := ⟨[], []⟩
  obtain ⟨a, b, hab, hd⟩ :=
    @exists_digest_collision hashing (hashing.nodeHash node) (.key (bls.publicKey 0))
  let sign := fun address => signWith hashing bls endian ⟨address, node, .anyone, none⟩ 0
  have hbytes : bytesForSigning hashing endian ⟨a, node, .key (bls.publicKey 0), none⟩ =
      bytesForSigning hashing endian ⟨b, node, .key (bls.publicKey 0), none⟩ := by
    simp only [bytesForSigning, hd]
  exact ⟨sign a, sign b, bls.publicKey 0, by simp only [sign, signWith, hbytes],
    verifySignature_signWith _ _, verifySignature_signWith _ _, hab⟩

/-- No hasher, scheme or byte order makes a shared verified signature bind an op's fields. -/
theorem signature_not_binding_op :
    ¬ ∃ (hashing : Hashing) (bls : Bls) (endian : Endian),
      ∀ (o1 o2 : RegisterOp) (pk : PublicKey), o1.signature = o2.signature →
        verifySignature hashing bls endian o1 pk = .ok () →
        verifySignature hashing bls endian o2 pk = .ok () →
        o1.address = o2.address ∧ hashing.nodeHash o1.crdtOp = hashing.nodeHash o2.crdtOp ∧
          o1.source = o2.source := by
  rintro ⟨hashing, bls, endian, h⟩
  obtain ⟨o1, o2, pk, hsig, h1, h2, hne⟩ := @exists_forged_pair hashing bls endian
  exact hne (h o1 o2 pk hsig h1 h2).1

/-- A shared verified signature binds only the 64-bit digest, which ops on two registers can share. -/
theorem verifySignature_binds_digest (hb : bls.Binding) :
    (∀ (o1 o2 : RegisterOp) (pk : PublicKey), o1.signature = o2.signature →
      verifySignature hashing bls endian o1 pk = .ok () →
      verifySignature hashing bls endian o2 pk = .ok () →
      bytesForSigning hashing endian o1 = bytesForSigning hashing endian o2 ∧
        hashing.defaultHasher o1.address (hashing.nodeHash o1.crdtOp) o1.source =
          hashing.defaultHasher o2.address (hashing.nodeHash o2.crdtOp) o2.source) ∧
    ∃ (o1 o2 : RegisterOp) (pk : PublicKey),
      o1.signature = o2.signature ∧ verifySignature hashing bls endian o1 pk = .ok () ∧
        verifySignature hashing bls endian o2 pk = .ok () ∧ o1.address ≠ o2.address := by
  refine ⟨fun o1 o2 pk hsig h1 h2 => ?_, exists_forged_pair⟩
  obtain ⟨sig, hs1, hv1⟩ := (verifySignature_eq_ok _ _).1 h1
  obtain ⟨_, hs2, hv2⟩ := (verifySignature_eq_ok _ _).1 h2
  obtain rfl : sig = _ := Option.some.inj (hs1.symm.trans (hsig.trans hs2))
  have hbytes := hb _ _ _ _ hv1 hv2
  exact ⟨hbytes, toNeBytes_injective endian hbytes⟩

theorem verifySignature_binds_digest_encodingBls :
    encodingBls.Binding ∧
      (∀ (o1 o2 : RegisterOp) (pk : PublicKey), o1.signature = o2.signature →
        verifySignature (constantHashing 7) encodingBls .little o1 pk = .ok () →
        verifySignature (constantHashing 7) encodingBls .little o2 pk = .ok () →
        bytesForSigning (constantHashing 7) .little o1 =
            bytesForSigning (constantHashing 7) .little o2 ∧
          (constantHashing 7).defaultHasher o1.address ((constantHashing 7).nodeHash o1.crdtOp)
              o1.source =
            (constantHashing 7).defaultHasher o2.address ((constantHashing 7).nodeHash o2.crdtOp)
              o2.source) ∧
      ∃ (o1 o2 : RegisterOp) (pk : PublicKey),
        o1.signature = o2.signature ∧
          verifySignature (constantHashing 7) encodingBls .little o1 pk = .ok () ∧
          verifySignature (constantHashing 7) encodingBls .little o2 pk = .ok () ∧
          o1.address ≠ o2.address :=
  ⟨encodingBls_binding, verifySignature_binds_digest encodingBls_binding⟩

/-- An op signed on one target fails on another, each with its own hasher, if their bytes differ. -/
theorem signWith_fails_across_targets (hb : bls.Binding) (hashing' : Hashing) (endian' : Endian)
    (op : RegisterOp) (sk : SecretKey)
    (hd : bytesForSigning hashing endian { op with source := .key (bls.publicKey sk) } ≠
      bytesForSigning hashing' endian' { op with source := .key (bls.publicKey sk) }) :
    verifySignature hashing' bls endian' (signWith hashing bls endian op sk) (bls.publicKey sk) =
      .error .invalidSignature := by
  have hne := @Bls.Binding.verify_sign_ne bls hb sk _ _ hd
  simp only [bytesForSigning] at hne
  simp [verifySignature, signWith, bind, Except.bind, bytesForSigning, hne]

/-- A signed op fails on a target of the other byte order unless its digest's bytes are a palindrome. -/
theorem signWith_fails_across_byte_order (hb : bls.Binding) (op : RegisterOp) (sk : SecretKey)
    (hd : (toLeBytes (hashing.defaultHasher op.address (hashing.nodeHash op.crdtOp)
      (.key (bls.publicKey sk)))).reverse ≠
        toLeBytes (hashing.defaultHasher op.address (hashing.nodeHash op.crdtOp)
          (.key (bls.publicKey sk)))) :
    verifySignature hashing bls .big (signWith hashing bls .little op sk) (bls.publicKey sk) =
        .error .invalidSignature ∧
      verifySignature hashing bls .little (signWith hashing bls .big op sk) (bls.publicKey sk) =
        .error .invalidSignature :=
  ⟨signWith_fails_across_targets hb hashing .big op sk fun h => hd h.symm,
    signWith_fails_across_targets hb hashing .little op sk fun h => hd h⟩

theorem signWith_fails_across_byte_order_digest_one :
    encodingBls.Binding ∧ (toLeBytes 1).reverse ≠ toLeBytes 1 ∧
      verifySignature (constantHashing 1) encodingBls .big (sampleSigned 1 .little 0) 0 =
          .error .invalidSignature ∧
        verifySignature (constantHashing 1) encodingBls .little (sampleSigned 1 .big 0) 0 =
          .error .invalidSignature :=
  ⟨encodingBls_binding, by decide,
    signWith_fails_across_byte_order encodingBls_binding _ 0 (by decide)⟩

end SafeNetwork.Registers
