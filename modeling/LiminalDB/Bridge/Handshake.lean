import LiminalDB.Field.Cell
import LiminalDB.Foundations.Cbor
import LiminalDB.Foundations.StateResult
import LiminalDB.Noetic.Crdt
import Mathlib.Algebra.Order.Group.Unbundled.Int

/-! # The handshake of peers

A peer signs its id, a timestamp, a nonce and the namespace. `verify` turns down what was signed more than the
window ago; a timestamp in the future has no age, so that nothing holds a handshake back before its time
(`replay_window_iff`). -/

namespace LiminalDB

/-- What `ed25519_dalek` does, with its verifying keys and signatures. -/
structure DalekCrate (K S : Type) where
  /-- `VerifyingKey::from_bytes` -/
  fromBytes : List.Vector UInt8 32 → Option K
  /-- `Signature::from_slice` -/
  fromSlice : Bytes → Option S
  verify : K → Bytes → S → Bool

/-- `HandshakeError`: why a handshake is refused. -/
inductive HandshakeError
  | namespaceMismatch
  | stale
  | invalidSignature
  deriving DecidableEq

/-- `Handshake`: what a peer says when it connects, and its signature of it. -/
structure Handshake where
  peer : PeerId
  nameSpace : String
  timestampMs : UInt64
  nonce : List.Vector UInt8 16
  signature : Bytes

namespace Handshake

/-- `message`: the bytes that a peer signs. -/
def message (peer : PeerId) (nameSpace : String) (timestampMs : UInt64) (nonce : List.Vector UInt8 16) : Bytes :=
  peer.bytes.toList ++ toBeBytes 8 timestampMs.toNat ++ nonce.toList ++ asBytes nameSpace

variable {K S : Type} (dalek : DalekCrate K S)

/-- `verify`: the name space, then the age of the message, and then its signature are checked. -/
def verify (self : Handshake) (expectedNamespace : String) (nowMs windowMs : UInt64) :
    Except HandshakeError Unit := do
  failIf (self.nameSpace ≠ expectedNamespace) .namespaceMismatch
  failIf (windowMs < saturatingSub nowMs self.timestampMs) .stale
  let verifyingKey ← okOr (dalek.fromBytes self.peer.bytes) .invalidSignature
  let message := message self.peer self.nameSpace self.timestampMs self.nonce
  let signature ← okOr (dalek.fromSlice self.signature) .invalidSignature
  failIf (dalek.verify verifyingKey message signature = false) .invalidSignature

/-! ## The message -/

/-- Texts are told by their bytes. -/
theorem asBytes_inj {s t : String} : asBytes s = asBytes t ↔ s = t := by
  refine ⟨fun h => ?_, fun h => h ▸ rfl⟩
  have hback := Codec.fromUTF8?_asBytes s
  rw [h, Codec.fromUTF8?_asBytes t] at hback
  exact (Option.some.inj hback).symm

/-- All fields but the last have their fixed lengths. -/
theorem message_inj {p p' : PeerId} {s s' : String} {t t' : UInt64} {nonce nonce' : List.Vector UInt8 16} :
    message p s t nonce = message p' s' t' nonce' ↔ p = p' ∧ s = s' ∧ t = t' ∧ nonce = nonce' := by
  constructor
  · intro h
    unfold message at h
    -- From the back: the namespace is all that is left over.
    obtain ⟨hfixed, hs⟩ := List.append_inj h (by simp)
    obtain ⟨hfixed, hnonce⟩ := List.append_inj hfixed (by simp)
    obtain ⟨hp, ht⟩ := List.append_inj hfixed (by simp)
    refine ⟨?_, asBytes_inj.mp hs, ?_, List.Vector.toList_injective hnonce⟩
    · cases p
      cases p'
      exact congrArg PeerId.mk (List.Vector.toList_injective hp)
    · have hnumber := congrArg fromBeBytes ht
      rw [fromBeBytes_toBeBytes (by simpa using t.toNat_lt), fromBeBytes_toBeBytes (by simpa using t'.toNat_lt)]
        at hnumber
      exact UInt64.toNat_inj.mp hnumber
  · rintro ⟨rfl, rfl, rfl, rfl⟩
    rfl

/-! ## The window -/

/-- The signature is one of the peer over the peer, the namespace, the timestamp and the nonce. -/
def Signed (self : Handshake) : Prop :=
  ∃ key signature, dalek.fromBytes self.peer.bytes = some key ∧ dalek.fromSlice self.signature = some signature ∧
    dalek.verify key (message self.peer self.nameSpace self.timestampMs self.nonce) signature = true

variable {dalek}

/-- What `verify` accepts. -/
theorem verify_eq_ok_iff {self : Handshake} {expectedNamespace : String} {nowMs windowMs : UInt64} :
    self.verify dalek expectedNamespace nowMs windowMs = .ok () ↔ self.nameSpace = expectedNamespace ∧
      nowMs.toNat ≤ self.timestampMs.toNat + windowMs.toNat ∧ self.Signed dalek := by
  -- A timestamp ahead of the clock has the age zero.
  have hage : windowMs < saturatingSub nowMs self.timestampMs ↔
      ¬ nowMs.toNat ≤ self.timestampMs.toNat + windowMs.toNat := by
    rw [UInt64.lt_iff_toNat_lt, toNat_saturatingSub]
    omega
  unfold verify Signed
  simp only [result_bind_eq_ok, failIf_eq_ok, okOr_eq_ok, not_not, hage, Bool.not_eq_false]
  constructor
  · rintro ⟨-, hnamespace, -, hfresh, key, hkey, signature, hsignature, hverify⟩
    exact ⟨hnamespace, hfresh, key, signature, hkey, hsignature, hverify⟩
  · rintro ⟨hnamespace, hfresh, key, signature, hkey, hsignature, hverify⟩
    exact ⟨⟨⟩, hnamespace, ⟨⟩, hfresh, key, hkey, signature, hsignature, hverify⟩

/-- Whether the handshake is accepted at a time. -/
def AcceptedAt (dalek : DalekCrate K S) (self : Handshake) (expectedNamespace : String)
    (windowMs nowMs : UInt64) : Prop :=
  self.verify dalek expectedNamespace nowMs windowMs = .ok ()

/-- The time is within the window around the timestamp. -/
def Within (self : Handshake) (windowMs nowMs : UInt64) : Prop :=
  |(nowMs.toNat : ℤ) - self.timestampMs.toNat| ≤ windowMs.toNat

/-- The window holds on both sides, for two times at which a handshake is accepted, and a handshake that is
accepted is signed as it is, if and only if the times are not before the window of a handshake that is signed for
the namespace and that the code does not find stale. -/
theorem replay_window_iff (dalek : DalekCrate K S) (self : Handshake) (expectedNamespace : String)
    (windowMs t₁ t₂ : UInt64) :
    ((self.AcceptedAt dalek expectedNamespace windowMs t₁ →
        self.AcceptedAt dalek expectedNamespace windowMs t₂ →
        |(t₁.toNat : ℤ) - t₂.toNat| ≤ 2 * windowMs.toNat ∧ self.Within windowMs t₁ ∧
          self.Within windowMs t₂) ∧
      (∀ nowMs, self.AcceptedAt dalek expectedNamespace windowMs nowMs →
        self.nameSpace = expectedNamespace ∧ self.Signed dalek) ∧
      ∀ other : Handshake, message self.peer self.nameSpace self.timestampMs self.nonce =
        message other.peer other.nameSpace other.timestampMs other.nonce →
        self.peer = other.peer ∧ self.nameSpace = other.nameSpace ∧ self.timestampMs = other.timestampMs ∧
          self.nonce = other.nonce) ↔
      (self.nameSpace = expectedNamespace → self.Signed dalek →
        t₁.toNat ≤ self.timestampMs.toNat + windowMs.toNat →
        t₂.toNat ≤ self.timestampMs.toNat + windowMs.toNat →
        self.timestampMs.toNat ≤ t₁.toNat + windowMs.toNat ∧
          self.timestampMs.toNat ≤ t₂.toNat + windowMs.toNat) := by
  unfold AcceptedAt Within
  simp only [verify_eq_ok_iff]
  constructor
  · rintro ⟨hwindow, -⟩ hnamespace hsigned h₁ h₂
    obtain ⟨-, hwithin₁, hwithin₂⟩ := hwindow ⟨hnamespace, h₁, hsigned⟩ ⟨hnamespace, h₂, hsigned⟩
    rw [abs_le] at hwithin₁ hwithin₂
    omega
  · intro h
    refine ⟨?_, fun nowMs haccepted => ⟨haccepted.1, haccepted.2.2⟩, fun other => message_inj.mp⟩
    rintro ⟨hnamespace, h₁, hsigned⟩ ⟨-, h₂, -⟩
    obtain ⟨hlow₁, hlow₂⟩ := h hnamespace hsigned h₁ h₂
    simp only [abs_le]
    omega

/-- A handshake that is dated a year ahead is accepted now and then. -/
theorem not_replay_window_ahead : ¬ ∀ (dalek : DalekCrate Unit Unit) (self : Handshake) (expectedNamespace : String)
    (windowMs t₁ t₂ : UInt64), self.AcceptedAt dalek expectedNamespace windowMs t₁ →
      self.AcceptedAt dalek expectedNamespace windowMs t₂ →
        |(t₁.toNat : ℤ) - t₂.toNat| ≤ 2 * windowMs.toNat := by
  intro hclaim
  have hyear := hclaim ⟨fun _ => some (), fun _ => some (), fun _ _ _ => true⟩
    ⟨samplePeer 1, "liminal", 31536000000, List.Vector.replicate 16 7, List.replicate 64 0⟩ "liminal" 10000 0
    31536000000 (verify_eq_ok_iff.mpr ⟨rfl, by decide, (), (), rfl, rfl, rfl⟩)
    (verify_eq_ok_iff.mpr ⟨rfl, by decide, (), (), rfl, rfl, rfl⟩)
  exact absurd hyear (by decide)

end Handshake

end LiminalDB
