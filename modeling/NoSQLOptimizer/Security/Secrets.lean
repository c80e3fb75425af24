import NoSQLOptimizer.Encoding.Join
import Mathlib.Data.String.Basic

namespace NoSQLOptimizer.Security

open Encoding

def nonceLength : ℕ := 12

/-- Identifiers that must be authenticated with an encrypted secret. -/
@[ext]
structure SecretMetadata where
  secretId : String
  targetId : String
  secretType : String
  keyVersion : String
  deriving DecidableEq

namespace SecretMetadata

variable (metadata : SecretMetadata)

def parts : List String :=
  [metadata.secretId, metadata.targetId, metadata.secretType, metadata.keyVersion]

/-- A deterministic AAD representation for AES-GCM. -/
def associatedData : ByteArray := ("|".intercalate metadata.parts).toUTF8

end SecretMetadata

/-- Ciphertext fields suitable for storage. -/
structure EncryptedSecretPayload where
  nonce : ByteArray
  ciphertext : ByteArray
  keyVersion : String

/-- The library's cipher under one key: the nonce, the data, and what is authenticated with it. -/
structure AESGCM where
  encrypt : ByteArray → ByteArray → ByteArray → Option ByteArray
  decrypt : ByteArray → ByteArray → ByteArray → Option ByteArray

/-- The cipher takes what is shorter than `2 ^ 31` bytes, opens what it sealed, and opens it with no
other associated data. -/
structure AESGCM.Authentic (cipher : AESGCM) : Prop where
  encrypt_isSome : ∀ nonce data associatedData : ByteArray, nonce.size = nonceLength →
    ((cipher.encrypt nonce data associatedData).isSome ↔
      data.size < 2 ^ 31 ∧ associatedData.size < 2 ^ 31)
  decrypt_encrypt : ∀ {nonce data associatedData ciphertext : ByteArray},
    cipher.encrypt nonce data associatedData = some ciphertext →
      cipher.decrypt nonce ciphertext associatedData = some data
  authentic : ∀ {nonce data associatedData ciphertext associatedData' data' : ByteArray},
    cipher.encrypt nonce data associatedData = some ciphertext →
      cipher.decrypt nonce ciphertext associatedData' = some data' →
        associatedData' = associatedData

inductive SecretError
  | value (text : String)
  | overflow
  | invalidTag
  deriving DecidableEq

/-- Encrypt and decrypt secrets while authenticating immutable secret metadata. -/
structure SecretCipher where
  cipher : AESGCM

namespace SecretCipher

variable (S : SecretCipher)

/-- Encrypt under a fresh nonce. -/
def encrypt (nonce : { n : ByteArray // n.size = nonceLength }) (plaintext : ByteArray)
    (metadata : SecretMetadata) : Except SecretError EncryptedSecretPayload :=
  match S.cipher.encrypt nonce.1 plaintext metadata.associatedData with
  | none => .error .overflow
  | some ciphertext => .ok ⟨nonce.1, ciphertext, metadata.keyVersion⟩

/-- Decrypt a payload only when its authenticated metadata is unchanged. -/
def decrypt (payload : EncryptedSecretPayload) (metadata : SecretMetadata) :
    Except SecretError ByteArray :=
  if payload.nonce.size ≠ nonceLength then
    .error (.value "Encrypted secret nonce must contain exactly 12 bytes.")
  else if payload.keyVersion ≠ metadata.keyVersion then
    .error (.value "Encrypted secret key version does not match authenticated metadata.")
  else
    match S.cipher.decrypt payload.nonce payload.ciphertext metadata.associatedData with
    | none => .error .invalidTag
    | some plaintext => .ok plaintext

end SecretCipher

namespace SecretMetadata

variable {metadata metadata' : SecretMetadata}

theorem associatedData_inj : metadata.associatedData = metadata'.associatedData ↔
    List.intercalate ['|'] (metadata.parts.map String.toList) =
      List.intercalate ['|'] (metadata'.parts.map String.toList) := by
  rw [associatedData, associatedData, String.toUTF8_eq_toByteArray, String.toUTF8_eq_toByteArray,
    String.toByteArray_inj, ← String.toList_inj, String.toList_intercalate,
    String.toList_intercalate]
  rfl

theorem parts_inj : metadata.parts.map String.toList = metadata'.parts.map String.toList ↔
    metadata = metadata' := by
  simp only [parts, List.map_cons, List.map_nil, List.cons.injEq, and_true, String.toList_inj,
    SecretMetadata.ext_iff]

/-- Metadata of four parts. -/
def ofParts (parts : List (List Char)) : SecretMetadata where
  secretId := String.ofList (parts.getD 0 [])
  targetId := String.ofList (parts.getD 1 [])
  secretType := String.ofList (parts.getD 2 [])
  keyVersion := String.ofList (parts.getD 3 [])

theorem parts_ofParts {parts : List (List Char)} (h : parts.length = 4) :
    (ofParts parts).parts.map String.toList = parts := by
  obtain ⟨a, b, c, d, rfl⟩ := List.length_eq_four.mp h
  simp [ofParts, SecretMetadata.parts]

/-- The associated data stands for one metadata just where no part holds the separator. -/
theorem associatedData_unique_iff :
    (∀ metadata', metadata'.associatedData = metadata.associatedData → metadata' = metadata) ↔
      ∀ part ∈ metadata.parts, '|' ∉ part.toList := by
  rw [← List.forall_mem_map (f := String.toList) (P := fun part => '|' ∉ part),
    ← intercalate_unique_iff (by simp [parts])]
  constructor
  · intro h ys hys heq
    have hparts : (ofParts ys).parts.map String.toList = ys := parts_ofParts hys
    rw [← hparts, ← associatedData_inj] at heq
    rw [← hparts, h _ heq]
  · intro h metadata' heq
    exact parts_inj.mp (h _ (by simp [parts]) (associatedData_inj.mp heq))

theorem intercalate_parts : List.intercalate ['|'] (metadata.parts.map String.toList) =
    List.intercalate ['|'] ([metadata.secretId, metadata.targetId, metadata.secretType].map
      String.toList) ++ '|' :: metadata.keyVersion.toList := by
  simp [parts, List.intercalate_cons_cons]

/-- Of one key version, it is enough that none of the three parts before holds the separator. -/
theorem associatedData_unique_of_version_iff :
    (∀ metadata', metadata'.keyVersion = metadata.keyVersion →
      metadata'.associatedData = metadata.associatedData → metadata' = metadata) ↔
      ∀ part ∈ [metadata.secretId, metadata.targetId, metadata.secretType],
        '|' ∉ part.toList := by
  rw [← List.forall_mem_map (f := String.toList) (P := fun part => '|' ∉ part),
    ← intercalate_unique_iff (by simp)]
  constructor
  · intro h ys hys heq
    obtain ⟨a, b, c, rfl⟩ := List.length_eq_three.mp hys
    let moved : SecretMetadata :=
      ⟨String.ofList a, String.ofList b, String.ofList c, metadata.keyVersion⟩
    have hparts : moved.parts.map String.toList = [a, b, c, metadata.keyVersion.toList] := by
      simp [moved, parts]
    have hmoved : moved = metadata := by
      apply h moved rfl
      rw [associatedData_inj, intercalate_parts, intercalate_parts, ← heq]
      simp [moved]
    rw [← hmoved]
    simp [moved]
  · intro h metadata' hversion heq
    rw [associatedData_inj, intercalate_parts, intercalate_parts, hversion,
      List.append_cancel_right_eq] at heq
    have hthree := h ([metadata'.secretId, metadata'.targetId, metadata'.secretType].map
      String.toList) rfl heq
    simp only [List.map_cons, List.map_nil, List.cons.injEq, and_true, String.toList_inj] at hthree
    exact SecretMetadata.ext hthree.1 hthree.2.1 hthree.2.2 hversion

end SecretMetadata

namespace SecretCipher

variable {S : SecretCipher} {metadata metadata' : SecretMetadata}
  {nonce : { n : ByteArray // n.size = nonceLength }} {plaintext opened : ByteArray}
  {payload : EncryptedSecretPayload}

theorem encrypt_eq_ok : S.encrypt nonce plaintext metadata = .ok payload ↔
    ∃ ciphertext, S.cipher.encrypt nonce.1 plaintext metadata.associatedData = some ciphertext ∧
      payload = ⟨nonce.1, ciphertext, metadata.keyVersion⟩ := by
  unfold encrypt
  split
  · next h => simp only [h, reduceCtorEq, false_and, exists_false]
  · next ciphertext h =>
    simp only [h, Except.ok.injEq, Option.some.injEq, exists_eq_left', eq_comm]

theorem decrypt_eq_ok : S.decrypt payload metadata = .ok opened ↔
    payload.nonce.size = nonceLength ∧ payload.keyVersion = metadata.keyVersion ∧
      S.cipher.decrypt payload.nonce payload.ciphertext metadata.associatedData = some opened := by
  unfold decrypt
  split
  · next h => simp only [h, reduceCtorEq, false_and]
  · next h =>
    rw [not_not] at h
    split
    · next hversion => simp only [hversion, reduceCtorEq, false_and, and_false]
    · next hversion =>
      rw [not_not] at hversion
      split
      · next hopened => simp only [hopened, reduceCtorEq, and_false]
      · next plaintext hopened =>
        simp only [h, hversion, hopened, true_and, Except.ok.injEq, Option.some.injEq]

/-- A payload opens under other metadata just where that has the key version and the associated data
of its own. -/
theorem decrypt_of_encrypt (hcipher : S.cipher.Authentic)
    (h : S.encrypt nonce plaintext metadata = .ok payload) :
    (∃ opened, S.decrypt payload metadata' = .ok opened) ↔
      metadata'.keyVersion = metadata.keyVersion ∧
        metadata'.associatedData = metadata.associatedData := by
  obtain ⟨ciphertext, hencrypt, rfl⟩ := encrypt_eq_ok.mp h
  simp only [decrypt_eq_ok]
  constructor
  · rintro ⟨opened, -, hversion, hopened⟩
    exact ⟨hversion.symm, hcipher.authentic hencrypt hopened⟩
  · rintro ⟨hversion, heq⟩
    refine ⟨plaintext, nonce.2, hversion.symm, ?_⟩
    rw [heq]
    exact hcipher.decrypt_encrypt hencrypt

theorem exists_encrypt_iff (hcipher : S.cipher.Authentic) (metadata : SecretMetadata)
    (nonce : { n : ByteArray // n.size = nonceLength }) (plaintext : ByteArray) :
    (∃ payload, S.encrypt nonce plaintext metadata = .ok payload) ↔
      plaintext.size < 2 ^ 31 ∧ metadata.associatedData.size < 2 ^ 31 := by
  rw [← hcipher.encrypt_isSome nonce.1 plaintext metadata.associatedData nonce.2,
    Option.isSome_iff_exists]
  simp only [encrypt_eq_ok, exists_comm (α := EncryptedSecretPayload), exists_and_left, exists_eq,
    and_true]

def zeroNonce : { n : ByteArray // n.size = nonceLength } :=
  ⟨⟨Array.replicate nonceLength 0⟩, Array.size_replicate⟩

/-- The associated data stands for the one metadata just where no part holds the separator, and no
other metadata opens a payload just where none of the three before the key version does, or nothing
can be sealed under it. -/
theorem opened_unique_iff (S : SecretCipher) (hcipher : S.cipher.Authentic)
    (metadata : SecretMetadata) :
    ((∀ metadata' : SecretMetadata, metadata'.associatedData = metadata.associatedData →
        metadata' = metadata) ↔
      ∀ part ∈ metadata.parts, '|' ∉ part.toList) ∧
    ((∀ nonce plaintext payload metadata' opened,
        S.encrypt nonce plaintext metadata = .ok payload →
          S.decrypt payload metadata' = .ok opened → metadata' = metadata) ↔
      (∀ part ∈ [metadata.secretId, metadata.targetId, metadata.secretType],
        '|' ∉ part.toList) ∨ 2 ^ 31 ≤ metadata.associatedData.size) := by
  refine ⟨SecretMetadata.associatedData_unique_iff, ?_⟩
  rw [← SecretMetadata.associatedData_unique_of_version_iff]
  constructor
  · intro h
    by_cases hsize : metadata.associatedData.size < 2 ^ 31
    · refine .inl (fun metadata' hversion heq => ?_)
      obtain ⟨payload, hpayload⟩ :=
        (exists_encrypt_iff hcipher metadata zeroNonce ByteArray.empty).mpr ⟨by decide, hsize⟩
      obtain ⟨opened, hopened⟩ := (decrypt_of_encrypt hcipher hpayload).mpr ⟨hversion, heq⟩
      exact h _ _ payload metadata' opened hpayload hopened
    · exact .inr (Nat.le_of_not_lt hsize)
  · intro h nonce plaintext payload metadata' opened hpayload hopened
    rcases h with hunique | hsize
    · obtain ⟨hversion, heq⟩ := (decrypt_of_encrypt hcipher hpayload).mp ⟨opened, hopened⟩
      exact hunique metadata' hversion heq
    · have hsealed := (exists_encrypt_iff hcipher metadata nonce plaintext).mp ⟨payload, hpayload⟩
      exact absurd hsealed.2 (Nat.not_lt.mpr hsize)

end SecretCipher

/-- The associated data with its length before it. -/
def frame (associatedData : ByteArray) : List UInt8 :=
  List.replicate associatedData.size 1 ++ 0 :: associatedData.data.toList

/-- A cipher that writes the associated data before the plaintext. -/
def framing : AESGCM where
  encrypt _ data associatedData :=
    if data.size < 2 ^ 31 ∧ associatedData.size < 2 ^ 31 then
      some ⟨(frame associatedData ++ data.data.toList).toArray⟩
    else none
  decrypt _ ciphertext associatedData :=
    (ciphertext.data.toList.dropPrefix? (frame associatedData)).map (fun data => ⟨data.toArray⟩)

theorem frame_append_inj {a a' : ByteArray} {d d' : List UInt8}
    (h : frame a ++ d = frame a' ++ d') : a = a' ∧ d = d' := by
  have hone (n : ℕ) : (0 : UInt8) ∉ List.replicate n 1 := fun h => by
    simpa using List.eq_of_mem_replicate h
  rw [frame, frame, List.append_assoc, List.append_assoc, List.cons_append, List.cons_append,
    append_sep_inj (hone _) (hone _)] at h
  have hsize : a.size = a'.size := by simpa using congrArg List.length h.1
  obtain ⟨hdata, hd⟩ := List.append_inj h.2 hsize
  exact ⟨ByteArray.ext (Array.toList_inj.mp hdata), hd⟩

theorem framing_authentic : framing.Authentic where
  encrypt_isSome nonce data associatedData _ := by
    simp only [framing, Option.isSome_ite]
  decrypt_encrypt {nonce data associatedData ciphertext} h := by
    simp only [framing, Option.ite_none_right_eq_some, Option.some.injEq] at h
    obtain ⟨-, rfl⟩ := h
    have hprefix : (frame associatedData ++ data.data.toList).dropPrefix? (frame associatedData) =
        some data.data.toList :=
      List.dropPrefix?_eq_some_iff.mpr ⟨frame associatedData, rfl, beq_self_eq_true _⟩
    simp only [framing, hprefix, Option.map_some]
  authentic h h' := by
    simp only [framing, Option.ite_none_right_eq_some, Option.some.injEq] at h h'
    obtain ⟨-, rfl⟩ := h
    obtain ⟨data, hdata, -⟩ := Option.map_eq_some_iff.mp h'
    obtain ⟨p, happend, hp⟩ := List.dropPrefix?_eq_some_iff.mp hdata
    rw [eq_of_beq hp] at happend
    exact (frame_append_inj happend).1.symm

namespace SecretCipher

theorem opened_unique_iff_plain :
    (∀ part ∈ ["s1", "t1", "MONGODB_URI"], '|' ∉ part.toList) ∧
    ∀ nonce plaintext payload metadata' opened,
      (⟨framing⟩ : SecretCipher).encrypt nonce plaintext ⟨"s1", "t1", "MONGODB_URI", "v1"⟩ =
        .ok payload →
      (⟨framing⟩ : SecretCipher).decrypt payload metadata' = .ok opened →
        metadata' = ⟨"s1", "t1", "MONGODB_URI", "v1"⟩ :=
  ⟨by decide,
    (opened_unique_iff ⟨framing⟩ framing_authentic ⟨"s1", "t1", "MONGODB_URI", "v1"⟩).2.mpr
      (.inl (by decide))⟩

/-- A separator in an identifier moves the next one. -/
theorem not_opened_unique : ∃ metadata metadata' : SecretMetadata, metadata' ≠ metadata ∧
    metadata'.associatedData = metadata.associatedData ∧
    ∃ nonce plaintext payload opened,
      (⟨framing⟩ : SecretCipher).encrypt nonce plaintext metadata = .ok payload ∧
        (⟨framing⟩ : SecretCipher).decrypt payload metadata' = .ok opened := by
  have heq : (⟨"a", "b|c", "MONGODB_URI", "v1"⟩ : SecretMetadata).associatedData =
      (⟨"a|b", "c", "MONGODB_URI", "v1"⟩ : SecretMetadata).associatedData := by
    rw [SecretMetadata.associatedData_inj]
    decide
  obtain ⟨payload, hpayload⟩ := (exists_encrypt_iff (S := ⟨framing⟩) framing_authentic
    ⟨"a|b", "c", "MONGODB_URI", "v1"⟩ zeroNonce ByteArray.empty).mpr (by decide)
  obtain ⟨opened, hopened⟩ := (decrypt_of_encrypt framing_authentic hpayload).mpr ⟨rfl, heq⟩
  exact ⟨_, _, by decide, heq, _, _, _, opened, hpayload, hopened⟩

end SecretCipher

end NoSQLOptimizer.Security
