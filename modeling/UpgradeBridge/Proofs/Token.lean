/-
The accept token of every key, told by the standards: the Base64 text of the
SHA-1 digest of the key and the identifier, one message whatever its length. Its
form follows from the number of bits in a digest.
-/
import UpgradeBridge.Proofs.Base64
import UpgradeBridge.Proofs.ProtocolSwitch
import UpgradeBridge.Proofs.Sha1

namespace UpgradeBridge

theorem utf8_append (s t : String) : utf8 (s ++ t) = utf8 s ++ utf8 t := by
  rw [utf8, String.toList_append, List.flatMap_append]
  rfl

/-- The key and the identifier are one message. -/
theorem acceptDigest_eq (key : String) :
    acceptDigest key = Sha1.digest (utf8 (key ++ webSocketGuid)) := by
  have hparts := Sha1.Hasher.finalize_updates [utf8 key, utf8 webSocketGuid]
  rw [utf8_append]
  simpa [acceptDigest] using hparts

theorem Sha1.length_hash (message : List Bool) : (Sha1.Standard.hash message).length = 160 := by
  simp only [Standard.hash, List.length_append, length_binary]

theorem Sha1.length_digest (message : Bytes) : (digest message).length = 20 := by
  have hbits := congrArg List.length (octetBits_digest message)
  rw [length_octetBits, length_hash] at hbits
  omega

/-- The token is the text of the digest of the message. -/
theorem toList_acceptToken (key : String) (alphabet : Base64.Alphabet) :
    (acceptToken key alphabet).toList = Base64.Standard.text alphabet
      (Sha1.Standard.hash (octetBits (utf8 (key ++ webSocketGuid)))) := by
  rw [acceptToken, String.toList_ofList, Base64.encode_eq, acceptDigest_eq, Sha1.octetBits_digest]

/-- **The accept token is that of RFC 6455 for every key.** In either alphabet it is the Base64 text
of the SHA-1 digest of one message, the key and the identifier after it, and decoding it gives the
twenty octets of the digest back. The alphabet for web addresses only changes two characters. A token
has 28 characters, of which the last one and no other fills it up, and it is a legal header value: the
edits that complete a handshake always set it. -/
theorem token_of_key (key : String) :
    let digest := Sha1.Standard.hash
      (octetBits (utf8 (key ++ "258EAFA5-E914-47DA-95CA-C5AB0DC85B11")))
    (∀ alphabet, (acceptToken key alphabet).toList = Base64.Standard.text alphabet digest) ∧
    (∃ bytes, octetBits bytes = digest ∧ bytes.length = 20 ∧
      ∀ alphabet, Base64.decode? alphabet (acceptToken key alphabet).toList = some bytes) ∧
    (acceptToken key .urlSafe).toList = (acceptToken key .standard).toList.map
      (fun c => if c = '+' then '-' else if c = '/' then '_' else c) ∧
    ∀ alphabet, (acceptToken key alphabet).toList.length = 28 ∧
      (∃ letters, (acceptToken key alphabet).toList = letters ++ ['='] ∧ '=' ∉ letters) ∧
      (∀ b ∈ utf8 (acceptToken key alphabet), Header.isValueByte b = true) ∧
      ∃ value : Header.Value, value.bytes = utf8 (acceptToken key alphabet) ∧
        .set Header.Name.secWebSocketAccept value ∈ ProtocolSwitch.edits ⟨key, alphabet⟩ := by
  intro digest
  have hdigest : digest = Sha1.Standard.hash (octetBits (utf8 (key ++ webSocketGuid))) := rfl
  have htext : ∀ alphabet, (acceptToken key alphabet).toList = Base64.Standard.text alphabet digest :=
    hdigest ▸ toList_acceptToken key
  -- from here on the digest is only a name, or it would be computed below
  clear_value digest
  have hbytes : octetBits (acceptDigest key) = digest := by
    rw [acceptDigest_eq, Sha1.octetBits_digest, hdigest]
  have hlength : (acceptDigest key).length = 20 := by
    rw [acceptDigest_eq, Sha1.length_digest]
  have hdecode : ∀ alphabet,
      Base64.decode? alphabet (acceptToken key alphabet).toList = some (acceptDigest key) := by
    intro alphabet
    rw [acceptToken, String.toList_ofList, Base64.decode?_encode]
  refine ⟨htext, ⟨_, hbytes, hlength, hdecode⟩, ?_, fun alphabet => ?_⟩
  · rw [htext, htext]
    exact Base64.text_urlSafe _
  · obtain ⟨letters, hletters, hfill, htoken⟩ := Base64.text_eq alphabet digest
    rw [hdigest, Sha1.length_hash] at hletters
    rw [← htext, hletters] at htoken
    have hvalue : (acceptValue key alphabet).bytes = utf8 (acceptToken key alphabet) := by
      rw [acceptValue]
    have hset : .set Header.Name.secWebSocketAccept (acceptValue key alphabet) ∈
        ProtocolSwitch.edits ⟨key, alphabet⟩ := by
      rw [ProtocolSwitch.edits_eq]
      simp
    have hlength' : (acceptToken key alphabet).toList.length = 28 := by
      rw [htoken, List.length_append, hletters]
      rfl
    have hlegal := List.all_eq_true.mp (acceptToken_legal key alphabet)
    exact ⟨hlength', ⟨letters, htoken, hfill⟩, hlegal, _, hvalue, hset⟩

/-- The sample handshake of the standard. -/
example : acceptToken "dGhlIHNhbXBsZSBub25jZQ==" .standard = "s3pPLMBiTxaQ9kYGzzhZRbK+xOo=" := by
  decide +kernel

end UpgradeBridge
