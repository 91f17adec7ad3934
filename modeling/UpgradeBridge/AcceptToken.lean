/-
The token by which a server proves that it read a WebSocket key, RFC 6455
section 4.2.2: the Base64 text of the SHA-1 digest of the key followed by a
fixed identifier.
-/
import UpgradeBridge.Base64
import UpgradeBridge.Digest.Sha1.Hasher

namespace UpgradeBridge

/-- The identifier that follows every key. -/
def webSocketGuid : String := "258EAFA5-E914-47DA-95CA-C5AB0DC85B11"

/-- The digest that the token of a key encodes. -/
def acceptDigest (key : String) : Bytes :=
  let hasher : Sha1.Hasher := {}
  ((hasher.update (utf8 key)).update (utf8 webSocketGuid)).finalize

/-- The accept token of a key. Conforming clients expect the standard alphabet. -/
def acceptToken (key : String) (alphabet : Base64.Alphabet) : String :=
  String.ofList (Base64.encode alphabet (acceptDigest key))

end UpgradeBridge
