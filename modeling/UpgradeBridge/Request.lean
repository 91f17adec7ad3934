/-
Requests: a method, a target, header fields and a body.
-/
import UpgradeBridge.Headers
import UpgradeBridge.Uri

namespace UpgradeBridge

/-- A request method. Case counts. -/
structure Method where
  name : String
  deriving DecidableEq, Repr

namespace Method

/-- The method that a text spells; none if the text is not a token. -/
def ofString? (text : String) : Option Method :=
  if text.toList.all Header.isTokenChar && !text.isEmpty then some ⟨text⟩ else none

def get : Method := ⟨"GET"⟩
def head : Method := ⟨"HEAD"⟩
def connect : Method := ⟨"CONNECT"⟩

end Method

/-- A request. -/
structure Request where
  method : Method := Method.get
  uri : Uri := Uri.root
  headers : Headers := ∅
  body : Bytes := []
  deriving DecidableEq, Repr

end UpgradeBridge
