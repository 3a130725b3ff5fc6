import Conduit.Foundation.Json

namespace Conduit

structure JwtVerifyOptions where
  issuer : Option String
  audience : Option String
  clockTolerance : ℕ
  algorithms : List String

-- what the runtime and its packages provide: node:crypto, RegExp, jose, JSON.parse of a base64
-- buffer, and Number of a text, `none` where it is NaN
structure Host where
  sha256 : String → String
  regExpTest : String → String → Option Bool
  jwtVerify : String → String → JwtVerifyOptions → Except String (List (String × Json))
  parseBase64Json : String → Option Json
  numberOf : String → Option JsNumber := fun _ => none

end Conduit
