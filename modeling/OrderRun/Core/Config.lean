import Mathlib.Tactic.Common

/-!
# Settings

What the account services read of `app/core/config.py`, and the functions of the
libraries they call: SHA-256, and the signing and checking of JSON web tokens.  A token
is its claims as far as the services are concerned; `exp`, which only the library reads,
is left out.
-/

namespace OrderRun

/-- The claims of a token. -/
structure TokenClaims where
  sub : Option String
  type : String
  deriving DecidableEq, Repr

structure Settings where
  appEnv : String
  secretKey : String
  /-- `hashlib.sha256(...).hexdigest()`. -/
  sha256 : String → String
  /-- `jwt.encode` with the secret of the application. -/
  jwtEncode : TokenClaims → String
  /-- `jwt.decode`; nothing comes back if it raises. -/
  jwtDecode : String → Option TokenClaims
  jwtAccessTokenExpireMinutes : ℕ

/-- A production environment, whose tokens nobody can forge because none is accepted. -/
def Settings.sample : Settings where
  appEnv := "production"
  secretKey := "secret"
  sha256 := id
  jwtEncode := fun claims => claims.type ++ ":" ++ claims.sub.getD ""
  jwtDecode := fun _ => none
  jwtAccessTokenExpireMinutes := 60

end OrderRun
