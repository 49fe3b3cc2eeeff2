import GenWatch.Db.Tables
import GenWatch.Services.RateLimit

/-! # Logins and sessions

There is one password. A login that gives it receives a signed token with an expiry; a request is
that of whoever its token names, until then. Hashing and signing are a library's: `AuthLibrary`
has its functions, and `Lawful` what is relied on.
-/

namespace GenWatch

/-- What a session token says; each field may be missing. -/
structure Payload where
  sub : Option String
  role : Option Role
  iat : Option ℤ
  exp : Option ℤ
  deriving DecidableEq

inductive JwtError where
  | expired
  | invalid (reason : String)

structure AuthLibrary where
  /-- a password against a hash; it may raise -/
  checkpw : List UInt8 → List UInt8 → Option Bool
  /-- a payload, signed with a secret -/
  encode : Payload → String → String
  /-- what a token says under a secret, at a time -/
  decode : String → String → ℚ → Except JwtError Payload

/-- A token that is accepted under the secret that it was signed with says what was signed, and has
not expired. Other tokens may be accepted as well: a signature has more than one spelling. -/
structure AuthLibrary.Lawful (lib : AuthLibrary) : Prop where
  decode_encode : ∀ p secret now q, lib.decode (lib.encode p secret) secret now = .ok q →
    q = p ∧ ∀ e ∈ p.exp, now < e

structure AuthConfig where
  adminPasswordHash : String
  operatorName : String
  jwtSecret : String
  sessionHours : ℤ
  cookieSecure : Option Bool
  cookieSamesite : String

/-- The settings that the service starts with: outside mock mode it refuses a secret or a hash
that cannot be one, in mock mode it makes a secret of its own. -/
def AuthConfig.start (auth : AuthConfig) (mock : Bool) (fresh : String) :
    Except String AuthConfig :=
  let placeholder := "REPLACE_ME"
  let unusable := auth.jwtSecret = "" ∨ auth.jwtSecret = placeholder ∨ auth.jwtSecret.length < 32
  let badHash := auth.adminPasswordHash = "" ∨ auth.adminPasswordHash = placeholder ∨
    auth.adminPasswordHash.startsWith "$2" = false
  if unusable ∧ mock = false then .error "jwt_secret"
  else if mock = false ∧ badHash then .error "admin_password_hash"
  else .ok (if unusable then { auth with jwtSecret := fresh } else auth)

inductive HttpError where
  | plain (status : ℕ) (detail : String)
  | coded (status : ℕ) (code message : String)
  deriving DecidableEq

structure AccessAudit where
  operator : String
  action : String
  detail : String
  token : String
  result : String
  deriving DecidableEq

structure SessionCookie where
  token : String
  maxAge : ℤ
  samesite : String
  secure : Bool

structure Credentials where
  cookie : Option String
  authorization : String

structure Principal where
  operator : String
  role : Role
  deriving DecidableEq

namespace AuthLibrary

variable (lib : AuthLibrary)

def bcryptMax : ℕ := 72

def asciiBytes (s : String) : Option (List UInt8) :=
  if s.toList.all fun c => c.val < 128 then some s.toUTF8.toList else none

def verifyPassword (plain hashed : String) : Bool :=
  if hashed = "" ∨ plain = "" then false
  else ((asciiBytes hashed).bind (lib.checkpw (plain.toUTF8.toList.take bcryptMax))).getD false

/-- The expiry counts from the whole second. -/
def issueToken (secret operator : String) (role : Role) (hours : ℤ) (now : ℚ) :
    Except String String :=
  if secret = "" then .error "auth not configured (missing jwt_secret)"
  else .ok (lib.encode ⟨some operator, some role, some (truncInt now),
    some (truncInt now + hours * 3600)⟩ secret)

def decodeToken (secret token : String) (now : ℚ) : Except String Payload :=
  if secret = "" then .error "auth not configured"
  else
    match lib.decode token secret now with
    | .ok p => .ok p
    | .error .expired => .error "token expired"
    | .error (.invalid e) => .error ("invalid token: " ++ e)

def bearer (authorization : String) : Option String :=
  let chars := authorization.toList
  if (chars.take 7).map Char.toLower = "bearer ".toList then some (String.ofList (chars.drop 7))
  else none

/-- The token of a request: the cookie's, unless it is empty, then the header's. -/
def presented (cred : Credentials) : Option String :=
  (cred.cookie.filter (· ≠ "")).or ((bearer cred.authorization).filter (· ≠ ""))

def principal (auth : AuthConfig) (cred : Credentials) (now : ℚ) :
    Except HttpError (Principal × String) :=
  match presented cred with
  | none => .error (.plain 401 "not authenticated")
  | some token =>
    match lib.decodeToken auth.jwtSecret token now with
    | .error e => .error (.plain 401 e)
    | .ok p => .ok (⟨p.sub.getD "operator", p.role.getD .viewer⟩, token)

end AuthLibrary

/-! ### Logging in -/

inductive LoginReply where
  | refused (e : HttpError)
  /-- an exception that the endpoint does not handle -/
  | failed (reason : String)
  | loggedIn (cookie : SessionCookie)

/-- What a login leaves: the limiter, an audit row, the verdict on the password if there was one. -/
structure LoginOutcome where
  limiter : RateLimiter
  audit : Option AccessAudit
  verified : Option Bool
  reply : LoginReply

def RateLimiter.reset (l : RateLimiter) (key : String) : RateLimiter :=
  { l with buckets := Function.update l.buckets key none }

/-- The cookie is for encrypted connections only if the settings say so, or the request came over
one. -/
def AuthConfig.resolveCookieSecure (auth : AuthConfig) (scheme : String) : Bool :=
  auth.cookieSecure.getD (scheme = "https")

/-- A login from an address. A password is looked at only if the limiter lets it through, and the
right one makes the limiter forget the address. -/
def AuthLibrary.login (lib : AuthLibrary) (auth : AuthConfig) (limiter : RateLimiter)
    (ip password scheme : String) (mono wall : ℚ) : LoginOutcome :=
  if auth.adminPasswordHash = "" then
    ⟨limiter, none, none,
      .refused (.plain 503 "auth not initialized — set admin_password_hash in config")⟩
  else
    let checked := limiter.check ip mono
    if checked.1 = false then
      ⟨checked.2, some ⟨"anonymous", "auth.login", "ip=" ++ ip, "", "rate_limited"⟩, none,
        .refused (.coded 429 "rate_limited"
          ("too many attempts; retry in " ++ toString (checked.2.retryAfterS ip) ++ "s"))⟩
    else if lib.verifyPassword password auth.adminPasswordHash = false then
      ⟨checked.2, some ⟨"anonymous", "auth.login", "ip=" ++ ip, "", "denied"⟩, some false,
        .refused (.plain 401 "invalid password")⟩
    else
      match lib.issueToken auth.jwtSecret auth.operatorName .admin auth.sessionHours wall with
      | .error e => ⟨checked.2.reset ip, none, some true, .failed e⟩
      | .ok token =>
        ⟨checked.2.reset ip,
          some ⟨auth.operatorName, "auth.login", "", String.ofList (token.toList.take 8) ++ "...",
            "ok"⟩, some true,
          .loggedIn ⟨token, auth.sessionHours * 3600, auth.cookieSamesite,
            auth.resolveCookieSecure scheme⟩⟩

section Session

variable {lib : AuthLibrary} {auth : AuthConfig} {limiter : RateLimiter}
  {ip password scheme token : String} {cred : Credentials} {mono wall now : ℚ} {p : Principal}

theorem decode_of_principal (h : lib.principal auth cred now = .ok (p, token)) :
    AuthLibrary.presented cred = some token ∧ ∃ q, lib.decode token auth.jwtSecret now = .ok q ∧
      p = ⟨q.sub.getD "operator", q.role.getD .viewer⟩ := by
  unfold AuthLibrary.principal at h
  split at h
  · cases h
  · rename_i presentedToken hpresented
    split at h
    · cases h
    · rename_i q hdecode
      obtain ⟨rfl, rfl⟩ := Prod.mk.inj (Except.ok.inj h)
      refine ⟨hpresented, q, ?_, rfl⟩
      unfold AuthLibrary.decodeToken at hdecode
      split at hdecode
      · cases hdecode
      · split at hdecode
        · rename_i hok
          rw [hok, Except.ok.inj hdecode]
        · cases hdecode
        · cases hdecode

theorem login_loggedIn {cookie : SessionCookie}
    (h : (lib.login auth limiter ip password scheme mono wall).reply = .loggedIn cookie) :
    lib.verifyPassword password auth.adminPasswordHash = true ∧
      cookie.token = lib.encode ⟨some auth.operatorName, some .admin, some (truncInt wall),
        some (truncInt wall + auth.sessionHours * 3600)⟩ auth.jwtSecret := by
  unfold AuthLibrary.login at h
  dsimp only at h
  split at h
  · cases h
  split at h
  · cases h
  split at h
  · cases h
  rename_i hverified
  split at h
  · cases h
  rename_i issued hissue
  obtain rfl := LoginReply.loggedIn.inj h
  refine ⟨by simpa using hverified, ?_⟩
  unfold AuthLibrary.issueToken at hissue
  split at hissue
  · cases hissue
  · exact (Except.ok.inj hissue).symm

/-- A token that says what a login handed out lets its bearer in as the operator, until it
expires. -/
theorem principal_of_issued (hlib : lib.Lawful) {iat exp : ℤ} {operator : String} {role : Role}
    {issued : String} (hp : lib.principal auth cred now = .ok (p, token))
    (hissued : issued = lib.encode ⟨some operator, some role, some iat, some exp⟩ auth.jwtSecret)
    (hmeans : ∀ q, lib.decode token auth.jwtSecret now = .ok q →
      lib.decode issued auth.jwtSecret now = .ok q) :
    p = ⟨operator, role⟩ ∧ now < exp := by
  obtain ⟨-, q, hdecode, rfl⟩ := decode_of_principal hp
  have hsame := hmeans q hdecode
  rw [hissued] at hsame
  obtain ⟨rfl, hexp⟩ := hlib.decode_encode _ _ _ _ hsame
  exact ⟨rfl, hexp exp rfl⟩

end Session

end GenWatch
