import Justup.Net.ClientIp
import Justup.Targets.Url

/-!
# Cookies and CSRF proofs

`CSRFMiddleware` in front of the helpers that resolve the user of a request.  The
reader of a bearer header that the framework has (`HTTPBearer`) and the lookup of
a token are parameters.
-/

namespace Justup.Auth

open Store Net Targets

/-! ## Requests -/

/-- What is read of a request.  The names of the headers are in lower case. -/
structure HttpRequest extends Net.Request where
  method : Text
  /-- `url.scheme` -/
  scheme : Text
  /-- `url.path` -/
  path : Text
  cookies : List (Text × Text)

/-- `request.cookies.get` -/
def HttpRequest.cookie (request : HttpRequest) (name : String) : Option Text :=
  (request.cookies.find? fun entry => entry.1 = name.toList).map Prod.snd

/-- `request.headers.get` -/
def HttpRequest.header (request : HttpRequest) (name : String) : Option Text :=
  request.get name.toList

def HttpRequest.withoutCookies (request : HttpRequest) : HttpRequest :=
  { request with cookies := [] }

section

variable (unicode : Unicode) (networks : List Network)

/-- The last value of `X-Forwarded-Proto`. -/
def forwardedProto (request : HttpRequest) : Text :=
  let values := [','].intercalate (request.getlist "x-forwarded-proto".toList)
  unicode.lower (strip (values.rtakeWhile (· != ',')))

/-- `request_is_https` -/
def requestIsHttps (request : HttpRequest) : Bool :=
  let trusted := (ipAddress (request.host.getD [])).any (isTrusted networks)
  let proto := forwardedProto unicode request
  if trusted && !proto.isEmpty then proto = https else request.scheme = https

/-! ## The middleware -/

def safeMethods : List Text := ["GET".toList, "HEAD".toList, "OPTIONS".toList]

def cspReportPath : Text := "/csp-report".toList

/-- One step of the loop of `posixpath.normpath`. -/
def normpathStep (absolute : Bool) (comps : List Text) (comp : Text) : List Text :=
  if comp = [] ∨ comp = ['.'] then comps
  else if comp ≠ ['.', '.'] ∨ (!absolute ∧ comps = []) ∨ comps.getLast? = some ['.', '.'] then
    comps ++ [comp]
  else comps.dropLast

/-- `posixpath.normpath`; two leading slashes, but not three, stay. -/
def normpath (path : Text) : Text :=
  let slashes := path.takeWhile (· == '/')
  let root : Text := if slashes.length = 2 then ['/', '/'] else slashes.take 1
  let comps := ((path.drop root.length).splitOn '/').foldl (normpathStep !root.isEmpty) []
  let path := root ++ ['/'].intercalate comps
  if path = [] then ['.'] else path

/-- `UI_PREFIXES` -/
def uiPrefixes : List Text := ["/ui/".toList, "/login".toList]

/-- `_requires_csrf` -/
def requiresCsrf (path : Text) : Bool :=
  let normalized := unicode.lower (normpath path)
  ["/me/theme".toList, "/me/complete-required-change".toList, "/me/dashboard-layout".toList,
      "/logout".toList].contains normalized ||
    uiPrefixes.any fun start =>
      let start := unicode.lower (normpath start)
      (start ++ ['/']).isPrefixOf normalized || normalized == start

/-- `_DEFAULT_PORTS` -/
def defaultPort (scheme : Text) : Option ℕ :=
  if scheme = http then some 80 else if scheme = https then some 443 else none

/-- `port or default` -/
def portOr (port : Option ℕ) (default : ℕ) : ℕ :=
  match port with
  | none => default
  | some 0 => default
  | some port => port

/-- `_check_origin` -/
def checkOrigin (request : HttpRequest) (required : Bool) : Bool :=
  match request.header "origin" with
  | none => !required
  | some [] => !required
  | some origin =>
      let host := (request.header "host").getD []
      match urlsplit unicode origin, urlsplit unicode ('/' :: '/' :: host) with
      | some o, some h =>
          match defaultPort o.scheme, o.hostname unicode, h.hostname unicode with
          | some default, some name, some hostName =>
              if unicode.lower name ≠ unicode.lower hostName then false
              else
                match o.port, h.port with
                | some port, some hostPort =>
                    if portOr port default ≠ portOr hostPort default then false
                    else !(o.scheme = http && requestIsHttps unicode networks request)
                | _, _ => false
          | _, _, _ => false
      | _, _ => false

/-- `secrets.compare_digest`, none for the `TypeError` of a text that is not ASCII. -/
def compareDigest (a b : Text) : Option Bool :=
  if isAscii a && isAscii b then some (a = b) else none

/-- The name of the session cookie. -/
def cookieName (request : HttpRequest) : String :=
  if requestIsHttps unicode networks request then "__Host-token" else "token"

/-- `_has_authorization_header` -/
def hasAuthorizationHeader (request : HttpRequest) : Bool :=
  !(strip ((request.header "authorization").getD [])).isEmpty

/-- `cookie_auth` of the middleware. -/
def cookieAuth (request : HttpRequest) : Bool :=
  !((request.cookie (cookieName unicode networks request)).getD []).isEmpty &&
    !hasAuthorizationHeader request && request.path != cspReportPath

inductive Verdict where
  /-- `call_next`, with the token in `request.state`. -/
  | next (csrfToken : Text)
  | forbidden (detail : String)
  /-- An exception that nothing catches. -/
  | raised
  deriving DecidableEq

/-- `dispatch` up to `call_next`; `fresh` is what `token_urlsafe` gives. -/
def dispatch (fresh : Text) (request : HttpRequest) : Verdict :=
  let csrfToken :=
    match request.cookie "csrf_token" with
    | none => fresh
    | some [] => fresh
    | some token => token
  let cookieAuth := cookieAuth unicode networks request
  if request.method ∉ safeMethods ∧ (requiresCsrf unicode request.path ∨ cookieAuth) then
    if !checkOrigin unicode networks request cookieAuth then
      .forbidden "Cross-origin request blocked"
    else
      match request.header "x-csrf-token" with
      | none => .forbidden "CSRF Token mismatch or missing"
      | some [] => .forbidden "CSRF Token mismatch or missing"
      | some submitted =>
          match compareDigest submitted csrfToken with
          | none => .raised
          | some false => .forbidden "CSRF Token mismatch or missing"
          | some true => .next csrfToken
  else .next csrfToken

/-! ## The user of a request -/

structure User where
  id : ℤ
  isActive : Bool
  mustChangePassword : Bool
  deriving DecidableEq

/-- What is read of the database. -/
structure Accounts where
  authDisabled : Bool
  fallbackAdmin : Option User
  /-- `get_user_by_token` -/
  userByToken : Text → Option User

def maxTokenLength : ℕ := 512

/-- `_extract_bearer_token` -/
def extractBearerToken (request : HttpRequest) : Option Text :=
  let header := (request.header "authorization").getD []
  if unicode.lower (header.take 7) = "bearer ".toList then
    let token := strip (header.drop 7)
    if token = [] ∨ token.length > maxTokenLength then none else some token
  else none

/-- `_extract_cookie_token` -/
def extractCookieToken (request : HttpRequest) (name : Option String) : Option Text :=
  match request.cookie (name.getD (cookieName unicode networks request)) with
  | none => none
  | some [] => none
  | some token => if token.length > maxTokenLength then none else some token

/-- `resolve_user_optional` behind the check whether authentication is disabled. -/
def resolveByToken (accounts : Accounts) (request : HttpRequest) (allowCookie : Bool)
    (name : Option String) : Option User :=
  if hasAuthorizationHeader request then
    (extractBearerToken unicode request).bind accounts.userByToken
  else if allowCookie then
    (extractCookieToken unicode networks request name).bind accounts.userByToken
  else none

/-- `resolve_user_optional` -/
def resolveUserOptional (accounts : Accounts) (request : HttpRequest) (allowCookie : Bool)
    (name : Option String) : Option User :=
  match accounts.authDisabled, accounts.fallbackAdmin with
  | true, some admin => some admin
  | _, _ => resolveByToken unicode networks accounts request allowCookie name

/-- `PASSWORD_CHANGE_ALLOWED_PATHS` -/
def passwordChangeAllowedPaths : List Text :=
  ["/ui/change-password".toList, "/me/complete-required-change".toList, "/logout".toList]

/-- `is_password_change_exempt_path` -/
def isPasswordChangeExemptPath (path : Text) : Bool :=
  let path := path.rdropWhile (· == '/')
  passwordChangeAllowedPaths.contains (if path = [] then ['/'] else path)

/-- `_finalize` -/
def finalize (request : HttpRequest) (user : User) : Except (ℕ × String) User :=
  if !user.isActive then .error (403, "Account disabled")
  else if user.mustChangePassword && !isPasswordChangeExemptPath request.path then
    .error (428, "Password change required")
  else .ok user

/-- `get_current_user`; `bearer` gives the credentials of an `Authorization` header. -/
def getCurrentUser (bearer : Option Text → Option Text) (accounts : Accounts)
    (request : HttpRequest) : Except (ℕ × String) User :=
  match (bearer (request.header "authorization")).getD [] with
  | [] =>
      match resolveUserOptional unicode networks accounts request true none with
      | some user => finalize request user
      | none => .error (401, "Not authenticated")
  | credentials =>
      match accounts.userByToken credentials with
      | some user => finalize request user
      | none => .error (401, "Invalid or expired token")

end

end Justup.Auth
