import Justup.Auth.Csrf

/-!
# A cookie does not write without a proof

A request that the middleware lets through either has no use for a cookie or
carries the token of its CSRF cookie and an origin that is its host.  That a
helper takes no user from a cookie means that it answers the same without any.
-/

namespace Justup.Auth

open Store Net Targets

section

variable {unicode : Unicode} {networks : List Network} {accounts : Accounts}
  {bearer : Option Text → Option Text} {request : HttpRequest} {fresh token : Text}

/-! ## What a cookie does -/

theorem hasAuthorizationHeader_withoutCookies (request : HttpRequest) :
    hasAuthorizationHeader request.withoutCookies = hasAuthorizationHeader request := rfl

/-- With an `Authorization` header no cookie is read. -/
theorem resolveByToken_of_header (h : hasAuthorizationHeader request = true) (allowCookie : Bool)
    (name : Option String) :
    resolveByToken unicode networks accounts request.withoutCookies allowCookie name =
      resolveByToken unicode networks accounts request allowCookie name := by
  unfold resolveByToken
  rw [hasAuthorizationHeader_withoutCookies, h]
  rfl

theorem extractCookieToken_withoutCookies (request : HttpRequest) (name : Option String) :
    extractCookieToken unicode networks request.withoutCookies name = none := rfl

theorem extractCookieToken_of_empty
    (h : (request.cookie (cookieName unicode networks request)).getD [] = []) :
    extractCookieToken unicode networks request none = none := by
  unfold extractCookieToken
  rw [Option.getD_none]
  cases hcookie : request.cookie (cookieName unicode networks request) with
  | none => rfl
  | some token =>
      rw [hcookie, Option.getD_some] at h
      subst h
      rfl

/-- Without a session cookie there is nothing to take a user from. -/
theorem resolveByToken_of_empty
    (h : (request.cookie (cookieName unicode networks request)).getD [] = []) :
    resolveByToken unicode networks accounts request.withoutCookies true none =
      resolveByToken unicode networks accounts request true none := by
  unfold resolveByToken
  rw [hasAuthorizationHeader_withoutCookies, extractCookieToken_withoutCookies,
    extractCookieToken_of_empty h]
  rfl

theorem resolveUserOptional_eq (henabled : accounts.authDisabled = false) (request : HttpRequest)
    (allowCookie : Bool) (name : Option String) :
    resolveUserOptional unicode networks accounts request allowCookie name =
      resolveByToken unicode networks accounts request allowCookie name := by
  unfold resolveUserOptional
  rw [henabled]

theorem getCurrentUser_withoutCookies
    (h : resolveUserOptional unicode networks accounts request.withoutCookies true none =
      resolveUserOptional unicode networks accounts request true none) :
    getCurrentUser unicode networks bearer accounts request.withoutCookies =
      getCurrentUser unicode networks bearer accounts request := by
  unfold getCurrentUser
  rw [h]
  rfl

/-! ## The proof that a request carries -/

/-- An origin that is the host of its request.  Where one of the ports is written as 0 nothing is
said about them. -/
structure SameOrigin (unicode : Unicode) (networks : List Network) (request : HttpRequest)
    (o h : SplitResult) : Prop where
  host : ∃ name hostName, o.hostname unicode = some name ∧ h.hostname unicode = some hostName ∧
    unicode.lower name = unicode.lower hostName
  port : ∃ default port hostPort, defaultPort o.scheme = some default ∧ o.port = some port ∧
    h.port = some hostPort ∧
    (port ≠ some 0 → hostPort ≠ some 0 → port.getD default = hostPort.getD default)
  scheme : ¬(o.scheme = http ∧ requestIsHttps unicode networks request = true)

/-- The token of the CSRF cookie in a header, and an `Origin` that is the host. -/
structure CsrfProof (unicode : Unicode) (networks : List Network) (request : HttpRequest) :
    Prop where
  token : ∃ token, request.header "x-csrf-token" = some token ∧
    request.cookie "csrf_token" = some token
  origin : ∃ origin o h, request.header "origin" = some origin ∧
    urlsplit unicode origin = some o ∧
    urlsplit unicode ('/' :: '/' :: (request.header "host").getD []) = some h ∧
    SameOrigin unicode networks request o h

theorem portOr_of_ne_zero {port : Option ℕ} (h : port ≠ some 0) (default : ℕ) :
    portOr port default = port.getD default := by
  unfold portOr
  split
  · rfl
  · exact absurd rfl h
  · rfl

theorem sameOrigin_of_checkOrigin (h : checkOrigin unicode networks request true = true) :
    ∃ origin o h, request.header "origin" = some origin ∧ urlsplit unicode origin = some o ∧
      urlsplit unicode ('/' :: '/' :: (request.header "host").getD []) = some h ∧
      SameOrigin unicode networks request o h := by
  unfold checkOrigin at h
  split at h
  · cases h
  · cases h
  next origin _ horigin =>
    simp only at h
    split at h
    next o ho hsplit hsplit' =>
      split at h
      next default name hostName hdefault hname hhostName =>
        split_ifs at h with hnames
        split at h
        next port hostPort hport hhostPort =>
          split_ifs at h with hports
          refine ⟨origin, o, ho, horigin, hsplit, hsplit', ⟨name, hostName, hname, hhostName, ?_⟩,
            ⟨default, port, hostPort, hdefault, hport, hhostPort, fun hne hne' => ?_⟩, ?_⟩
          · exact not_not.mp hnames
          · rw [← portOr_of_ne_zero hne, ← portOr_of_ne_zero hne']
            exact not_not.mp hports
          · rintro ⟨hscheme, hhttps⟩
            rw [hhttps] at h
            simp [hscheme] at h
        next => cases h
      next => cases h
    next => cases h

/-- What a request has behind the middleware. -/
theorem proof_of_dispatch (hmethod : request.method ∉ safeMethods)
    (hauth : cookieAuth unicode networks request = true)
    (hfresh : request.header "x-csrf-token" ≠ some fresh)
    (h : dispatch unicode networks fresh request = .next token) :
    CsrfProof unicode networks request := by
  unfold dispatch at h
  simp only [hauth] at h
  rw [if_pos ⟨hmethod, .inr trivial⟩] at h
  split at h
  · cases h
  next horigin =>
    refine ⟨?_, sameOrigin_of_checkOrigin (by simpa using horigin)⟩
    split at h
    · cases h
    · cases h
    next submitted _ hsubmitted =>
      split at h
      · cases h
      · cases h
      next hdigest =>
        unfold compareDigest at hdigest
        split_ifs at hdigest
        have hsame := of_decide_eq_true (Option.some.inj hdigest)
        refine ⟨submitted, hsubmitted, ?_⟩
        split at hsame
        · exact absurd (hsame ▸ hsubmitted) hfresh
        · exact absurd (hsame ▸ hsubmitted) hfresh
        next hcookie => rw [hcookie, hsame]

/-- A request that may write passes the middleware only if neither helper takes its user from a
cookie or if it carries a CSRF proof; and with an `Authorization` header that is not blank no
cookie authenticates. -/
theorem cookie_writes_carry_a_proof (unicode : Unicode) (networks : List Network)
    (accounts : Accounts) (bearer : Option Text → Option Text) (request : HttpRequest)
    (fresh : Text) (henabled : accounts.authDisabled = false) :
    (request.method ∉ safeMethods → request.path ≠ cspReportPath →
      request.header "x-csrf-token" ≠ some fresh →
      (∃ token, dispatch unicode networks fresh request = .next token) →
      (resolveUserOptional unicode networks accounts request.withoutCookies true none =
          resolveUserOptional unicode networks accounts request true none ∧
        getCurrentUser unicode networks bearer accounts request.withoutCookies =
          getCurrentUser unicode networks bearer accounts request) ∨
      CsrfProof unicode networks request) ∧
    (hasAuthorizationHeader request = true →
      (∀ allowCookie name,
        resolveUserOptional unicode networks accounts request.withoutCookies allowCookie name =
          resolveUserOptional unicode networks accounts request allowCookie name) ∧
      getCurrentUser unicode networks bearer accounts request.withoutCookies =
        getCurrentUser unicode networks bearer accounts request) := by
  have hsame := fun (h : resolveByToken unicode networks accounts request.withoutCookies true none =
      resolveByToken unicode networks accounts request true none) =>
    (resolveUserOptional_eq henabled _ _ _).trans (h.trans
      (resolveUserOptional_eq henabled _ _ _).symm)
  refine ⟨fun hmethod hpath hfresh hpass => ?_, fun hheader => ?_⟩
  · obtain ⟨token, hpass⟩ := hpass
    cases hauth : cookieAuth unicode networks request with
    | true => exact .inr (proof_of_dispatch hmethod hauth hfresh hpass)
    | false =>
        left
        have hno : resolveByToken unicode networks accounts request.withoutCookies true none =
            resolveByToken unicode networks accounts request true none := by
          cases hheader : hasAuthorizationHeader request with
          | true => exact resolveByToken_of_header hheader true none
          | false =>
              refine resolveByToken_of_empty ?_
              simpa [cookieAuth, hheader, hpath] using hauth
        exact ⟨hsame hno, getCurrentUser_withoutCookies (hsame hno)⟩
  · refine ⟨fun allowCookie name => ?_, getCurrentUser_withoutCookies (hsame ?_)⟩
    · rw [resolveUserOptional_eq henabled, resolveUserOptional_eq henabled]
      exact resolveByToken_of_header hheader allowCookie name
    · exact resolveByToken_of_header hheader true none

end

/-! ## Blank headers and the port 0 -/

/-- The tables as they are on ASCII texts. -/
def asciiUnicode : Unicode where
  lower text := text.map Char.toLower
  idna text := some text
  netlocOk _ := true
  decimal c := if c.isDigit then some (c.toNat - 48) else none

/-- `HTTPBearer` on a header of two words. -/
def httpBearer (header : Option Text) : Option Text :=
  match partition ' ' (header.getD []) with
  | (scheme, some credentials) =>
      if scheme.map Char.toLower = "bearer".toList then some credentials else none
  | (_, none) => none

/-- An account whose token is `secret`. -/
def oneAccount : Accounts where
  authDisabled := false
  fallbackAdmin := none
  userByToken token := if token = "secret".toList then some ⟨1, true, false⟩ else none

/-- A `POST` with the cookie of a session and these headers. -/
def cookieWrite (headers : List (String × String)) : HttpRequest where
  host := some "192.0.2.1".toList
  headers := headers.map fun header => (header.1.toList, header.2.toList)
  method := "POST".toList
  scheme := https
  path := "/api/targets".toList
  cookies := [("__Host-token".toList, "secret".toList), ("csrf_token".toList, "t".toList)]

def blankAuthorization : HttpRequest := cookieWrite [("authorization", " ")]

/-- A request with a proof but for the port of its origin. -/
def zeroPort : HttpRequest :=
  cookieWrite [("host", "example.org"), ("origin", "https://example.org:0"), ("x-csrf-token", "t")]

/-- A blank `Authorization` header is present and cannot be used, and the cookie authenticates; and
an origin with the port 0 passes as one with the port of the host. -/
theorem blank_authorization_and_zero_port :
    ((blankAuthorization.header "authorization").isSome = true ∧
      extractBearerToken asciiUnicode blankAuthorization = none ∧
      resolveUserOptional asciiUnicode [] oneAccount blankAuthorization true none =
        some ⟨1, true, false⟩ ∧
      resolveUserOptional asciiUnicode [] oneAccount blankAuthorization.withoutCookies true none =
        none) ∧
    dispatch asciiUnicode [] "fresh".toList zeroPort = .next "t".toList ∧
      resolveUserOptional asciiUnicode [] oneAccount zeroPort true none = some ⟨1, true, false⟩ ∧
      resolveUserOptional asciiUnicode [] oneAccount zeroPort.withoutCookies true none = none ∧
      (urlsplit asciiUnicode "https://example.org:0".toList).bind SplitResult.port =
        some (some 0) ∧
      (urlsplit asciiUnicode "//example.org".toList).bind SplitResult.port = some none ∧
      defaultPort https = some 443 := by
  decide +kernel

/-- A write with its proof. -/
theorem cookie_writes_carry_a_proof_write :
    CsrfProof asciiUnicode [] (cookieWrite [("host", "example.org:8443"),
      ("origin", "https://example.org:8443"), ("x-csrf-token", "t")]) := by
  refine ((cookie_writes_carry_a_proof asciiUnicode [] oneAccount httpBearer
    (cookieWrite [("host", "example.org:8443"), ("origin", "https://example.org:8443"),
      ("x-csrf-token", "t")]) "fresh".toList rfl).1 (by decide +kernel) (by decide +kernel)
    (by decide +kernel) ⟨"t".toList, by decide +kernel⟩).resolve_left fun h => ?_
  exact absurd h.1 (by decide +kernel)

end Justup.Auth
