import Justup.Targets.Store

/-!
# Targets through the API

`POST` and `PATCH` of a target, from the request that the models admit to the
row.  A field of a `PATCH` is not sent, null or a value; the model's validator
has made an empty port list null.
-/

namespace Justup.Targets

open Lib Store

/-- The Unicode tables, the cipher of the secrets and the recipients that exist. -/
structure Server where
  unicode : Unicode
  fernet : Text → Text
  recipients : List Nat

/-- `HTTPException`; an error that is not one is a 500. -/
structure HttpError where
  status : Nat
  details : List String
deriving DecidableEq

def internalError : HttpError := ⟨500, []⟩

def truthy (text : Option Text) : Bool := (orText text none).isSome

/-! ## Fields -/

/-- `_validate_http_url` -/
def validateHttpUrl (unicode : Unicode) (url : Option Text) : Except HttpError (Option Text) :=
  match url.map strip with
  | none | some [] => .ok none
  | some url =>
      match urlsplit unicode url with
      | none => .error internalError
      | some parts =>
          if parts.scheme ≠ http ∧ parts.scheme ≠ https then
            .error ⟨422, ["http_url must use http:// or https:// scheme, got '" ++
              String.ofList parts.scheme ++ "://'"]⟩
          else if parts.netloc = [] then
            .error ⟨422, ["http_url must include a valid hostname"]⟩
          else if '@' ∈ parts.netloc then
            .error ⟨422, ["http_url must not contain credentials (user:password@); " ++
              "use the auth fields"]⟩
          else .ok (some url)

/-- `urlparse(url).scheme == "https"` -/
def isHttps (unicode : Unicode) (url : Text) : Bool :=
  (urlsplit unicode url).any fun parts => decide (parts.scheme = https)

/-- `parse_port` of a token that has no space: its number, or what is wrong with it. -/
def parsePort (token : Text) : Except HttpError Nat :=
  if token.all Char.isDigit = false then
    .error ⟨422, ["Invalid TCP port: '" ++ String.ofList token ++ "' (must be a number)"]⟩
  else
    let port := Nat.ofDigitChars 10 token 0
    if 1 ≤ port ∧ port ≤ 65535 then .ok port
    else .error ⟨422, ["Invalid TCP port: " ++ toString port ++ " out of range (1-65535)"]⟩

/-- `parse_port_list` of a text: the ports in ascending order, each once. -/
def parsePortList (text : Text) : Except HttpError (List Nat) := do
  let tokens := (text.splitOnP fun c => c == ',' || isSpace c).filter fun token => !token.isEmpty
  let ports ← tokens.mapM parsePort
  .ok (ports.dedup.insertionSort (· ≤ ·))

/-- `_validate_tcp_ports` -/
def validateTcpPorts (ports : Option Text) : Except HttpError Text :=
  match ports with
  | none => .ok defaultTcpPorts
  | some text => do
      let ports ← parsePortList text
      .ok (if ports = [] then defaultTcpPorts
        else [','].intercalate (ports.map fun port => Nat.toDigits 10 port))

/-- `_encrypt_password` -/
def encryptPassword (server : Server) (password : Option Text) : Option Text :=
  (orText password none).map fun plain => "enc$".toList ++ server.fernet plain

def normHost (server : Server) (value : Option Text) : Except HttpError (Option Text) :=
  match normalizeHost server.unicode value with
  | none => .error internalError
  | some host => .ok host

/-! ## The consistency of a target -/

/-- What `_validate_target_consistency` reads. -/
structure Settings where
  host : Option Text
  isEnabled : Bool
  enablePing : Bool
  enableHttpCheck : Bool
  enableTcpConnect : Bool
  enableCertExpiration : Bool
  pingHost : Option Text
  httpUrl : Option Text
  httpUsername : Option Text
  httpPassword : Option Text
  tcpHost : Option Text

def Settings.scheme? (unicode : Unicode) (settings : Settings) : Bool :=
  (orText settings.httpUrl none).any (isHttps unicode)

/-- `_validate_target_consistency`: the messages. -/
def Settings.errors (unicode : Unicode) (settings : Settings) : List String :=
  (if truthy settings.host = false then ["host is required"] else []) ++
  (if settings.isEnabled ∧ settings.enablePing = false ∧ settings.enableHttpCheck = false ∧
      settings.enableTcpConnect = false then
    ["An enabled target requires at least one monitoring check"] else []) ++
  (if settings.enableHttpCheck ∧ truthy settings.httpUrl = false then
    ["http_url is required when enable_http_check is true"] else []) ++
  (if (truthy settings.httpUsername ∨ truthy settings.httpPassword) ∧
      truthy settings.httpUrl = false then
    ["http_url is required when setting HTTP credentials"] else []) ++
  (if settings.enableTcpConnect ∧ truthy settings.tcpHost = false then
    ["tcp_host is required when enable_tcp_connect is true"] else []) ++
  (if settings.enablePing ∧ truthy settings.host = false ∧ truthy settings.pingHost = false then
    ["Host or ping_host is required when enable_ping is true"] else []) ++
  (if settings.enableCertExpiration ∧ settings.enableHttpCheck = false then
    ["HTTP check must be enabled when certificate expiration monitoring is enabled"] else []) ++
  (if settings.enableCertExpiration ∧ truthy settings.httpUrl = false then
    ["http_url is required when certificate expiration monitoring is enabled"] else []) ++
  (if settings.enableCertExpiration ∧ truthy settings.httpUrl ∧
      settings.scheme? unicode = false then
    ["Certificate expiration monitoring requires an HTTPS URL"] else []) ++
  if truthy settings.httpPassword ∧ truthy settings.httpUsername = false then
    ["http_username is required when http_password is set"] else []

def Settings.validate (unicode : Unicode) (settings : Settings) : Except HttpError Unit :=
  if settings.errors unicode = [] then .ok () else .error ⟨422, settings.errors unicode⟩

/-! ## Creating -/

/-- `TargetCreate`, with its defaults; whether `enable_cert_expiration` was sent matters. -/
structure TargetCreate where
  name : Text
  group : Option Text := none
  isEnabled : Bool := true
  host : Text
  intervalSeconds : Int := 60
  retentionDays : Int := 365
  enablePing : Bool := false
  enableHttpCheck : Bool := false
  enableCertExpiration : Option Bool := none
  enableTcpConnect : Bool := false
  pingHost : Option Text := none
  httpUrl : Option Text := none
  httpUsername : Option Text := none
  httpPassword : Option Text := none
  clearHttpPassword : Bool := false
  httpPreferHead : Bool := true
  httpBasicAuthEnabled : Bool := false
  httpPort : Option Int := none
  httpSuccessCodes : Option Text := none
  certHost : Option Text := none
  certPort : Option Int := none
  ignoreCertErrors : Bool := false
  tcpHost : Option Text := none
  tcpPorts : Text := defaultTcpPorts
  maxRetries : Int := 5
  autoCloseAlert : Bool := true
  slaEnabled : Bool := false
  slaAvailabilityPct : Option ℚ := none
  slaResponseTimeMs : Option ℚ := none
  slaPingLatencyMs : Option ℚ := none
  alertRecipientIds : List Nat := []

namespace TargetCreate

/-- `TargetBase.validate_consistency`: the message of the first rule that is broken. -/
def validateConsistency (payload : TargetCreate) : Except HttpError Unit :=
  let host := truthy (some payload.host)
  let url := truthy payload.httpUrl
  if payload.enableHttpCheck ∧ (url || host) = false then
    .error ⟨422, ["HTTP check enabled but no http_url or host configured"]⟩
  else if payload.enablePing ∧ (truthy payload.pingHost || host) = false then
    .error ⟨422, ["Ping check enabled but no ping_host or host configured"]⟩
  else if payload.enableCertExpiration.getD false ∧
      (truthy payload.certHost || url || host) = false then
    .error ⟨422, ["Cert check enabled but no cert_host, http_url or host configured"]⟩
  else if payload.enableTcpConnect ∧ (truthy payload.tcpHost || host) = false then
    .error ⟨422, ["TCP check enabled but no tcp_host or host configured"]⟩
  else if payload.httpBasicAuthEnabled ∧ truthy payload.httpUsername = false then
    .error ⟨422, ["HTTP Basic Auth enabled but username missing"]⟩
  else if payload.httpBasicAuthEnabled ∧ truthy payload.httpPassword = false then
    .error ⟨422, ["HTTP Basic Auth enabled but password missing"]⟩
  else if payload.clearHttpPassword ∧ truthy payload.httpPassword then
    .error ⟨422, ["Cannot set and clear http_password at the same time"]⟩
  else if payload.slaEnabled ∧ payload.slaAvailabilityPct.isNone ∧
      payload.slaResponseTimeMs.isNone ∧ payload.slaPingLatencyMs.isNone then
    .error ⟨422, ["SLA enabled but no SLA targets configured"]⟩
  else .ok ()

end TargetCreate

def defaultHttpSuccessCodes : Text := "200-399".toList

/-- A value that was sent. -/
def sent {α : Type} (value : α) : Sent α := some (some value)

def CreateValues.settings (values : CreateValues) : Settings where
  host := values.host
  isEnabled := values.isEnabled.flag false
  enablePing := values.enablePing.flag false
  enableHttpCheck := values.enableHttpCheck.flag false
  enableTcpConnect := values.enableTcpConnect.flag false
  enableCertExpiration := values.enableCertExpiration.flag false
  pingHost := values.pingHost
  httpUrl := values.httpUrl
  httpUsername := values.httpUsername
  httpPassword := values.httpPassword
  tcpHost := values.tcpHost

/-- `_prepare_create_values` -/
def prepareCreateValues (server : Server) (payload : TargetCreate) :
    Except HttpError CreateValues := do
  let httpUrl ← validateHttpUrl server.unicode payload.httpUrl
  let enableCertExpiration := payload.enableCertExpiration.getD
    (payload.enableHttpCheck && (orText httpUrl none).any (isHttps server.unicode))
  let pingHost ← normHost server payload.pingHost
  let certHost ← normHost server payload.certHost
  let tcpHost ← normHost server payload.tcpHost
  let tcpPorts ← validateTcpPorts (some payload.tcpPorts)
  let host ← normHost server (some payload.host)
  let values : CreateValues := {
    name := some payload.name
    group := payload.group
    isEnabled := sent payload.isEnabled
    intervalSeconds := payload.intervalSeconds
    retentionDays := payload.retentionDays
    enablePing := sent payload.enablePing
    enableHttpCheck := sent payload.enableHttpCheck
    httpPreferHead := sent payload.httpPreferHead
    httpBasicAuthEnabled := sent payload.httpBasicAuthEnabled
    httpPort := payload.httpPort
    httpSuccessCodes := some ((orText payload.httpSuccessCodes none).getD defaultHttpSuccessCodes)
    enableCertExpiration := sent enableCertExpiration
    enableTcpConnect := sent payload.enableTcpConnect
    pingHost := pingHost
    httpUrl := httpUrl
    httpUsername := payload.httpUsername
    httpPassword := encryptPassword server payload.httpPassword
    certHost := certHost
    certPort := payload.certPort
    ignoreCertErrors := sent payload.ignoreCertErrors
    tcpHost := tcpHost
    tcpPorts := some tcpPorts
    host := host
    maxRetries := sent payload.maxRetries
    autoCloseAlert := sent payload.autoCloseAlert
    slaEnabled := sent payload.slaEnabled
    slaAvailabilityPct := payload.slaAvailabilityPct
    slaResponseTimeMs := payload.slaResponseTimeMs
    slaPingLatencyMs := payload.slaPingLatencyMs }
  values.settings.validate server.unicode
  .ok values

/-- `_check_host_collision` -/
def checkHostCollision (unicode : Unicode) (data : Checks) (excludeId : Option Nat) (db : Db) :
    Except HttpError Unit :=
  match classifyConflicts unicode data db.targets excludeId with
  | none => .error internalError
  | some conflicts =>
      if exactConflicts conflicts = [] then .ok ()
      else .error ⟨409, ["An identical monitoring target already exists"]⟩

/-- The transaction of `create`, as far as the targets go. -/
def createLocked (server : Server) (now : Int) (payload : TargetCreate) (values : CreateValues)
    (db : Db) : Except HttpError Unit × Db :=
  match payload.alertRecipientIds.find? fun id => !server.recipients.contains id with
  | some id => (.error ⟨422, ["Recipient " ++ toString id ++ " not found"]⟩, db)
  | none =>
      match checkHostCollision server.unicode values.checks none db with
      | .error error => (.error error, db)
      | .ok () =>
          match createTarget server.unicode now false values db with
          | (.error _, later) => (.error internalError, later)
          | (.ok _, later) => (.ok (), later)

/-! ## Changing -/

/-- `TargetUpdate` -/
structure TargetUpdate where
  name : Sent Text := none
  group : Sent Text := none
  isEnabled : Sent Bool := none
  host : Sent Text := none
  intervalSeconds : Sent Int := none
  retentionDays : Sent Int := none
  enablePing : Sent Bool := none
  enableHttpCheck : Sent Bool := none
  enableCertExpiration : Sent Bool := none
  enableTcpConnect : Sent Bool := none
  pingHost : Sent Text := none
  httpUrl : Sent Text := none
  httpUsername : Sent Text := none
  httpPassword : Sent Text := none
  clearHttpPassword : Bool := false
  httpPreferHead : Sent Bool := none
  httpBasicAuthEnabled : Sent Bool := none
  httpPort : Sent Int := none
  httpSuccessCodes : Sent Text := none
  certHost : Sent Text := none
  certPort : Sent Int := none
  ignoreCertErrors : Sent Bool := none
  tcpHost : Sent Text := none
  tcpPorts : Sent Text := none
  maxRetries : Sent Int := none
  autoCloseAlert : Sent Bool := none
  slaEnabled : Sent Bool := none
  slaAvailabilityPct : Sent ℚ := none
  slaResponseTimeMs : Sent ℚ := none
  slaPingLatencyMs : Sent ℚ := none

/-- The field is converted if it was sent. -/
def convertSent {α β : Type} (convert : Option α → Except HttpError (Option β))
    (value : Sent α) : Except HttpError (Sent β) :=
  match value with
  | none => .ok none
  | some value => do
      let converted ← convert value
      .ok (some converted)

namespace TargetUpdate

/-- `validate_update_consistency` -/
def validateUpdateConsistency (payload : TargetUpdate) : Except HttpError Unit :=
  if payload.clearHttpPassword ∧ truthy payload.httpPassword.get then
    .error ⟨422, ["Cannot set and clear http_password at the same time"]⟩
  else .ok ()

/-- `patch_db`, before the certificate monitoring is derived. -/
def patchDb (server : Server) (payload : TargetUpdate) : Except HttpError Patch := do
  let tcpPorts ← convertSent (fun ports => (validateTcpPorts ports).map some) payload.tcpPorts
  let host ← convertSent (normHost server) payload.host
  let pingHost ← convertSent (normHost server) payload.pingHost
  let certHost ← convertSent (normHost server) payload.certHost
  let tcpHost ← convertSent (normHost server) payload.tcpHost
  let httpUrl ← convertSent (validateHttpUrl server.unicode) payload.httpUrl
  let clear := payload.clearHttpPassword
  .ok {
    name := payload.name
    group := payload.group
    isEnabled := payload.isEnabled
    intervalSeconds := payload.intervalSeconds
    retentionDays := payload.retentionDays
    enablePing := payload.enablePing
    enableHttpCheck := payload.enableHttpCheck
    enableCertExpiration := payload.enableCertExpiration
    httpPreferHead := payload.httpPreferHead
    httpBasicAuthEnabled := if clear then sent false else payload.httpBasicAuthEnabled
    httpPort := payload.httpPort
    httpSuccessCodes := payload.httpSuccessCodes
    enableTcpConnect := payload.enableTcpConnect
    certPort := payload.certPort
    ignoreCertErrors := payload.ignoreCertErrors
    maxRetries := payload.maxRetries
    autoCloseAlert := payload.autoCloseAlert
    slaEnabled := payload.slaEnabled
    slaAvailabilityPct := payload.slaAvailabilityPct
    slaResponseTimeMs := payload.slaResponseTimeMs
    slaPingLatencyMs := payload.slaPingLatencyMs
    tcpPorts := tcpPorts
    host := host
    pingHost := pingHost
    certHost := certHost
    tcpHost := tcpHost
    httpUrl := httpUrl
    httpUsername := if clear then some none else payload.httpUsername
    httpPassword :=
      if clear then some none
      else if truthy payload.httpPassword.get then
        some (encryptPassword server payload.httpPassword.get)
      else none }

end TargetUpdate

namespace Patch

/-- The effective target, without its certificate monitoring. -/
def settings (patch : Patch) (old : Target) (enableCertExpiration : Bool) : Settings where
  host := patch.host.over (some old.host)
  isEnabled := (patch.isEnabled.over (some old.isEnabled)).getD false
  enablePing := (patch.enablePing.over (some old.enablePing)).getD false
  enableHttpCheck := (patch.enableHttpCheck.over (some old.enableHttpCheck)).getD false
  enableTcpConnect := (patch.enableTcpConnect.over (some old.enableTcpConnect)).getD false
  enableCertExpiration := enableCertExpiration
  pingHost := patch.pingHost.over old.pingHost
  httpUrl := patch.httpUrl.over old.httpUrl
  httpUsername := patch.httpUsername.over old.httpUsername
  httpPassword := patch.httpPassword.over old.httpPassword
  tcpHost := patch.tcpHost.over old.tcpHost

/-- `desired_cert_expiration` -/
def desiredCertExpiration (unicode : Unicode) (patch : Patch) (old : Target) : Option Bool :=
  let effective := patch.settings old false
  if patch.enableCertExpiration.isNone ∧ (patch.httpUrl.isSome ∨ patch.enableHttpCheck.isSome) ∧
      (effective.enableHttpCheck = false ∨ effective.scheme? unicode = false) then some false
  else patch.enableCertExpiration.over (some old.enableCertExpiration)

/-- The patch with the certificate monitoring that follows from it. -/
def derived (unicode : Unicode) (patch : Patch) (old : Target) : Patch :=
  let desired := patch.desiredCertExpiration unicode old
  if some old.enableCertExpiration = desired then patch
  else { patch with enableCertExpiration := some desired }

def touchesCredentials (patch : Patch) : Bool :=
  patch.httpBasicAuthEnabled.isSome || patch.httpUsername.isSome || patch.httpPassword.isSome

/-- The merged credentials are incomplete. -/
def lacksCredentials (patch : Patch) (old : Target) : Bool :=
  (patch.httpBasicAuthEnabled.over (some old.httpBasicAuthEnabled)).getD false &&
    !(truthy (patch.httpUsername.over old.httpUsername) &&
      truthy (patch.httpPassword.over old.httpPassword))

/-- The checks of the effective target. -/
def validate (unicode : Unicode) (patch : Patch) (old : Target) : Except HttpError Unit := do
  let desired := (patch.desiredCertExpiration unicode old).getD false
  (patch.settings old desired).validate unicode
  if patch.touchesCredentials ∧ patch.lacksCredentials old then
    .error ⟨422, ["HTTP Basic Auth enabled but username or password missing"]⟩
  else .ok ()

end Patch

/-- `_patch_locked` -/
def patchLocked (server : Server) (now : Int) (targetId : Nat) (payload : TargetUpdate)
    (db : Db) : Except HttpError Unit × Db :=
  match db.target? targetId with
  | none => (.error ⟨404, ["Target not found"]⟩, db)
  | some old =>
      match payload.patchDb server with
      | .error error => (.error error, db)
      | .ok patch =>
          match patch.validate server.unicode old with
          | .error error => (.error error, db)
          | .ok () =>
              match checkHostCollision server.unicode (patch.checks old) (some targetId) db with
              | .error error => (.error error, db)
              | .ok () =>
                  match updateTarget server.unicode now false targetId
                    (patch.derived server.unicode old) db with
                  | (.error _, later) => (.error internalError, later)
                  | (.ok _, later) => (.ok (), later)

/-! ## Requests -/

inductive Request where
  | post (payload : TargetCreate)
  | patch (targetId : Nat) (payload : TargetUpdate)

/-- `with immediate_transaction(conn)` -/
def immediateTransaction (body : Db → Except HttpError Unit × Db) (db : Db) :
    Except HttpError Unit × Db :=
  match body db with
  | (.error error, _) => (.error error, db)
  | (.ok (), later) => (.ok (), later)

def handle (server : Server) (now : Int) (db : Db) : Request → Except HttpError Unit × Db
  | .post payload =>
      match payload.validateConsistency with
      | .error error => (.error error, db)
      | .ok () =>
          match prepareCreateValues server payload with
          | .error error => (.error error, db)
          | .ok values => immediateTransaction (createLocked server now payload values) db
  | .patch targetId payload =>
      match payload.validateUpdateConsistency with
      | .error error => (.error error, db)
      | .ok () => immediateTransaction (patchLocked server now targetId payload) db

end Justup.Targets
