import Justup.Lib.Transition
import Justup.Targets.Api

/-!
# The rules of creation under PATCH

A `PATCH` validates the merged target again, but not the SLA values, and an
empty port list resets the ports: these are the defects.  The rules and the
columns that an accepted request changes are stated here; a `PATCH` keeps to
both exactly where it stays clear of the two.
-/

namespace Justup.Targets

open Lib Transition Store

variable {server : Server} {unicode : Unicode}

/-! ## The rules -/

/-- An SLA value is set. -/
def Target.hasSla (row : Target) : Bool :=
  row.slaAvailabilityPct.isSome || row.slaResponseTimeMs.isSome || row.slaPingLatencyMs.isSome

/-- The rules of `TargetBase.validate_consistency` and `_validate_target_consistency`. -/
structure Target.Consistent (unicode : Unicode) (row : Target) : Prop where
  host : row.host ≠ []
  monitored : row.isEnabled = true →
    row.enablePing = true ∨ row.enableHttpCheck = true ∨ row.enableTcpConnect = true
  httpUrl : row.enableHttpCheck = true → truthy row.httpUrl = true
  tcpHost : row.enableTcpConnect = true → truthy row.tcpHost = true
  certificate : row.enableCertExpiration = true → row.enableHttpCheck = true ∧
    ∃ url, row.httpUrl = some url ∧ isHttps unicode url = true
  credentialsUrl : truthy row.httpUsername = true ∨ truthy row.httpPassword = true →
    truthy row.httpUrl = true
  password : truthy row.httpPassword = true → truthy row.httpUsername = true
  basicAuth : row.httpBasicAuthEnabled = true →
    truthy row.httpUsername = true ∧ truthy row.httpPassword = true
  sla : row.slaEnabled = true → row.hasSla = true

def Target.settings (row : Target) : Settings where
  host := some row.host
  isEnabled := row.isEnabled
  enablePing := row.enablePing
  enableHttpCheck := row.enableHttpCheck
  enableTcpConnect := row.enableTcpConnect
  enableCertExpiration := row.enableCertExpiration
  pingHost := row.pingHost
  httpUrl := row.httpUrl
  httpUsername := row.httpUsername
  httpPassword := row.httpPassword
  tcpHost := row.tcpHost

theorem truthy_eq_true {text : Option Text} (htruthy : truthy text = true) :
    ∃ found, text = some found ∧ found ≠ [] := by
  match text, htruthy with
  | some (first :: rest), _ => exact ⟨first :: rest, rfl, by simp⟩

/-- Without a message the rules of the API hold; the others are added. -/
theorem Target.consistent_of_errors {row : Target}
    (herrors : row.settings.errors unicode = [])
    (hbasicAuth : row.httpBasicAuthEnabled = true →
      truthy row.httpUsername = true ∧ truthy row.httpPassword = true)
    (hsla : row.slaEnabled = true → row.hasSla = true) : row.Consistent unicode := by
  simp only [Settings.errors, List.append_eq_nil_iff, ite_eq_right_iff, List.cons_ne_nil,
    imp_false, not_and, Bool.not_eq_false] at herrors
  obtain ⟨⟨⟨⟨⟨hfirst, htcp⟩, -⟩, hhttp⟩, -⟩, hcert⟩ := herrors.1
  obtain ⟨⟨⟨hhost, hmonitored⟩, hurl⟩, hcredentials⟩ := hfirst
  have hpassword := herrors.2
  refine ⟨?_, ?_, hurl, htcp, ?_, hcredentials, hpassword, hbasicAuth, hsla⟩
  · obtain ⟨host, hsome, hne⟩ := truthy_eq_true hhost
    exact Option.some.inj hsome ▸ hne
  · intro henabled
    by_contra hnone
    simp only [not_or, Bool.not_eq_true] at hnone
    have htcpOn : row.enableTcpConnect = true := hmonitored henabled hnone.1 hnone.2.1
    simp [htcpOn] at hnone
  · intro hon
    have hon' := hhttp hon
    obtain ⟨url, hsome, hne⟩ := truthy_eq_true (hurl hon')
    refine ⟨hon', url, hsome, ?_⟩
    have hscheme := hcert hon (hurl hon')
    obtain ⟨found, hfound, hhttps⟩ := (Option.any_eq_true ..).mp hscheme
    have hsame : row.httpUrl = some found := orText_none_eq_some hfound
    rwa [Option.some.inj (hsome.symm.trans hsame)]

/-! ## Creating -/

theorem except_bind_eq_ok {ε α β : Type} {x : Except ε α} {f : α → Except ε β} {b : β} :
    (x >>= f) = .ok b ↔ ∃ a, x = .ok a ∧ f a = .ok b := by
  cases x with
  | error error => exact iff_of_false (by rintro ⟨⟩) (by rintro ⟨a, ⟨⟩, -⟩)
  | ok a =>
      constructor
      · exact fun h => ⟨a, rfl, h⟩
      · rintro ⟨a', ha, h⟩
        cases ha
        exact h

theorem validate_eq_ok {settings : Settings} (hok : settings.validate unicode = .ok ()) :
    settings.errors unicode = [] := by
  unfold Settings.validate at hok
  split at hok
  · assumption
  · cases hok

theorem truthy_encryptPassword {password : Option Text} (htruthy : truthy password = true) :
    truthy (encryptPassword server password) = true := by
  obtain ⟨plain, rfl, hne⟩ := truthy_eq_true htruthy
  match plain, hne with
  | first :: rest, _ => rfl

/-- What the models check of a new target and the API does not. -/
theorem validateConsistency_eq_ok {payload : TargetCreate}
    (hok : payload.validateConsistency = .ok ()) :
    (payload.httpBasicAuthEnabled = true →
      truthy payload.httpUsername = true ∧ truthy payload.httpPassword = true) ∧
    (payload.slaEnabled = true → (payload.slaAvailabilityPct.isSome ||
      payload.slaResponseTimeMs.isSome || payload.slaPingLatencyMs.isSome) = true) := by
  simp only [TargetCreate.validateConsistency] at hok
  split_ifs at hok with _ _ _ _ huser hpassword _ hsla
  refine ⟨fun hon => ⟨by simpa [hon] using huser, by simpa [hon] using hpassword⟩, fun hon => ?_⟩
  by_contra hnone
  simp only [Bool.not_eq_true, Bool.or_eq_false_iff, Option.isSome_eq_false_iff] at hnone
  exact hsla ⟨hon, hnone.1.1, hnone.1.2, hnone.2⟩

theorem consistent_of_prepareCreateValues {payload : TargetCreate} {values : CreateValues}
    (hvalid : payload.validateConsistency = .ok ())
    (hprepared : prepareCreateValues server payload = .ok values) {id : Nat} {now : Int}
    {signature : Option Text} {row : Target} (hrow : values.row id now signature = some row) :
    row.Consistent server.unicode := by
  obtain ⟨hauth, hsla⟩ := validateConsistency_eq_ok hvalid
  simp only [prepareCreateValues, except_bind_eq_ok] at hprepared
  obtain ⟨url, -, pingHost, -, certHost, -, tcpHost, -, ports, -, host, -, checked, hok, hvalues⟩ :=
    hprepared
  have herrors := validate_eq_ok hok
  obtain rfl := Except.ok.inj hvalues
  simp only [CreateValues.row, Option.bind_eq_bind, Option.bind_eq_some_iff] at hrow
  obtain ⟨name, -, host', hhost, retries, -, minutes, -, hrow⟩ := hrow
  obtain rfl := hhost
  obtain rfl := Option.some.inj hrow
  refine Target.consistent_of_errors herrors ?_ hsla
  intro hon
  obtain ⟨huser, hpassword⟩ := hauth hon
  exact ⟨huser, truthy_encryptPassword hpassword⟩

/-! ## Changing -/

namespace Patch

variable {patch : Patch} {old : Target} {now : Int} {signature : Option Text}

/-- The derived patch differs in the certificate monitoring only. -/
theorem derived_row : (patch.derived unicode old).row old now signature =
    { patch.row old now signature with
      enableCertExpiration := (patch.derived unicode old).enableCertExpiration.overRequired
        old.enableCertExpiration } := by
  unfold derived
  dsimp only
  split <;> rfl

theorem derived_certificate
    (hnull : (patch.derived unicode old).enableCertExpiration.isNull = false) :
    (patch.derived unicode old).enableCertExpiration.overRequired old.enableCertExpiration =
      (patch.desiredCertExpiration unicode old).getD false := by
  unfold derived at hnull ⊢
  dsimp only at hnull ⊢
  split at hnull
  · rename_i hsame
    rw [if_pos hsame, ← hsame]
    unfold desiredCertExpiration at hsame
    dsimp only at hsame
    split at hsame
    · rename_i hderived
      rw [Option.isNone_iff_eq_none.mp hderived.1]
      rfl
    · rw [Sent.over_some hnull] at hsame
      exact (Option.some.inj hsame).symm
  · rename_i hdiffers
    rw [if_neg hdiffers]
    cases hdesired : patch.desiredCertExpiration unicode old with
    | none => simp [hdesired, Sent.isNull] at hnull
    | some desired => rfl

/-- What was validated is what is stored. -/
theorem settings_row (hnulls : (patch.derived unicode old).nulls = false) :
    ((patch.derived unicode old).row old now signature).settings =
      patch.settings old ((patch.desiredCertExpiration unicode old).getD false) := by
  have hcertificate : (patch.derived unicode old).enableCertExpiration.isNull = false := by
    simp only [nulls, Bool.or_eq_false_iff] at hnulls
    simp [hnulls]
  have hrequired : patch.isEnabled.isNull = false ∧ patch.enablePing.isNull = false ∧
      patch.enableHttpCheck.isNull = false ∧ patch.enableTcpConnect.isNull = false ∧
      patch.host.isNull = false := by
    unfold derived at hnulls
    dsimp only at hnulls
    split at hnulls <;> simp only [nulls, Bool.or_eq_false_iff] at hnulls <;> simp [hnulls]
  obtain ⟨henabled, hping, hhttp, htcp, hhost⟩ := hrequired
  rw [derived_row, derived_certificate hcertificate]
  simp [Target.settings, settings, row, Sent.over_some, henabled, hping, hhttp, htcp, hhost]

theorem validate_eq_ok (hok : patch.validate unicode old = .ok ()) :
    (patch.settings old ((patch.desiredCertExpiration unicode old).getD false)).errors unicode =
        [] ∧ (patch.touchesCredentials = true → patch.lacksCredentials old = false) := by
  simp only [validate, except_bind_eq_ok] at hok
  obtain ⟨checked, hsettings, hcredentials⟩ := hok
  refine ⟨Targets.validate_eq_ok hsettings, fun htouches => ?_⟩
  split at hcredentials
  · cases hcredentials
  · rename_i hnot
    simpa [htouches] using hnot

/-- The merged credentials are judged when the patch touches them; else they are the old ones. -/
theorem basicAuth_row (hold : old.Consistent unicode) (hnulls : patch.httpBasicAuthEnabled.isNull =
      false) (hcredentials : patch.touchesCredentials = true → patch.lacksCredentials old = false)
    (hon : (patch.row old now signature).httpBasicAuthEnabled = true) :
    truthy (patch.row old now signature).httpUsername = true ∧
      truthy (patch.row old now signature).httpPassword = true := by
  cases htouches : patch.touchesCredentials with
  | true =>
      have hlacks := hcredentials htouches
      have hon' : patch.httpBasicAuthEnabled.overRequired old.httpBasicAuthEnabled = true := hon
      have hboth : truthy (patch.httpUsername.over old.httpUsername) = true ∧
          truthy (patch.httpPassword.over old.httpPassword) = true := by
        simpa [lacksCredentials, Sent.over_some hnulls, hon'] using hlacks
      exact hboth
  | false =>
      simp only [touchesCredentials, Bool.or_eq_false_iff, Option.isSome_eq_false_iff,
        Option.isNone_iff_eq_none] at htouches
      obtain ⟨⟨hauth, huser⟩, hpassword⟩ := htouches
      simp only [row, hauth, huser, hpassword] at hon ⊢
      exact hold.basicAuth hon

/-- The row after an accepted patch keeps the rules where it keeps the one about the SLA. -/
theorem consistent_row_iff (hold : old.Consistent unicode)
    (hok : patch.validate unicode old = .ok ())
    (hnulls : (patch.derived unicode old).nulls = false) :
    ((patch.derived unicode old).row old now signature).Consistent unicode ↔
      ((patch.row old now signature).slaEnabled = true →
        (patch.row old now signature).hasSla = true) := by
  obtain ⟨herrors, hcredentials⟩ := validate_eq_ok hok
  have hauth : patch.httpBasicAuthEnabled.isNull = false := by
    unfold derived at hnulls
    dsimp only at hnulls
    split at hnulls <;> simp only [nulls, Bool.or_eq_false_iff] at hnulls <;> simp [hnulls]
  rw [← settings_row hnulls] at herrors
  constructor
  · intro hconsistent hon
    have hsla := hconsistent.sla
    rw [derived_row] at hsla
    exact hsla hon
  · intro hsla
    refine Target.consistent_of_errors herrors ?_ ?_
    · rw [derived_row]
      exact @basicAuth_row unicode patch old now signature hold hauth hcredentials
    · rw [derived_row]
      exact hsla

end Patch

/-! ## The columns that change -/

/-- A column that the request does not name is as before. -/
structure OnlyNamed (payload : TargetUpdate) (old new : Target) : Prop where
  id : new.id = old.id
  name : payload.name = none → new.name = old.name
  group : payload.group = none → new.group = old.group
  isEnabled : payload.isEnabled = none → new.isEnabled = old.isEnabled
  intervalSeconds : payload.intervalSeconds = none → new.intervalSeconds = old.intervalSeconds
  retentionDays : payload.retentionDays = none → new.retentionDays = old.retentionDays
  enablePing : payload.enablePing = none → new.enablePing = old.enablePing
  enableHttpCheck : payload.enableHttpCheck = none → new.enableHttpCheck = old.enableHttpCheck
  enableTcpConnect : payload.enableTcpConnect = none →
    new.enableTcpConnect = old.enableTcpConnect
  host : payload.host = none → new.host = old.host
  pingHost : payload.pingHost = none → new.pingHost = old.pingHost
  httpUrl : payload.httpUrl = none → new.httpUrl = old.httpUrl
  httpUsername : payload.httpUsername = none → payload.clearHttpPassword = false →
    new.httpUsername = old.httpUsername
  httpPassword : payload.httpPassword = none → payload.clearHttpPassword = false →
    new.httpPassword = old.httpPassword
  httpBasicAuthEnabled : payload.httpBasicAuthEnabled = none → payload.clearHttpPassword = false →
    new.httpBasicAuthEnabled = old.httpBasicAuthEnabled
  httpPreferHead : payload.httpPreferHead = none → new.httpPreferHead = old.httpPreferHead
  httpSuccessCodes : payload.httpSuccessCodes = none →
    new.httpSuccessCodes = old.httpSuccessCodes
  httpPort : payload.httpPort = none → new.httpPort = old.httpPort
  certHost : payload.certHost = none → new.certHost = old.certHost
  certPort : payload.certPort = none → new.certPort = old.certPort
  ignoreCertErrors : payload.ignoreCertErrors = none →
    new.ignoreCertErrors = old.ignoreCertErrors
  tcpHost : payload.tcpHost = none → new.tcpHost = old.tcpHost
  /-- An empty list does not name the ports. -/
  tcpPorts : payload.tcpPorts.get = none → new.tcpPorts = old.tcpPorts
  maxRetries : payload.maxRetries = none → new.maxRetries = old.maxRetries
  pingTimeoutMinutes : new.pingTimeoutMinutes = old.pingTimeoutMinutes
  autoCloseAlert : payload.autoCloseAlert = none → new.autoCloseAlert = old.autoCloseAlert
  slaEnabled : payload.slaEnabled = none → new.slaEnabled = old.slaEnabled
  slaAvailabilityPct : payload.slaAvailabilityPct = none →
    new.slaAvailabilityPct = old.slaAvailabilityPct
  slaResponseTimeMs : payload.slaResponseTimeMs = none →
    new.slaResponseTimeMs = old.slaResponseTimeMs
  slaPingLatencyMs : payload.slaPingLatencyMs = none →
    new.slaPingLatencyMs = old.slaPingLatencyMs
  createdAt : new.createdAt = old.createdAt

theorem convertSent_eq_ok {α β : Type} {convert : Option α → Except HttpError (Option β)}
    {value : Sent α} {converted : Sent β} (hok : convertSent convert value = .ok converted) :
    value = none → converted = none := by
  rintro rfl
  exact (Except.ok.inj hok).symm

/-- An empty list of ports becomes the default. -/
theorem convertSent_ports {value : Sent Text} {converted : Sent Text} (hok : convertSent
      (fun ports => (validateTcpPorts ports).map some) value = .ok converted) :
    value.get = none → value = none ∧ converted = none ∨
      value = some none ∧ converted = some (some defaultTcpPorts) := by
  intro hempty
  match value, hempty with
  | none, _ => exact .inl ⟨rfl, convertSent_eq_ok hok rfl⟩
  | some none, _ => exact .inr ⟨rfl, (Except.ok.inj hok).symm⟩

/-- The patch of a request leaves all but the ports alone that the request does not name. -/
theorem onlyNamed_row_iff {payload : TargetUpdate} {patch : Patch} {old : Target} {now : Int}
    {signature : Option Text} (hpatch : payload.patchDb server = .ok patch) :
    OnlyNamed payload old ((patch.derived unicode old).row old now signature) ↔
      (payload.tcpPorts = some none → old.tcpPorts = some defaultTcpPorts) := by
  simp only [TargetUpdate.patchDb, except_bind_eq_ok] at hpatch
  obtain ⟨ports, hports, host, hhost, pingHost, hpingHost, certHost, hcertHost, hrest⟩ := hpatch
  obtain ⟨tcpHost, htcpHost, url, hurl, hpatch⟩ := hrest
  obtain rfl := Except.ok.inj hpatch
  have hconverted := convertSent_ports hports
  rw [Patch.derived_row]
  constructor
  · intro honly hempty
    have hkept : ports.over old.tcpPorts = old.tcpPorts := honly.tcpPorts (by rw [hempty]; rfl)
    obtain ⟨hnone, -⟩ | ⟨-, rfl⟩ := hconverted (by rw [hempty]; rfl)
    · rw [hempty] at hnone
      cases hnone
    · exact hkept.symm
  · intro hdefault
    constructor
    case tcpPorts =>
      intro hempty
      obtain ⟨-, rfl⟩ | ⟨hnull, rfl⟩ := hconverted hempty
      · rfl
      · exact (hdefault hnull).symm
    case httpPassword =>
      intro hnone hclear
      simp [Patch.row, hnone, hclear, Sent.get, Sent.over, truthy, orText]
    case httpUsername | httpBasicAuthEnabled =>
      intro hnone hclear
      simp [Patch.row, hnone, hclear, Sent.get, Sent.over, Sent.overRequired]
    case host => exact fun hnone => by rw [convertSent_eq_ok hhost hnone]; rfl
    case pingHost => exact fun hnone => by rw [convertSent_eq_ok hpingHost hnone]; rfl
    case certHost => exact fun hnone => by rw [convertSent_eq_ok hcertHost hnone]; rfl
    case tcpHost => exact fun hnone => by rw [convertSent_eq_ok htcpHost hnone]; rfl
    case httpUrl => exact fun hnone => by rw [convertSent_eq_ok hurl hnone]; rfl
    case id | pingTimeoutMinutes | createdAt => rfl
    all_goals
      intro hnone
      simp only [Patch.row, hnone]
      rfl

/-! ## Requests -/

/-- The keys of the table. -/
structure Db.Keyed (db : Db) : Prop where
  keyed : Table.Keyed Target.id db.targets
  issued : ∀ row ∈ db.targets, row.id < db.nextId

/-- The request keeps clear of the two defects. -/
def TargetUpdate.Clear (payload : TargetUpdate) (old : Target) : Prop :=
  (payload.slaEnabled.overRequired old.slaEnabled = true →
    ((payload.slaAvailabilityPct.over old.slaAvailabilityPct).isSome ||
      (payload.slaResponseTimeMs.over old.slaResponseTimeMs).isSome ||
      (payload.slaPingLatencyMs.over old.slaPingLatencyMs).isSome) = true) ∧
    (payload.tcpPorts = some none → old.tcpPorts = some defaultTcpPorts)

instance (payload : TargetUpdate) (old : Target) : Decidable (payload.Clear old) :=
  inferInstanceAs (Decidable (_ ∧ _))

def Request.Clear (db : Db) : Request → Prop
  | .post _ => True
  | .patch targetId payload => ∀ old ∈ db.target? targetId, payload.Clear old

instance (db : Db) (request : Request) : Decidable (request.Clear db) :=
  match request with
  | .post _ => inferInstanceAs (Decidable True)
  | .patch targetId payload =>
      inferInstanceAs (Decidable (∀ old ∈ db.target? targetId, payload.Clear old))

section

variable {db : Db} {now : Int}

theorem update_self (hkeyed : db.Keyed) {old : Target} (hold : old ∈ db.targets) :
    Table.update Target.id old.id (fun _ => old) db.targets = db.targets := by
  refine (List.map_congr_left fun row hrow => ?_).trans (List.map_id _)
  by_cases hid : row.id = old.id
  · rw [if_pos hid, hkeyed.keyed.eq_of_mem hrow hold hid]
    rfl
  · rw [if_neg hid]
    rfl

/-- What an update that returned has left. -/
theorem updateTarget_eq_ok (hkeyed : db.Keyed) {targetId : Nat} {patch : Patch} {old : Target}
    (hold : db.target? targetId = some old)
    (hok : (updateTarget unicode now false targetId patch db).1 = .ok ()) :
    patch.nulls = false ∧ ∃ time signature,
      (updateTarget unicode now false targetId patch db).2.targets =
        Table.update Target.id targetId (fun _ => patch.row old time signature) db.targets ∧
      (updateTarget unicode now false targetId patch db).2.nextId = db.nextId := by
  obtain ⟨hmem, rfl⟩ := Table.mem_of_row? hold
  unfold updateTarget at hok ⊢
  by_cases hempty : patch = {}
  · subst hempty
    rw [if_pos rfl]
    exact ⟨rfl, old.updatedAt, old.identitySignature, (update_self hkeyed hmem).symm, rfl⟩
  rw [if_neg hempty] at hok ⊢
  unfold transaction updateBody at hok ⊢
  rw [hold] at hok ⊢
  dsimp only at hok ⊢
  have hsame : (if patch.group.isSome then db.resolveGroup patch.group.get else db).targets =
      db.targets ∧ (if patch.group.isSome then db.resolveGroup patch.group.get else db).nextId =
      db.nextId := by
    split
    · exact db.resolveGroup_targets _
    · exact ⟨rfl, rfl⟩
  generalize (if patch.group.isSome then db.resolveGroup patch.group.get else db) = later
    at hok hsame ⊢
  cases hcheck : later.assertNoExactDuplicate unicode (patch.checks old) (some old.id) with
  | some failure =>
      rw [hcheck] at hok
      cases hok
  | none =>
      rw [hcheck] at hok
      dsimp only at hok ⊢
      by_cases hvalid : patch.nulls = false ∧ (patch.row old now
          (identitySignature unicode (patch.checks old)).join).checked = true
      · rw [if_pos hvalid]
        exact ⟨hvalid.1, now, _, congrArg _ hsame.1, hsame.2⟩
      · rw [if_neg hvalid] at hok
        cases hok

theorem immediateTransaction_eq_ok {body : Db → Except HttpError Unit × Db}
    (hok : (immediateTransaction body db).1 = .ok ()) :
    (body db).1 = .ok () ∧ (immediateTransaction body db).2 = (body db).2 := by
  unfold immediateTransaction at hok ⊢
  rcases hbody : body db with ⟨error | value, later⟩
  · rw [hbody] at hok
    cases hok
  · exact ⟨rfl, rfl⟩

theorem immediateTransaction_eq_error {body : Db → Except HttpError Unit × Db} {error : HttpError}
    (hfailed : (immediateTransaction body db).1 = .error error) :
    (immediateTransaction body db).2 = db := by
  unfold immediateTransaction at hfailed ⊢
  rcases hbody : body db with ⟨error' | value, later⟩
  · rfl
  · rw [hbody] at hfailed
    cases hfailed

/-- A request that is rejected changes nothing. -/
theorem handle_eq_error {request : Request} {error : HttpError}
    (hfailed : (handle server now db request).1 = .error error) :
    (handle server now db request).2 = db := by
  cases request with
  | post payload =>
      simp only [handle] at hfailed ⊢
      cases hvalid : payload.validateConsistency with
      | error error' => rfl
      | ok checked =>
          rw [hvalid] at hfailed
          cases hprepared : prepareCreateValues server payload with
          | error error' => rfl
          | ok values =>
              rw [hprepared] at hfailed
              exact immediateTransaction_eq_error hfailed
  | patch targetId payload =>
      simp only [handle] at hfailed ⊢
      cases hvalid : payload.validateUpdateConsistency with
      | error error' => rfl
      | ok checked =>
          rw [hvalid] at hfailed
          exact immediateTransaction_eq_error hfailed

/-- What a `PATCH` that passes has checked and left. -/
theorem patchLocked_eq_ok (hkeyed : db.Keyed) {targetId : Nat} {payload : TargetUpdate}
    (hok : (patchLocked server now targetId payload db).1 = .ok ()) :
    ∃ old patch time signature, db.target? targetId = some old ∧
      payload.patchDb server = .ok patch ∧ patch.validate server.unicode old = .ok () ∧
      (patch.derived server.unicode old).nulls = false ∧
      (patchLocked server now targetId payload db).2.targets =
        Table.update Target.id targetId
          (fun _ => (patch.derived server.unicode old).row old time signature) db.targets ∧
      (patchLocked server now targetId payload db).2.nextId = db.nextId := by
  unfold patchLocked at hok ⊢
  cases hold : db.target? targetId with
  | none => simp [hold] at hok
  | some old =>
      rw [hold] at hok
      dsimp only at hok ⊢
      cases hpatch : payload.patchDb server with
      | error error => simp [hpatch] at hok
      | ok patch =>
          rw [hpatch] at hok
          dsimp only at hok ⊢
          cases hvalidate : patch.validate server.unicode old with
          | error error => simp [hvalidate] at hok
          | ok checked =>
              rw [hvalidate] at hok
              dsimp only at hok ⊢
              cases hcollision : checkHostCollision server.unicode (patch.checks old)
                (some targetId) db with
              | error error => simp [hcollision] at hok
              | ok checked =>
                  rw [hcollision] at hok
                  dsimp only at hok ⊢
                  rcases hupdate : updateTarget server.unicode now false targetId
                    (patch.derived server.unicode old) db with ⟨failure | updated, later⟩
                  · rw [hupdate] at hok
                    cases hok
                  · obtain ⟨hnulls, time, signature, htargets, hnext⟩ :=
                      updateTarget_eq_ok hkeyed hold (by rw [hupdate])
                    rw [hupdate] at htargets hnext
                    exact ⟨old, patch, time, signature, rfl, rfl, hvalidate, hnulls, htargets,
                      hnext⟩

theorem handle_patch_eq_ok {targetId : Nat} {payload : TargetUpdate}
    (hok : (handle server now db (.patch targetId payload)).1 = .ok ()) :
    (patchLocked server now targetId payload db).1 = .ok () ∧
      (handle server now db (.patch targetId payload)).2 =
        (patchLocked server now targetId payload db).2 := by
  simp only [handle] at hok ⊢
  cases hvalid : payload.validateUpdateConsistency with
  | error error => simp [hvalid] at hok
  | ok checked =>
      rw [hvalid] at hok
      exact immediateTransaction_eq_ok hok

theorem CreateValues.row_id {values : CreateValues} {id : Nat} {signature : Option Text}
    {row : Target} (hrow : values.row id now signature = some row) : row.id = id := by
  simp only [CreateValues.row, Option.bind_eq_bind, Option.bind_eq_some_iff] at hrow
  obtain ⟨name, -, host, -, retries, -, minutes, -, hrow⟩ := hrow
  obtain rfl := Option.some.inj hrow
  rfl

theorem createTarget_eq_ok {values : CreateValues} {id : Nat}
    (hok : (createTarget unicode now false values db).1 = .ok id) :
    ∃ row signature, values.row db.nextId now signature = some row ∧
      (createTarget unicode now false values db).2.targets = db.targets ++ [row] ∧
      (createTarget unicode now false values db).2.nextId = db.nextId + 1 := by
  unfold createTarget transaction createBody at hok ⊢
  obtain ⟨hsame, hnext⟩ := db.resolveGroup_targets values.group
  cases hcheck : db.assertNoExactDuplicate unicode values.checks none with
  | some failure => simp [hcheck] at hok
  | none =>
      rw [hcheck] at hok
      dsimp only at hok ⊢
      rw [hnext] at hok ⊢
      cases hrow : values.row db.nextId now (identitySignature unicode values.checks).join with
      | none => simp [hrow] at hok
      | some row =>
          rw [hrow] at hok
          dsimp only at hok ⊢
          by_cases hchecked : row.checked = true
          · rw [if_pos hchecked]
            exact ⟨row, _, hrow, congrArg (· ++ [row]) hsame, rfl⟩
          · rw [if_neg hchecked] at hok
            cases hok

/-- A `POST` that passes adds one row, which is consistent. -/
theorem handle_post_eq_ok {payload : TargetCreate}
    (hok : (handle server now db (.post payload)).1 = .ok ()) :
    ∃ row, row.Consistent server.unicode ∧ row.id = db.nextId ∧
      (handle server now db (.post payload)).2.targets = db.targets ++ [row] ∧
      (handle server now db (.post payload)).2.nextId = db.nextId + 1 := by
  simp only [handle] at hok ⊢
  cases hvalid : payload.validateConsistency with
  | error error => simp [hvalid] at hok
  | ok checked =>
      rw [hvalid] at hok
      dsimp only at hok ⊢
      cases hprepared : prepareCreateValues server payload with
      | error error => simp [hprepared] at hok
      | ok values =>
          rw [hprepared] at hok
          dsimp only at hok ⊢
          obtain ⟨hbody, hlater⟩ := immediateTransaction_eq_ok hok
          rw [hlater]
          unfold createLocked at hbody ⊢
          split at hbody
          · cases hbody
          · split at hbody
            · cases hbody
            · rcases hcreate : createTarget server.unicode now false values db with
                ⟨failure | id, later⟩
              · rw [hcreate] at hbody
                cases hbody
              · obtain ⟨row, signature, hrow, htargets, hnext⟩ :=
                  createTarget_eq_ok (congrArg Prod.fst hcreate)
                rw [hcreate] at htargets hnext
                exact ⟨row, consistent_of_prepareCreateValues hvalid hprepared hrow,
                  CreateValues.row_id hrow, htargets, hnext⟩

end

/-! ## The claim about every run -/

/-- The columns that the accepted `PATCH` of a target changes, and no other row. -/
def ChangesOnly (targetId : Nat) (payload : TargetUpdate) (db later : Db) : Prop :=
  (∃ old new, db.target? targetId = some old ∧ later.target? targetId = some new ∧
    OnlyNamed payload old new) ∧
  later.targets.filter (fun row => row.id ≠ targetId) =
    db.targets.filter fun row => row.id ≠ targetId

structure Db.Guarded (server : Server) (db : Db) : Prop where
  consistent : ∀ row ∈ db.targets, row.Consistent server.unicode
  rejected : ∀ now request error, (handle server now db request).1 = .error error →
    (handle server now db request).2 = db
  accepted : ∀ now targetId payload,
    (handle server now db (.patch targetId payload)).1 = .ok () →
      ((∀ row ∈ (handle server now db (.patch targetId payload)).2.targets,
          row.Consistent server.unicode) ∧
        ChangesOnly targetId payload db (handle server now db (.patch targetId payload)).2 ↔
          (Request.patch targetId payload).Clear db)

theorem patchDb_row {payload : TargetUpdate} {patch : Patch}
    (hpatch : payload.patchDb server = .ok patch) (old : Target) (now : Int)
    (signature : Option Text) :
    (patch.row old now signature).slaEnabled = payload.slaEnabled.overRequired old.slaEnabled ∧
      (patch.row old now signature).hasSla =
        ((payload.slaAvailabilityPct.over old.slaAvailabilityPct).isSome ||
          (payload.slaResponseTimeMs.over old.slaResponseTimeMs).isSome ||
          (payload.slaPingLatencyMs.over old.slaPingLatencyMs).isSome) := by
  simp only [TargetUpdate.patchDb, except_bind_eq_ok] at hpatch
  obtain ⟨ports, -, host, -, pingHost, -, certHost, -, tcpHost, -, url, -, hpatch⟩ := hpatch
  obtain rfl := Except.ok.inj hpatch
  exact ⟨rfl, rfl⟩

/-- An accepted `PATCH` keeps the rules and the columns exactly where the request is clear. -/
theorem accepted_iff {db : Db} (hkeyed : db.Keyed)
    (hconsistent : ∀ row ∈ db.targets, row.Consistent server.unicode) {now : Int} {targetId : Nat}
    {payload : TargetUpdate}
    (hok : (handle server now db (.patch targetId payload)).1 = .ok ()) :
    (∀ row ∈ (handle server now db (.patch targetId payload)).2.targets,
        row.Consistent server.unicode) ∧
      ChangesOnly targetId payload db (handle server now db (.patch targetId payload)).2 ↔
        (Request.patch targetId payload).Clear db := by
  obtain ⟨hlocked, hlater⟩ := handle_patch_eq_ok hok
  obtain ⟨old, patch, time, signature, hold, hpatch, hvalid, hnulls, htargets, -⟩ :=
    patchLocked_eq_ok hkeyed hlocked
  rw [hlater]
  generalize (patchLocked server now targetId payload db).2 = later at htargets ⊢
  obtain ⟨hmem, rfl⟩ := Table.mem_of_row? hold
  have hrow := @Patch.consistent_row_iff server.unicode patch old time signature
    (hconsistent old hmem) hvalid hnulls
  obtain ⟨henabled, hhas⟩ := patchDb_row hpatch old time signature
  rw [henabled, hhas] at hrow
  have honly := @onlyNamed_row_iff server server.unicode payload patch old time signature hpatch
  generalize hnew : (patch.derived server.unicode old).row old time signature = new
    at htargets hrow honly
  have hid : new.id = old.id := hnew ▸ rfl
  have hfind : later.target? old.id = some new := by
    rw [Db.target?, htargets]
    exact Table.row?_update_const hold hid
  constructor
  · rintro ⟨hall, ⟨old', new', hold', hnew', honly'⟩, -⟩ old'' hold''
    obtain rfl : old = old' := Option.some.inj (hold.symm.trans hold')
    obtain rfl : new = new' := Option.some.inj (hfind.symm.trans hnew')
    obtain rfl : old = old'' := Option.some.inj (hold.symm.trans hold'')
    exact ⟨hrow.mp (hall new (Table.mem_of_row? hfind).1), honly.mp honly'⟩
  · intro hclear
    obtain ⟨hsla, hports⟩ := hclear old hold
    refine ⟨?_, ⟨old, new, hold, hfind, honly.mpr hports⟩, ?_⟩
    · intro row hmem'
      rw [htargets] at hmem'
      obtain ⟨other, hother, rfl⟩ := Table.mem_update.mp hmem'
      split
      · exact hrow.mpr hsla
      · exact hconsistent other hother
    · rw [htargets]
      exact Table.filter_update_const hid db.targets

/-! A request keeps the keys, and the rules where it is clear. -/

theorem Db.Keyed.handle {db : Db} (hkeyed : db.Keyed) (now : Int) (request : Request) :
    (handle server now db request).2.Keyed := by
  cases hresult : (Targets.handle server now db request).1 with
  | error error =>
      rw [handle_eq_error hresult]
      exact hkeyed
  | ok accepted =>
      cases request with
      | post payload =>
          obtain ⟨row, -, hid, htargets, hnext⟩ := handle_post_eq_ok hresult
          refine ⟨?_, ?_⟩
          · rw [htargets]
            exact hkeyed.keyed.snoc fun other hother => hid ▸ (hkeyed.issued other hother).ne
          · rw [htargets, hnext]
            intro other hother
            obtain hold | rfl := List.mem_append.mp hother |>.imp_right List.mem_singleton.mp
            · exact Nat.lt_succ_of_lt (hkeyed.issued other hold)
            · exact hid ▸ Nat.lt_succ_self _
      | patch targetId payload =>
          obtain ⟨hlocked, hlater⟩ := handle_patch_eq_ok hresult
          obtain ⟨old, patch, time, signature, hold, -, -, -, htargets, hnext⟩ :=
            patchLocked_eq_ok hkeyed hlocked
          obtain ⟨hmem, rfl⟩ := Table.mem_of_row? hold
          rw [hlater]
          refine ⟨?_, ?_⟩
          · rw [htargets]
            exact hkeyed.keyed.update_const rfl
          · rw [htargets, hnext]
            intro row hrow
            obtain ⟨other, hother, rfl⟩ := Table.mem_update.mp hrow
            split
            · exact hkeyed.issued old hmem
            · exact hkeyed.issued other hother

theorem consistent_handle {db : Db} (hkeyed : db.Keyed)
    (hconsistent : ∀ row ∈ db.targets, row.Consistent server.unicode) (now : Int)
    {request : Request} (hclear : request.Clear db) :
    ∀ row ∈ (handle server now db request).2.targets, row.Consistent server.unicode := by
  cases hresult : (handle server now db request).1 with
  | error error =>
      rw [handle_eq_error hresult]
      exact hconsistent
  | ok accepted =>
      cases request with
      | post payload =>
          obtain ⟨new, hnew, -, htargets, -⟩ := handle_post_eq_ok hresult
          rw [htargets]
          intro row hrow
          obtain hold | rfl := List.mem_append.mp hrow |>.imp_right List.mem_singleton.mp
          · exact hconsistent row hold
          · exact hnew
      | patch targetId payload => exact ((accepted_iff hkeyed hconsistent hresult).mpr hclear).1

/-- In a run of requests in which no `PATCH` leaves an enabled SLA without a value or sends an
empty port list to a target with other ports than the default, every target is one that creation
accepts, a rejected request changes nothing and a `PATCH` changes what it names. -/
theorem patch_builds_what_creation_accepts (server : Server) (requests : List (Int × Request))
    {last : Db}
    (hok : RunOk (fun db step => some (handle server step.1 db step.2).2)
      (fun db step => step.2.Clear db) {} requests)
    (hrun : run (fun db step => some (handle server step.1 db step.2).2) {} requests =
      some last) : last.Guarded server := by
  have hkeeps : ∀ {db : Db} {step : Int × Request} {next : Db},
      (db.Keyed ∧ ∀ row ∈ db.targets, row.Consistent server.unicode) → step.2.Clear db →
      some (handle server step.1 db step.2).2 = some next →
      next.Keyed ∧ ∀ row ∈ next.targets, row.Consistent server.unicode := by
    rintro db step next ⟨hkeyed, hconsistent⟩ hclear hnext
    cases hnext
    exact ⟨hkeyed.handle step.1 step.2, consistent_handle hkeyed hconsistent step.1 hclear⟩
  have hempty : ({} : Db).Keyed := ⟨Table.keyed_nil, by simp⟩
  obtain ⟨hkeyed, hconsistent⟩ :=
    @run_invariant_of _ _ _ (fun db : Db => db.Keyed ∧ ∀ row ∈ db.targets,
      row.Consistent server.unicode) _ hkeeps _ _ _ hok ⟨hempty, by simp⟩ hrun
  exact ⟨hconsistent, fun _ _ _ hfailed => handle_eq_error hfailed,
    fun _ _ _ haccepted => accepted_iff hkeyed hconsistent haccepted⟩

def plainServer : Server where
  unicode := ⟨List.map Char.toLower, some, fun _ => true,
    fun c => if c.isDigit then some (c.toNat - '0'.toNat) else none⟩
  fernet := id
  recipients := []

def webTarget : TargetCreate where
  name := "web".toList
  host := "a.example".toList
  enableHttpCheck := true
  httpUrl := some "https://a.example/".toList
  tcpPorts := "443,22".toList

/-- Creation, a password, a plain URL that ends the certificate monitoring, and a SLA. -/
def carefulRequests : List (Int × Request) :=
  [(1, .post webTarget),
    (2, .patch 1 { httpUsername := sent "u".toList, httpPassword := sent "p".toList }),
    (3, .patch 1 { httpUrl := sent "http://a.example/".toList }),
    (4, .patch 1 { slaEnabled := sent true, slaPingLatencyMs := sent 20 })]

theorem patch_builds_what_creation_accepts_carefulRequests :
    ∃ last, run (fun db step => some (handle plainServer step.1 db step.2).2) {} carefulRequests =
        some last ∧ (last.targets.map fun row => (row.enableCertExpiration, row.slaEnabled)) =
          [(false, true)] ∧ last.Guarded plainServer := by
  have hany : (run (fun db step => some (handle plainServer step.1 db step.2).2) {}
      carefulRequests).any (fun last => decide ((last.targets.map fun row =>
        (row.enableCertExpiration, row.slaEnabled)) = [(false, true)])) = true := by decide +kernel
  obtain ⟨last, hrun, hrows⟩ := (Option.any_eq_true ..).mp hany
  have hok : RunOk (fun db step => some (handle plainServer step.1 db step.2).2)
      (fun db step => step.2.Clear db) {} carefulRequests := by decide +kernel
  exact ⟨last, hrun, of_decide_eq_true hrows,
    patch_builds_what_creation_accepts plainServer carefulRequests hok hrun⟩

/-- A SLA without a value, and an empty port list. -/
def carelessRequests : List (Int × Request) :=
  [(1, .post webTarget), (2, .patch 1 { slaEnabled := sent true, tcpPorts := some none })]

theorem patch_builds_what_creation_refuses :
    ∃ last, run (fun db step => some (handle plainServer step.1 db step.2).2) {} carelessRequests =
        some last ∧ (last.targets.map Target.tcpPorts) = [some defaultTcpPorts] ∧
      ¬ last.Guarded plainServer := by
  have hany : (run (fun db step => some (handle plainServer step.1 db step.2).2) {}
      carelessRequests).any (fun last => decide (last.targets.map Target.tcpPorts =
        [some defaultTcpPorts] ∧ last.targets.any (fun row =>
          row.slaEnabled && !row.hasSla) = true)) = true := by decide +kernel
  obtain ⟨last, hrun, hrows⟩ := (Option.any_eq_true ..).mp hany
  obtain ⟨hports, hany⟩ := of_decide_eq_true hrows
  obtain ⟨row, hrow, hbroken⟩ := List.any_eq_true.mp hany
  obtain ⟨henabled, hnone⟩ := Bool.and_eq_true_iff.mp hbroken
  refine ⟨last, hrun, hports, fun hguarded => ?_⟩
  simp [(hguarded.consistent row hrow).sla henabled] at hnone

end Justup.Targets
