import Justup.Lib.Transition
import Justup.Monitor.Ledger

/-!
# One incident, one alert

Of the availability and of the certificate of a target at most one alert is active, the
scheduler knows it, and every alert has its events in the outbox.
-/

namespace Justup.Monitor

open Justup.Alerts
open Justup.Lib.Table Justup.Lib.Transition
open Justup.Store (Text)

/-! ## Names of services -/

section Names

variable (folding : Folding)

theorem flatMap_upper_ascii {text : Text} (hascii : (text.all fun c => c.toNat < 128) = true) :
    text.flatMap folding.upper = text.map Char.toUpper := by
  induction text with
  | nil => rfl
  | cons c rest ih =>
      rw [List.all_cons, Bool.and_eq_true, decide_eq_true_eq] at hascii
      rw [List.flatMap_cons, folding.upper_ascii c hascii.1, ih hascii.2]
      rfl

/-- The lists of services that can be alerting. -/
theorem alerting_mem (keep : Service → Bool) (hcert : keep .cert = false) :
    Service.all.filter keep ∈
      [[], [.http], [.ping], [.tcp], [.http, .ping], [.http, .tcp], [.ping, .tcp],
        [.http, .ping, .tcp]] := by
  cases hhttp : keep .http <;> cases hping : keep .ping <;> cases htcp : keep .tcp <;>
    simp [Service.all, hcert, hhttp, hping, htcp]

/-- The name of an availability alert does not pass for a certificate alert. -/
theorem isCert_joined (keep : Service → Bool) (hcert : keep .cert = false) :
    System.isCert folding (joined ((Service.all.filter keep).map Service.name)) = false := by
  have hall := alerting_mem keep hcert
  generalize Service.all.filter keep = alerting at hall
  have hascii : ((joined (alerting.map Service.name)).all fun c => c.toNat < 128) = true := by
    fin_cases hall <;> decide
  rw [System.isCert, flatMap_upper_ascii folding hascii]
  fin_cases hall <;> decide

/-- The name of a certificate alert says so. -/
theorem isCert_certService (daysLeft : Int) (certHost : Text) :
    System.isCert folding (System.certService daysLeft certHost) = true := by
  have hstarts : ∃ rest, System.certService daysLeft certHost = System.certWord ++ rest := by
    unfold System.certService
    dsimp only
    split_ifs <;> exact ⟨_, by simp only [List.append_assoc]; rfl⟩
  obtain ⟨rest, hrest⟩ := hstarts
  have hupper : System.certWord.flatMap folding.upper = System.certWord :=
    flatMap_upper_ascii folding (by decide)
  rw [System.isCert, decide_eq_true_eq, hrest, List.flatMap_append, hupper]
  exact (List.prefix_append _ _).isInfix

end Names

/-! ## The memory of the scheduler -/

namespace System

variable (folding : Folding)

/-- The runtime state of a target points at an alert of it. -/
def Knows (rt : Runtime) (alert : Alert) : Prop :=
  if isCert folding alert.failedService then
    rt.certAlertSent = true ∧ rt.certAlertId = some alert.id
  else rt.currentAlertId = some alert.id

/-- What holds between any two steps. -/
structure Inv (sys : System) : Prop where
  ledger : Ledger sys.db
  ids : ∀ alert ∈ sys.db.alerts, alert.id < sys.nextId
  keys : ∀ entry ∈ sys.db.outbox, entry.alertId < sys.nextId
  one : ∀ a ∈ sys.db.alerts, ∀ b ∈ sys.db.alerts, isActive a = true → isActive b = true →
    a.targetId = b.targetId → isCert folding a.failedService = isCert folding b.failedService →
      a.id = b.id
  known : ∀ tid rt, sys.rt tid = some rt → ∀ alert ∈ sys.db.alerts, isActive alert = true →
    alert.targetId = tid → Knows folding rt alert
  uncertified : ∀ tid rt, sys.rt tid = some rt → rt.downSince .cert = none
  running : ∀ tid, (sys.targets tid).isSome → (sys.rt tid).isSome
  loading : ∀ alerts, sys.loaded = some alerts → ∀ alert ∈ sys.db.alerts, isActive alert = true →
    ⟨alert.targetId, alert.id, alert.startedAt, alert.failedService⟩ ∈ alerts
  loadedOne : ∀ alerts, sys.loaded = some alerts → ∀ a ∈ alerts, ∀ b ∈ alerts,
    a.targetId = b.targetId → isCert folding a.failedService = isCert folding b.failedService →
      a.alertId = b.alertId

variable {folding} {sys : System} {tid : Nat}

theorem setRt_self (rt : Runtime) : (sys.setRt tid rt).rt tid = some rt :=
  Function.update_self _ _ _

theorem setRt_of_ne (rt : Runtime) {other : Nat} (hother : other ≠ tid) :
    (sys.setRt tid rt).rt other = sys.rt other :=
  Function.update_of_ne hother _ _

theorem setRt_running (hrunning : ∀ other, (sys.targets other).isSome → (sys.rt other).isSome)
    (rt : Runtime) (other : Nat) (hother : ((sys.setRt tid rt).targets other).isSome) :
    ((sys.setRt tid rt).rt other).isSome := by
  by_cases hsame : other = tid
  · rw [hsame, setRt_self]
    rfl
  · rw [setRt_of_ne rt hsame]
    exact hrunning other hother

/-- Some runtime states and targets are forgotten, and the open alerts that were loaded. -/
theorem Inv.fewer {next : System} (hinv : sys.Inv folding) (hdb : next.db = sys.db)
    (hrt : ∀ tid rt, next.rt tid = some rt → sys.rt tid = some rt)
    (hrunning : ∀ tid, (next.targets tid).isSome → (next.rt tid).isSome)
    (hloaded : ∀ alerts, next.loaded = some alerts → sys.loaded = some alerts)
    (hnextId : sys.nextId ≤ next.nextId) : next.Inv folding where
  ledger := hdb ▸ hinv.ledger
  ids := by
    rw [hdb]
    exact fun alert halert => (hinv.ids alert halert).trans_le hnextId
  keys := by
    rw [hdb]
    exact fun entry hentry => (hinv.keys entry hentry).trans_le hnextId
  one := hdb ▸ hinv.one
  known := by
    rw [hdb]
    exact fun tid rt h => hinv.known tid rt (hrt tid rt h)
  uncertified tid rt h := hinv.uncertified tid rt (hrt tid rt h)
  running := hrunning
  loading := by
    rw [hdb]
    exact fun alerts h => hinv.loading alerts (hloaded alerts h)
  loadedOne alerts h := hinv.loadedOne alerts (hloaded alerts h)

/-- What the invariant does not read. -/
theorem Inv.congr {next : System} (hinv : sys.Inv folding) (hdb : next.db = sys.db)
    (hrt : next.rt = sys.rt) (htargets : next.targets = sys.targets)
    (hloaded : next.loaded = sys.loaded) (hnextId : sys.nextId ≤ next.nextId) :
    next.Inv folding := by
  refine hinv.fewer hdb (fun tid rt h => hrt ▸ h) ?_ (fun alerts h => hloaded ▸ h) hnextId
  rw [htargets, hrt]
  exact hinv.running

theorem Inv.setRt (hinv : sys.Inv folding) {rt : Runtime} (hcert : rt.downSince .cert = none)
    (hknown : ∀ alert ∈ sys.db.alerts, isActive alert = true → alert.targetId = tid →
      Knows folding rt alert) : (sys.setRt tid rt).Inv folding := { hinv with
  known := by
    intro other rt' hrt'
    by_cases hother : other = tid
    · subst hother
      rw [setRt_self] at hrt'
      cases hrt'
      exact hknown
    · rw [setRt_of_ne rt hother] at hrt'
      exact hinv.known other rt' hrt'
  uncertified := by
    intro other rt' hrt'
    by_cases hother : other = tid
    · subst hother
      rw [setRt_self] at hrt'
      cases hrt'
      exact hcert
    · rw [setRt_of_ne rt hother] at hrt'
      exact hinv.uncertified other rt' hrt'
  running := setRt_running hinv.running rt }

/-- Changes of a runtime state that leave its alerts alone. -/
theorem Inv.keepRt (hinv : sys.Inv folding) {old rt : Runtime} (hold : sys.rt tid = some old)
    (hcert : rt.downSince .cert = none) (hcurrent : rt.currentAlertId = old.currentAlertId)
    (hsent : rt.certAlertSent = old.certAlertSent) (hid : rt.certAlertId = old.certAlertId) :
    (sys.setRt tid rt).Inv folding :=
  hinv.setRt hcert fun alert halert hactive htarget => by
    have hknows := hinv.known tid old hold alert halert hactive htarget
    simpa only [Knows, hcurrent, hsent, hid] using hknows

/-- Rows end or go. -/
theorem Inv.shrink (hinv : sys.Inv folding) {next : AlertDb} (hledger : Ledger next)
    (hshrinks : Shrinks sys.db next) (hids : ∀ alert ∈ next.alerts, alert.id < sys.nextId)
    (hkeys : ∀ entry ∈ next.outbox, entry.alertId < sys.nextId) :
    { sys with db := next }.Inv folding where
  ledger := hledger
  ids := hids
  keys := hkeys
  one a ha b hb hactive hactive' :=
    hinv.one a (hshrinks a ha hactive) b (hshrinks b hb hactive') hactive hactive'
  known tid rt hrt alert halert hactive :=
    hinv.known tid rt hrt alert (hshrinks alert halert hactive) hactive
  uncertified := hinv.uncertified
  running := hinv.running
  loading alerts halerts alert halert hactive :=
    hinv.loading alerts halerts alert (hshrinks alert halert hactive) hactive
  loadedOne := hinv.loadedOne

theorem Inv.close (hinv : sys.Inv folding) {next : AlertDb} {id : Nat}
    (hcloses : Closes sys.db next id) : { sys with db := next }.Inv folding := by
  refine hinv.shrink hcloses.ledger hcloses.shrinks (fun alert halert => ?_) fun entry hentry => ?_
  · have hmem : alert.id ∈ sys.db.alerts.map Alert.id :=
      hcloses.ids ▸ List.mem_map_of_mem halert
    obtain ⟨old, hold, hid⟩ := List.mem_map.mp hmem
    exact hid ▸ hinv.ids old hold
  · obtain ⟨old, hold, hkey⟩ | ⟨alert, halert, hid⟩ := hcloses.keys entry hentry
    · have hsame : old.alertId = entry.alertId := congrArg Prod.fst hkey
      exact hsame ▸ hinv.keys old hold
    · exact hid ▸ hinv.ids alert halert

/-- A new row, which the scheduler knows, where nothing of its kind was active. -/
theorem Inv.create (hinv : sys.Inv folding) (hloaded : sys.loaded = none) {next : AlertDb}
    {alert : Alert} (hcreates : Creates sys.db next alert) (hid : alert.id = sys.nextId)
    (hfree : ∀ old ∈ sys.db.alerts, isActive old = true → old.targetId = alert.targetId →
      isCert folding old.failedService ≠ isCert folding alert.failedService)
    {rt : Runtime} (hcert : rt.downSince .cert = none) (hnew : Knows folding rt alert)
    (hknown : ∀ old ∈ sys.db.alerts, isActive old = true → old.targetId = alert.targetId →
      Knows folding rt old) :
    { sys.setRt alert.targetId rt with db := next, nextId := sys.nextId + 1 }.Inv folding where
  ledger := hcreates.ledger
  ids other hother := by
    rw [hcreates.alerts] at hother
    obtain hold | hlast := List.mem_append.mp hother
    · exact Nat.lt_succ_of_lt (hinv.ids other hold)
    · rw [List.mem_singleton.mp hlast, hid]
      exact Nat.lt_succ_self _
  keys entry hentry := by
    obtain ⟨old, hold, hkey⟩ | hkey := (hcreates.ids entry.key).mp ⟨entry, hentry, rfl⟩
    · have hsame : old.alertId = entry.alertId := congrArg Prod.fst hkey
      exact hsame ▸ Nat.lt_succ_of_lt (hinv.keys old hold)
    · have hsame : entry.alertId = alert.id := congrArg Prod.fst hkey
      rw [hsame, hid]
      exact Nat.lt_succ_self _
  one a ha b hb hactive hactive' htarget hkind := by
    dsimp only at ha hb
    rw [hcreates.alerts] at ha hb
    obtain holdA | hlastA := List.mem_append.mp ha <;>
      obtain holdB | hlastB := List.mem_append.mp hb
    · exact hinv.one a holdA b holdB hactive hactive' htarget hkind
    · rw [List.mem_singleton.mp hlastB] at htarget hkind
      exact absurd hkind (hfree a holdA hactive htarget)
    · rw [List.mem_singleton.mp hlastA] at htarget hkind
      exact absurd hkind.symm (hfree b holdB hactive' htarget.symm)
    · rw [List.mem_singleton.mp hlastA, List.mem_singleton.mp hlastB]
  known other rt' hrt' a ha hactive htarget := by
    dsimp only at ha hrt'
    rw [hcreates.alerts] at ha
    by_cases hother : other = alert.targetId
    · subst hother
      rw [setRt_self] at hrt'
      cases hrt'
      obtain ha | ha := List.mem_append.mp ha
      · exact hknown a ha hactive htarget
      · rw [List.mem_singleton.mp ha]
        exact hnew
    · rw [setRt_of_ne rt hother] at hrt'
      obtain ha | ha := List.mem_append.mp ha
      · exact hinv.known other rt' hrt' a ha hactive htarget
      · rw [List.mem_singleton.mp ha] at htarget
        exact absurd htarget.symm hother
  uncertified other rt' hrt' := by
    by_cases hother : other = alert.targetId
    · subst hother
      rw [setRt_self] at hrt'
      cases hrt'
      exact hcert
    · dsimp only at hrt'
      rw [setRt_of_ne rt hother] at hrt'
      exact hinv.uncertified other rt' hrt'
  running := setRt_running hinv.running rt
  loading alerts halerts := by
    have hnone : sys.loaded = some alerts := halerts
    rw [hloaded] at hnone
    cases hnone
  loadedOne alerts halerts := by
    have hnone : sys.loaded = some alerts := halerts
    rw [hloaded] at hnone
    cases hnone

/-! ## The steps -/

theorem uncertified_alerting {rt : Runtime} (hcert : rt.downSince .cert = none)
    (timeout now : Int) : ∃ keep : Service → Bool, keep .cert = false ∧
      rt.alertingServices timeout now = Service.all.filter keep :=
  ⟨_, by simp [hcert], rfl⟩

/-- A new availability alert where none is remembered. -/
theorem Inv.openAlert (hinv : sys.Inv folding) (hloaded : sys.loaded = none) {old rt : Runtime}
    (hold : sys.rt tid = some old) (hcert : rt.downSince .cert = none)
    (hcurrent : rt.currentAlertId = old.currentAlertId)
    (hsent : rt.certAlertSent = old.certAlertSent) (hid : rt.certAlertId = old.certAlertId)
    {alerting : List Service} (halerting : ∃ keep : Service → Bool, keep .cert = false ∧
      alerting = Service.all.filter keep) (targetName : Text) (now : Int) (fails : Bool) :
    (sys.openAlert tid targetName now alerting fails rt).Inv folding := by
  unfold System.openAlert
  dsimp only
  split
  · exact hinv.keepRt hold hcert hcurrent hsent hid
  · rename_i hnone
    have htried := (hinv.keepRt hold hcert hcurrent hsent hid : (sys.setRt tid
      { rt with failedServices := alerting.map Service.name }).Inv folding)
    split
    · exact htried.congr rfl rfl rfl rfl (Nat.le_succ _)
    · rename_i db hinsert
      have hname : isCert folding (joined (alerting.map Service.name)) = false := by
        obtain ⟨keep, hkeep, rfl⟩ := halerting
        exact isCert_joined folding keep hkeep
      have hcreates : Creates sys.db db
          (newAlert sys.nextId tid targetName (joined (alerting.map Service.name)) now) := by
        unfold insertAlert at hinsert
        split_ifs at hinsert
        exact hinv.ledger.create
          (fun entry hentry hsame => absurd (hinv.keys entry hentry) (by simp [hsame])) hinsert
      have hknown : ∀ alert ∈ sys.db.alerts, isActive alert = true → alert.targetId = tid →
          Knows folding rt alert := fun alert halert hactive htarget => by
        have hknows := hinv.known tid old hold alert halert hactive htarget
        simpa only [Knows, hcurrent, hsent, hid] using hknows
      have hcertOnly : ∀ alert ∈ sys.db.alerts, isActive alert = true → alert.targetId = tid →
          isCert folding alert.failedService = true := fun alert halert hactive htarget => by
        have hknows := hknown alert halert hactive htarget
        by_contra hother
        rw [Knows, if_neg hother, hnone] at hknows
        cases hknows
      have hcreated : Inv folding { sys.setRt tid { rt with
            failedServices := alerting.map Service.name
            currentAlertId := some sys.nextId } with
          db := db, nextId := sys.nextId + 1 } := hinv.create hloaded hcreates rfl
        (fun alert halert hactive htarget => by
          rw [hcertOnly alert halert hactive htarget]
          simp [newAlert, hname]) hcert (by simp [Knows, newAlert, hname])
        (fun alert halert hactive htarget => by
          have hknows := hknown alert halert hactive htarget
          have hkind := hcertOnly alert halert hactive htarget
          simpa only [Knows, hkind, if_true] using hknows)
      exact hcreated.congr rfl (Function.update_idem _ _ _) rfl rfl (Nat.le_refl _)

/-- The alert that is remembered ends. -/
theorem Inv.closeAlert (hinv : sys.Inv folding) {old rt : Runtime} (hold : sys.rt tid = some old)
    (hcert : rt.downSince .cert = none) (hcurrent : rt.currentAlertId = old.currentAlertId)
    (hsent : rt.certAlertSent = old.certAlertSent) (hid : rt.certAlertId = old.certAlertId)
    {id : Nat} (hopen : rt.currentAlertId = some id) (targetName : Text) (now : Int)
    (fails : Bool) : (sys.closeAlert tid targetName now id fails rt).Inv folding := by
  have hends {db : AlertDb} (hcloses : Closes sys.db db id) : Inv folding { sys with
      db := db
      rt := Function.update sys.rt tid (some { rt with
        currentAlertId := none
        failedServices := []
        downSince := fun _ => none }) } := by
    refine (hinv.close hcloses).setRt rfl fun alert halert hactive htarget => ?_
    have hknows := hinv.known tid old hold alert (hcloses.shrinks alert halert hactive) hactive
      htarget
    rw [Knows] at hknows ⊢
    split_ifs at hknows ⊢
    · exact ⟨hsent.trans hknows.1, hid.trans hknows.2⟩
    · have hsame : alert.id = id := by
        rw [← hcurrent, hopen] at hknows
        exact (Option.some.inj hknows).symm
      have hended := hcloses.ended alert halert hsame
      rw [hended] at hactive
      cases hactive
  unfold System.closeAlert
  dsimp only
  split
  · exact hinv.keepRt hold hcert hcurrent hsent hid
  split
  · exact (hends (hinv.ledger.resolve now id now)).congr rfl rfl rfl rfl (Nat.le_refl _)
  · exact hends (hinv.ledger.deactivate id)

theorem Inv.maybeAlert (hinv : sys.Inv folding) (hloaded : sys.loaded = none) {old : Runtime}
    (hold : sys.rt tid = some old) (targetName : Text) (status : TargetStatus) (now : Int)
    (fails : Bool) : (sys.maybeAlert tid targetName status now fails).Inv folding := by
  have hcert := hinv.uncertified tid old hold
  unfold System.maybeAlert
  rw [hold]
  dsimp only [Option.getD_some]
  have halerting := uncertified_alerting hcert sys.metricsTimeout now
  generalize hservices : old.alertingServices sys.metricsTimeout now = alerting at halerting
  have hcount : (old.trimFailures now).count now alerting = { old with
      failTimestamps := ((old.trimFailures now).count now alerting).failTimestamps
      consecutiveFailures := ((old.trimFailures now).count now alerting).consecutiveFailures
      consecutiveSuccesses :=
        ((old.trimFailures now).count now alerting).consecutiveSuccesses } := by
    unfold Runtime.count Runtime.trimFailures
    split_ifs <;> rfl
  generalize (old.trimFailures now).count now alerting = counted at hcount
  have hcountedCert : counted.downSince .cert = none := by rw [hcount]; exact hcert
  have hcurrent : counted.currentAlertId = old.currentAlertId := by rw [hcount]
  have hsent : counted.certAlertSent = old.certAlertSent := by rw [hcount]
  have hid : counted.certAlertId = old.certAlertId := by rw [hcount]
  split
  · exact hinv.keepRt hold hcert rfl rfl rfl
  split
  · exact hinv.keepRt hold hcert rfl rfl rfl
  split
  · split_ifs
    · exact hinv.keepRt hold hcountedCert hcurrent hsent hid
    · exact hinv.keepRt hold hcountedCert hcurrent hsent hid
    · refine hinv.openAlert hloaded hold ?_ ?_ ?_ ?_ halerting _ _ _ <;> assumption
  · rename_i id hopen
    split_ifs
    · refine hinv.closeAlert hold ?_ ?_ ?_ ?_ ?_ _ _ _ <;> assumption
    · exact hinv.keepRt hold hcountedCert hcurrent hsent hid
    · refine hinv.openAlert hloaded hold ?_ ?_ ?_ ?_ halerting _ _ _ <;> assumption

theorem Inv.maybeCertAlert (hinv : sys.Inv folding) (hloaded : sys.loaded = none)
    (targetName : Text) (daysLeft : Int) (certHost : Text) (now : Int) (fails : Bool) :
    (sys.maybeCertAlert tid targetName daysLeft certHost now fails).Inv folding := by
  unfold System.maybeCertAlert
  cases hold : sys.rt tid with
  | none => exact hinv
  | some rt =>
      have hcert := hinv.uncertified tid rt hold
      dsimp only
      split
      · split
        · rename_i id hsent hid
          split
          · exact hinv
          · have hcloses := hinv.ledger.resolve now id now
            refine (hinv.close hcloses).setRt hcert fun alert halert hactive htarget => ?_
            have hknows := hinv.known tid rt hold alert (hcloses.shrinks alert halert hactive)
              hactive htarget
            rw [Knows] at hknows ⊢
            split_ifs at hknows ⊢
            · have hsame : alert.id = id := by
                rw [hid] at hknows
                exact (Option.some.inj hknows.2).symm
              have hended := hcloses.ended alert halert hsame
              rw [hended] at hactive
              cases hactive
            · exact hknows
        · rename_i hnothing
          refine hinv.setRt hcert fun alert halert hactive htarget => ?_
          have hknows := hinv.known tid rt hold alert halert hactive htarget
          rw [Knows] at hknows ⊢
          split_ifs at hknows ⊢
          · exact absurd hknows.2 (hnothing alert.id hknows.1)
          · exact hknows
      split
      · exact hinv
      · rename_i hsent
        split
        · exact hinv.congr rfl rfl rfl rfl (Nat.le_succ _)
        · rename_i db hinsert
          have hname := isCert_certService folding daysLeft certHost
          have hcreates : Creates sys.db db
              (newAlert sys.nextId tid targetName (certService daysLeft certHost) now) := by
            unfold insertAlert at hinsert
            split_ifs at hinsert
            exact hinv.ledger.create
              (fun entry hentry hsame => absurd (hinv.keys entry hentry) (by simp [hsame])) hinsert
          have hfree : ∀ alert ∈ sys.db.alerts, isActive alert = true → alert.targetId = tid →
              isCert folding alert.failedService = false :=
            fun alert halert hactive htarget => by
              have hknows := hinv.known tid rt hold alert halert hactive htarget
              by_contra hother
              rw [Knows, if_pos (by simpa using hother)] at hknows
              exact hsent hknows.1
          have hcreated : Inv folding { sys.setRt tid { rt with
              certAlertSent := true, certAlertId := some sys.nextId } with
              db := db, nextId := sys.nextId + 1 } := hinv.create hloaded hcreates rfl
            (fun alert halert hactive htarget => by
              rw [hfree alert halert hactive htarget]
              simp [newAlert, hname]) hcert (by simp [Knows, newAlert, hname])
            (fun alert halert hactive htarget => by
              have hknows := hinv.known tid rt hold alert halert hactive htarget
              have hkind := hfree alert halert hactive htarget
              simpa [Knows, hkind] using hknows)
          exact hcreated.congr rfl rfl rfl rfl (Nat.le_refl _)

/-- What the certificate and the state of the services leave alone. -/
structure Keeps (sys next : System) : Prop where
  loaded : next.loaded = sys.loaded
  targets : next.targets = sys.targets
  minutes : next.metricsTimeoutMinutes = sys.metricsTimeoutMinutes
  lastAlertAt : next.lastAlertAt = sys.lastAlertAt

theorem maybeCertAlert_keeps (targetName : Text) (daysLeft : Int) (certHost : Text) (now : Int)
    (fails : Bool) : Keeps sys (sys.maybeCertAlert tid targetName daysLeft certHost now fails) := by
  unfold System.maybeCertAlert
  split
  · exact ⟨rfl, rfl, rfl, rfl⟩
  split
  · split
    · split <;> exact ⟨rfl, rfl, rfl, rfl⟩
    · exact ⟨rfl, rfl, rfl, rfl⟩
  split
  · exact ⟨rfl, rfl, rfl, rfl⟩
  · dsimp only
    split <;> exact ⟨rfl, rfl, rfl, rfl⟩

theorem certStep_keeps (sys : System) (cfg : Config) (cycle : Cycle) (snapshot : Snapshot) :
    Keeps sys (sys.certStep cfg cycle snapshot) := by
  unfold certStep
  split
  · exact ⟨rfl, rfl, rfl, rfl⟩
  · exact maybeCertAlert_keeps _ _ _ _ _

theorem Inv.certStep (hinv : sys.Inv folding) (hloaded : sys.loaded = none) (cfg : Config)
    (cycle : Cycle) (snapshot : Snapshot) : (sys.certStep cfg cycle snapshot).Inv folding := by
  unfold System.certStep
  split
  · exact hinv
  · exact hinv.maybeCertAlert hloaded _ _ _ _ _

theorem updateService_none {now : Int} {isOk : Option Bool} (hfine : isOk ≠ some false) :
    updateService now isOk none = none := by
  unfold updateService
  split
  · rfl
  · exact absurd rfl hfine
  · rfl

/-- The certificate counts for no outage. -/
theorem Inv.statusStep (hinv : sys.Inv folding) (cfg : Config) (cycle : Cycle)
    (snapshot : Snapshot) : (sys.statusStep cfg cycle snapshot).Inv folding := by
  unfold System.statusStep
  split
  · exact hinv
  · rename_i rt hrt
    refine hinv.keepRt hrt ?_ rfl rfl rfl
    rw [Runtime.updateServices]
    dsimp only
    rw [hinv.uncertified _ rt hrt]
    refine updateService_none ?_
    unfold verdict
    split_ifs <;> simp

theorem statusStep_keeps (sys : System) (cfg : Config) (cycle : Cycle) (snapshot : Snapshot) :
    Keeps sys (sys.statusStep cfg cycle snapshot) := by
  unfold statusStep
  split <;> exact ⟨rfl, rfl, rfl, rfl⟩

theorem Inv.alertStep (hinv : sys.Inv folding) (hloaded : sys.loaded = none) {cfg : Config}
    {cycle : Cycle} (htarget : sys.targets cycle.tid = some cfg) (snapshot : Snapshot) :
    (sys.alertStep cfg cycle snapshot).Inv folding := by
  unfold System.alertStep
  split
  · exact hinv
  · obtain ⟨rt, hrt⟩ := Option.isSome_iff_exists.mp (hinv.running cycle.tid (by rw [htarget]; rfl))
    exact hinv.maybeAlert hloaded hrt _ _ _ _

theorem Inv.runTarget (hinv : sys.Inv folding) (hloaded : sys.loaded = none) (cycle : Cycle) :
    (sys.runTarget cycle).Inv folding := by
  unfold System.runTarget
  cases htarget : sys.targets cycle.tid with
  | none => exact hinv
  | some cfg =>
      obtain ⟨rt, hrt⟩ :=
        Option.isSome_iff_exists.mp (hinv.running cycle.tid (by rw [htarget]; rfl))
      rw [hrt]
      dsimp only
      split
      · exact hinv
      have hcert := hinv.certStep hloaded cfg cycle
        (cfg.measure cycle.answers cycle.certDaysLeft)
      have hkeeps := certStep_keeps sys cfg cycle
        (cfg.measure cycle.answers cycle.certDaysLeft)
      split
      · exact hcert
      · exact hcert.statusStep _ _ _
      · have hstatus := statusStep_keeps (sys.certStep cfg cycle
          (cfg.measure cycle.answers cycle.certDaysLeft)) cfg cycle
          (cfg.measure cycle.answers cycle.certDaysLeft)
        refine (hcert.statusStep _ _ _).alertStep ?_ ?_ _
        · rw [hstatus.loaded, hkeeps.loaded, hloaded]
        · rw [hstatus.targets, hkeeps.targets, htarget]

theorem Inv.handleConnectivityIssue (hinv : sys.Inv folding) (tid : Nat) :
    (sys.handleConnectivityIssue tid).Inv folding := by
  unfold System.handleConnectivityIssue
  split
  · rename_i rt htarget hrt
    split
    · exact hinv
    · exact hinv.keepRt hrt rfl rfl rfl rfl
  · exact hinv

/-! ## Refreshes -/

theorem mem_listActiveAlerts {db : AlertDb} {row : ActiveAlert} :
    row ∈ listActiveAlerts db ↔ ∃ alert ∈ db.alerts, isActive alert = true ∧
      ⟨alert.targetId, alert.id, alert.startedAt, alert.failedService⟩ = row := by
  simp only [listActiveAlerts, isActive, List.mem_map, List.mem_filter, and_assoc]

theorem Inv.load (hinv : sys.Inv folding) {fails : Bool}
    (hfails : fails = true → ∀ alert ∈ sys.db.alerts, isActive alert = false) :
    { sys with loaded := some (if fails then [] else listActiveAlerts sys.db) }.Inv folding :=
  { hinv with
    loading := by
      rintro alerts halerts alert halert hactive
      cases halerts
      split_ifs with hfailed
      · rw [hfails hfailed alert halert] at hactive
        cases hactive
      · exact mem_listActiveAlerts.mpr ⟨alert, halert, hactive, rfl⟩
    loadedOne := by
      rintro alerts halerts a ha b hb htarget hkind
      cases halerts
      split_ifs at ha hb
      · cases ha
      · obtain ⟨alertA, hmemA, hactiveA, rfl⟩ := mem_listActiveAlerts.mp ha
        obtain ⟨alertB, hmemB, hactiveB, rfl⟩ := mem_listActiveAlerts.mp hb
        exact hinv.one alertA hmemA alertB hmemB hactiveA hactiveB htarget hkind }

theorem cert_not_restorable (cfg : Config) (failedService : Text) :
    .cert ∉ restorableServices folding cfg failedService := by
  have henabled : Service.cert ∉ [Service.http, .ping, .tcp].filter cfg.checks :=
    fun hmem => by simpa using List.mem_of_mem_filter hmem
  unfold restorableServices
  dsimp only
  split_ifs
  · exact henabled
  · exact fun hmem => henabled (List.mem_of_mem_filter hmem)

theorem restore_uncertified {rt : Runtime} (hcert : rt.downSince .cert = none) (cfg : Config)
    (alert : ActiveAlert) : (restore folding cfg rt alert).downSince .cert = none := by
  unfold restore
  split
  · exact hcert
  · dsimp only
    rw [if_neg (cert_not_restorable cfg _)]
    exact hcert

theorem restored_uncertified (cfg : Config) (rows : List ActiveAlert) :
    (rows.foldl (restore folding cfg) {}).downSince .cert = none := by
  induction rows using List.reverseRecOn with
  | nil => rfl
  | append_singleton rows row ih =>
      rw [List.foldl_concat]
      exact restore_uncertified ih cfg row

/-- A restored alert takes the place of the one of its kind. -/
theorem knows_restore (cfg : Config) (rt : Runtime) (alert : Alert) (row : ActiveAlert) :
    Knows folding (restore folding cfg rt row) alert ↔
      if isCert folding alert.failedService = isCert folding row.failedService then
        row.alertId = alert.id
      else Knows folding rt alert := by
  unfold restore Knows
  cases isCert folding alert.failedService <;> cases isCert folding row.failedService <;> simp

/-- After a restart every open alert is known, if there is one of a kind only. -/
theorem restored_knows (cfg : Config) {rows : List ActiveAlert}
    (hone : ∀ a ∈ rows, ∀ b ∈ rows,
      isCert folding a.failedService = isCert folding b.failedService → a.alertId = b.alertId)
    {alert : Alert}
    (hrow : ⟨alert.targetId, alert.id, alert.startedAt, alert.failedService⟩ ∈ rows) :
    Knows folding (rows.foldl (restore folding cfg) {}) alert := by
  induction rows using List.reverseRecOn with
  | nil => cases hrow
  | append_singleton rows last ih =>
      rw [List.foldl_concat]
      rw [knows_restore]
      split_ifs with hkind
      · exact (hone _ hrow last List.mem_concat_self hkind).symm
      · obtain hrow | hrow := List.mem_append.mp hrow
        · exact ih (fun a ha b hb => hone a (List.mem_append_left _ ha) b
            (List.mem_append_left _ hb)) hrow
        · exact absurd (by rw [← List.mem_singleton.mp hrow]) hkind

theorem Inv.setTarget (hinv : sys.Inv folding) (hrt : (sys.rt tid).isSome) (cfg : Config) :
    { sys with targets := Function.update sys.targets tid (some cfg) }.Inv folding := by
  refine hinv.fewer rfl (fun _ _ h => h) (fun other hother => ?_) (fun _ h => h) (Nat.le_refl _)
  by_cases hsame : other = tid
  · rw [hsame]
    exact hrt
  · dsimp only at hother
    rw [Function.update_of_ne hsame] at hother
    exact hinv.running other hother

/-- The rows of a load: every active alert, and one of a kind for each target. -/
structure Covers (folding : Folding) (alerts : List ActiveAlert) (db : AlertDb) : Prop where
  all : ∀ alert ∈ db.alerts, isActive alert = true →
    ⟨alert.targetId, alert.id, alert.startedAt, alert.failedService⟩ ∈ alerts
  one : ∀ a ∈ alerts, ∀ b ∈ alerts, a.targetId = b.targetId →
    isCert folding a.failedService = isCert folding b.failedService → a.alertId = b.alertId

theorem Inv.loadTarget (hinv : sys.Inv folding) {alerts : List ActiveAlert}
    (hcovers : Covers folding alerts sys.db) (row : Nat × Config) :
    (sys.loadTarget folding alerts row).Inv folding := by
  unfold System.loadTarget
  dsimp only
  split
  · rename_i rt hrt
    exact hinv.setTarget (by rw [hrt]; rfl) row.2
  · have hrestored : (sys.setRt row.1 ((alerts.filter fun alert => alert.targetId = row.1).foldl
        (restore folding row.2) {})).Inv folding := by
      refine hinv.setRt (restored_uncertified _ _) fun alert halert hactive htarget => ?_
      refine restored_knows row.2 (fun a ha b hb => ?_) ?_
      · obtain ⟨ha, htargetA⟩ := List.mem_filter.mp ha
        obtain ⟨hb, htargetB⟩ := List.mem_filter.mp hb
        exact hcovers.one a ha b hb
          ((of_decide_eq_true htargetA).trans (of_decide_eq_true htargetB).symm)
      · exact List.mem_filter.mpr ⟨hcovers.all alert halert hactive, decide_eq_true htarget⟩
    exact hrestored.setTarget (by rw [setRt_self]; rfl) row.2

theorem loadTarget_db (alerts : List ActiveAlert) (row : Nat × Config) :
    (sys.loadTarget folding alerts row).db = sys.db := by
  unfold loadTarget
  dsimp only
  split <;> rfl

theorem Inv.loadTargets {alerts : List ActiveAlert} (rows : List (Nat × Config)) {sys : System}
    (hinv : sys.Inv folding) (hcovers : Covers folding alerts sys.db) :
    (rows.foldl (fun sys row => sys.loadTarget folding alerts row) sys).Inv folding := by
  induction rows generalizing sys with
  | nil => exact hinv
  | cons row rest ih =>
      exact ih (hinv.loadTarget hcovers row) ((loadTarget_db alerts row).symm ▸ hcovers)

theorem Inv.forgetOthers (hinv : sys.Inv folding) (rows : List (Nat × Config)) :
    (sys.forgetOthers rows).Inv folding := by
  refine hinv.fewer rfl (fun tid rt h => ?_) (fun tid htarget => ?_) (fun _ h => h)
    (Nat.le_refl _)
  · simp only [System.forgetOthers] at h
    split_ifs at h
    exact h
  · simp only [System.forgetOthers] at htarget ⊢
    split_ifs at htarget ⊢
    · cases htarget
    · exact hinv.running tid htarget

theorem Inv.applyRefresh (hinv : sys.Inv folding) {alerts : List ActiveAlert}
    (hloaded : sys.loaded = some alerts) (rows : List (Nat × Config)) (minutes : Int) :
    (sys.applyRefresh folding alerts rows minutes).Inv folding := by
  have hstart : { sys with
      metricsTimeoutMinutes := max 1 (min 10 minutes), loaded := none }.Inv folding :=
    hinv.fewer rfl (fun _ _ h => h) hinv.running (fun _ h => nomatch h) (Nat.le_refl _)
  exact (hstart.loadTargets rows
    ⟨hinv.loading alerts hloaded, hinv.loadedOne alerts hloaded⟩).forgetOthers rows

theorem Inv.forgetTarget (hinv : sys.Inv folding) (tid : Nat) :
    (sys.forgetTarget tid).Inv folding := by
  refine hinv.fewer rfl (fun other rt h => ?_) (fun other htarget => ?_) (fun _ h => h)
    (Nat.le_refl _)
  · simp only [System.forgetTarget, Function.update_apply] at h
    split_ifs at h
    exact h
  · simp only [System.forgetTarget, Function.update_apply] at htarget ⊢
    split_ifs at htarget ⊢
    · cases htarget
    · exact hinv.running other htarget

/-! ## Users -/

theorem Inv.acknowledge (hinv : sys.Inv folding) {f : Alert → Alert} (hf : Acknowledges f) :
    { sys with db := { sys.db with alerts := sys.db.alerts.map f } }.Inv folding := by
  obtain ⟨hledger, hshrinks⟩ := hinv.ledger.acknowledge hf
  refine hinv.shrink hledger hshrinks (fun alert halert => ?_) hinv.keys
  obtain ⟨old, hold, rfl⟩ := List.mem_map.mp halert
  obtain hsame | ⟨hid, -⟩ := hf old
  · rw [hsame]
    exact hinv.ids old hold
  · rw [hid]
    exact hinv.ids old hold

theorem Inv.delete (hinv : sys.Inv folding) {alerts : List Alert}
    (hsub : alerts.Sublist sys.db.alerts) :
    { sys with db := { sys.db with alerts := alerts } }.Inv folding :=
  hinv.shrink (hinv.ledger.sublist hsub) (fun _ halert _ => hsub.subset halert)
    (fun alert halert => hinv.ids alert (hsub.subset halert)) hinv.keys

/-! ## Runs -/

/-- A load of the open alerts fails only where there is none. -/
def LoadOk (sys : System) : Action → Prop
  | .load fails => fails = true → ∀ alert ∈ sys.db.alerts, isActive alert = false
  | _ => True

instance (sys : System) (action : Action) : Decidable (LoadOk sys action) := by
  cases action <;> unfold LoadOk <;> infer_instance

theorem Inv.initial : ({} : System).Inv folding where
  ledger := by constructor <;> simp [Keyed]
  ids _ halert := absurd halert List.not_mem_nil
  keys _ hentry := absurd hentry List.not_mem_nil
  one _ ha := absurd ha List.not_mem_nil
  known _ _ hrt := by cases hrt
  uncertified _ _ hrt := by cases hrt
  running _ htarget := by cases htarget
  loading _ halerts := by cases halerts
  loadedOne _ halerts := by cases halerts

theorem Inv.step (hinv : sys.Inv folding) {elapsed : Int → Int → Rat} {action : Action}
    (hok : LoadOk sys action) {next : System}
    (hnext : sys.step folding elapsed action = some next) : next.Inv folding := by
  cases action with
  | load fails =>
      rw [System.step] at hnext
      split at hnext
      · cases hnext
        exact hinv.load hok
      · cases hnext
  | apply rows minutes =>
      obtain ⟨alerts, hloaded, rfl⟩ := Option.map_eq_some_iff.mp hnext
      exact hinv.applyRefresh hloaded rows minutes
  | cycle cycle =>
      rw [System.step] at hnext
      split_ifs at hnext with hloaded
      cases hnext
      exact hinv.runTarget hloaded cycle
  | skip tid =>
      rw [System.step] at hnext
      split_ifs at hnext
      cases hnext
      exact hinv.handleConnectivityIssue tid
  | restart =>
      cases hnext
      exact hinv.fewer rfl (fun _ _ h => nomatch h) (fun _ h => nomatch h) (fun _ h => nomatch h)
        (Nat.le_refl _)
  | forget tid =>
      cases hnext
      exact hinv.forgetTarget tid
  | acknowledge now alertId by_ =>
      cases hnext
      exact hinv.acknowledge (acknowledges_one now alertId by_)
  | acknowledgeAll now by_ =>
      cases hnext
      exact hinv.acknowledge (acknowledges_all elapsed now by_)
  | deleteByTarget tid =>
      cases hnext
      exact hinv.delete List.filter_sublist
  | deleteAll =>
      cases hnext
      exact hinv.delete (List.nil_sublist _)

/-- What the database and the scheduler say about the incidents. -/
structure OneIncident (folding : Folding) (sys : System) : Prop where
  ids : (sys.db.alerts.map Alert.id).Nodup
  /-- At most one alert of each kind is active for a target. -/
  one : ∀ a ∈ sys.db.alerts, ∀ b ∈ sys.db.alerts, isActive a = true → isActive b = true →
    a.targetId = b.targetId → isCert folding a.failedService = isCert folding b.failedService →
      a = b
  /-- The scheduler remembers the active alerts of every target that it monitors. -/
  known : ∀ alert ∈ sys.db.alerts, isActive alert = true → ∀ rt,
    sys.rt alert.targetId = some rt → Knows folding rt alert
  /-- No event is enqueued twice. -/
  once : (sys.db.outbox.map fun entry => (entry.alertId, entry.eventType)).Nodup
  opened : ∀ alert ∈ sys.db.alerts, ∃ entry ∈ sys.db.outbox,
    entry.alertId = alert.id ∧ entry.eventType = .open
  ended : ∀ alert ∈ sys.db.alerts, (∃ entry ∈ sys.db.outbox,
    entry.alertId = alert.id ∧ entry.eventType = .resolved) → alert.status = .resolved
  /-- An end that nobody acknowledged is told. -/
  told : ∀ alert ∈ sys.db.alerts, alert.status = .resolved → alert.isAcknowledged = false →
    ∃ entry ∈ sys.db.outbox, entry.alertId = alert.id ∧ entry.eventType = .resolved

theorem Inv.oneIncident (hinv : sys.Inv folding) : sys.OneIncident folding where
  ids := hinv.ledger.alerts
  one a ha b hb hactive hactive' htarget hkind :=
    hinv.ledger.alerts.eq_of_mem ha hb (hinv.one a ha b hb hactive hactive' htarget hkind)
  known alert halert hactive rt hrt := hinv.known alert.targetId rt hrt alert halert hactive rfl
  once := hinv.ledger.outbox
  opened alert halert := by
    obtain ⟨entry, hentry, hkey⟩ := hinv.ledger.opened alert halert
    exact ⟨entry, hentry, Prod.mk.inj hkey⟩
  ended alert halert hevent := by
    obtain ⟨entry, hentry, hid, htype⟩ := hevent
    exact hinv.ledger.ended alert halert ⟨entry, hentry, Prod.ext hid htype⟩
  told alert halert hresolved hquiet := by
    obtain ⟨entry, hentry, hkey⟩ := hinv.ledger.told alert halert hresolved hquiet
    exact ⟨entry, hentry, Prod.mk.inj hkey⟩

end System

/-- Whatever the checks answer, whatever writes fail and whatever users do, an incident has
one alert and every alert its events, across restarts, as long as no open alert is lost by a
load that fails. -/
theorem one_incident_one_alert (folding : Folding) (elapsed : Int → Int → Rat)
    {acts : List Action} {final : System}
    (hok : RunOk (System.step folding elapsed) System.LoadOk {} acts)
    (hrun : run (System.step folding elapsed) {} acts = some final) :
    final.OneIncident folding := by
  have hinv : System.Inv folding final :=
    run_invariant_of (fun hinv hok hnext => hinv.step hok hnext) hok System.Inv.initial hrun
  exact hinv.oneIncident

/-- Folding of the ASCII letters. -/
def asciiFolding : Folding where
  upper c := [c.toUpper]
  fold text := ((text.dropWhile (· = ' ')).rdropWhile (· = ' ')).map Char.toLower
  upper_ascii _ _ := rfl

/-- An outage across a restart, and its end. -/
def outage : List Action :=
  let rows := [(1, ({ name := ['a'], enableHttpCheck := true } : Config))]
  let check (minutes : Int) (up : Bool) : Action := .cycle
    { tid := 1, now := minutes * 60 * second, answers := fun _ => up, certDaysLeft := none
      certHost := [], certNow := 0, certFails := false, alertNow := minutes * 60 * second
      alertFails := false, reach := .alert }
  [.load false, .apply rows 5, check 0 false, check 6 false, .restart, .load false, .apply rows 5,
    check 7 false, check 13 true]

theorem one_incident_one_alert_outage :
    ((run (System.step asciiFolding fun _ _ => 0) {} outage).get (by decide)).OneIncident
      asciiFolding :=
  one_incident_one_alert asciiFolding (fun _ _ => 0) (by decide) (Option.some_get _).symm

end Justup.Monitor
