import Justup.Lib.Transition
import Justup.Alerts.Alert

/-!
# Closed alerts

A user's acknowledgement and the scheduler's recovery both close an alert, in
any order.  An acknowledgement keeps the end that it finds; a recovery writes
its own.
-/

namespace Justup.Alerts

open Justup.Lib Justup.Lib.Table
open Justup.Store (Text)

inductive AlertAct
  | create (now : Int) (id targetId : Nat) (targetName failedService : Text) (startedAt : Int)
      (dispatchOutbox : Bool)
  | resolve (now : Int) (id : Nat) (endedAt : Int) (dispatchOutbox : Bool)
  | deactivate (id : Nat)
  | acknowledge (now : Int) (id : Nat) (by_ : Text)
  | acknowledgeAll (now : Int) (by_ : Text)

variable (elapsed : Int → Int → Rat)

/-- An insert that is refused changes nothing. -/
def AlertAct.perform (db : AlertDb) : AlertAct → AlertDb
  | .create now id targetId targetName failedService startedAt dispatchOutbox =>
      (createAlert now (newAlert id targetId targetName failedService startedAt) dispatchOutbox
        db).getD db
  | .resolve now id endedAt dispatchOutbox => resolveAlert now id endedAt dispatchOutbox db
  | .deactivate id => deactivateAlert id db
  | .acknowledge now id by_ => acknowledgeAlert now id by_ db
  | .acknowledgeAll now by_ => acknowledgeAllOpenAlerts elapsed now by_ db

def AlertAct.step (db : AlertDb) (action : AlertAct) : Option AlertDb :=
  some (action.perform elapsed db)

def AlertDb.empty : AlertDb := ⟨[], []⟩

/-- What an operation makes of a row. -/
def AlertAct.change : AlertAct → Alert → Alert
  | .create .., alert => alert
  | .resolve _ id endedAt _, alert => if alert.id = id then resolved endedAt alert else alert
  | .deactivate id, alert => if alert.id = id then deactivated alert else alert
  | .acknowledge now id by_, alert => if alert.id = id then acknowledgeOne now by_ alert else alert
  | .acknowledgeAll now by_, alert => acknowledgeOpen elapsed now by_ alert

theorem alerts_resolveAlert (now : Int) (id : Nat) (endedAt : Int) (dispatchOutbox : Bool)
    (db : AlertDb) :
    (resolveAlert now id endedAt dispatchOutbox db).alerts =
      update Alert.id id (resolved endedAt) db.alerts := by
  unfold resolveAlert
  cases hrow : row? Alert.id id db.alerts with
  | none =>
      have hother : ∀ alert ∈ db.alerts, (if alert.id = id then resolved endedAt alert
          else alert) = alert := by
        intro alert halert
        have hne := List.find?_eq_none.mp hrow alert halert
        exact if_neg (by simpa using hne)
      exact ((List.map_congr_left hother).trans (List.map_id _)).symm
  | some alert => rfl

/-- Every row is changed on its own; a new alert may be added. -/
theorem alerts_perform (action : AlertAct) (db : AlertDb) :
    (action.perform elapsed db).alerts = db.alerts.map (action.change elapsed) ∨
      ∃ id targetId targetName failedService startedAt,
        (∀ alert ∈ db.alerts, alert.id ≠ id) ∧
        (action.perform elapsed db).alerts =
          db.alerts.map (action.change elapsed) ++
            [newAlert id targetId targetName failedService startedAt] := by
  cases action with
  | create now id targetId targetName failedService startedAt dispatchOutbox =>
      have hsame : db.alerts.map (AlertAct.change elapsed
          (.create now id targetId targetName failedService startedAt dispatchOutbox)) =
          db.alerts := List.map_id _
      rw [hsame]
      simp only [AlertAct.perform, createAlert]
      split
      · exact Or.inl rfl
      · rename_i hany
        refine Or.inr ⟨id, targetId, targetName, failedService, startedAt, ?_, rfl⟩
        intro alert halert hsame
        exact hany (List.any_eq_true.mpr ⟨alert, halert, decide_eq_true hsame⟩)
  | resolve now id endedAt dispatchOutbox => exact Or.inl (alerts_resolveAlert ..)
  | deactivate id => exact Or.inl rfl
  | acknowledge now id by_ => exact Or.inl rfl
  | acknowledgeAll now by_ => exact Or.inl rfl

/-! ## One row -/

/-- The duration and the time between the start and the end agree up to a whole
second. -/
def Alert.Agrees (alert : Alert) : Prop :=
  ∃ ended duration, alert.endedAt = some ended ∧ alert.durationSeconds = some duration ∧
    |duration - wholeSeconds (ended - alert.startedAt)| ≤ 1

/-- An open alert has no end yet; a resolved one has, and is not active. -/
structure Alert.Coherent (alert : Alert) : Prop where
  opened : alert.status = .open → alert.endedAt = none ∧ alert.durationSeconds = none
  closed : alert.status = .resolved → alert.activeIncident = false ∧ alert.Agrees

theorem coherent_newAlert (id targetId : Nat) (targetName failedService : Text) (startedAt : Int) :
    (newAlert id targetId targetName failedService startedAt).Coherent where
  opened := fun _ => ⟨rfl, rfl⟩
  closed := by simp [newAlert]

theorem coherent_resolved (endedAt : Int) (alert : Alert) : (resolved endedAt alert).Coherent where
  opened := by simp [resolved]
  closed := fun _ => ⟨rfl, endedAt, _, rfl, rfl, by simp [resolved]⟩

/-- An acknowledgement of an open alert sets both columns, one of a resolved
alert neither. -/
theorem Alert.Coherent.acknowledged {alert : Alert} (halert : alert.Coherent) {now duration : Int}
    (hduration : |duration - wholeSeconds (now - alert.startedAt)| ≤ 1) (by_ : Text) :
    (acknowledged now duration by_ alert).Coherent where
  opened := by simp [Alerts.acknowledged]
  closed := by
    intro _
    refine ⟨rfl, ?_⟩
    cases hstatus : alert.status with
    | «open» =>
        obtain ⟨hended, hnone⟩ := halert.opened hstatus
        exact ⟨now, duration, by simp [Alerts.acknowledged, hended],
          by simp [Alerts.acknowledged, hnone], hduration⟩
    | resolved =>
        obtain ⟨-, ended, seconds, hended, hseconds, hagrees⟩ := halert.closed hstatus
        exact ⟨ended, seconds, by simp [Alerts.acknowledged, hended],
          by simp [Alerts.acknowledged, hseconds], hagrees⟩

theorem tdiv_bounds_of_nonneg {n d : Int} (hd : 0 < d) (hn : 0 ≤ n) :
    n.tdiv d * d ≤ n ∧ n < (n.tdiv d + 1) * d := by
  rw [Int.tdiv_eq_ediv_of_nonneg hn]
  exact ⟨Int.ediv_mul_le n hd.ne', Int.lt_ediv_add_one_mul_self n hd⟩

theorem tdiv_bounds_of_nonpos {n d : Int} (hd : 0 < d) (hn : n ≤ 0) :
    (n.tdiv d - 1) * d < n ∧ n ≤ n.tdiv d * d := by
  obtain ⟨hlow, hhigh⟩ := tdiv_bounds_of_nonneg hd (show 0 ≤ -n by omega)
  rw [Int.neg_tdiv] at hlow hhigh
  constructor <;> linarith

/-- A number with its fraction cut off. -/
structure Truncates (seconds : Rat) (whole : Int) : Prop where
  nonneg : 0 ≤ seconds → (whole : Rat) ≤ seconds ∧ seconds < whole + 1
  nonpos : seconds ≤ 0 → (whole : Rat) - 1 < seconds ∧ seconds ≤ whole

theorem truncates_tdiv (n : Int) {d : Int} (hd : 0 < d) : Truncates (n / d) (n.tdiv d) := by
  have hd' : (0 : Rat) < d := by exact_mod_cast hd
  constructor
  · intro h
    have hn : 0 ≤ n := by
      rw [le_div_iff₀ hd', zero_mul] at h
      exact_mod_cast h
    obtain ⟨hlow, hhigh⟩ := tdiv_bounds_of_nonneg hd hn
    rw [le_div_iff₀ hd', div_lt_iff₀ hd']
    exact ⟨by exact_mod_cast hlow, by exact_mod_cast hhigh⟩
  · intro h
    have hn : n ≤ 0 := by
      rw [div_le_iff₀ hd', zero_mul] at h
      exact_mod_cast h
    obtain ⟨hlow, hhigh⟩ := tdiv_bounds_of_nonpos hd hn
    rw [lt_div_iff₀ hd', div_le_iff₀ hd']
    exact ⟨by exact_mod_cast hlow, by exact_mod_cast hhigh⟩

theorem truncates_castInteger (seconds : Rat) : Truncates seconds (castInteger seconds) := by
  have hden : (0 : Int) < seconds.den := by exact_mod_cast seconds.den_pos
  have htrunc := truncates_tdiv seconds.num hden
  rwa [Int.cast_natCast, Rat.num_div_den] at htrunc

/-- Of two close numbers the smaller one keeps at most one whole less. -/
theorem Truncates.le_add_one {first second : Rat} {whole whole' : Int}
    (hfirst : Truncates first whole) (hsecond : Truncates second whole')
    (hclose : first ≤ second + 1 / 100) : whole ≤ whole' + 1 := by
  by_contra hfar
  have hgap : (whole' : Rat) + 2 ≤ whole := by exact_mod_cast (by omega : whole' + 2 ≤ whole)
  rcases le_total 0 first with h | h <;> rcases le_total 0 second with h' | h'
  · linarith [(hfirst.nonneg h).1, (hsecond.nonneg h').2]
  · linarith [(hfirst.nonneg h).1, (hsecond.nonpos h').2]
  · linarith [(hfirst.nonpos h).1, (hsecond.nonneg h').2]
  · linarith [(hfirst.nonpos h).1, (hsecond.nonpos h').2]

/-- Cutting off the fractions leaves two close numbers at most one apart. -/
theorem castInteger_sub_le {seconds : Rat} {micros : Int}
    (hclose : |seconds - (micros : Rat) / 1000000| ≤ 1 / 100) :
    |castInteger seconds - wholeSeconds micros| ≤ 1 := by
  obtain ⟨hbelow, habove⟩ := abs_le.mp hclose
  have hcast := truncates_castInteger seconds
  have hwhole : Truncates ((micros : Rat) / (1000000 : Int)) (wholeSeconds micros) :=
    truncates_tdiv micros (by decide)
  push_cast at hwhole
  have hupper := hcast.le_add_one hwhole (by linarith)
  have hlower := hwhole.le_add_one hcast (by linarith)
  rw [abs_le]
  omega

/-- Every operation keeps the rows coherent. -/
theorem Alert.Coherent.change {elapsed : Int → Int → Rat}
    (helapsed : ∀ now started, |elapsed now started - ((now - started : Int) : Rat) / 1000000| ≤
      1 / 100) {alert : Alert} (halert : alert.Coherent) (action : AlertAct) :
    (action.change elapsed alert).Coherent := by
  cases action with
  | create now id targetId targetName failedService startedAt dispatchOutbox => exact halert
  | resolve now id endedAt dispatchOutbox =>
      simp only [AlertAct.change]
      split
      · exact coherent_resolved endedAt alert
      · exact halert
  | deactivate id =>
      simp only [AlertAct.change, deactivated]
      split_ifs with hid hopen
      · exact ⟨halert.opened, by simp [hopen]⟩
      · exact halert
      · exact halert
  | acknowledge now id by_ =>
      simp only [AlertAct.change, acknowledgeOne]
      split_ifs
      · exact halert
      · exact halert.acknowledged (by simp) by_
      · exact halert
  | acknowledgeAll now by_ =>
      simp only [AlertAct.change, acknowledgeOpen]
      split_ifs
      · exact halert.acknowledged (castInteger_sub_le (helapsed now alert.startedAt)) by_
      · exact halert

/-- Nothing that closed an alert is undone or written again. -/
structure Alert.StaysClosed (alert later : Alert) : Prop where
  id : later.id = alert.id
  status : later.status = .resolved
  inactive : later.activeIncident = false
  endedAt : later.endedAt = alert.endedAt
  durationSeconds : later.durationSeconds = alert.durationSeconds

/-- A recovery does not meet a resolved alert, unless it repeats its end. -/
def AlertAct.Spares (db : AlertDb) : AlertAct → Prop
  | .resolve _ id endedAt _ => ∀ alert ∈ db.alerts, alert.id = id → alert.status = .resolved →
      alert.endedAt = some endedAt ∧
        alert.durationSeconds = some (wholeSeconds (endedAt - alert.startedAt))
  | _ => True

instance (db : AlertDb) : ∀ action : AlertAct, Decidable (action.Spares db)
  | .create .. => isTrue trivial
  | .resolve _ id endedAt _ => inferInstanceAs (Decidable (∀ alert ∈ db.alerts, alert.id = id →
      alert.status = .resolved → alert.endedAt = some endedAt ∧
        alert.durationSeconds = some (wholeSeconds (endedAt - alert.startedAt))))
  | .deactivate _ => isTrue trivial
  | .acknowledge .. => isTrue trivial
  | .acknowledgeAll .. => isTrue trivial

@[simp]
theorem id_change (action : AlertAct) (alert : Alert) :
    (action.change elapsed alert).id = alert.id := by
  cases action <;> simp only [AlertAct.change, acknowledgeOpen, acknowledgeOne, deactivated] <;>
    split_ifs <;> rfl

/-- A resolved alert keeps its state under every operation, and its end under
every operation but a recovery. -/
theorem Alert.Coherent.staysClosed {elapsed : Int → Int → Rat} {db : AlertDb} {alert : Alert}
    (halert : alert.Coherent) (hmem : alert ∈ db.alerts) (hstatus : alert.status = .resolved)
    {action : AlertAct} (hspares : action.Spares db) :
    alert.StaysClosed (action.change elapsed alert) := by
  obtain ⟨hinactive, ended, duration, hended, hduration, -⟩ := halert.closed hstatus
  have hself : alert.StaysClosed alert := ⟨rfl, hstatus, hinactive, rfl, rfl⟩
  cases action with
  | create now id targetId targetName failedService startedAt dispatchOutbox => exact hself
  | resolve now id endedAt dispatchOutbox =>
      simp only [AlertAct.change]
      split
      · rename_i hid
        obtain ⟨hsame, hsame'⟩ := hspares alert hmem hid hstatus
        exact ⟨rfl, rfl, rfl, hsame.symm, hsame'.symm⟩
      · exact hself
  | deactivate id =>
      simp only [AlertAct.change, deactivated, hstatus]
      split <;> exact hself
  | acknowledge now id by_ =>
      simp only [AlertAct.change, acknowledgeOne]
      split_ifs
      · exact hself
      · exact ⟨rfl, rfl, rfl, by simp [Alerts.acknowledged, hended],
          by simp [Alerts.acknowledged, hduration]⟩
      · exact hself
  | acknowledgeAll now by_ =>
      simp only [AlertAct.change, acknowledgeOpen, hstatus]
      exact hself

/-! ## Runs -/

/-- What the tables keep in every run. -/
structure AlertDb.Wf (db : AlertDb) : Prop where
  keyed : Keyed Alert.id db.alerts
  coherent : ∀ alert ∈ db.alerts, alert.Coherent

theorem AlertDb.wf_empty : AlertDb.empty.Wf := ⟨keyed_nil, by simp [AlertDb.empty]⟩

theorem AlertDb.Wf.step {elapsed : Int → Int → Rat}
    (helapsed : ∀ now started, |elapsed now started - ((now - started : Int) : Rat) / 1000000| ≤
      1 / 100) {db next : AlertDb} (hdb : db.Wf) {action : AlertAct}
    (hstep : action.step elapsed db = some next) : next.Wf := by
  cases hstep
  have hkeyed := hdb.keyed.map (id_change elapsed action)
  have hcoherent : ∀ alert ∈ db.alerts.map (action.change elapsed), alert.Coherent := by
    intro alert halert
    obtain ⟨old, hold, rfl⟩ := List.mem_map.mp halert
    exact (hdb.coherent old hold).change helapsed action
  rcases alerts_perform elapsed action db with
    hmap | ⟨id, targetId, targetName, failedService, startedAt, hnew, hsnoc⟩
  · exact ⟨hmap ▸ hkeyed, hmap ▸ hcoherent⟩
  · refine ⟨hsnoc ▸ hkeyed.snoc ?_, ?_⟩
    · intro alert halert
      obtain ⟨old, hold, rfl⟩ := List.mem_map.mp halert
      rw [id_change]
      exact hnew old hold
    · rw [hsnoc]
      intro alert halert
      rcases List.mem_append.mp halert with hold | hlast
      · exact hcoherent alert hold
      · rw [List.mem_singleton.mp hlast]
        exact coherent_newAlert id targetId targetName failedService startedAt

/-- The alerts that are resolved before are resolved after, with the same end. -/
def KeepsClosed (before after : AlertDb) : Prop :=
  ∀ alert ∈ before.alerts, alert.status = .resolved →
    ∃ later ∈ after.alerts, alert.StaysClosed later

theorem mem_perform {elapsed : Int → Int → Rat} (action : AlertAct) {db : AlertDb} {alert : Alert}
    (halert : alert ∈ db.alerts) :
    action.change elapsed alert ∈ (action.perform elapsed db).alerts := by
  have hmem : action.change elapsed alert ∈ db.alerts.map (action.change elapsed) :=
    List.mem_map_of_mem halert
  rcases alerts_perform elapsed action db with hmap | ⟨_, _, _, _, _, -, hsnoc⟩
  · rwa [hmap]
  · rw [hsnoc]
    exact List.mem_append_left _ hmem

theorem AlertDb.Wf.keepsClosed_refl {db : AlertDb} (hdb : db.Wf) : KeepsClosed db db := by
  intro alert halert hstatus
  obtain ⟨hinactive, -⟩ := (hdb.coherent alert halert).closed hstatus
  exact ⟨alert, halert, rfl, hstatus, hinactive, rfl, rfl⟩

theorem KeepsClosed.trans {first middle last : AlertDb} (hfirst : KeepsClosed first middle)
    (hsecond : KeepsClosed middle last) : KeepsClosed first last := by
  intro alert halert hstatus
  obtain ⟨later, hlater, hkept⟩ := hfirst alert halert hstatus
  obtain ⟨latest, hlatest, hkept'⟩ := hsecond later hlater hkept.status
  exact ⟨latest, hlatest, hkept'.id.trans hkept.id, hkept'.status, hkept'.inactive,
    hkept'.endedAt.trans hkept.endedAt, hkept'.durationSeconds.trans hkept.durationSeconds⟩

/-- One operation keeps the closed alerts exactly when it spares them. -/
theorem AlertDb.Wf.keepsClosed_iff {elapsed : Int → Int → Rat} {db : AlertDb} (hdb : db.Wf)
    (action : AlertAct) :
    KeepsClosed db (action.perform elapsed db) ↔ action.Spares db := by
  constructor
  · intro hkeeps
    cases action with
    | resolve now id endedAt dispatchOutbox =>
        rintro alert halert rfl hstatus
        obtain ⟨later, hlater, hkept⟩ := hkeeps alert halert hstatus
        simp only [AlertAct.perform, alerts_resolveAlert] at hlater
        obtain ⟨old, hold, hchange⟩ := mem_update.mp hlater
        have hsame : old = alert := by
          refine hdb.keyed.eq_of_mem hold halert ?_
          rw [← hkept.id, ← hchange]
          split <;> rfl
        rw [hsame, if_pos rfl] at hchange
        rw [← hchange] at hkept
        exact ⟨hkept.endedAt.symm, hkept.durationSeconds.symm⟩
    | create now id targetId targetName failedService startedAt dispatchOutbox => trivial
    | deactivate id => trivial
    | acknowledge now id by_ => trivial
    | acknowledgeAll now by_ => trivial
  · intro hspares alert halert hstatus
    exact ⟨_, mem_perform action halert,
      (hdb.coherent alert halert).staysClosed halert hstatus hspares⟩

/-- In a run from empty tables: what has been resolved stays as it was closed,
and its duration agrees with its start and its end. -/
def ClosedForGood (elapsed : Int → Int → Rat) (acts : List AlertAct) : Prop :=
  (∀ first second third before after, acts = first ++ second ++ third →
      Transition.run (AlertAct.step elapsed) AlertDb.empty first = some before →
      Transition.run (AlertAct.step elapsed) before second = some after →
      KeepsClosed before after) ∧
    ∀ first second db, acts = first ++ second →
      Transition.run (AlertAct.step elapsed) AlertDb.empty first = some db →
      ∀ alert ∈ db.alerts, alert.status = .resolved → alert.Agrees

/-- In every run of the five operations, the closed alerts stay as they were
closed exactly when no recovery meets an alert that is resolved already, other
than to repeat its end. -/
theorem closed_alert_stays_closed {elapsed : Int → Int → Rat}
    (helapsed : ∀ now started, |elapsed now started - ((now - started : Int) : Rat) / 1000000| ≤
      1 / 100) (acts : List AlertAct) :
    ClosedForGood elapsed acts ↔
      Transition.RunOk (AlertAct.step elapsed) AlertAct.Spares AlertDb.empty acts := by
  have hstep : ∀ {db : AlertDb} {action : AlertAct} {next : AlertDb}, db.Wf →
      action.step elapsed db = some next → next.Wf := fun hdb hnext => hdb.step helapsed hnext
  have hiff : ∀ {db : AlertDb} {action : AlertAct}, db.Wf →
      ((∀ next, action.step elapsed db = some next → KeepsClosed db next) ↔ action.Spares db) := by
    intro db action hdb
    rw [← @AlertDb.Wf.keepsClosed_iff elapsed db hdb]
    simp [AlertAct.step]
  have hagrees : ∀ first second db, acts = first ++ second →
      Transition.run (AlertAct.step elapsed) AlertDb.empty first = some db →
      ∀ alert ∈ db.alerts, alert.status = .resolved → alert.Agrees := by
    intro first second db _ hrun alert halert hstatus
    have hdb : db.Wf := Transition.run_invariant hstep AlertDb.wf_empty hrun
    exact ((hdb.coherent alert halert).closed hstatus).2
  rw [ClosedForGood, and_iff_left hagrees,
    ← Transition.runOk_iff_between hstep AlertDb.Wf.keepsClosed_refl KeepsClosed.trans
      AlertDb.wf_empty,
    Transition.runOk_congr hstep hiff AlertDb.wf_empty]

/-- The elapsed seconds without any rounding. -/
def exactElapsed (now started : Int) : Rat := ((now - started : Int) : Rat) / 1000000

/-- One alert is acknowledged and not recovered, another one recovered and then
acknowledged by two users. -/
theorem closed_alert_stays_closed_two_alerts :
    ClosedForGood exactElapsed
      [.create 0 1 7 [] [] 0 true, .create 0 2 8 [] [] 0 true, .acknowledge 90500000 1 [],
        .deactivate 2, .resolve 120000000 2 120000000 true, .acknowledge 150000000 2 [],
        .acknowledgeAll 180000000 []] := by
  have helapsed : ∀ now started,
      |exactElapsed now started - ((now - started : Int) : Rat) / 1000000| ≤ 1 / 100 := by
    intro now started
    rw [exactElapsed, sub_self, abs_zero]
    norm_num
  rw [closed_alert_stays_closed helapsed]
  decide +kernel

/-- A user acknowledges an alert 90 seconds after its start; the recovery that
the scheduler sees 30 seconds later writes another end. -/
theorem recovery_rewrites_acknowledged_end :
    ¬ ClosedForGood exactElapsed
      [.create 0 1 7 [] [] 0 true, .acknowledge 90000000 1 [],
        .resolve 120000000 1 120000000 true] := by
  intro hclosed
  have hbetween := hclosed.1 [.create 0 1 7 [] [] 0 true, .acknowledge 90000000 1 []]
    [.resolve 120000000 1 120000000 true] [] _ _ rfl rfl rfl
  obtain ⟨later, hlater, hkept⟩ := hbetween
    (acknowledged 90000000 90 [] (newAlert 1 7 [] [] 0)) (List.mem_singleton.mpr rfl) rfl
  have hended := hkept.endedAt
  rw [List.mem_singleton.mp hlater] at hended
  cases hended

end Justup.Alerts
