import Mathlib.Algebra.Order.Group.Int
import Mathlib.Data.Option.Basic
import Justup.Lib.Transition

/-!
# Sliding sessions

The expiry of one session token while requests look it up.  A lookup reads the
row, and a renewal is written by a statement of its own, so that the statements
of several requests interleave.  Times are microseconds and compare as instants.
-/

namespace Justup.Auth

open Justup.Lib

/-! ## The model -/

def minutes (n : ℤ) : ℤ := n * 60000000

def hours (n : ℤ) : ℤ := n * 3600000000

/-- `TOKEN_RENEW_MIN_DELTA`. -/
def tokenRenewMinDelta : ℤ := minutes 5

/-- A row of `auth_tokens`. -/
structure Token where
  expiresAt : ℤ
  maxExpiresAt : ℤ
  deriving DecidableEq, Repr

/-- The row of the token, until it is revoked, and `users.is_active`. -/
structure Db where
  token : Option Token
  isActive : Bool
  deriving DecidableEq, Repr

/-- The `SELECT` of both lookups. -/
def Db.select (now : ℤ) (db : Db) : Option Token :=
  db.token.filter fun row =>
    decide (now < row.expiresAt) && decide (now < row.maxExpiresAt) && db.isActive

/-- The values of the `UPDATE` of `get_user_for_token`. -/
structure Renewal where
  newExpiresAt : ℤ
  renewBefore : ℤ
  deriving DecidableEq, Repr

/-- `new_expires_at` and `renew_before`. -/
def renewal (now : ℤ) (row : Token) : Renewal :=
  let newExpiresAt := min (now + hours 6) row.maxExpiresAt
  ⟨newExpiresAt, newExpiresAt - tokenRenewMinDelta⟩

/-- The guarded `UPDATE`. -/
def Db.update (renewal : Renewal) (db : Db) : Db :=
  { db with
    token := db.token.map fun row =>
      if row.expiresAt ≤ renewal.renewBefore then { row with expiresAt := renewal.newExpiresAt }
      else row }

/-- What happens to the token. -/
inductive Act where
  /-- `get_user_for_token` reads the row. -/
  | lookup (call : ℕ) (now : ℤ)
  /-- It writes the renewal. -/
  | renew (call : ℕ)
  /-- `get_user_for_token_readonly`. -/
  | lookupReadonly (now : ℤ)
  | revoke
  | setActive (active : Bool)
  deriving DecidableEq, Repr

/-- The database, the calls that have read the row and have yet to write, and the
times of the accepted calls that have returned. -/
structure System where
  db : Db
  writing : List (ℕ × ℤ × Renewal) := []
  returned : List ℤ := []
  deriving DecidableEq, Repr

/-- `get_user_for_token` up to the renewal; `none` is the answer to an invalid token. -/
def System.lookup (call : ℕ) (now : ℤ) (sys : System) : System :=
  match sys.db.select now with
  | none => sys
  | some row =>
      if row.expiresAt ≤ (renewal now row).renewBefore then
        { sys with writing := sys.writing ++ [(call, now, renewal now row)] }
      else { sys with returned := sys.returned ++ [now] }

def step (sys : System) : Act → Option System
  | .lookup call now => some (sys.lookup call now)
  | .renew call =>
      match sys.writing.find? fun entry => decide (entry.1 = call) with
      | none => none
      | some entry => some
          { db := sys.db.update entry.2.2
            writing := sys.writing.erase entry
            returned := sys.returned ++ [entry.2.1] }
  | .lookupReadonly _ => some sys
  | .revoke => some { sys with db := { sys.db with token := none } }
  | .setActive active => some { sys with db := { sys.db with isActive := active } }

/-- `issue_token`. -/
def issue (token : Token) : System where
  db := ⟨some token, true⟩

/-! ## What is kept -/

/-- The token that a call of `get_user_for_token` at `now` leaves is accepted until
this time. -/
def slidesTo (now cap : ℤ) : ℤ := min (now + hours 6) cap - tokenRenewMinDelta

/-- The row of a token that is not revoked, and what its calls are about to write. -/
structure Sliding (token : Token) (sys : System) : Prop where
  cap : ∀ row ∈ sys.db.token, row.maxExpiresAt = token.maxExpiresAt
  grown : ∀ row ∈ sys.db.token, token.expiresAt ≤ row.expiresAt
  capped : ∀ row ∈ sys.db.token, row.expiresAt ≤ token.maxExpiresAt
  writing : ∀ entry ∈ sys.writing, entry.2.2 = renewal entry.2.1 token
  returned : ∀ now ∈ sys.returned, ∀ row ∈ sys.db.token,
    slidesTo now token.maxExpiresAt < row.expiresAt

/-- A later row of the token: the cap is the same and the expiry not earlier. -/
def Slides (first second : System) : Prop :=
  ∀ later ∈ second.db.token, ∃ row ∈ first.db.token,
    row.expiresAt ≤ later.expiresAt ∧ row.maxExpiresAt = later.maxExpiresAt

theorem slides_refl (sys : System) : Slides sys sys := fun row hrow => ⟨row, hrow, le_rfl, rfl⟩

theorem Slides.trans {first second third : System} (hfirst : Slides first second)
    (hsecond : Slides second third) : Slides first third := by
  intro later hlater
  obtain ⟨row, hrow, hle, hcap⟩ := hsecond later hlater
  obtain ⟨old, hold, hle', hcap'⟩ := hfirst row hrow
  exact ⟨old, hold, hle'.trans hle, hcap'.trans hcap⟩

theorem sliding_issue {token : Token} (hcap : token.expiresAt ≤ token.maxExpiresAt) :
    Sliding token (issue token) where
  cap := by simp [issue]
  grown := by simp [issue]
  capped := by simpa [issue] using hcap
  writing := by simp [issue]
  returned := by simp [issue]

/-- What the `SELECT` finds is a valid token of an active user. -/
theorem select_eq_some_iff {now : ℤ} {db : Db} {row : Token} :
    db.select now = some row ↔ db.token = some row ∧ now < row.expiresAt ∧
      now < row.maxExpiresAt ∧ db.isActive = true := by
  simp [Db.select, Option.filter_eq_some_iff, and_assoc]

theorem slidesTo_eq (now : ℤ) (row : Token) :
    (renewal now row).renewBefore = slidesTo now row.maxExpiresAt := rfl

theorem tokenRenewMinDelta_pos : 0 < tokenRenewMinDelta := by decide

section Step

variable {token : Token} {sys next : System}

theorem Sliding.lookup (hsliding : Sliding token sys) (call : ℕ) (now : ℤ) :
    Sliding token (sys.lookup call now) := by
  unfold System.lookup
  cases hselect : sys.db.select now with
  | none => exact hsliding
  | some row =>
      obtain ⟨hrow, -, -, -⟩ := select_eq_some_iff.mp hselect
      have hcap := hsliding.cap row hrow
      have hrenewal : renewal now row = renewal now token := by simp [renewal, hcap]
      dsimp only
      split_ifs with hrenews
      · refine { hsliding with writing := fun entry hentry => ?_ }
        rcases List.mem_append.mp hentry with hold | hnew
        · exact hsliding.writing entry hold
        · rw [List.mem_singleton.mp hnew]
          exact hrenewal
      · refine { hsliding with returned := fun time htime other hother => ?_ }
        rcases List.mem_append.mp htime with hold | hnew
        · exact hsliding.returned time hold other hother
        · obtain rfl : row = other := Option.some.inj (hrow.symm.trans hother)
          rw [List.mem_singleton.mp hnew, ← hcap, ← slidesTo_eq]
          exact not_le.mp hrenews

/-- The row after the guarded write: it is renewed, or it did not need to be. -/
theorem update_cases {db : Db} {renewal : Renewal} {row : Token}
    (hrow : row ∈ (db.update renewal).token) : ∃ old ∈ db.token,
      row.maxExpiresAt = old.maxExpiresAt ∧
        (old.expiresAt ≤ renewal.renewBefore ∧ row.expiresAt = renewal.newExpiresAt ∨
          renewal.renewBefore < old.expiresAt ∧ row.expiresAt = old.expiresAt) := by
  obtain ⟨old, hold, rfl⟩ := Option.mem_map.mp hrow
  refine ⟨old, hold, ?_⟩
  split_ifs with hguard
  · exact ⟨rfl, Or.inl ⟨hguard, rfl⟩⟩
  · exact ⟨rfl, Or.inr ⟨not_le.mp hguard, rfl⟩⟩

theorem Sliding.renew (hsliding : Sliding token sys) {entry : ℕ × ℤ × Renewal}
    (hentry : entry ∈ sys.writing) :
    Sliding token
      { db := sys.db.update entry.2.2
        writing := sys.writing.erase entry
        returned := sys.returned ++ [entry.2.1] } := by
  have hrenewal := hsliding.writing entry hentry
  have hpositive := tokenRenewMinDelta_pos
  have hnew : (renewal entry.2.1 token).newExpiresAt =
      (renewal entry.2.1 token).renewBefore + tokenRenewMinDelta := (sub_add_cancel _ _).symm
  have hcap : (renewal entry.2.1 token).newExpiresAt ≤ token.maxExpiresAt := min_le_right _ _
  constructor
  · intro row hrow
    obtain ⟨old, hold, hmax, -⟩ := update_cases hrow
    exact hmax.trans (hsliding.cap old hold)
  · intro row hrow
    obtain ⟨old, hold, -, hcase⟩ := update_cases hrow
    have hgrown := hsliding.grown old hold
    rw [hrenewal] at hcase
    omega
  · intro row hrow
    obtain ⟨old, hold, -, hcase⟩ := update_cases hrow
    have hcapped := hsliding.capped old hold
    rw [hrenewal] at hcase
    omega
  · exact fun other hother => hsliding.writing other (List.mem_of_mem_erase hother)
  · intro now hnow row hrow
    obtain ⟨old, hold, -, hcase⟩ := update_cases hrow
    rw [hrenewal] at hcase
    rcases List.mem_append.mp hnow with hreturned | hthis
    · have hbefore := hsliding.returned now hreturned old hold
      omega
    · rw [List.mem_singleton.mp hthis, ← slidesTo_eq]
      omega

theorem Slides.renew {token : Token} (hsliding : Sliding token sys) {entry : ℕ × ℤ × Renewal}
    (hentry : entry ∈ sys.writing) {writing : List (ℕ × ℤ × Renewal)} {returned : List ℤ} :
    Slides sys ⟨sys.db.update entry.2.2, writing, returned⟩ := by
  intro row hrow
  obtain ⟨old, hold, hmax, hcase⟩ := update_cases hrow
  have hpositive := tokenRenewMinDelta_pos
  have hnew : (renewal entry.2.1 token).newExpiresAt =
      (renewal entry.2.1 token).renewBefore + tokenRenewMinDelta := (sub_add_cancel _ _).symm
  rw [hsliding.writing entry hentry] at hcase
  exact ⟨old, hold, by omega, hmax.symm⟩

/-- Every step keeps the invariant, and the row slides forward. -/
theorem sliding_step (hsliding : Sliding token sys) {act : Act} (hstep : step sys act = some next) :
    Sliding token next ∧ Slides sys next := by
  cases act with
  | lookup call now =>
      obtain rfl := Option.some.inj hstep
      refine ⟨hsliding.lookup call now, ?_⟩
      have hdb : (sys.lookup call now).db = sys.db := by
        unfold System.lookup
        cases sys.db.select now with
        | none => rfl
        | some row =>
            dsimp only
            split <;> rfl
      intro row hrow
      rw [hdb] at hrow
      exact ⟨row, hrow, le_rfl, rfl⟩
  | renew call =>
      simp only [step] at hstep
      cases hfind : sys.writing.find? fun entry => decide (entry.1 = call) with
      | none => simp [hfind] at hstep
      | some entry =>
          have hentry := List.mem_of_find?_eq_some hfind
          rw [hfind] at hstep
          obtain rfl := Option.some.inj hstep
          exact ⟨hsliding.renew hentry, Slides.renew hsliding hentry⟩
  | lookupReadonly now =>
      obtain rfl := Option.some.inj hstep
      exact ⟨hsliding, slides_refl _⟩
  | revoke =>
      obtain rfl := Option.some.inj hstep
      exact ⟨⟨by simp, by simp, by simp, hsliding.writing, by simp⟩, by simp [Slides]⟩
  | setActive active =>
      obtain rfl := Option.some.inj hstep
      exact ⟨⟨hsliding.cap, hsliding.grown, hsliding.capped, hsliding.writing, hsliding.returned⟩,
        fun row hrow => ⟨row, hrow, le_rfl, rfl⟩⟩

end Step

/-- What holds of a session in every state of a run. -/
structure SlidesWithinLimits (token : Token) (sys : System) : Prop where
  capped : ∀ row ∈ sys.db.token, row.maxExpiresAt = token.maxExpiresAt ∧
    row.expiresAt ≤ row.maxExpiresAt
  grows : ∀ acts later, Transition.run step sys acts = some later → Slides sys later
  valid : ∀ now row, sys.db.select now = some row → now < row.expiresAt ∧
    now < row.maxExpiresAt ∧ sys.db.isActive = true
  accepted : ∀ now ∈ sys.returned, sys.db.token.isSome → sys.db.isActive = true →
    ∀ time ≤ slidesTo now token.maxExpiresAt, (sys.db.select time).isSome
  readonly : ∀ now, step sys (.lookupReadonly now) = some sys

/-- Sliding sessions slide within their limits, in every interleaving of the
statements of their lookups. -/
theorem sessions_slide_within_limits {token : Token}
    (hcap : token.expiresAt ≤ token.maxExpiresAt) {acts : List Act} {sys : System}
    (hrun : Transition.run step (issue token) acts = some sys) : SlidesWithinLimits token sys := by
  have hsliding : Sliding token sys :=
    Transition.run_invariant (fun hinv hstep => (sliding_step hinv hstep).1)
      (sliding_issue hcap) hrun
  constructor
  · intro row hrow
    have hmax := hsliding.cap row hrow
    exact ⟨hmax, hmax ▸ hsliding.capped row hrow⟩
  · intro later final hlater
    have hkept : ∀ {state : System} {act : Act} {next : System},
        Sliding token state ∧ Slides sys state → step state act = some next →
          Sliding token next ∧ Slides sys next := by
      intro state act next hinv hstep
      obtain ⟨hnext, hslides⟩ := sliding_step hinv.1 hstep
      exact ⟨hnext, hinv.2.trans hslides⟩
    exact (Transition.run_invariant hkept ⟨hsliding, slides_refl sys⟩ hlater).2
  · intro now row hselect
    exact (select_eq_some_iff.mp hselect).2
  · intro now hnow hsome hactive time htime
    obtain ⟨row, hrow⟩ := Option.isSome_iff_exists.mp hsome
    have hlater := htime.trans_lt (hsliding.returned now hnow row hrow)
    have hmax := hsliding.cap row hrow
    have hbound := hsliding.capped row hrow
    have hselect : sys.db.select time = some row :=
      select_eq_some_iff.mpr ⟨hrow, hlater, by omega, hactive⟩
    rw [hselect]
    rfl
  · exact fun _ => rfl

/-- Two calls read the row before either of them renews it, and a third one comes
near the cap. -/
def crossed : List Act :=
  [.lookup 1 0, .lookupReadonly 1, .lookup 2 (hours 1), .renew 2, .renew 1, .lookup 3 (hours 5),
    .renew 3]

theorem sessions_slide_within_limits_crossed :
    SlidesWithinLimits ⟨hours 2, hours 8⟩
      ⟨⟨some ⟨hours 8, hours 8⟩, true⟩, [], [hours 1, 0, hours 5]⟩ :=
  @sessions_slide_within_limits ⟨hours 2, hours 8⟩ (by decide) crossed _ (by decide)

end Justup.Auth
