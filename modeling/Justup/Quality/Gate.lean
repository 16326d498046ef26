import Mathlib.Data.List.Sort
import Mathlib.Tactic.Linarith
import Mathlib.Tactic.NormNum
import Justup.Geo.Interpolated
import Justup.Store.Line

/-!
# The quality gate

One probe of the reference targets: the score, its smoothing and the state that
pauses or resumes checks.  Numbers are exact.
-/

namespace Justup.Quality

open Store
open Geo (roundHalfEven)
open Geo.Interpolate (round1 roundHalfEven_mono abs_roundHalfEven_sub_le round1_mono)

/-! ## The settings -/

def qualityMinTargets : ℕ := 3

def qualityMaxTargets : ℕ := 20

/-- `DEFAULT_QUALITY_TARGETS` -/
def defaultQualityTargets : List Text :=
  ["https://1.1.1.1", "8.8.8.8", "9.9.9.9", "https://www.de-cix.net",
    "https://cloudflare.com"].map String.toList

/-- `list(dict.fromkeys(t.strip() for t in raw.split(",") if t.strip()))` -/
def listedTargets (raw : Text) : List Text :=
  (((raw.splitOn ',').map strip).filter fun target => target ≠ []).eraseDups

/-- `get_quality_targets`, for the text of the setting -/
def getQualityTargets (raw : Text) : List Text :=
  if strip raw = [] then defaultQualityTargets
  else
    let targets := (listedTargets raw).take qualityMaxTargets
    if qualityMinTargets ≤ targets.length then targets else defaultQualityTargets

theorem three_le_length_getQualityTargets (raw : Text) : 3 ≤ (getQualityTargets raw).length := by
  have hdefault : 3 ≤ defaultQualityTargets.length := by decide
  unfold getQualityTargets
  split
  next => exact hdefault
  next =>
    dsimp only
    split
    next h => exact h
    next => exact hdefault

/-- What a run reads and measures: the settings, which the accessors keep in their
bounds, and for each target its latency, none when it was not reached. -/
structure Probe where
  rawTargets : Text
  rttThreshold : ℤ
  minScore : ℤ
  latencies : List (Option ℚ)
  threshold_pos : 1 ≤ rttThreshold
  minScore_bounds : 0 ≤ minScore ∧ minScore ≤ 100
  complete : latencies.length = (getQualityTargets rawTargets).length

/-! ## The probe -/

inductive QualityState where
  | ok
  | degraded
  | down
  deriving DecidableEq, Repr

structure QualityResult where
  score : Option ℚ
  medianLatencyMs : Option ℚ
  successRatio : ℚ
  state : QualityState

/-- `statistics.median` -/
def median (values : List ℚ) : ℚ :=
  let sorted := values.insertionSort (· ≤ ·)
  let half := sorted.length / 2
  if sorted.length % 2 = 1 then sorted.getD half 0
  else (sorted.getD (half - 1) 0 + sorted.getD half 0) / 2

/-- `SCORE_SMOOTHING_FACTOR` -/
def scoreSmoothingFactor : ℚ := 3 / 10

/-- The new score after the stored one: fast down, slow up. -/
def smooth (lastScore : Option ℚ) (rawScore : ℚ) : ℚ :=
  match lastScore with
  | some last =>
      if rawScore < last then round1 (last * (2 / 10) + rawScore * (8 / 10))
      else round1 (last * (1 - scoreSmoothingFactor) + rawScore * scoreSmoothingFactor)
  | none => round1 rawScore

namespace Probe

variable (probe : Probe)

def total : ℕ := (getQualityTargets probe.rawTargets).length

def rtts : List ℚ := probe.latencies.filterMap id

def succeeded : ℕ := probe.rtts.length

def successRatio : ℚ := probe.succeeded / probe.total

def latencyScore : ℚ := max 0 (min 1 (1 - median probe.rtts / probe.rttThreshold))

def rawScore : ℚ := (probe.successRatio * (6 / 10) + probe.latencyScore * (4 / 10)) * 100

/-- At least two thirds of the targets were reached. -/
def Reaches : Prop := probe.total * 2 ≤ probe.succeeded * 3

instance : Decidable probe.Reaches := inferInstanceAs (Decidable (_ ≤ _))

/-- `run_quality_probe`, with the stored score -/
def run (lastScore : Option ℚ) : QualityResult × Option ℚ :=
  if probe.succeeded < max 2 (probe.total / 3) then
    (⟨none, none, probe.successRatio, .down⟩, lastScore)
  else
    let score := smooth lastScore probe.rawScore
    let state : QualityState :=
      if probe.succeeded * 3 < probe.total * 2 then .down
      else if probe.minScore ≤ score then .ok
      else .degraded
    (⟨some score, some (round1 (median probe.rtts)),
      roundHalfEven (probe.successRatio * 100) / 100, state⟩, some score)

end Probe

/-- The stored score after some probes. -/
def scoreAfter (lastScore : Option ℚ) (probes : List Probe) : Option ℚ :=
  probes.foldl (fun last probe => (probe.run last).2) lastScore

/-! ## Bounds -/

theorem Probe.succeeded_le (probe : Probe) : probe.succeeded ≤ probe.total := by
  rw [Probe.total, ← probe.complete]
  exact List.length_filterMap_le _ _

theorem Probe.total_pos (probe : Probe) : (0 : ℚ) < probe.total := by
  have hthree := three_le_length_getQualityTargets probe.rawTargets
  exact_mod_cast (show 0 < probe.total by unfold Probe.total; omega)

theorem Probe.rawScore_bounds (probe : Probe) : 0 ≤ probe.rawScore ∧ probe.rawScore ≤ 100 := by
  have hratio : 0 ≤ probe.successRatio ∧ probe.successRatio ≤ 1 := by
    have hle : (probe.succeeded : ℚ) ≤ probe.total := by exact_mod_cast probe.succeeded_le
    exact ⟨div_nonneg (Nat.cast_nonneg _) probe.total_pos.le,
      (div_le_one probe.total_pos).mpr hle⟩
  have hlatency : 0 ≤ probe.latencyScore ∧ probe.latencyScore ≤ 1 :=
    ⟨le_max_left _ _, max_le zero_le_one (min_le_left _ _)⟩
  unfold Probe.rawScore
  constructor
  · linarith [hratio.1, hlatency.1]
  · linarith [hratio.2, hlatency.2]

/-- Whole numbers stay as they are. -/
theorem roundHalfEven_intCast (n : ℤ) : roundHalfEven (n : ℚ) = n := by
  simp [roundHalfEven]

theorem round1_intCast (n : ℤ) : round1 (n : ℚ) = n := by
  have hscaled : (n : ℚ) * 10 = ((n * 10 : ℤ) : ℚ) := by push_cast; ring
  rw [round1, hscaled, roundHalfEven_intCast]
  push_cast
  ring

/-- Rounding keeps whole bounds. -/
theorem le_round1 {n : ℤ} {value : ℚ} (h : (n : ℚ) ≤ value) : (n : ℚ) ≤ round1 value := by
  calc (n : ℚ) = round1 n := (round1_intCast n).symm
    _ ≤ round1 value := round1_mono h

theorem round1_le {n : ℤ} {value : ℚ} (h : value ≤ n) : round1 value ≤ n := by
  calc round1 value ≤ round1 n := round1_mono h
    _ = n := round1_intCast n

/-- A smoothed score lies between bounds of the stored and the raw one. -/
theorem le_smooth {n : ℤ} {last : Option ℚ} {raw : ℚ} (hlast : ∀ score, last = some score →
    (n : ℚ) ≤ score) (hraw : (n : ℚ) ≤ raw) : (n : ℚ) ≤ smooth last raw := by
  cases last with
  | none => exact le_round1 hraw
  | some last =>
      have hstored := hlast last rfl
      unfold smooth scoreSmoothingFactor
      dsimp only
      split
      next => exact le_round1 (by linarith)
      next => exact le_round1 (by linarith)

theorem smooth_le {n : ℤ} {last : Option ℚ} {raw : ℚ} (hlast : ∀ score, last = some score →
    score ≤ n) (hraw : raw ≤ n) : smooth last raw ≤ n := by
  cases last with
  | none => exact round1_le hraw
  | some last =>
      have hstored := hlast last rfl
      unfold smooth scoreSmoothingFactor
      dsimp only
      split
      next => exact round1_le (by linarith)
      next => exact round1_le (by linarith)

/-- A score that a run stored: between 0 and 100, with one decimal. -/
structure Stored (score : ℚ) : Prop where
  bounds : 0 ≤ score ∧ score ≤ 100
  tenths : ∃ n : ℤ, score = n / 10

theorem stored_smooth {last : Option ℚ} {raw : ℚ} (hlast : ∀ score, last = some score →
    Stored score) (hraw : 0 ≤ raw ∧ raw ≤ 100) : Stored (smooth last raw) where
  bounds := by
    have hlow : ((0 : ℤ) : ℚ) ≤ smooth last raw :=
      le_smooth (fun score hscore => by exact_mod_cast (hlast score hscore).bounds.1)
        (by exact_mod_cast hraw.1)
    have hhigh : smooth last raw ≤ ((100 : ℤ) : ℚ) :=
      smooth_le (fun score hscore => by exact_mod_cast (hlast score hscore).bounds.2)
        (by exact_mod_cast hraw.2)
    exact ⟨by exact_mod_cast hlow, by exact_mod_cast hhigh⟩
  tenths := by
    unfold smooth
    split
    next => split <;> exact ⟨_, rfl⟩
    next => exact ⟨_, rfl⟩

/-- What a run does to the stored score. -/
theorem Probe.run_cases (probe : Probe) (last : Option ℚ) :
    (probe.run last).2 = last ∧ (probe.run last).1.score = none ∧
        (probe.run last).1.state = .down ∧ ¬ probe.Reaches ∨
      (probe.run last).2 = some (smooth last probe.rawScore) ∧
        (probe.run last).1.score = some (smooth last probe.rawScore) ∧
        ((probe.run last).1.state = .ok ↔
          probe.Reaches ∧ probe.minScore ≤ smooth last probe.rawScore) := by
  have hthree : 3 ≤ probe.total := three_le_length_getQualityTargets probe.rawTargets
  unfold Probe.run
  split
  next hfew =>
    refine .inl ⟨rfl, rfl, rfl, ?_⟩
    unfold Probe.Reaches
    omega
  next =>
    refine .inr ⟨rfl, rfl, ?_⟩
    dsimp only
    unfold Probe.Reaches
    split
    next hdown => simp [hdown]
    next hreaches =>
      rw [not_lt] at hreaches
      split
      next hok => simp [hok, hreaches]
      next hlow => simp [hlow]

theorem stored_scoreAfter {last : Option ℚ} (hlast : ∀ score, last = some score → Stored score)
    (probes : List Probe) {score : ℚ} (hscore : scoreAfter last probes = some score) :
    Stored score := by
  induction probes generalizing last with
  | nil => exact hlast score hscore
  | cons probe rest ih =>
      have hrest : scoreAfter (probe.run last).2 rest = some score := hscore
      refine ih ?_ hrest
      intro next hnext
      obtain ⟨hsame, -⟩ | ⟨hnew, -⟩ := probe.run_cases last
      · exact hlast next (hsame ▸ hnext)
      · rw [hnew] at hnext
        obtain rfl := Option.some.inj hnext
        exact stored_smooth hlast probe.rawScore_bounds

/-! ## Steady probes -/

/-- The stored score before the probe with this number. -/
def scoreAt (lastScore : Option ℚ) (probes : ℕ → Probe) : ℕ → Option ℚ
  | 0 => lastScore
  | n + 1 => ((probes n).run (scoreAt lastScore probes n)).2

def stateAt (lastScore : Option ℚ) (probes : ℕ → Probe) (n : ℕ) : QualityState :=
  ((probes n).run (scoreAt lastScore probes n)).1.state

/-- Every probe reaches two thirds of the targets and has this raw score. -/
structure Steady (minScore : ℤ) (raw : ℚ) (probes : ℕ → Probe) : Prop where
  reaches : ∀ n, (probes n).Reaches
  rawScore : ∀ n, (probes n).rawScore = raw
  minScore : ∀ n, (probes n).minScore = minScore

section Steady

variable {minScore : ℤ} {raw : ℚ} {probes : ℕ → Probe} {last : Option ℚ}

theorem Steady.next (hsteady : Steady minScore raw probes) (n : ℕ) :
    scoreAt last probes (n + 1) = some (smooth (scoreAt last probes n) raw) ∧
      (stateAt last probes n = .ok ↔ minScore ≤ smooth (scoreAt last probes n) raw) := by
  obtain ⟨-, -, -, hnot⟩ | ⟨hscore, -, hstate⟩ := (probes n).run_cases (scoreAt last probes n)
  · exact absurd (hsteady.reaches n) hnot
  · rw [hsteady.rawScore n] at hscore hstate
    rw [hsteady.minScore n] at hstate
    exact ⟨hscore, hstate.trans (and_iff_right (hsteady.reaches n))⟩

/-- Once the score has reached the minimum, the gate stays open. -/
theorem Steady.stays_open (hsteady : Steady minScore raw probes) (hraw : minScore ≤ raw) {start : ℕ}
    (hstart : ∀ score, scoreAt last probes start = some score → minScore ≤ score) {n : ℕ}
    (hn : start ≤ n) : stateAt last probes n = .ok := by
  have hscores : ∀ score, scoreAt last probes n = some score → (minScore : ℚ) ≤ score := by
    induction n, hn using Nat.le_induction with
    | base => exact hstart
    | succ n hn ih =>
        intro score hscore
        rw [(hsteady.next n).1] at hscore
        obtain rfl := Option.some.inj hscore
        exact le_smooth ih hraw
  exact (hsteady.next n).2.mpr (le_smooth hscores hraw)

theorem roundHalfEven_le {n : ℤ} {value : ℚ} (h : value < n + 1 / 2) : roundHalfEven value ≤ n := by
  have hround := (abs_le.mp (abs_roundHalfEven_sub_le value)).2
  have hlt : (roundHalfEven value : ℚ) < ((n + 1 : ℤ) : ℚ) := by
    push_cast
    linarith
  exact Int.lt_add_one_iff.mp (by exact_mod_cast hlt)

theorem lt_roundHalfEven {n : ℤ} {value : ℚ} (h : n + 1 / 2 < value) : n < roundHalfEven value := by
  have hround := (abs_le.mp (abs_roundHalfEven_sub_le value)).1
  have hlt : (n : ℚ) < roundHalfEven value := by linarith
  exact_mod_cast hlt

/-- A tie over an odd number goes up. -/
theorem lt_roundHalfEven_of_odd {n : ℤ} (hodd : n % 2 = 1) {value : ℚ} (h : n + 1 / 2 ≤ value) :
    n < roundHalfEven value := by
  have hfloor : ⌊(n : ℚ) + 1 / 2⌋ = n := by
    rw [Int.floor_eq_iff]
    constructor <;> linarith
  have htie : roundHalfEven ((n : ℚ) + 1 / 2) = n + 1 := by
    rw [roundHalfEven, hfloor, if_neg (by linarith), if_neg (by linarith), if_neg (by omega)]
  have hmono := roundHalfEven_mono h
  omega

/-- A score below the minimum stays there when the raw score is hardly above it. -/
theorem smooth_stuck {score : ℚ} (hlow : score ≤ minScore - 1 / 10) (hraw : minScore ≤ raw)
    (hhigh : raw < minScore + 1 / 15) : smooth (some score) raw ≤ minScore - 1 / 10 := by
  have hround :
      roundHalfEven ((score * (1 - 3 / 10) + raw * (3 / 10)) * 10) ≤ minScore * 10 - 1 := by
    apply roundHalfEven_le
    push_cast
    linarith
  have hcast : (roundHalfEven ((score * (1 - 3 / 10) + raw * (3 / 10)) * 10) : ℚ) ≤
      minScore * 10 - 1 := by exact_mod_cast hround
  rw [smooth, if_neg (by linarith), scoreSmoothingFactor, round1]
  linarith

/-- A score below the minimum rises by a tenth when the raw score is well above it. -/
theorem smooth_rises {n : ℤ} (hlow : n < minScore * 10) (hhigh : minScore + 1 / 15 ≤ raw) :
    ∃ m : ℤ, n < m ∧ smooth (some (n / 10)) raw = m / 10 := by
  have hcast : (n : ℚ) ≤ minScore * 10 - 1 := by exact_mod_cast Int.le_sub_one_iff.mpr hlow
  refine ⟨roundHalfEven ((n / 10 * (1 - 3 / 10) + raw * (3 / 10)) * 10), ?_, ?_⟩
  · obtain heq | hlt : n = minScore * 10 - 1 ∨ n < minScore * 10 - 1 := by omega
    · apply lt_roundHalfEven_of_odd (by omega)
      linarith
    · have hcast' : (n : ℚ) ≤ minScore * 10 - 1 - 1 := by
        exact_mod_cast Int.le_sub_one_iff.mpr hlt
      apply lt_roundHalfEven
      linarith
  · rw [smooth, if_neg (by linarith), scoreSmoothingFactor, round1]

/-- The score climbs to the minimum. -/
theorem Steady.climbs (hsteady : Steady minScore raw probes) (hhigh : minScore + 1 / 15 ≤ raw)
    (gap : ℕ) {start : ℕ} {n : ℤ} (hstart : scoreAt last probes start = some ((n : ℚ) / 10))
    (hgap : minScore * 10 - n ≤ gap) :
    ∃ reached, ∀ score, scoreAt last probes reached = some score → minScore ≤ score := by
  induction gap generalizing start n with
  | zero =>
      refine ⟨start, fun score hscore => ?_⟩
      rw [hstart] at hscore
      obtain rfl := Option.some.inj hscore
      have hcast : (minScore : ℚ) * 10 ≤ n := by exact_mod_cast (show minScore * 10 ≤ n by omega)
      linarith
  | succ gap ih =>
      by_cases hlow : n < minScore * 10
      · obtain ⟨m, hm, hsmooth⟩ := smooth_rises hlow hhigh
        have hnext : scoreAt last probes (start + 1) = _ := (hsteady.next start).1
        rw [hstart, hsmooth] at hnext
        exact ih hnext (by omega)
      · exact ih hstart (by omega)

theorem Steady.never_opens (hsteady : Steady minScore raw probes) (hraw : minScore ≤ raw)
    (hhigh : raw < minScore + 1 / 15) {score : ℚ} (hlast : last = some score)
    (hlow : score ≤ minScore - 1 / 10) (n : ℕ) : stateAt last probes n ≠ .ok := by
  have hscores : ∃ score, scoreAt last probes n = some score ∧ score ≤ minScore - 1 / 10 := by
    induction n with
    | zero => exact ⟨score, hlast, hlow⟩
    | succ n ih =>
        obtain ⟨old, hold, hle⟩ := ih
        exact ⟨_, hold ▸ (hsteady.next n).1, smooth_stuck hle hraw hhigh⟩
  obtain ⟨old, hold, hle⟩ := hscores
  intro hok
  have hreached := (hsteady.next n).2.mp hok
  rw [hold] at hreached
  have := smooth_stuck hle hraw hhigh
  linarith

end Steady

/-! ## The gate opens again -/

/-- The gate after some probes: what the next run says, and that steady good
probes open it for good. -/
structure OpensAgain (before : List Probe) (probe : Probe) (probes : ℕ → Probe) : Prop where
  bounds : ∀ score, (probe.run (scoreAfter none before)).1.score = some score →
    0 ≤ score ∧ score ≤ 100
  reaches : (probe.run (scoreAfter none before)).1.state = .ok → probe.Reaches
  opens : ∃ start, ∀ n, start ≤ n → stateAt (scoreAfter none before) probes n = .ok

/-- The stored score is not below the minimum, or the raw score is at least a
fifteenth of a point above it. -/
def CanOpen (minScore : ℤ) (raw : ℚ) (lastScore : Option ℚ) : Prop :=
  (∀ score, lastScore = some score → minScore ≤ score) ∨ minScore + 1 / 15 ≤ raw

theorem stored_before (before : List Probe) {score : ℚ}
    (hscore : scoreAfter none before = some score) : Stored score :=
  stored_scoreAfter (by simp) before hscore

theorem run_sound (before : List Probe) (probe : Probe) :
    (∀ score, (probe.run (scoreAfter none before)).1.score = some score →
      0 ≤ score ∧ score ≤ 100) ∧
    ((probe.run (scoreAfter none before)).1.state = .ok → probe.Reaches) := by
  obtain ⟨-, hnone, hdown, -⟩ | ⟨-, hsome, hok⟩ := probe.run_cases (scoreAfter none before)
  · rw [hnone, hdown]
    exact ⟨by simp, by simp⟩
  · refine ⟨fun score hscore => ?_, fun h => (hok.mp h).1⟩
    rw [hsome] at hscore
    obtain rfl := Option.some.inj hscore
    exact (stored_smooth (fun _ => stored_before before) probe.rawScore_bounds).bounds

section Opens

variable {before : List Probe} {probes : ℕ → Probe} {minScore : ℤ} {raw : ℚ}

/-- A stored score below the minimum is a tenth below it or more. -/
theorem not_opens (hsteady : Steady minScore raw probes) (hraw : minScore ≤ raw)
    (hnot : ¬ CanOpen minScore raw (scoreAfter none before)) (n : ℕ) :
    stateAt (scoreAfter none before) probes n ≠ .ok := by
  obtain ⟨hbelow, hhigh⟩ := not_or.mp hnot
  push Not at hbelow hhigh
  obtain ⟨score, hscore, hlow⟩ := hbelow
  obtain ⟨tenths, rfl⟩ := (stored_before before hscore).tenths
  refine hsteady.never_opens hraw hhigh hscore ?_ n
  have hlt : (tenths : ℚ) < ((minScore * 10 : ℤ) : ℚ) := by
    push_cast
    linarith
  have hle : tenths ≤ minScore * 10 - 1 := Int.le_sub_one_iff.mpr (by exact_mod_cast hlt)
  have hcast : (tenths : ℚ) ≤ minScore * 10 - 1 := by exact_mod_cast hle
  linarith

theorem opens_of_canOpen (hsteady : Steady minScore raw probes) (hraw : minScore ≤ raw)
    (hcan : CanOpen minScore raw (scoreAfter none before)) :
    ∃ start, ∀ n, start ≤ n → stateAt (scoreAfter none before) probes n = .ok := by
  obtain habove | hhigh := hcan
  · have hfirst : ∀ score, scoreAt (scoreAfter none before) probes 0 = some score →
        minScore ≤ score := habove
    exact ⟨0, fun n hn => hsteady.stays_open hraw hfirst hn⟩
  · cases hlast : scoreAfter none before with
    | none => exact ⟨0, fun n hn => hsteady.stays_open hraw (by simp [scoreAt]) hn⟩
    | some score =>
        obtain ⟨tenths, rfl⟩ := (stored_before before hlast).tenths
        have hgap : minScore * 10 - tenths ≤ (minScore * 10 - tenths).toNat := Int.self_le_toNat _
        have hfirst : scoreAt (some ((tenths : ℚ) / 10)) probes 0 = some ((tenths : ℚ) / 10) := rfl
        obtain ⟨reached, hreached⟩ := hsteady.climbs hhigh _ hfirst hgap
        exact ⟨reached, fun n hn => hsteady.stays_open hraw hreached hn⟩

end Opens

theorem the_gate_opens_again (before : List Probe) (probe : Probe) {probes : ℕ → Probe}
    {minScore : ℤ} {raw : ℚ} (hsteady : Steady minScore raw probes) (hraw : minScore ≤ raw) :
    OpensAgain before probe probes ↔ CanOpen minScore raw (scoreAfter none before) := by
  obtain ⟨hbounds, hreaches⟩ := run_sound before probe
  constructor
  · intro hopens
    by_contra hnot
    obtain ⟨start, hstart⟩ := hopens.opens
    exact not_opens hsteady hraw hnot start (hstart start le_rfl)
  · intro hcan
    exact ⟨hbounds, hreaches, opens_of_canOpen hsteady hraw hcan⟩

/-! ## A score that sticks below the minimum -/

/-- A probe of the default targets that reaches all of them with this latency. -/
def reachingProbe (latency : ℚ) : Probe where
  rawTargets := []
  rttThreshold := 500
  minScore := 70
  latencies := List.replicate 5 (some latency)
  threshold_pos := by decide
  minScore_bounds := by decide
  complete := rfl

theorem the_gate_opens_again_fast : OpensAgain [] (reachingProbe 0) fun _ => reachingProbe 0 := by
  have hsteady : Steady 70 100 fun _ => reachingProbe 0 :=
    ⟨fun _ => by decide +kernel, fun _ => by decide +kernel, fun _ => rfl⟩
  have hraw : ((70 : ℤ) : ℚ) ≤ 100 := by norm_num
  exact (the_gate_opens_again [] (reachingProbe 0) hsteady hraw).mpr (.inl (by simp [scoreAfter]))

/-- A stored score of 69.9 and a raw score of 70: the minimum is reached by every probe and
the gate stays shut. -/
theorem the_gate_stays_shut :
    (Steady 70 70 fun _ => reachingProbe 375) ∧
      ¬ OpensAgain [reachingProbe (1505 / 4)] (reachingProbe 375) fun _ => reachingProbe 375 := by
  have hsteady : Steady 70 70 fun _ => reachingProbe 375 :=
    ⟨fun _ => by decide +kernel, fun _ => by decide +kernel, fun _ => rfl⟩
  have hstored : scoreAfter none [reachingProbe (1505 / 4)] = some (699 / 10) := by decide +kernel
  refine ⟨hsteady, fun hopens => ?_⟩
  obtain ⟨start, hstart⟩ := hopens.opens
  refine not_opens hsteady (by norm_num) ?_ start (hstart start le_rfl)
  rintro (habove | hhigh)
  · have := habove _ hstored
    norm_num at this
  · norm_num at hhigh

end Justup.Quality
