import Justup.Incidents.ServiceAlerts

/-!
# An alert leaves the queue only when it is stored

The sink infers from the incident of the service that a write took effect.  Two
errors that a helper swallowed leave the incident as the sink expects it: the
recovery row that is not stored, and the refresh of an open incident that is
rolled back.  And the count of attempts goes over to the next alert when the
queue drops the one that is being retried.
-/

namespace Justup.Incidents

open Lib.Fallible Lib.Transition Supervisor

variable {name : String} {inbox later : Inbox} {a : ServiceAlert}

/-! ## What the helpers did -/

/-- Every row of the notification has the texts. -/
def Shows (inbox : Inbox) (id : Nat) (title body : String) (severity : Severity) : Prop :=
  ∀ row ∈ inbox.notices.rows, row.id = id →
    row.title = clean title titleMax ∧ row.body = clean body bodyMax ∧ row.severity = severity

theorem shows_rewriteRow (inbox : Inbox) (id : Nat) (title body : String) (severity : Severity) :
    Shows (inbox.rewriteRow id title body severity) id title body severity := by
  intro row hrow hid
  obtain ⟨old, -, rfl⟩ := List.mem_map.mp hrow
  rw [Notice.id_rewrite] at hid
  unfold Notice.rewrite
  rw [if_pos hid]
  exact ⟨rfl, rfl, rfl⟩

theorem shows_added {row : Draft} (hfresh : row.idempotencyKey ∉ inbox.keys) {title body : String}
    (htitle : row.title = clean title titleMax) (hbody : row.body = clean body bodyMax) :
    Shows (inbox.added row hfresh) (inbox.notices.lastId + 1) title body row.severity := by
  intro other hother hid
  obtain hother | hother := List.mem_append.mp hother
  · have hle := inbox.notices.numbered other hother
    omega
  · rw [List.mem_singleton.mp hother]
    exact ⟨htitle, hbody, rfl⟩

/-- A report of a closed incident opens it under a new row, if it opens it at all. -/
theorem report_opens (own : Bool) (faults : ReportFaults) (report : Report)
    (hclosed : inbox.incidents name = none) :
    Meets (reportIncident own faults name report) inbox fun _ later =>
      later.incidents name = none ∨ ∃ state, later.incidents name = some state ∧
        state.notificationId ∈ later.ids ∧
        Shows later state.notificationId report.title report.body report.severity := by
  refine meets_attempt (meets_block_of_keeps (.inl hclosed) ?_)
  refine meets_bind (meets_statement (fun _ => .inl hclosed) fun _ => ?_)
  dsimp only
  rw [hclosed]
  refine meets_bind ((emit_spec _ _ _).imp ?_)
  rintro _ later ⟨id, rfl, hemitted⟩
  cases hemitted with
  | stored hfresh =>
      refine meets_bind (meets_statement (fun _ => .inl hclosed) fun _ => meets_pure (.inr ?_))
      exact ⟨_, Inbox.incidents_setIncident _ _ _, by simp [Inbox.ids, Notices.ids, Notices.add,
        Inbox.added, Inbox.setIncident], shows_added hfresh rfl rfl⟩
  | unseen | known | failed => exact meets_pure (.inl hclosed)

/-- The refresh is due. -/
def Report.due (report : Report) (state : IncidentState) : Prop :=
  report.updateAfterSeconds * 1000000 ≤ report.now - state.lastUpdate

/-- The report of an open incident fails and is rolled back. -/
def RefreshLost (faults : ReportFaults) (report : Report) (state : IncidentState) : Prop :=
  faults.block.opening = true ∨ faults.select = true ∨
    report.due state ∧ faults.rewrite.update = true ∨ faults.upsert = true

instance (report : Report) (state : IncidentState) : Decidable (report.due state) :=
  inferInstanceAs (Decidable (_ ≤ _))

instance (faults : ReportFaults) (report : Report) (state : IncidentState) :
    Decidable (RefreshLost faults report state) :=
  inferInstanceAs (Decidable (_ ∨ _))

theorem report_refreshes {faults : ReportFaults} {report : Report} {state : IncidentState}
    (hopen : inbox.incidents name = some state) (hkept : ¬ RefreshLost faults report state) :
    Meets (reportIncident false faults name report) inbox fun _ later =>
      ∃ state', later.incidents name = some state' ∧
        state'.notificationId = state.notificationId ∧ state'.count = state.count + 1 ∧
        (report.due state →
          Shows later state.notificationId report.title report.body report.severity) := by
  unfold RefreshLost at hkept
  simp only [not_or, not_and, Bool.not_eq_true] at hkept
  obtain ⟨hopening, hselect, hrewrite, hupsert⟩ := hkept
  refine meets_attempt (meets_nested (fun h => by simp [hopening] at h) fun _ => ?_)
  refine meets_bind (meets_statement (fun h => by simp [hselect] at h) fun _ => ?_)
  dsimp only
  rw [hopen]
  dsimp only
  split
  next hdue =>
    refine meets_bind ?_
    unfold rewriteIncidentRow
    refine meets_bind (meets_statement (fun h => by simp [hrewrite hdue] at h) fun _ => ?_)
    refine meets_pure ?_
    refine meets_bind (meets_statement (fun h => by simp [hupsert] at h) fun _ => meets_pure ?_)
    exact ⟨_, Inbox.incidents_setIncident _ _ _, rfl, rfl, fun _ => shows_rewriteRow _ _ _ _ _⟩
  next hdue =>
    refine meets_bind (meets_statement (fun h => by simp [hupsert] at h) fun _ => meets_pure ?_)
    exact ⟨_, Inbox.incidents_setIncident _ _ _, rfl, rfl, fun h => absurd h hdue⟩

/-- `update_incident` says `True` when the row of the open incident was rewritten. -/
theorem update_rewrites (faults : UpdateFaults) (title body : String) (severity : Severity) :
    Meets (updateIncident false faults name title body severity true) inbox fun result later =>
      result = some true → ∃ state, inbox.incidents name = some state ∧
        later.incidents name = some state ∧
        Shows later state.notificationId title body severity := by
  refine meets_attempt (meets_nested (fun _ h => by simp at h) fun _ => ?_)
  refine meets_bind (meets_statement (fun _ h => by simp at h) fun _ => ?_)
  dsimp only
  split
  · refine meets_pure fun h => ?_
    split at h <;> simp at h
  next state hopen =>
    refine meets_bind ?_
    unfold rewriteIncidentRow
    refine meets_bind (meets_statement (fun _ h => by simp at h) fun _ => ?_)
    refine meets_bind (meets_statement (fun _ h => by simp at h) fun _ => ?_)
    refine meets_statement (fun _ h => by simp at h) fun _ => meets_pure fun _ => ?_
    have hshows := shows_rewriteRow inbox state.notificationId title body severity
    exact ⟨state, hopen, hopen, hshows⟩

/-- A resolved incident is closed with its row, or still open. -/
theorem resolve_closes {faults : ResolveFaults} (title body : String) (now : Int)
    (hkeeps : ¬ LosesRecovery false faults name inbox) :
    Meets (resolveIncident false faults name title body now) inbox fun _ later =>
      ∀ state, inbox.incidents name = some state → later.incidents name = none →
        later.keys.count (recoveredKey name state.notificationId) = 1 := by
  have hrefl : ∀ state, inbox.incidents name = some state → inbox.incidents name = none →
      inbox.keys.count (recoveredKey name state.notificationId) = 1 :=
    fun state hopen hclosed => by simp [hopen] at hclosed
  refine meets_attempt (meets_nested (fun _ => hrefl) fun hopening => ?_)
  refine (resolveBody_spec faults title body now hopening).imp fun result later h => ?_
  cases h with
  | untouched =>
      dsimp only
      split <;> exact hrefl
  | raised _ hopen hdeletes hclosing =>
      dsimp only
      split
      next hrollback => exact absurd ⟨hopen, hdeletes, .inl ⟨hclosing, rfl, hrollback⟩⟩ hkeeps
      next => exact hrefl
  | closed => exact hrefl
  | emitted state hopen hdeletes hclosing id _ hemitted =>
      intro state' hopen' _
      rw [hopen] at hopen'
      rw [← Option.some.inj hopen']
      refine List.count_eq_one_of_mem later.notices.unique ?_
      cases hemitted with
      | stored hfresh | unseen hfresh =>
          exact (Inbox.keys_added hfresh).symm ▸ List.mem_append_right _ (List.mem_singleton.mpr rfl)
      | known hknown => exact hknown
      | failed hfault =>
          exact absurd ⟨by simp [hopen], hdeletes, .inr ⟨hclosing, hfault, by simp⟩⟩ hkeeps

/-! ## What a write did -/

/-- The alert is stored: its incident was closed with the one recovery row, was opened under a row
that shows the alert, or was refreshed. -/
def Recorded (a : ServiceAlert) (inbox later : Inbox) : Prop :=
  match a.alert.kind, inbox.incidents a.name with
  | .recovered, none => True
  | .recovered, some state => later.incidents a.name = none ∧
      later.keys.count (recoveredKey a.name state.notificationId) = 1
  | _, none => ∃ state, later.incidents a.name = some state ∧ state.notificationId ∈ later.ids ∧
      Shows later state.notificationId a.title a.body a.severity
  | .degraded, some state => later.incidents a.name = some state ∧
      Shows later state.notificationId a.title a.body a.severity
  | .crashed, some state => ∃ state', later.incidents a.name = some state' ∧
      state'.notificationId = state.notificationId ∧ state'.count = state.count + 1 ∧
      (a.report.due state → Shows later state.notificationId a.title a.body a.severity)

/-- A helper swallows an error and leaves the incident as the sink expects it. -/
def HelperSwallows (faults : WriteFaults) (a : ServiceAlert) (inbox : Inbox) : Prop :=
  a.alert.kind = .recovered ∧ LosesRecovery false faults.resolve a.name inbox ∨
    a.alert.kind = .crashed ∧
      ∃ state ∈ inbox.incidents a.name, RefreshLost faults.report a.report state

instance (faults : WriteFaults) (a : ServiceAlert) (inbox : Inbox) :
    Decidable (HelperSwallows faults a inbox) :=
  inferInstanceAs (Decidable (_ ∨ _))

/-- That happens in a write that goes through. -/
def Swallows (faults : WriteFaults) (a : ServiceAlert) (inbox : Inbox) : Prop :=
  faults.connect = false ∧ faults.block.opening = false ∧ faults.block.closing = false ∧
    faults.check = false ∧ HelperSwallows faults a inbox

instance (faults : WriteFaults) (a : ServiceAlert) (inbox : Inbox) :
    Decidable (Swallows faults a inbox) :=
  inferInstanceAs (Decidable (_ ∧ _))

theorem meets_check_fails {α : Type} (helper : Prog Inbox α) (name : String)
    (isPersisted : Option IncidentState → Bool) :
    Meets (do
      let _ ← helper
      let state ← getIncident true name
      pure (isPersisted state)) inbox fun result later =>
        result = some true → Recorded a inbox later := by
  refine meets_bind (meets_of_forall fun result later => ?_)
  cases result with
  | none => simp
  | some _ => exact meets_bind (meets_statement (fun _ h => by simp at h) fun h => by simp at h)

theorem persisted_recovered {faults : WriteFaults} (hkind : a.alert.kind = .recovered)
    (hkept : faults.check = false → ¬ HelperSwallows faults a inbox) :
    Meets (persisted faults a) inbox fun result later =>
      result = some true → Recorded a inbox later := by
  unfold persisted
  rw [if_pos hkind]
  cases hcheck : faults.check with
  | true => exact meets_check_fails _ _ _
  | false =>
      have hkept := fun hlost => hkept hcheck (.inl ⟨hkind, hlost⟩)
      refine meets_bind ((resolve_closes _ _ _ hkept).imp fun result later hclosed => ?_)
      cases result with
      | none => simp
      | some _ =>
          refine meets_bind (meets_statement (fun _ h => by simp at h) fun _ =>
            meets_pure fun h => ?_)
          have hnone : later.incidents a.name = none := by simpa using h
          unfold Recorded
          rw [hkind]
          cases hopen : inbox.incidents a.name with
          | none => trivial
          | some state => exact ⟨hnone, hclosed state hopen hnone⟩

theorem report_recorded {faults : ReportFaults} (hkind : a.alert.kind ≠ .recovered)
    (hclosed : a.alert.kind = .degraded → inbox.incidents a.name = none)
    (hkept : ∀ state, inbox.incidents a.name = some state → ¬ RefreshLost faults a.report state) :
    Meets (reportIncident false faults a.name a.report) inbox fun _ later =>
      later.incidents a.name ≠ none → Recorded a inbox later := by
  unfold Recorded
  cases hopen : inbox.incidents a.name with
  | none =>
      refine (report_opens false faults a.report hopen).imp fun result later h hsome => ?_
      have hopened := h.resolve_left hsome
      cases hwhich : a.alert.kind with
      | recovered => trivial
      | crashed | degraded => exact hopened
  | some state =>
      refine (report_refreshes hopen (hkept state hopen)).imp fun result later h _ => ?_
      have hcrashed : a.alert.kind = .crashed := by
        cases hwhich : a.alert.kind with
        | crashed => rfl
        | degraded => simp [hclosed hwhich] at hopen
        | recovered => exact absurd hwhich hkind
      rw [hcrashed]
      exact h

/-- The report that is made when the row is not just rewritten. -/
theorem report_persists {faults : WriteFaults} (hkind : a.alert.kind ≠ .recovered)
    (hclosed : a.alert.kind = .degraded → inbox.incidents a.name = none)
    (hkept : faults.check = false → ∀ state, inbox.incidents a.name = some state →
      ¬ RefreshLost faults.report a.report state) :
    Meets (do
      let _ ← reportIncident false faults.report a.name a.report
      let state ← getIncident faults.check a.name
      pure state.isSome) inbox fun result later => result = some true → Recorded a inbox later := by
  cases hcheck : faults.check with
  | true => exact meets_check_fails _ _ _
  | false =>
      refine meets_bind ((report_recorded hkind hclosed (hkept hcheck)).imp
        fun result later hrecorded => ?_)
      cases result with
      | none => simp
      | some _ =>
          refine meets_bind (meets_statement (fun _ h => by simp at h) fun _ =>
            meets_pure fun h => ?_)
          refine hrecorded fun hnone => ?_
          simp [hnone] at h

theorem persisted_spec {faults : WriteFaults}
    (hkept : faults.check = false → ¬ HelperSwallows faults a inbox) :
    Meets (persisted faults a) inbox fun result later =>
      result = some true → Recorded a inbox later := by
  cases hkind : a.alert.kind with
  | recovered => exact persisted_recovered hkind hkept
  | degraded =>
      unfold persisted escalates
      rw [if_neg (by simp [hkind]), if_pos hkind]
      refine meets_bind (meets_bind (meets_statement (fun _ h => by simp at h) fun _ =>
        meets_pure ?_))
      cases hopen : inbox.incidents a.name with
      | none =>
          exact report_persists (by simp [hkind]) (fun _ => hopen) fun _ state h => by
            simp [hopen] at h
      | some state =>
          refine (update_rewrites faults.update a.title a.body a.severity).imp
            fun result later h htrue => ?_
          obtain ⟨state', hopen', hlater, hshows⟩ := h htrue
          unfold Recorded
          rw [hkind, hopen']
          exact ⟨hlater, hshows⟩
  | crashed =>
      unfold persisted escalates
      rw [if_neg (by simp [hkind]), if_neg (by simp [hkind])]
      refine meets_bind (meets_pure (report_persists (by simp [hkind])
        (fun h => by simp [hkind] at h) fun hcheck state hopen hlost => hkept hcheck ?_))
      exact .inr ⟨hkind, state, hopen, hlost⟩

/-- A write that raised changed nothing, and one that did not has stored the alert. -/
theorem write_spec {faults : WriteFaults} (hkept : ¬ Swallows faults a inbox) :
    Meets (write faults a) inbox fun result later =>
      (result = none → later = inbox) ∧ (result ≠ none → Recorded a inbox later) := by
  unfold write
  refine meets_ite (fun _ => meets_raise ⟨fun _ => rfl, fun h => absurd rfl h⟩) fun hconnect => ?_
  refine meets_owned (fun _ => ⟨fun _ => rfl, fun h => absurd rfl h⟩) fun hopening => ?_
  by_cases hclosing : faults.block.closing = true
  · refine meets_of_forall fun result later => ?_
    cases result with
    | none => exact ⟨fun _ => rfl, fun h => absurd rfl h⟩
    | some _ =>
        dsimp only
        rw [if_pos hclosing]
        exact ⟨fun _ => rfl, fun h => absurd rfl h⟩
  · have hpersisted := persisted_spec fun hcheck hswallows => hkept ⟨Bool.eq_false_iff.mpr hconnect,
      hopening, Bool.eq_false_iff.mpr hclosing, hcheck, hswallows⟩
    unfold apply
    refine meets_bind (hpersisted.imp fun result later hrecorded => ?_)
    cases result with
    | none => exact ⟨fun _ => rfl, fun h => absurd rfl h⟩
    | some persisted =>
        refine meets_ite (fun htrue => meets_pure ?_) fun _ =>
          meets_raise ⟨fun _ => rfl, fun h => absurd rfl h⟩
        dsimp only
        rw [if_neg hclosing]
        exact ⟨fun h => by simp at h, fun _ => hrecorded (by rw [htrue])⟩

/-! ## Runs of the sink -/

namespace Sink

variable {limit : Nat} {sink next' : Sink}

/-- Nothing is queued and nothing is done. -/
def initial (inbox : Inbox) : Sink where
  inbox := inbox
  pending := []
  arrived := 0
  attempts := 0
  delay := retryInitialSeconds
  phase := .idle
  failures := fun _ => 0

/-- The alert that is being written. -/
def current (sink : Sink) : Option (Nat × ServiceAlert) :=
  match sink.phase with
  | .writing number a => some (number, a)
  | _ => none

theorem current_of_writing {number : Nat} {a : ServiceAlert} (hphase : sink.phase = .writing number a) :
    sink.current = some (number, a) := by
  simp [current, hphase]

/-- No error is swallowed in a write that goes through, and the queue does not drop the alert
that is being retried: neither while the task sleeps nor during a write that then fails. -/
def Delivers (limit : Nat) (sink : Sink) : SinkAct → Prop
  | .alert _ => sink.phase = .sleeping → sink.pending.length ≠ maxPending
  | .finish faults => ∀ entry ∈ sink.current, ¬ Swallows faults entry.2 sink.inbox ∧
      ((write faults entry.2 sink.inbox).1 = none → sink.attempts + 1 < limit →
        sink.pending.head?.map Prod.fst = some entry.1)
  | _ => True

instance decidableDelivers (limit : Nat) (sink : Sink) : ∀ act, Decidable (sink.Delivers limit act)
  | .alert _ => inferInstanceAs (Decidable (_ → _))
  | .finish _ => inferInstanceAs (Decidable (∀ entry ∈ sink.current, _))
  | .begin => isTrue trivial
  | .wake => isTrue trivial

/-- The attempts that are counted are failed writes of the alert at the head. -/
structure Tracked (sink : Sink) : Prop where
  numbers : (sink.pending.map Prod.fst).Nodup
  arrived : ∀ entry ∈ sink.pending, entry.1 < sink.arrived
  writing : ∀ number a, sink.phase = .writing number a → number < sink.arrived ∧
    sink.attempts ≤ sink.failures number ∧ ∀ entry ∈ sink.pending, entry.1 = number → entry.2 = a
  sleeping : sink.phase = .sleeping → sink.pending ≠ [] ∧
    ∀ entry ∈ sink.pending.head?, sink.attempts ≤ sink.failures entry.1

theorem tracked_initial (inbox : Inbox) : (initial inbox).Tracked where
  numbers := List.nodup_nil
  arrived := by simp [initial]
  writing := by simp [initial]
  sleeping := by simp [initial]

theorem tracked_next (hnumbers : (sink.pending.map Prod.fst).Nodup)
    (harrived : ∀ entry ∈ sink.pending, entry.1 < sink.arrived)
    (hattempts : ∀ entry ∈ sink.pending.head?, sink.attempts ≤ sink.failures entry.1) :
    sink.next.Tracked := by
  unfold next
  split
  next hnone =>
    exact ⟨hnumbers, harrived, fun _ _ h => by simp at h, fun h => by simp at h⟩
  next number alert rest hpending =>
    refine ⟨hnumbers, harrived, ?_, fun h => by simp at h⟩
    rintro _ _ ⟨⟩
    refine ⟨harrived (number, alert) (by simp [hpending]),
      hattempts (number, alert) (by simp [hpending]), ?_⟩
    intro entry hentry hnumber
    have hhead : (number, alert) ∈ sink.pending := by simp [hpending]
    rw [List.inj_on_of_nodup_map hnumbers hentry hhead hnumber]

theorem pending_next (sink : Sink) : sink.next.pending = sink.pending := by
  unfold next
  split <;> rfl

theorem failures_next (sink : Sink) : sink.next.failures = sink.failures := by
  unfold next
  split <;> rfl

theorem inbox_next (sink : Sink) : sink.next.inbox = sink.inbox := by
  unfold next
  split <;> rfl

theorem discard_sublist (number : Nat) (sink : Sink) :
    (sink.discard number).pending.Sublist sink.pending := by
  unfold discard
  dsimp only
  split
  · exact List.tail_sublist _
  · exact List.Sublist.refl _

/-- Only the head with the number is taken from the queue. -/
theorem number_of_discarded {number : Nat} {entry : Nat × ServiceAlert}
    (hentry : entry ∈ sink.pending) (hgone : entry ∉ (sink.discard number).pending) :
    entry.1 = number := by
  unfold discard at hgone
  dsimp only at hgone
  split at hgone
  next hhead =>
    cases hpending : sink.pending with
    | nil => simp [hpending] at hentry
    | cons head rest =>
        rw [hpending] at hentry hhead hgone
        obtain rfl | hentry := List.mem_cons.mp hentry
        · simpa using hhead
        · exact absurd hentry hgone
  next => exact absurd hentry hgone

/-- The turn of the task ends with the counters reset. -/
theorem tracked_settle (number : Nat) (hnumbers : (sink.pending.map Prod.fst).Nodup)
    (harrived : ∀ entry ∈ sink.pending, entry.1 < sink.arrived) :
    (sink.discard number).settle.next.Tracked := by
  have hsublist := discard_sublist number sink
  refine tracked_next (hnumbers.sublist (hsublist.map Prod.fst)) ?_ fun entry _ => Nat.zero_le _
  exact fun entry hentry => harrived entry (hsublist.subset hentry)

theorem tracked_failed {number : Nat} {a : ServiceAlert} (htracked : sink.Tracked)
    (hphase : sink.phase = .writing number a)
    (hhead : sink.attempts + 1 < limit → sink.pending.head?.map Prod.fst = some number) :
    (sink.failed limit number).Tracked := by
  obtain ⟨hnumbers, harrived, hwriting, -⟩ := htracked
  obtain ⟨-, hattempts, -⟩ := hwriting number a hphase
  unfold failed
  dsimp only
  split
  · exact tracked_settle number hnumbers harrived
  next hmore =>
    have hhead := hhead (by omega)
    refine ⟨hnumbers, harrived, fun _ _ h => by simp at h, fun _ => ⟨?_, ?_⟩⟩
    · rintro hnone
      simp only at hnone
      simp [hnone] at hhead
    · intro entry hentry
      dsimp only at hentry ⊢
      rw [Option.mem_def.mp hentry] at hhead
      obtain rfl : entry.1 = number := by simpa using hhead
      rw [Function.update_self]
      omega

theorem tracked_alert (htracked : sink.Tracked) (alert : ServiceAlert)
    (hdelivers : sink.phase = .sleeping → sink.pending.length ≠ maxPending)
    (hstep : sink.step limit (.alert alert) = some next') : next'.Tracked := by
  obtain ⟨hnumbers, harrived, hwriting, hsleeping⟩ := htracked
  cases hstep
  have hsublist : (if sink.pending.length = maxPending then sink.pending.tail
      else sink.pending).Sublist sink.pending := by
    split
    · exact List.tail_sublist _
    · exact List.Sublist.refl _
  constructor
  case numbers =>
    rw [List.map_append, List.nodup_append]
    refine ⟨hnumbers.sublist (hsublist.map Prod.fst), by simp, ?_⟩
    rintro number hnumber other hother rfl
    obtain rfl := List.mem_singleton.mp hother
    obtain ⟨entry, hentry, hsame⟩ := List.mem_map.mp hnumber
    have hlt := harrived entry (hsublist.subset hentry)
    exact absurd hsame hlt.ne
  case arrived =>
    intro entry hentry
    obtain hentry | hentry := List.mem_append.mp hentry
    · exact (harrived entry (hsublist.subset hentry)).trans (Nat.lt_succ_self _)
    · rw [List.mem_singleton.mp hentry]
      exact Nat.lt_succ_self _
  case writing =>
    intro number a hphase
    have hbefore : sink.phase = .writing number a := by
      dsimp only at hphase
      split at hphase
      · cases hphase
      · exact hphase
    obtain ⟨hlt, hattempts, hsame⟩ := hwriting number a hbefore
    refine ⟨hlt.trans (Nat.lt_succ_self _), hattempts, ?_⟩
    intro entry hentry hnumber
    obtain hentry | hentry := List.mem_append.mp hentry
    · exact hsame entry (hsublist.subset hentry) hnumber
    · rw [List.mem_singleton.mp hentry] at hnumber
      exact absurd hnumber.symm hlt.ne
  case sleeping =>
    intro hphase
    have hbefore : sink.phase = .sleeping := by
      dsimp only at hphase
      split at hphase
      · cases hphase
      · exact hphase
    obtain ⟨hsome, hattempts⟩ := hsleeping hbefore
    dsimp only
    rw [if_neg (hdelivers hbefore)]
    refine ⟨by simp, ?_⟩
    obtain ⟨head, rest, hpending⟩ := List.exists_cons_of_ne_nil hsome
    rw [hpending] at hattempts ⊢
    exact hattempts

theorem tracked_step {act : SinkAct} (htracked : sink.Tracked) (hdelivers : sink.Delivers limit act)
    (hstep : sink.step limit act = some next') : next'.Tracked := by
  have htracked' := htracked
  obtain ⟨hnumbers, harrived, hwriting, hsleeping⟩ := htracked
  cases act with
  | alert alert => exact tracked_alert htracked' alert hdelivers hstep
  | begin =>
      simp only [step] at hstep
      split at hstep
      · cases hstep
        exact tracked_next hnumbers harrived fun entry _ => Nat.zero_le _
      · cases hstep
  | finish faults =>
      simp only [step] at hstep
      split at hstep
      next number a hphase =>
        obtain ⟨hkept, hhead⟩ := hdelivers _ (current_of_writing hphase)
        split at hstep
        next later hwrite =>
          cases hstep
          have hfails : (write faults a sink.inbox).1 = none := by rw [hwrite]
          have hlater : Tracked { sink with inbox := later } :=
            ⟨hnumbers, harrived, hwriting, hsleeping⟩
          exact tracked_failed hlater hphase (hhead hfails)
        next later hwrite =>
          cases hstep
          have hlater : Tracked { sink with inbox := later } :=
            ⟨hnumbers, harrived, hwriting, hsleeping⟩
          exact tracked_settle number hlater.numbers hlater.arrived
      · cases hstep
  | wake =>
      simp only [step] at hstep
      split at hstep
      next hphase =>
        cases hstep
        exact tracked_next hnumbers harrived (hsleeping hphase).2
      · cases hstep

/-- Why an alert is not queued any more. -/
inductive Removed (limit : Nat) (sink : Sink) (act : SinkAct) (next' : Sink)
    (entry : Nat × ServiceAlert) : Prop
  | overflow (alert : ServiceAlert) (hact : act = .alert alert)
      (hfull : sink.pending.length = maxPending)
  | stored (faults : WriteFaults) (hact : act = .finish faults)
      (hphase : sink.phase = .writing entry.1 entry.2)
      (hrecorded : Recorded entry.2 sink.inbox next'.inbox)
  | exhausted (hfailures : limit ≤ next'.failures entry.1)

theorem removed_failed {number : Nat} {a : ServiceAlert} {entry : Nat × ServiceAlert}
    (htracked : sink.Tracked) (hphase : sink.phase = .writing number a)
    (hentry : entry ∈ sink.pending) (hgone : entry ∉ (sink.failed limit number).pending) :
    limit ≤ (sink.failed limit number).failures entry.1 := by
  obtain ⟨-, hattempts, -⟩ := htracked.writing number a hphase
  unfold failed at hgone ⊢
  dsimp only at hgone ⊢
  split
  next hlimit =>
    rw [if_pos hlimit, pending_next] at hgone
    rw [failures_next]
    have hnumber : entry.1 = number := number_of_discarded hentry hgone
    have hcounted : Function.update sink.failures number (sink.failures number + 1) entry.1 =
        sink.failures number + 1 := by
      rw [hnumber, Function.update_self]
    change limit ≤ Function.update sink.failures number (sink.failures number + 1) entry.1
    omega
  next hmore =>
    rw [if_neg hmore] at hgone
    exact absurd hentry hgone

/-- An alert leaves the queue for one of three reasons. -/
theorem removed_step {act : SinkAct} {entry : Nat × ServiceAlert} (htracked : sink.Tracked)
    (hdelivers : sink.Delivers limit act) (hstep : sink.step limit act = some next')
    (hentry : entry ∈ sink.pending) (hgone : entry ∉ next'.pending) :
    Removed limit sink act next' entry := by
  cases act with
  | alert alert =>
      cases hstep
      by_cases hfull : sink.pending.length = maxPending
      · exact .overflow alert rfl hfull
      · rw [if_neg hfull] at hgone
        exact absurd (List.mem_append_left _ hentry) hgone
  | begin =>
      simp only [step] at hstep
      split at hstep
      · cases hstep
        rw [pending_next] at hgone
        exact absurd hentry hgone
      · cases hstep
  | wake =>
      simp only [step] at hstep
      split at hstep
      · cases hstep
        rw [pending_next] at hgone
        exact absurd hentry hgone
      · cases hstep
  | finish faults =>
      simp only [step] at hstep
      split at hstep
      next number a hphase =>
        obtain ⟨hkept, -⟩ := hdelivers _ (current_of_writing hphase)
        have hwritten := write_spec hkept
        unfold Meets at hwritten
        split at hstep
        next later hwrite =>
          cases hstep
          have hlater : Tracked { sink with inbox := later } :=
            ⟨htracked.numbers, htracked.arrived, htracked.writing, htracked.sleeping⟩
          exact .exhausted (removed_failed hlater hphase hentry hgone)
        next later hwrite =>
          cases hstep
          rw [hwrite] at hwritten
          rw [pending_next] at hgone
          have hnumber : entry.1 = number :=
            @number_of_discarded { sink with inbox := later } number entry hentry hgone
          have ha : entry.2 = a := (htracked.writing number a hphase).2.2 entry hentry hnumber
          refine .stored faults rfl (by rw [hnumber, ha]; exact hphase) ?_
          rw [inbox_next, ha]
          exact hwritten.2 (by simp)
      · cases hstep

end Sink

/-! ## Both promises -/

/-- As long as no call loses a recovery row, an incident is closed only together with it; and as
long as no write of the sink swallows an error and no alert that is retried is dropped, an alert
leaves the queue only when it overflows, when the alert is stored or when its attempts are
exhausted. -/
theorem incidents_and_alerts_are_kept (name : String) (limit : Nat) :
    (∀ inbox acts s, Fresh name inbox →
      RunOk (Session.step name) (Session.KeepsRecovery name) ⟨inbox, none⟩ acts →
      run (Session.step name) ⟨inbox, none⟩ acts = some s → s.Accounted name) ∧
    (∀ inbox acts sink,
      RunOk (Sink.step limit) (Sink.Delivers limit) (Sink.initial inbox) acts →
      run (Sink.step limit) (Sink.initial inbox) acts = some sink →
      ∀ act next' entry, sink.Delivers limit act → sink.step limit act = some next' →
        entry ∈ sink.pending → entry ∉ next'.pending → Sink.Removed limit sink act next' entry) := by
  refine ⟨fun inbox acts s hfresh hok hrun => Session.incidents_accounted hfresh hok hrun, ?_⟩
  intro inbox acts sink hok hrun act next' entry hdelivers hstep hentry hgone
  have htracked := run_invariant_of Sink.tracked_step hok (Sink.tracked_initial inbox) hrun
  exact Sink.removed_step htracked hdelivers hstep hentry hgone

/-- The incident of the mail hand-off is opened at 1 s and, in a second call, closed at 2 s. -/
def handoffReport : Report where
  title := "Email handoff failing"
  body := "Channel: Email"
  now := 1000000

def handoffResolve (faults : ResolveFaults) : Act :=
  .call (.resolve faults "Email handoff recovered" "Channel: Email" 2000000)

/-- A crash of the scheduler. -/
def schedulerCrash : ServiceAlert where
  service := "scheduler"
  label := "Scheduler"
  time := 1000000
  alert := ⟨.crashed, .none, .backoff, some "ValueError", 1, .running, false⟩

theorem incidents_and_alerts_are_kept_example :
    (∃ s, run (Session.step "email") ⟨.empty, none⟩
        [.call (.report {} handoffReport), handoffResolve {}] = some s ∧
      s.committed.ids = [1, 2] ∧ s.Accounted "email") ∧
    (∃ sink next', run (Sink.step maxAttempts) (Sink.initial .empty)
        [.alert schedulerCrash, .begin] = some sink ∧ sink.pending = [(0, schedulerCrash)] ∧
      sink.step maxAttempts (.finish {}) = some next' ∧ next'.pending = [] ∧
      Sink.Removed maxAttempts sink (.finish {}) next' (0, schedulerCrash)) := by
  have hkept := incidents_and_alerts_are_kept "email" maxAttempts
  refine ⟨?_, ?_⟩
  · have hfresh : Fresh "email" Inbox.empty := ⟨rfl, by simp [Inbox.keys, Notices.keys, Inbox.empty]⟩
    have hok : RunOk (Session.step "email") (Session.KeepsRecovery "email") ⟨.empty, none⟩
        [.call (.report {} handoffReport), handoffResolve {}] := by decide +kernel
    have hany : (run (Session.step "email") ⟨.empty, none⟩
        [.call (.report {} handoffReport), handoffResolve {}]).any
        (fun s => decide (s.committed.ids = [1, 2])) = true := by decide +kernel
    obtain ⟨s, hrun, hids⟩ := (Option.any_eq_true ..).mp hany
    exact ⟨s, hrun, of_decide_eq_true hids, hkept.1 _ _ s hfresh hok hrun⟩
  · have hok : RunOk (Sink.step maxAttempts) (Sink.Delivers maxAttempts) (Sink.initial .empty)
        [.alert schedulerCrash, .begin] := by decide +kernel
    have hany : (run (Sink.step maxAttempts) (Sink.initial .empty)
        [.alert schedulerCrash, .begin]).any (fun sink =>
          decide (sink.pending = [(0, schedulerCrash)] ∧ sink.Delivers maxAttempts (.finish {})) &&
            (sink.step maxAttempts (.finish {})).any fun next' =>
              decide (next'.pending = [])) = true := by decide +kernel
    obtain ⟨sink, hrun, hlast⟩ := (Option.any_eq_true ..).mp hany
    rw [Bool.and_eq_true, Option.any_eq_true] at hlast
    obtain ⟨hpending, hdelivers⟩ := of_decide_eq_true hlast.1
    obtain ⟨next', hstep, hnone⟩ := hlast.2
    have hnone := of_decide_eq_true hnone
    refine ⟨sink, next', hrun, hpending, hstep, hnone, ?_⟩
    exact hkept.2 _ _ sink hok hrun _ next' _ hdelivers hstep (by simp [hpending]) (by simp [hnone])

/-- The recovery row is not stored, and the incident is closed all the same. -/
theorem incident_closed_silently :
    ∃ s next' state, run (Session.step "email") ⟨.empty, none⟩
        [.call (.report {} handoffReport)] = some s ∧
      s.step "email" (handoffResolve { emit := { insert := true } }) = some next' ∧
      s.committed.incidents "email" = some state ∧ next'.committed.incidents "email" = none ∧
      next'.committed.keys.count (recoveredKey "email" state.notificationId) = 0 := by
  have hany : (run (Session.step "email") ⟨.empty, none⟩
      [.call (.report {} handoffReport)]).any (fun s =>
        (s.step "email" (handoffResolve { emit := { insert := true } })).any fun next' =>
          (s.committed.incidents "email").any fun state =>
            decide (next'.committed.incidents "email" = none ∧
              next'.committed.keys.count (recoveredKey "email" state.notificationId) = 0)) =
      true := by decide +kernel
  obtain ⟨s, hrun, hany⟩ := (Option.any_eq_true ..).mp hany
  obtain ⟨next', hstep, hany⟩ := (Option.any_eq_true ..).mp hany
  obtain ⟨state, hstate, hend⟩ := (Option.any_eq_true ..).mp hany
  obtain ⟨hclosed, hrow⟩ := of_decide_eq_true hend
  exact ⟨s, next', state, hrun, hstep, hstate, hclosed, hrow⟩

end Justup.Incidents
