import Justup.Lib.Transition
import Justup.Targets.Store

/-!
# Signatures in step with their rows

The signature is computed from the values of a call, the row stores what became
of them.  The two differ where a default replaces the ports or the port of a
request: this is the defect.  Otherwise no two targets monitor the same.
-/

namespace Justup.Targets

open Lib Transition Store

variable {unicode : Unicode}

/-! ## The search for duplicates -/

theorem normalizeHost_of_checkIdentities {data : Checks} {ids : List Identity}
    (hids : checkIdentities unicode data = some ids) :
    ∃ host, normalizeHost unicode data.host = some host := by
  cases hhost : normalizeHost unicode data.host with
  | none => simp [checkIdentities, hhost] at hids
  | some host => exact ⟨host, rfl⟩

/-- What the rows say that an exact duplicate is. -/
def Repeats (unicode : Unicode) (ids : List Identity) (excludeId : Option Nat) (row : Target) :
    Prop :=
  excludeId ≠ some row.id ∧ ids ≠ [] ∧ checkIdentities unicode row.checks = some ids

theorem classify_exact {ids : List Identity} {host : Option Text} {excludeId : Option Nat}
    {row : Target} {current : List Identity}
    (hcurrent : checkIdentities unicode row.checks = some current) :
    ∃ conflicts, classify unicode ids host excludeId row = some conflicts ∧
      (exactConflicts conflicts ≠ [] ↔ Repeats unicode ids excludeId row) := by
  unfold classify Repeats
  by_cases hself : excludeId = some row.id
  · exact ⟨[], by rw [if_pos hself], by simp [exactConflicts, hself]⟩
  obtain ⟨rowHost, hrowHost⟩ := normalizeHost_of_checkIdentities hcurrent
  have hrowHost : normalizeHost unicode (some row.host) = some rowHost := hrowHost
  simp only [if_neg hself, hcurrent, hrowHost, Option.bind_eq_bind, Option.bind_some,
    Option.some.injEq]
  by_cases hexact : ids = current ∧ ids ≠ []
  · obtain ⟨rfl, hids⟩ := hexact
    obtain ⟨x, hx⟩ := List.exists_mem_of_ne_nil ids hids
    have hcommon : ids.any ids.contains = true :=
      List.any_eq_true.mpr ⟨x, hx, List.contains_iff_mem.mpr hx⟩
    refine ⟨_, by rw [hcommon, Bool.true_or, if_pos rfl], ?_⟩
    simp [exactConflicts, hids, hself]
  · have hnot : ¬ (excludeId ≠ some row.id ∧ ids ≠ [] ∧ current = ids) :=
      fun h => hexact ⟨h.2.2.symm, h.2.1⟩
    by_cases hnear : (ids.any current.contains || decide (host = rowHost)) = true
    · refine ⟨_, if_pos hnear, iff_of_false ?_ hnot⟩
      rw [if_neg hexact, not_not]
      split <;> simp [exactConflicts]
    · exact ⟨[], if_neg hnear, iff_of_false (by simp [exactConflicts]) hnot⟩

/-- The search finds an exact conflict where a row repeats the identities. -/
theorem classifyConflicts_exact {data : Checks} {ids : List Identity}
    (hids : checkIdentities unicode data = some ids) {rows : List Target}
    (hrows : ∀ row ∈ rows, ∃ current, checkIdentities unicode row.checks = some current)
    (excludeId : Option Nat) :
    ∃ conflicts, classifyConflicts unicode data rows excludeId = some conflicts ∧
      (exactConflicts conflicts ≠ [] ↔ ∃ row ∈ rows, Repeats unicode ids excludeId row) := by
  obtain ⟨host, hhost⟩ := normalizeHost_of_checkIdentities hids
  have hlists : ∃ lists, rows.mapM (classify unicode ids host excludeId) = some lists ∧
      (exactConflicts lists.flatten ≠ [] ↔ ∃ row ∈ rows, Repeats unicode ids excludeId row) := by
    induction rows with
    | nil => exact ⟨[], rfl, by simp [exactConflicts]⟩
    | cons row rest ih =>
        obtain ⟨current, hcurrent⟩ := hrows row (by simp)
        obtain ⟨first, hfirst, hexact⟩ :=
          @classify_exact unicode ids host excludeId row current hcurrent
        obtain ⟨lists, hlists, hothers⟩ := ih fun other hother => hrows other (by simp [hother])
        refine ⟨first :: lists, by simp [List.mapM_cons, hfirst, hlists], ?_⟩
        simp only [List.flatten_cons, exactConflicts, List.filter_append, ne_eq,
          List.append_eq_nil_iff, not_and_or, List.exists_mem_cons_iff] at hexact hothers ⊢
        exact or_congr hexact hothers
  obtain ⟨lists, hlists, hexact⟩ := hlists
  exact ⟨lists.flatten, by simp [classifyConflicts, hids, hhost, hlists], hexact⟩

/-! ## The table -/

structure Db.InStep (unicode : Unicode) (db : Db) : Prop where
  keyed : Table.Keyed Target.id db.targets
  issued : ∀ row ∈ db.targets, row.id < db.nextId
  signed : ∀ row ∈ db.targets, ∃ ids, checkIdentities unicode row.checks = some ids ∧
    row.identitySignature = signatureOf ids
  distinct : ∀ row ∈ db.targets, ∀ other ∈ db.targets, ∀ ids, ids ≠ [] →
    checkIdentities unicode row.checks = some ids →
    checkIdentities unicode other.checks = some ids → row = other

namespace Db.InStep

variable {db : Db} {data : Checks} {ids : List Identity} {excludeId : Option Nat}

theorem repeats_candidates (hstep : db.InStep unicode) (excludeId : Option Nat) :
    (∃ row ∈ db.candidates (dumps ids), Repeats unicode ids excludeId row) ↔
      ∃ row ∈ db.targets, Repeats unicode ids excludeId row := by
  constructor
  · rintro ⟨row, hrow, hrepeats⟩
    exact ⟨row, List.mem_of_mem_filter hrow, hrepeats⟩
  · rintro ⟨row, hrow, hrepeats⟩
    obtain ⟨current, hcurrent, hsigned⟩ := hstep.signed row hrow
    obtain rfl : ids = current := Option.some.inj (hrepeats.2.2.symm.trans hcurrent)
    rw [signatureOf, if_neg hrepeats.2.1] at hsigned
    exact ⟨row, List.mem_filter.mpr ⟨hrow, by simp [hsigned]⟩, hrepeats⟩

/-- The prefilter keeps every row that repeats the identities. -/
theorem assertNoExactDuplicate_cases (hstep : db.InStep unicode)
    (hids : checkIdentities unicode data = some ids) (excludeId : Option Nat) :
    db.assertNoExactDuplicate unicode data excludeId = none ∧
        (¬ ∃ row ∈ db.targets, Repeats unicode ids excludeId row) ∨
      (∃ conflicts, db.assertNoExactDuplicate unicode data excludeId =
        some (.duplicate conflicts)) ∧ ∃ row ∈ db.targets, Repeats unicode ids excludeId row := by
  unfold Db.assertNoExactDuplicate identitySignature
  rw [hids, Option.map_some, signatureOf]
  by_cases hempty : ids = []
  · rw [if_pos hempty]
    exact .inl ⟨rfl, fun ⟨row, hrow, hrepeats⟩ => hrepeats.2.1 hempty⟩
  · rw [if_neg hempty]
    have hrows : ∀ row ∈ db.candidates (dumps ids),
        ∃ current, checkIdentities unicode row.checks = some current := fun row hrow =>
      have ⟨current, hcurrent, _⟩ := hstep.signed row (List.mem_of_mem_filter hrow)
      ⟨current, hcurrent⟩
    obtain ⟨conflicts, hconflicts, hexact⟩ := classifyConflicts_exact hids hrows excludeId
    rw [hstep.repeats_candidates] at hexact
    simp only [hconflicts]
    by_cases hnone : exactConflicts conflicts = []
    · exact .inl ⟨if_pos hnone, fun hrepeats => hexact.mpr hrepeats hnone⟩
    · exact .inr ⟨⟨_, if_neg hnone⟩, hexact.mp hnone⟩

theorem duplicate_iff (hstep : db.InStep unicode)
    (hids : checkIdentities unicode data = some ids) (excludeId : Option Nat) :
    (∃ conflicts, db.assertNoExactDuplicate unicode data excludeId =
        some (.duplicate conflicts)) ↔
      ∃ row ∈ db.targets, Repeats unicode ids excludeId row := by
  obtain ⟨hnone, hnot⟩ | ⟨hsome, hrepeats⟩ := hstep.assertNoExactDuplicate_cases hids excludeId
  · exact iff_of_false (by simp [hnone]) hnot
  · exact iff_of_true hsome hrepeats

/-- What passes the check has identities, and no row repeats them. -/
theorem of_passed (hstep : db.InStep unicode)
    (hpassed : db.assertNoExactDuplicate unicode data excludeId = none) :
    ∃ ids, checkIdentities unicode data = some ids ∧
      (identitySignature unicode data).join = signatureOf ids ∧
      ¬ ∃ row ∈ db.targets, Repeats unicode ids excludeId row := by
  cases hids : checkIdentities unicode data with
  | none => simp [Db.assertNoExactDuplicate, identitySignature, hids] at hpassed
  | some ids =>
      obtain ⟨-, hnot⟩ | ⟨⟨conflicts, hsome⟩, -⟩ :=
        hstep.assertNoExactDuplicate_cases hids excludeId
      · exact ⟨ids, rfl, by simp [identitySignature, hids], hnot⟩
      · rw [hpassed] at hsome
        cases hsome

/-- The groups play no part. -/
theorem congr {later : Db} (hstep : db.InStep unicode) (htargets : later.targets = db.targets)
    (hnext : later.nextId = db.nextId) : later.InStep unicode where
  keyed := htargets ▸ hstep.keyed
  issued := by
    rw [htargets, hnext]
    exact hstep.issued
  signed := htargets ▸ hstep.signed
  distinct := htargets ▸ hstep.distinct

/-- A new row with its signature, whose identities no row has. -/
theorem snoc (hstep : db.InStep unicode) {row : Target} (hid : row.id = db.nextId)
    (hids : checkIdentities unicode row.checks = some ids)
    (hsigned : row.identitySignature = signatureOf ids)
    (hnew : ¬ ∃ other ∈ db.targets, Repeats unicode ids none other) :
    ({ db with targets := db.targets ++ [row], nextId := db.nextId + 1 } : Db).InStep unicode := by
  have hfresh : ∀ other ∈ db.targets, ∀ ids', ids' ≠ [] →
      checkIdentities unicode row.checks = some ids' →
      ¬ checkIdentities unicode other.checks = some ids' := by
    intro other hother ids' hne hrow hsame
    obtain rfl : ids = ids' := Option.some.inj (hids.symm.trans hrow)
    exact hnew ⟨other, hother, by simp, hne, hsame⟩
  refine ⟨?_, ?_, ?_, ?_⟩
  · exact hstep.keyed.snoc fun other hother => hid ▸ (hstep.issued other hother).ne
  · intro other hother
    obtain hother | rfl := List.mem_append.mp hother |>.imp_right List.mem_singleton.mp
    · exact Nat.lt_succ_of_lt (hstep.issued other hother)
    · rw [hid]
      exact Nat.lt_succ_self _
  · intro other hother
    obtain hother | rfl := List.mem_append.mp hother |>.imp_right List.mem_singleton.mp
    · exact hstep.signed other hother
    · exact ⟨ids, hids, hsigned⟩
  · intro first hfirst second hsecond ids' hne hids₁ hids₂
    obtain hold | rfl := List.mem_append.mp hfirst |>.imp_right List.mem_singleton.mp
    · obtain hold' | rfl := List.mem_append.mp hsecond |>.imp_right List.mem_singleton.mp
      · exact hstep.distinct first hold second hold' ids' hne hids₁ hids₂
      · exact absurd hids₁ (hfresh first hold ids' hne hids₂)
    · obtain hold' | rfl := List.mem_append.mp hsecond |>.imp_right List.mem_singleton.mp
      · exact absurd hids₂ (hfresh second hold' ids' hne hids₁)
      · rfl

/-- A row that keeps its id, with a signature that fits and identities that no other row has. -/
theorem update (hstep : db.InStep unicode) {old row : Target} (hold : old ∈ db.targets)
    (hid : row.id = old.id) (hids : checkIdentities unicode row.checks = some ids)
    (hsigned : row.identitySignature = signatureOf ids)
    (hnew : ¬ ∃ other ∈ db.targets, Repeats unicode ids (some old.id) other) :
    ({ db with targets := Table.update Target.id old.id (fun _ => row) db.targets } : Db).InStep
      unicode := by
  have hmem : ∀ later ∈ Table.update Target.id old.id (fun _ => row) db.targets,
      later = row ∨ later ∈ db.targets ∧ later.id ≠ old.id := by
    intro later hlater
    obtain ⟨other, hother, rfl⟩ := Table.mem_update.mp hlater
    by_cases hsame : other.id = old.id
    · exact .inl (if_pos hsame)
    · rw [if_neg hsame]
      exact .inr ⟨hother, hsame⟩
  have hfresh : ∀ other ∈ db.targets, other.id ≠ old.id → ∀ ids', ids' ≠ [] →
      checkIdentities unicode row.checks = some ids' →
      ¬ checkIdentities unicode other.checks = some ids' := by
    intro other hother hne hids' hnonempty hrow hsame
    obtain rfl := Option.some.inj (hids.symm.trans hrow)
    exact hnew ⟨other, hother, fun h => hne (Option.some.inj h).symm, hnonempty, hsame⟩
  refine ⟨?_, ?_, ?_, ?_⟩
  · exact hstep.keyed.update_const hid
  · intro later hlater
    obtain rfl | ⟨hlater, -⟩ := hmem later hlater
    · rw [hid]
      exact hstep.issued old hold
    · exact hstep.issued later hlater
  · intro later hlater
    obtain rfl | ⟨hlater, -⟩ := hmem later hlater
    · exact ⟨ids, hids, hsigned⟩
    · exact hstep.signed later hlater
  · intro first hfirst second hsecond ids' hne hids₁ hids₂
    obtain rfl | ⟨hother, hne'⟩ := hmem first hfirst
    · obtain rfl | ⟨hother, hne'⟩ := hmem second hsecond
      · rfl
      · exact absurd hids₂ (hfresh second hother hne' ids' hne hids₁)
    · obtain rfl | ⟨hother', -⟩ := hmem second hsecond
      · exact absurd hids₁ (hfresh first hother hne' ids' hne hids₂)
      · exact hstep.distinct first hother second hother' ids' hne hids₁ hids₂

theorem filter (hstep : db.InStep unicode) (keep : Target → Bool) :
    ({ db with targets := db.targets.filter keep } : Db).InStep unicode where
  keyed := hstep.keyed.filter keep
  issued := fun row hrow => hstep.issued row (List.mem_of_mem_filter hrow)
  signed := fun row hrow => hstep.signed row (List.mem_of_mem_filter hrow)
  distinct := fun row hrow other hother =>
    hstep.distinct row (List.mem_of_mem_filter hrow) other (List.mem_of_mem_filter hother)

end Db.InStep

/-! ## What a call stores -/

/-- The URL itself names a port. -/
def namesPort (unicode : Unicode) (url : Text) : Bool :=
  (urlsplit unicode url).any fun parts => parts.port.any Option.isSome

/-- No default takes the place of the ports that the TCP check connects to, or of a port that the
HTTP check uses. -/
def CreateValues.Explicit (unicode : Unicode) (values : CreateValues) : Prop :=
  (values.enableTcpConnect.flag false = true → (orText values.tcpPorts none).isSome = true) ∧
    (values.enableHttpCheck.flag false = true → values.httpPort = some 0 →
      (orText values.httpUrl none).all (namesPort unicode) = true)

instance (values : CreateValues) : Decidable (values.Explicit unicode) :=
  inferInstanceAs (Decidable (_ ∧ _))

theorem normalizeUrl_portColumn {url : Text} {port : Option Int}
    (hport : port = some 0 → namesPort unicode url = true) :
    normalizeUrl unicode url (CreateValues.portColumn port) = normalizeUrl unicode url port := by
  by_cases hzero : port = some 0
  · obtain ⟨parts, hparts, hnames⟩ := (Option.any_eq_true ..).mp (hport hzero)
    obtain ⟨own, hown, hsome⟩ := (Option.any_eq_true ..).mp hnames
    obtain ⟨number, rfl⟩ := Option.isSome_iff_exists.mp hsome
    -- the port of the URL comes first
    simp [normalizeUrl, hparts, hown]
  · rw [CreateValues.portColumn, if_neg hzero]

/-- The parameters of a check that is off play no part. -/
theorem checkIdentities_congr {data data' : Checks} (hhost : data'.host = data.host)
    (hping : data'.enablePing = data.enablePing) (hpingHost : data'.pingHost = data.pingHost)
    (hhttp : data'.enableHttpCheck = data.enableHttpCheck) (hurl : data'.httpUrl = data.httpUrl)
    (htcp : data'.enableTcpConnect = data.enableTcpConnect)
    (htcpHost : data'.tcpHost = data.tcpHost)
    (hport : data.enableHttpCheck = true → ∀ url, orText data.httpUrl none = some url →
      normalizeUrl unicode url data'.httpPort = normalizeUrl unicode url data.httpPort)
    (hports : data.enableTcpConnect = true → data'.tcpPorts.getD [] = data.tcpPorts.getD []) :
    checkIdentities unicode data' = checkIdentities unicode data := by
  have haddPing : addPing unicode data' = addPing unicode data := by
    funext host result
    rw [addPing, addPing, hping, hpingHost]
  have haddHttp : addHttp unicode data' = addHttp unicode data := by
    funext result
    unfold addHttp
    rw [hhttp, hurl]
    cases hon : data.enableHttpCheck with
    | false => rfl
    | true =>
        cases hsome : orText data.httpUrl none with
        | none => rfl
        | some url => simp only [hport hon url hsome]
  have haddTcp : addTcp unicode data' = addTcp unicode data := by
    funext host result
    rw [addTcp, addTcp, htcp, htcpHost]
    cases hon : data.enableTcpConnect with
    | false => rfl
    | true => rw [hports hon]
  rw [checkIdentities, checkIdentities, hhost, haddPing, haddHttp, haddTcp]

section

variable {id : Nat} {now : Int} {signature : Option Text} {row : Target}

/-- The row of a new target has the identities of its values, unless a default took over. -/
theorem CreateValues.checks_row {values : CreateValues} (hexplicit : values.Explicit unicode)
    (hrow : values.row id now signature = some row) :
    row.id = id ∧ row.identitySignature = signature ∧
      checkIdentities unicode row.checks = checkIdentities unicode values.checks := by
  simp only [CreateValues.row, Option.bind_eq_bind, Option.bind_eq_some_iff] at hrow
  obtain ⟨name, -, host, hhost, retries, -, minutes, -, hrow⟩ := hrow
  cases hrow
  refine ⟨rfl, rfl, checkIdentities_congr hhost.symm rfl rfl rfl rfl rfl rfl ?_ ?_⟩
  · intro hon url hurl
    refine normalizeUrl_portColumn fun hzero => ?_
    have hall := hexplicit.2 hon hzero
    rwa [show orText values.httpUrl none = some url from hurl] at hall
  · intro hon
    obtain ⟨ports, hports⟩ := Option.isSome_iff_exists.mp (hexplicit.1 hon)
    have hgiven := orText_none_eq_some hports
    change ((orText values.tcpPorts none).getD defaultTcpPorts : Text) = values.tcpPorts.getD []
    rw [hports, hgiven]
    rfl

/-- The row that an update leaves has the identities of the merged values. -/
theorem Patch.checks_row {patch : Patch} (hnulls : patch.nulls = false) (old : Target) :
    (patch.row old now signature).checks = patch.checks old := by
  simp only [Patch.nulls, Bool.or_eq_false_iff] at hnulls
  simp [Target.checks, Patch.checks, Patch.row, Sent.over_some, hnulls]

end

/-! ## Calls -/

/-- The condition on a call. -/
def Call.Explicit (unicode : Unicode) : Call → Prop
  | .create values => values.Explicit unicode
  | _ => True

instance (call : Call) : Decidable (call.Explicit unicode) :=
  match call with
  | .create values => inferInstanceAs (Decidable (values.Explicit unicode))
  | .update _ _ => inferInstanceAs (Decidable True)
  | .delete _ => inferInstanceAs (Decidable True)

namespace Db.InStep

variable {db : Db} {now : Int} {manage : Bool}

theorem resolveGroup (hstep : db.InStep unicode) (name : Option Text) :
    (db.resolveGroup name).InStep unicode :=
  hstep.congr (db.resolveGroup_targets name).1 (db.resolveGroup_targets name).2

/-- What the body of a transaction keeps, the transaction keeps. -/
theorem transaction {α : Type} {body : Db → Outcome α} (hstep : db.InStep unicode)
    (hbody : (body db).2.InStep unicode) :
    (Targets.transaction manage body db).2.InStep unicode := by
  unfold Targets.transaction
  rcases hresult : body db with ⟨failure | value, later⟩
  · rw [hresult] at hbody
    cases manage
    · exact hbody
    · exact hstep
  · rw [hresult] at hbody
    exact hbody

theorem createBody (hstep : db.InStep unicode) {values : CreateValues}
    (hexplicit : values.Explicit unicode) :
    (Targets.createBody unicode now values db).2.InStep unicode := by
  unfold Targets.createBody
  cases hpassed : db.assertNoExactDuplicate unicode values.checks none with
  | some failure => exact hstep
  | none =>
      obtain ⟨ids, hids, hsignature, hnew⟩ := hstep.of_passed hpassed
      have hgroups := hstep.resolveGroup values.group
      have hsame := (db.resolveGroup_targets values.group).1
      dsimp only
      rw [hsignature]
      cases hrow : values.row (db.resolveGroup values.group).nextId now (signatureOf ids) with
      | none => exact hgroups
      | some row =>
          obtain ⟨hid, hsigned, hchecks⟩ := values.checks_row hexplicit hrow
          dsimp only
          split
          · exact hgroups.snoc hid (hchecks.trans hids) hsigned (by rwa [hsame])
          · exact hgroups

theorem updateBody (hstep : db.InStep unicode) (targetId : Nat) (patch : Patch) :
    (Targets.updateBody unicode now targetId patch db).2.InStep unicode := by
  unfold Targets.updateBody
  have hgroups : (if patch.group.isSome then db.resolveGroup patch.group.get else db).InStep
      unicode := by
    split
    · exact hstep.resolveGroup _
    · exact hstep
  have hsame : (if patch.group.isSome then db.resolveGroup patch.group.get else db).targets =
      db.targets := by
    split
    · exact (db.resolveGroup_targets _).1
    · rfl
  cases hold : db.target? targetId with
  | none => exact hgroups
  | some old =>
      obtain ⟨hmem, rfl⟩ := Table.mem_of_row? hold
      dsimp only
      generalize (if patch.group.isSome then db.resolveGroup patch.group.get else db) = later
        at hgroups hsame ⊢
      cases hpassed : later.assertNoExactDuplicate unicode (patch.checks old) (some old.id) with
      | some failure => exact hgroups
      | none =>
          obtain ⟨ids, hids, hsignature, hnew⟩ := hgroups.of_passed hpassed
          dsimp only
          split
          · rename_i hvalid
            rw [hsignature]
            refine hgroups.update (hsame ▸ hmem) rfl ?_ rfl hnew
            rwa [Patch.checks_row hvalid.1]
          · exact hgroups

theorem perform (hstep : db.InStep unicode) {call : Call} (hexplicit : call.Explicit unicode) :
    (Targets.perform unicode now manage db call).2.InStep unicode := by
  cases call with
  | create values =>
      have hcreated : (createTarget unicode now manage values db).2.InStep unicode :=
        hstep.transaction (hstep.createBody hexplicit)
      rcases hresult : createTarget unicode now manage values db with ⟨failure | id, later⟩ <;>
        simpa [Targets.perform, hresult] using hcreated
  | update targetId patch =>
      simp only [Targets.perform, updateTarget]
      split
      · exact hstep
      · exact hstep.transaction (hstep.updateBody targetId patch)
  | delete targetId => exact hstep.filter _

end Db.InStep

/-! ## Calls that raise -/

section

variable {db : Db} {now : Int} {manage : Bool} {failure : Failure}

theorem transaction_targets {α : Type} {body : Db → Outcome α}
    (hbody : ∀ failure, (body db).1 = .error failure → (body db).2.targets = db.targets)
    (hfailed : (transaction manage body db).1 = .error failure) :
    (transaction manage body db).2.targets = db.targets := by
  unfold transaction at hfailed ⊢
  rcases hresult : body db with ⟨failure' | value, later⟩
  · rw [hresult] at hbody
    cases manage
    · exact hbody failure' rfl
    · rfl
  · rw [hresult] at hfailed
    cases hfailed

theorem createBody_targets {values : CreateValues}
    (hfailed : (createBody unicode now values db).1 = .error failure) :
    (createBody unicode now values db).2.targets = db.targets := by
  unfold createBody at hfailed ⊢
  cases hcheck : db.assertNoExactDuplicate unicode values.checks none with
  | some failure => rfl
  | none =>
      rw [hcheck] at hfailed
      have hgroups := (db.resolveGroup_targets values.group).1
      dsimp only at hfailed ⊢
      cases hrow : values.row (db.resolveGroup values.group).nextId now
        (identitySignature unicode values.checks).join with
      | none => exact hgroups
      | some row =>
          rw [hrow] at hfailed
          dsimp only at hfailed ⊢
          split
          · rename_i hchecked
            rw [if_pos hchecked] at hfailed
            cases hfailed
          · exact hgroups

theorem updateBody_targets {targetId : Nat} {patch : Patch}
    (hfailed : (updateBody unicode now targetId patch db).1 = .error failure) :
    (updateBody unicode now targetId patch db).2.targets = db.targets := by
  unfold updateBody at hfailed ⊢
  have hsame : (if patch.group.isSome then db.resolveGroup patch.group.get else db).targets =
      db.targets := by
    split
    · exact (db.resolveGroup_targets _).1
    · rfl
  dsimp only at hfailed ⊢
  generalize (if patch.group.isSome then db.resolveGroup patch.group.get else db) = later
    at hfailed hsame ⊢
  cases hold : db.target? targetId with
  | none => exact hsame
  | some old =>
      rw [hold] at hfailed
      dsimp only at hfailed ⊢
      cases hcheck : later.assertNoExactDuplicate unicode (patch.checks old) (some targetId) with
      | some failure => exact hsame
      | none =>
          rw [hcheck] at hfailed
          dsimp only at hfailed ⊢
          split
          · rename_i hvalid
            rw [if_pos hvalid] at hfailed
            cases hfailed
          · exact hsame

/-- A call that raises leaves the table as it was, also inside the transaction of its caller. -/
theorem perform_targets {call : Call} (hfailed : (perform unicode now manage db call).1 =
    .error failure) : (perform unicode now manage db call).2.targets = db.targets := by
  cases call with
  | create values =>
      have hunchanged : ∀ failure, (createTarget unicode now manage values db).1 = .error failure →
          (createTarget unicode now manage values db).2.targets = db.targets :=
        fun failure => transaction_targets fun failure => createBody_targets
      rcases hresult : createTarget unicode now manage values db with ⟨failure' | id, later⟩ <;>
        rw [hresult] at hunchanged <;> simp only [perform, hresult] at hfailed ⊢
      · exact hunchanged failure' rfl
      · cases hfailed
  | update targetId patch =>
      simp only [perform, updateTarget] at hfailed ⊢
      split
      · rfl
      · rename_i hpatch
        rw [if_neg hpatch] at hfailed
        exact transaction_targets (fun failure => updateBody_targets) hfailed
  | delete targetId => cases hfailed

end

/-! ## The claim about every run -/

/-- A call with its time, and whether it owns its transaction. -/
structure Step where
  now : Int
  manage : Bool
  call : Call

def Step.run (unicode : Unicode) (db : Db) (step : Step) : Option Db :=
  some (perform unicode step.now step.manage db step.call).2

/-- What the data layer promises of the table. -/
structure Db.NoDuplicates (unicode : Unicode) (db : Db) : Prop where
  signed : ∀ row ∈ db.targets,
    identitySignature unicode row.checks = some row.identitySignature
  distinct : ∀ row ∈ db.targets, ∀ other ∈ db.targets, ∀ ids, ids ≠ [] →
    checkIdentities unicode row.checks = some ids →
    checkIdentities unicode other.checks = some ids → row = other
  found : ∀ data ids excludeId, checkIdentities unicode data = some ids →
    ((∃ conflicts, db.assertNoExactDuplicate unicode data excludeId =
        some (.duplicate conflicts)) ↔
      ∃ conflicts, classifyConflicts unicode data db.targets excludeId = some conflicts ∧
        exactConflicts conflicts ≠ [])
  unchanged : ∀ now manage call conflicts,
    (perform unicode now manage db call).1 = .error (.duplicate conflicts) →
      (perform unicode now manage db call).2.targets = db.targets

theorem Db.InStep.noDuplicates {db : Db} (hstep : db.InStep unicode) : db.NoDuplicates unicode where
  signed := by
    intro row hrow
    obtain ⟨ids, hids, hsigned⟩ := hstep.signed row hrow
    rw [identitySignature, hids, hsigned, Option.map_some]
  distinct := hstep.distinct
  found := by
    intro data ids excludeId hids
    have hrows : ∀ row ∈ db.targets, ∃ current, checkIdentities unicode row.checks = some current :=
      fun row hrow => have ⟨current, hcurrent, _⟩ := hstep.signed row hrow; ⟨current, hcurrent⟩
    obtain ⟨conflicts, hconflicts, hexact⟩ := classifyConflicts_exact hids hrows excludeId
    rw [hstep.duplicate_iff hids, ← hexact, hconflicts]
    simp
  unchanged := fun _ _ _ _ hfailed => perform_targets hfailed

/-- Texts of ASCII characters only. -/
def asciiUnicode : Unicode where
  lower := List.map Char.toLower
  idna := some
  netlocOk := fun _ => true
  decimal := fun c => if c.isDigit then some (c.toNat - '0'.toNat) else none

def tcpTarget (name host ports : String) : CreateValues where
  name := some name.toList
  intervalSeconds := 60
  retentionDays := 365
  host := some host.toList
  enableTcpConnect := some (some true)
  tcpPorts := some ports.toList

/-- The second target is refused, and so is the change that would make the third one equal to
the first. -/
def guardedSteps : List Step :=
  [⟨1, true, .create (tcpTarget "a" "a.example" "80,443")⟩,
    ⟨2, true, .create (tcpTarget "b" "A.example." "443, 80")⟩,
    ⟨3, true, .create (tcpTarget "c" "c.example" "80,443")⟩,
    ⟨4, true, .update 2 { host := some (some "a.example".toList) }⟩]

/-- The same target twice, without ports: both rows get the default. -/
def twinSteps : List Step :=
  [⟨1, true, .create { tcpTarget "a" "a.example" "" with tcpPorts := none }⟩,
    ⟨2, true, .create { tcpTarget "b" "a.example" "" with tcpPorts := none }⟩]

end Justup.Targets
